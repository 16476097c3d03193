/-
Akumuli.Query.Topology — `QueryParser::parse_processing_topology` and
`parse_limit_offset` (`queryparser.cpp`): the node list the query's
`limit` and `offset` entries describe.

`parse_limit_offset` starts from `limit = offset = 0`, reads `limit`
into `limit`, and then reads `offset` into `limit` as well; `offset`
stays 0. The topology gets a `Limiter(limit, offset, terminal)` in front
of the terminal node when either is non-zero. So the limiter is built
with the offset entry as its limit whenever that entry is present, and
always with offset 0 (`parseProcessingTopology_eq_topologyOf`).

The JSON reader keeps a number's text, and `get_value<u64>()` reads it
back through a string stream, as boost's `stream_translator` does: blanks
around an optionally signed decimal numeral, `-` wrapping modulo `2^64`.
Any other text throws `ptree_bad_data` (`none`), which the parser does
not catch.
The `Limiter` node's source is not in the repository; only its
constructor arguments are modelled.
-/
import Akumuli.Query.SpecEnv

namespace Akumuli.QP

/-- The nodes `parse_processing_topology` makes. -/
inductive TopologyNode where
  /-- `TerminalNode(cursor)`. -/
  | terminal
  /-- `Limiter(limit, offset, next)`. -/
  | limiter (limit offset : Nat) (next : TopologyNode)
  deriving DecidableEq, Repr

/-- The sign `num_get` reads in front of the digits of a number: whether
it is `-`, and the text after it. -/
def readSign : List Char → Bool × List Char
  | '-' :: rest => (true, rest)
  | '+' :: rest => (false, rest)
  | rest => (false, rest)

/-- `get_value<u64>()`: boost's `stream_translator` runs `iss >> value`
and `iss >> std::ws`, and fails unless the text is used up. The
extraction skips leading whitespace and reads an optional sign and the
decimal digits as `strtoull` does: a magnitude over `2^64 - 1` fails, and
a `-` negates modulo `2^64`. -/
def getValueU64 (t : PTree) : Option Nat :=
  let (neg, rest) := readSign (t.data.data.dropWhile Regex.isSpace)
  if (rest.dropWhile Char.isDigit).all Regex.isSpace then
    (digitsValue (rest.takeWhile Char.isDigit)).bind fun v =>
      if v < 2 ^ 64 then some (if neg then (2 ^ 64 - v) % 2 ^ 64 else v) else none
  else none

example : getValueU64 (.leaf " -1 ") = some (2 ^ 64 - 1) := by decide

example : getValueU64 (.leaf "1.5") = none := by decide

/-- `parse_limit_offset`: the `offset` entry is read into `limit`. -/
def parseLimitOffset (ptree : PTree) : Option (Nat × Nat) := do
  let offset := 0
  let limit ← match ptree.getChildOptional "limit" with
    | some optlimit => getValueU64 optlimit
    | none => pure 0
  let limit ← match ptree.getChildOptional "offset" with
    | some optoffset => getValueU64 optoffset
    | none => pure limit
  pure (limit, offset)

/-- The node list for a limit and an offset: a limiter in front of the
terminal node when either is non-zero. -/
def topologyOf (limit offset : Nat) : List TopologyNode :=
  (if limit ≠ 0 ∨ offset ≠ 0 then [.limiter limit offset .terminal] else []) ++ [.terminal]

/-- `QueryParser::parse_processing_topology`. -/
def parseProcessingTopology (ptree : PTree) : Option (Status × List TopologyNode) := do
  let limoff ← parseLimitOffset ptree
  pure (.success, topologyOf limoff.1 limoff.2)

/-- The entry `key` reads as `v`, an absent entry as 0. -/
def ReadsAs (ptree : PTree) (key : String) (v : Nat) : Prop :=
  ((ptree.getChildOptional key).map getValueU64).getD (some 0) = some v

instance (ptree : PTree) (key : String) (v : Nat) : Decidable (ReadsAs ptree key v) :=
  inferInstanceAs (Decidable (_ = _))

/-- For every query whose `limit` and `offset` entries read as `L` and
`O` (an absent entry counting as 0), the topology is the one of limit `O`
when the offset entry is present and `L` otherwise, and of offset 0. -/
theorem parseProcessingTopology_eq_topologyOf (ptree : PTree) (L O : Nat)
    (hL : ReadsAs ptree "limit" L) (hO : ReadsAs ptree "offset" O) :
    parseProcessingTopology ptree =
      some (.success, topologyOf (if (ptree.getChildOptional "offset").isSome then O else L) 0) := by
  unfold ReadsAs at hL hO
  simp only [parseProcessingTopology, parseLimitOffset]
  cases hl : ptree.getChildOptional "limit" <;> cases ho : ptree.getChildOptional "offset" <;>
    simp_all [pure, bind, Option.bind]

/-- `{"limit": "10", "offset": "200"}` gives a limiter of limit 200 and
offset 0. -/
theorem parseProcessingTopology_offset_replaces_limit :
    parseProcessingTopology (.obj [("limit", .leaf "10"), ("offset", .leaf "200")]) =
      some (.success, [.limiter 200 0 .terminal, .terminal]) := by
  decide

end Akumuli.QP
