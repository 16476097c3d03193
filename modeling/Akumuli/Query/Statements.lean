/-
Akumuli.Query.Statements — the statement readers of `queryparser.cpp`:
`validate_query`, `get_query_kind`, and the `parse_*_stmt` helpers each
`parse_*_query` calls, over the `ptree` model.

The collaborators whose source is not in the repository are the fields of
`Env`: `DateTimeUtil::parse_duration` and `from_iso_string` (`none` where
they throw), `Aggregation::from_string` (its status and function) and
`to_string` over an abstract type `Fn` of aggregation functions, and the
constructor of `GroupByTag`. Every result below holds for every choice of
them.

`validate_query` declares a `keywords` set and tests it, but never inserts
into it: the set stays empty, so only the test against `ALLOWED_STMTS`
can fail (`validateQuery_eq_success_iff`). Duplicate keys and several
query-kind keys pass (`validateQuery_accepts_select_with_aggregate`).
-/
import Akumuli.Core
import Akumuli.PropertyTree
import Akumuli.Catalog

namespace Akumuli.QP

/-- `QueryKind`. -/
inductive QueryKind where
  | SELECT
  | SELECT_META
  | AGGREGATE
  | JOIN
  | GROUP_AGGREGATE
  deriving DecidableEq, Repr

/-- `OrderBy`. -/
inductive OrderBy where
  | TIME
  | SERIES
  deriving DecidableEq, Repr

/-- The result of `GroupByTag` that the parsers read: `get_mapping()` and
`local_matcher_`. -/
structure GroupByTag where
  mapping : List (Nat × Nat)
  localMatcher : SeriesMatcher

/-- The collaborators of the parsers that are not in the repository. -/
structure Env (Fn : Type) where
  parseDuration : String → Option Nat
  fromIsoString : String → Option Nat
  aggFromString : String → Status × Fn
  aggToString : Fn → String
  groupByTag : SeriesMatcher → String → List String → GroupByTag

/-! ## `validate_query` and `get_query_kind` -/

/-- `UNIQUE_STMTS`. -/
def UNIQUE_STMTS : List String := ["select", "aggregate", "join", "group-aggregate"]

/-- `ALLOWED_STMTS`. -/
def ALLOWED_STMTS : List String :=
  ["select", "aggregate", "join", "output", "order-by", "group-by", "limit", "offset", "range",
   "where", "group-aggregate"]

/-- The loop of `validate_query` over the top-level entries, with the set
`keywords` it consults. -/
def validateLoop (keywords : List String) : List (String × PTree) → Status
  | [] => .success
  | (keyword, _) :: rest =>
    if keyword ∉ ALLOWED_STMTS then .equeryParsingError
    else if keyword ∈ keywords then .equeryParsingError
    else if UNIQUE_STMTS.any (· ∈ keywords) then .equeryParsingError
    else validateLoop keywords rest

/-- `validate_query`: the loop starts from an empty `keywords`, and nothing
adds to it. -/
def validateQuery (ptree : PTree) : Status := validateLoop [] ptree.children

/-- `is_meta_query`. -/
def isMetaQuery (name : String) : Bool := "meta:names".isPrefixOf name

/-- `parse_select_stmt`. -/
def parseSelectStmt (ptree : PTree) : Status × String :=
  match ptree.getChildOptional "select" with
  | some select => if select.empty then (.success, select.data) else (.equeryParsingError, "")
  | none => (.equeryParsingError, "")

/-- The loop of `get_query_kind`: the first query-kind key decides. -/
def queryKindLoop (ptree : PTree) : List (String × PTree) → Status × QueryKind
  | [] => (.equeryParsingError, .SELECT)
  | (key, _) :: rest =>
    if key = "select" then
      if (parseSelectStmt ptree).1 ≠ .success then ((parseSelectStmt ptree).1, .SELECT)
      else if isMetaQuery (parseSelectStmt ptree).2 then (.success, .SELECT_META)
      else (.success, .SELECT)
    else if key = "aggregate" then (.success, .AGGREGATE)
    else if key = "join" then (.success, .JOIN)
    else if key = "group-aggregate" then (.success, .GROUP_AGGREGATE)
    else queryKindLoop ptree rest

/-- `QueryParser::get_query_kind`. -/
def getQueryKind (ptree : PTree) : Status × QueryKind := queryKindLoop ptree ptree.children

/-! ## The statement readers -/

/-- `parse_join_stmt`: the metric names of the `join` array, in order. -/
def parseJoinStmt (ptree : PTree) : Status × List String :=
  let result := ((ptree.getChildOptional "join").map fun join => join.children.map (·.2.data)).getD []
  if result.isEmpty then (.equeryParsingError, result) else (.success, result)

/-- `parse_aggregate_stmt`: the first member of the `aggregate` object. -/
def parseAggregateStmt (ptree : PTree) : Status × String × String :=
  match (ptree.getChildOptional "aggregate").map PTree.children with
  | some ((metric, func) :: _) => (.success, metric, func.data)
  | _ => (.equeryParsingError, "", "")

/-- `GroupAggregate`, the result of `parse_group_aggregate_stmt`. -/
structure GroupAggregate (Fn : Type) where
  metric : String
  func : List Fn
  step : Nat

variable {Fn : Type} (env : Env Fn)

/-- The inner loop over the `func` array: the functions read before the
first invalid one, and whether there was one. -/
def funcLoop : List (String × PTree) → List Fn × Bool
  | [] => ([], false)
  | (_, child) :: rest =>
    if (env.aggFromString child.data).1 = .success then
      ((funcLoop rest).1.cons (env.aggFromString child.data).2, (funcLoop rest).2)
    else ([], true)

/-- The loop of `parse_group_aggregate_stmt`; `components` is
`(step, metric, func)`, and a `break` returns the state as it is. -/
def groupAggregateLoop (aggregate : PTree) :
    GroupAggregate Fn × Bool × Bool × Bool → List (String × PTree) →
      GroupAggregate Fn × Bool × Bool × Bool
  | st, [] => st
  | (result, c0, c1, c2), (tagName, value) :: rest =>
    if tagName = "step" then
      if c0 then (result, c0, c1, c2)
      else match env.parseDuration value.data with
        | some step => groupAggregateLoop aggregate ({ result with step := step }, true, c1, c2) rest
        | none => groupAggregateLoop aggregate (result, c0, c1, c2) rest
    else if tagName = "metric" then
      if c1 then (result, c0, c1, c2)
      else groupAggregateLoop aggregate ({ result with metric := value.data }, c0, true, c2) rest
    else if tagName = "func" then
      if c2 then (result, c0, c1, c2)
      else
        let funcs := funcLoop env ((aggregate.getChildOptional "func").map PTree.children |>.getD [])
        let result := { result with func := result.func ++ funcs.1 }
        if funcs.2 then (result, c0, c1, c2)
        else groupAggregateLoop aggregate (result, c0, c1, !funcs.1.isEmpty) rest
    else groupAggregateLoop aggregate (result, c0, c1, c2) rest

/-- What `parse_group_aggregate_stmt` has read when its loop ends: the
result and the three `components` flags, all unset without a
`group-aggregate` object. -/
def groupAggregateComponents (ptree : PTree) : GroupAggregate Fn × Bool × Bool × Bool :=
  match ptree.getChildOptional "group-aggregate" with
  | some aggregate => groupAggregateLoop env aggregate (⟨"", [], 0⟩, false, false, false) aggregate.children
  | none => (⟨"", [], 0⟩, false, false, false)

/-- `parse_group_aggregate_stmt`. -/
def parseGroupAggregateStmt (ptree : PTree) : Status × GroupAggregate Fn :=
  let (result, c0, c1, c2) := groupAggregateComponents env ptree
  if c0 && c1 && c2 then (.success, result) else (.equeryParsingError, result)

/-- `parse_orderby`. -/
def parseOrderby (ptree : PTree) : Status × OrderBy :=
  match ptree.getChildOptional "order-by" with
  | some orderby =>
    if orderby.data = "time" then (.success, .TIME)
    else if orderby.data = "series" then (.success, .SERIES)
    else (.equeryParsingError, .TIME)
  | none => (.success, .TIME)

/-- `parse_groupby`: the tag names of the `group-by` entry. -/
def parseGroupby (ptree : PTree) : Status × List String :=
  (.success, ((ptree.getChildOptional "group-by").map fun g => g.children.map (·.2.data)).getD [])

/-- The loop of `parse_range_timestamp`: later `from`/`to` entries
overwrite earlier ones; one that fails to parse is skipped. -/
def rangeLoop : Nat × Nat × Bool × Bool → List (String × PTree) → Nat × Nat × Bool × Bool
  | st, [] => st
  | (b, e, bs, es), (key, child) :: rest =>
    if key = "from" then
      match env.fromIsoString child.data with
      | some ts => rangeLoop (ts, e, true, es) rest
      | none => rangeLoop (b, e, bs, es) rest
    else if key = "to" then
      match env.fromIsoString child.data with
      | some ts => rangeLoop (b, ts, bs, true) rest
      | none => rangeLoop (b, e, bs, es) rest
    else rangeLoop (b, e, bs, es) rest

/-- `parse_range_timestamp`. -/
def parseRangeTimestamp (ptree : PTree) : Status × Nat × Nat :=
  let (b, e, bs, es) := rangeLoop env (0, 0, false, false)
    (((ptree.getChildOptional "range").map PTree.children).getD [])
  if bs && es then (.success, b, e) else (.equeryParsingError, b, e)

/-! ## What `validate_query` checks -/

/-- `validate_query` accepts exactly the objects whose every key is in
`ALLOWED_STMTS`: neither repetition nor combination is looked at. -/
theorem validateQuery_eq_success_iff (ptree : PTree) :
    validateQuery ptree = .success ↔ ∀ entry ∈ ptree.children, entry.1 ∈ ALLOWED_STMTS := by
  unfold validateQuery
  induction ptree.children with
  | nil => simp [validateLoop]
  | cons entry rest ih =>
    obtain ⟨key, v⟩ := entry
    by_cases hk : key ∈ ALLOWED_STMTS <;> simp [validateLoop, hk, ih]

/-- The rule of the specification: every key allowed, none repeated, at
most one query-kind key. -/
def ValidKeys (keys : List String) : Prop :=
  (∀ k ∈ keys, k ∈ ALLOWED_STMTS) ∧ keys.Nodup ∧ (keys.filter (· ∈ UNIQUE_STMTS)).length ≤ 1

instance (keys : List String) : Decidable (ValidKeys keys) :=
  inferInstanceAs (Decidable (_ ∧ _ ∧ _))

/-- `{"select": "cpu", "aggregate": {"cpu": "max"}}` breaks the rule and
passes `validate_query`. -/
theorem validateQuery_accepts_select_with_aggregate :
    validateQuery (.obj [("select", .leaf "cpu"), ("aggregate", .obj [("cpu", .leaf "max")])]) =
      .success ∧
    ¬ ValidKeys ["select", "aggregate"] := by
  decide

end Akumuli.QP
