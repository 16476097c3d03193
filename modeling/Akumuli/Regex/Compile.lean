/-
Akumuli.Regex.Compile — the reading of a pattern text into an `RE`, as
`std::regex` reads it under the ECMAScript grammar.

Modelled from the spec: the library is not in the repository. The reader
takes one character at a time (`step`), keeping a stack of open groups
(`Frame`: the finished alternatives and the terms of the current one,
newest first) and a `Mode` for escapes, brackets and group openings, so
that reading `xs ++ ys` is reading `xs` and then `ys` (`run_append`).

The modelled grammar: literal characters, `.`, the escapes `\s \S \w \W
\d \D \n \t \r \f \v` and the identity escapes, bracket classes of
characters, ranges and class escapes (negated by a leading `^`), groups
`(…)` and `(?:…)`, `|`, and the quantifiers `*`, `+`, `?`, each optionally
lazy. The rest (the anchors `^` and `$`, braces, `\b`, back-references,
lookaheads, `\c`, `\x`, `\u`) is outside the model: `compile` answers
`none`, which the callers read as the `std::regex_error` the library
throws for a malformed pattern. Every pattern the where clause builds from
literal metric, key and value strings lies inside the modelled grammar.
-/
import Akumuli.Regex.Match

namespace Akumuli.Regex

open RE

/-- A group being read: its finished alternatives and the terms of the
current alternative, both newest first. -/
structure Frame where
  alts : List RE
  seq : List RE
  deriving DecidableEq, Repr

/-- The expression a finished group stands for. -/
def Frame.close (f : Frame) : RE := altList (catList f.seq.reverse :: f.alts).reverse

/-- What the reader expects next. `term q` reads terms, `q` counting the
quantifier characters just read (the second is the lazy `?`); a bracket
keeps its items, the character that may start a range, and whether a `-`
follows it. -/
inductive Mode where
  | term (q : Nat)
  | escape
  | groupOpen
  | groupQuery
  | bracketOpen
  | bracket (neg : Bool) (items : List Item) (prev : Option Char) (dash : Bool)
  | bracketEscape (neg : Bool) (items : List Item) (prev : Option Char) (dash : Bool)
  deriving DecidableEq, Repr

/-- The reader's state: the mode and the open groups, innermost first. -/
structure State where
  mode : Mode
  stack : List Frame
  deriving DecidableEq, Repr

/-- The characters with a meaning of their own outside brackets (code
points 123 and 125 are the braces). -/
def isSyntaxChar (c : Char) : Bool :=
  c = '^' || c = '$' || c = '\\' || c = '.' || c = '*' || c = '+' || c = '?' || c = '(' ||
    c = ')' || c = '[' || c = ']' || c.toNat = 123 || c.toNat = 125 || c = '|'

/-- Add a term to the innermost group. -/
def pushTerm (t : RE) : List Frame → List Frame
  | f :: fs => { f with seq := t :: f.seq } :: fs
  | [] => []

/-- Apply a quantifier to the last term of the innermost group; `none` is
ECMAScript's "nothing to repeat". -/
def quantify (k : RE → RE) : List Frame → Option (List Frame)
  | ⟨alts, t :: seq⟩ :: fs => some (⟨alts, k t :: seq⟩ :: fs)
  | _ => none

/-- The escapes that stand for one control character. -/
def escapeChar (c : Char) : Option Char :=
  if c = 'n' then some '\n' else if c = 't' then some '\t' else if c = 'r' then some '\r'
  else if c = 'f' then some (Char.ofNat 12) else if c = 'v' then some (Char.ofNat 11) else none

/-- The class escapes, with whether they are negated. -/
def classEscape (c : Char) : Option (ClassEscape × Bool) :=
  if c = 's' then some (.space, false) else if c = 'S' then some (.space, true)
  else if c = 'w' then some (.word, false) else if c = 'W' then some (.word, true)
  else if c = 'd' then some (.digit, false) else if c = 'D' then some (.digit, true) else none

/-- The escapes outside the modelled grammar. -/
def unsupportedEscape (c : Char) : Bool :=
  c = 'b' || c = 'B' || c = 'c' || c = 'x' || c = 'u' || c.isDigit

/-- The items of a bracket with the pending character added. -/
def flush (items : List Item) (prev : Option Char) : List Item :=
  match prev with
  | some p => .single p :: items
  | none => items

/-- Read a character inside brackets: the end of a range after `p-`, or
the new pending character. -/
def bracketChar (neg : Bool) (items : List Item) (prev : Option Char) (dash : Bool) (d : Char) :
    Option Mode :=
  match dash, prev with
  | true, some p => if p ≤ d then some (.bracket neg (.range p d :: items) none false) else none
  | true, none => none
  | false, _ => some (.bracket neg (flush items prev) (some d) false)

/-- A step in `term q` mode. -/
def stepTerm (q : Nat) (stack : List Frame) (c : Char) : Option State :=
  if c = '\\' then some ⟨.escape, stack⟩
  else if c = '.' then some ⟨.term 0, pushTerm (.atom .any) stack⟩
  else if c = '(' then some ⟨.groupOpen, ⟨[], []⟩ :: stack⟩
  else if c = ')' then
    match stack with
    | f :: g :: fs => some ⟨.term 0, pushTerm f.close (g :: fs)⟩
    | _ => none
  else if c = '|' then
    match stack with
    | f :: fs => some ⟨.term 0, ⟨catList f.seq.reverse :: f.alts, []⟩ :: fs⟩
    | [] => none
  else if c = '[' then some ⟨.bracketOpen, stack⟩
  else if c = '*' then
    if q = 0 then (quantify .star stack).map (⟨.term 1, ·⟩) else none
  else if c = '+' then
    if q = 0 then (quantify (fun t => .cat t (.star t)) stack).map (⟨.term 1, ·⟩) else none
  else if c = '?' then
    if q = 0 then (quantify (fun t => .alt t .eps) stack).map (⟨.term 1, ·⟩)
    else if q = 1 then some ⟨.term 2, stack⟩ else none
  else if isSyntaxChar c then none
  else some ⟨.term 0, pushTerm (.atom (.char c)) stack⟩

/-- A step after `\` outside brackets. -/
def stepEscape (stack : List Frame) (c : Char) : Option State :=
  match classEscape c with
  | some (e, n) => some ⟨.term 0, pushTerm (.atom (.set false [.escape e n])) stack⟩
  | none =>
    match escapeChar c with
    | some d => some ⟨.term 0, pushTerm (.atom (.char d)) stack⟩
    | none => if unsupportedEscape c then none else some ⟨.term 0, pushTerm (.atom (.char c)) stack⟩

/-- A step inside brackets. -/
def stepBracket (neg : Bool) (items : List Item) (prev : Option Char) (dash : Bool)
    (stack : List Frame) (c : Char) : Option State :=
  if c = ']' then
    some ⟨.term 0, pushTerm
      (.atom (.set neg (if dash then .single '-' :: flush items prev else flush items prev))) stack⟩
  else if c = '\\' then some ⟨.bracketEscape neg items prev dash, stack⟩
  else if c = '-' && prev.isSome && !dash then some ⟨.bracket neg items prev true, stack⟩
  else (bracketChar neg items prev dash c).map (⟨·, stack⟩)

/-- A step after `\` inside brackets, where `\b` is the backspace. -/
def stepBracketEscape (neg : Bool) (items : List Item) (prev : Option Char) (dash : Bool)
    (stack : List Frame) (c : Char) : Option State :=
  match classEscape c with
  | some (e, n) =>
    if dash then none else some ⟨.bracket neg (.escape e n :: flush items prev) none false, stack⟩
  | none =>
    let d := if c = 'b' then some (Char.ofNat 8) else
      match escapeChar c with
      | some d => some d
      | none => if unsupportedEscape c then none else some c
    d.bind fun d => (bracketChar neg items prev dash d).map (⟨·, stack⟩)

/-- One character of the pattern. -/
def step (st : State) (c : Char) : Option State :=
  match st.mode with
  | .term q => stepTerm q st.stack c
  | .escape => stepEscape st.stack c
  | .groupOpen => if c = '?' then some ⟨.groupQuery, st.stack⟩ else stepTerm 0 st.stack c
  | .groupQuery => if c = ':' then some ⟨.term 0, st.stack⟩ else none
  | .bracketOpen =>
    if c = '^' then some ⟨.bracket true [] none false, st.stack⟩
    else stepBracket false [] none false st.stack c
  | .bracket neg items prev dash => stepBracket neg items prev dash st.stack c
  | .bracketEscape neg items prev dash => stepBracketEscape neg items prev dash st.stack c

/-- Read a sequence of characters. -/
def run (st : State) (cs : List Char) : Option State := cs.foldlM step st

/-- The end of the pattern: every group and bracket closed. -/
def finish (st : State) : Option RE :=
  match st.mode, st.stack with
  | .term _, [f] => some f.close
  | _, _ => none

/-- The state at the start of a pattern. -/
def start : State := ⟨.term 0, [⟨[], []⟩]⟩

/-- The expression a pattern text compiles to; `none` where the library
throws. -/
def compile (pattern : String) : Option RE := (run start pattern.data).bind finish

/-- `std::regex_match(name, std::regex(pattern))`, where the pattern compiles. -/
def regexMatch (pattern : String) : Option (String → Bool) :=
  (compile pattern).map fun r name => r.fullMatch name.data

/-! ## Reading in pieces -/

theorem run_append (st : State) (xs ys : List Char) :
    run st (xs ++ ys) = (run st xs).bind fun st' => run st' ys := by
  simp [run, List.foldlM_append]

/-- A character that stands for itself outside brackets. -/
def isLiteral (c : Char) : Bool := !isSyntaxChar c

theorem stepTerm_literal {c : Char} (hc : isLiteral c = true) (q : Nat) (stack : List Frame) :
    stepTerm q stack c = some ⟨.term 0, pushTerm (.atom (.char c)) stack⟩ := by
  simp only [isLiteral, isSyntaxChar, Bool.not_eq_true', Bool.or_eq_false_iff,
    decide_eq_false_iff_not] at hc
  obtain ⟨⟨⟨⟨⟨⟨⟨⟨⟨⟨⟨⟨⟨h1, h2⟩, h3⟩, h4⟩, h5⟩, h6⟩, h7⟩, h8⟩, h9⟩, h10⟩, h11⟩, h12⟩, h13⟩, h14⟩ := hc
  simp [stepTerm, isSyntaxChar, h1, h2, h3, h4, h5, h6, h7, h8, h9, h10, h11, h12, h13, h14]

/-- Literal characters become literal terms of the innermost group. -/
theorem run_literals (cs : List Char) (hcs : ∀ c ∈ cs, isLiteral c = true) (q : Nat)
    (alts seq : List RE) (fs : List Frame) :
    run ⟨.term q, ⟨alts, seq⟩ :: fs⟩ cs =
      some ⟨if cs = [] then .term q else .term 0, ⟨alts, (lits cs).reverse ++ seq⟩ :: fs⟩ := by
  induction cs generalizing q seq with
  | nil => rfl
  | cons c cs ih =>
    have hrest := ih (fun d hd => hcs d (List.mem_cons_of_mem _ hd)) 0 (.atom (.char c) :: seq)
    simp only [run, List.foldlM_cons, step, stepTerm_literal (hcs c (List.mem_cons_self _ _)),
      pushTerm, Option.bind_eq_bind, Option.some_bind] at hrest ⊢
    rw [hrest]
    cases cs <;> simp [lits]

/-- The language of a closed group: one of its alternatives. -/
theorem lang_close (f : Frame) (w : List Char) :
    f.close.Lang w ↔ (catList f.seq.reverse).Lang w ∨ ∃ r ∈ f.alts, r.Lang w := by
  simp only [Frame.close, lang_altList, List.mem_reverse, List.mem_cons]
  constructor
  · rintro ⟨r, rfl | hr, h⟩
    exacts [.inl h, .inr ⟨r, hr, h⟩]
  · rintro (h | ⟨r, hr, h⟩)
    exacts [⟨_, .inl rfl, h⟩, ⟨r, .inr hr, h⟩]

end Akumuli.Regex
