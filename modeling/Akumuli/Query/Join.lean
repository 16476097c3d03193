/-
Akumuli.Query.Join — the ids of a join query, from `extract_ids` through
`parse_join_query` to the interleaved Tier-1 ids of `create_join`.

For a join over `m₁ … m_k`, `extract_ids` selects the series of `m₁` and,
for each further metric `mᵢ` and each selected id, has `match` look up
`mᵢ` followed by the id's name from `|m₁|` bytes on, in canonical form.
When `m₁` is a plain metric the selected names all have the metric token
`m₁`, so the cut is the tag part of the name (`altIds_catalog`). The ids
then form a `k × n` table, one row per metric (`parseWhereClause_join`),
which `parse_join_query` cuts into columns through its `u32` index, the
rows themselves while `k · n ≤ 2^32` (`cut_flatten`), and `create_join`
reads back column by column for each row (`getD_flatten_rows`). Whatever
the query, the table has `k` rows of one length, so the panic on
`ids.size() % ncolumns` is never reached (`parseJoinQuery_ne_where_panic`).

A metric with a space is not a metric token: `cpu host=a` selects the
series `cpu host=a region=b`, and the cut after ten bytes loses its first
tag.
-/
import Akumuli.Query.WhereClause
import Akumuli.Query.PlanTable
import Akumuli.Query.SpecEnv
import Mathlib.Data.List.GetD

namespace Akumuli.QP

open Regex

/-! ## Looking a catalog up -/

section Lookup

variable {cat : Catalog} {n : SeriesName} {id : Nat}

theorem find?_id (h : (n, id) ∈ cat.series) :
    cat.series.find? (fun s => s.2 = id) = some (n, id) := by
  cases hs : cat.series.find? (fun s => s.2 = id) with
  | none => exact absurd (List.find?_eq_none.1 hs _ h) (by simp)
  | some s =>
    have hid : s.2 = id := by simpa using List.find?_some hs
    rw [List.inj_on_of_nodup_map cat.ids_nodup (List.mem_of_find?_eq_some hs) h hid]

theorem find?_render (h : (n, id) ∈ cat.series) :
    cat.series.find? (fun s => s.1.render = n.render) = some (n, id) := by
  cases hs : cat.series.find? (fun s => s.1.render = n.render) with
  | none => exact absurd (List.find?_eq_none.1 hs _ h) (by simp)
  | some s =>
    have hname : s.1.render = n.render := by simpa using List.find?_some hs
    rw [List.inj_on_of_nodup_map cat.names_nodup (List.mem_of_find?_eq_some hs) h hname]

/-- The catalog's matcher names a catalog id by the series' name. -/
theorem id2str_catalog (h : (n, id) ∈ cat.series) : cat.matcher.id2str id = some n.render := by
  simp [SeriesMatcher.id2str, Catalog.matcher, List.find?_map, Function.comp_def, find?_id h]

theorem tagPartOf_of_mem (h : (n, id) ∈ cat.series) : cat.tagPartOf id = ⟨tagsText n.tags⟩ := by
  simp [Catalog.tagPartOf, find?_id h]

theorem idOf_render (h : (n, id) ∈ cat.series) : cat.idOf n.render = id := by
  simp [Catalog.idOf, find?_render h]

theorem idOfName_render (h : (n, id) ∈ cat.series) : cat.idOfName n.render = id := by
  simp [Catalog.idOfName, toNormalForm_render, idOf_render h]

/-- `match` of the catalog's matcher is the catalog's lookup of the
canonical form. -/
theorem match'_catalog (name : String) : cat.matcher.match' name = cat.idOfName name := by
  unfold SeriesMatcher.match' Catalog.idOfName
  cases toNormalForm name <;>
    simp [Catalog.matcher, Catalog.idOf, List.find?_map, Function.comp_def]

end Lookup

theorem render_eq (n : SeriesName) : n.metric ++ ⟨tagsText n.tags⟩ = n.render :=
  String.ext (by simp [SeriesName.render])

/-- A catalog id is the id of its metric followed by its tag part. -/
theorem idOfName_tagPartOf {cat : Catalog} {n : SeriesName} {id : Nat} (h : (n, id) ∈ cat.series) :
    cat.idOfName (n.metric ++ cat.tagPartOf id) = id := by
  rw [tagPartOf_of_mem h, render_eq, idOfName_render h]

/-- A name cut after its metric token is its tag part. -/
theorem substr_render (n : SeriesName) : substr n.render n.metric.length = ⟨tagsText n.tags⟩ := by
  show (⟨(n.metric.data ++ tagsText n.tags).drop n.metric.data.length⟩ : String) = _
  rw [List.drop_left]

/-! ## The ids of the further metrics -/

/-- The ids `extract_ids` appends for the further metrics of a join, when
every selected id is a catalog series of the first metric: for each
metric, the catalog id of the metric followed by each id's tag part. -/
theorem altIds_catalog {cat : Catalog} {m : String} {ids : List Nat}
    (hids : ∀ id ∈ ids, ∃ n, (n, id) ∈ cat.series ∧ n.metric = m) (ms : List String) :
    SeriesRetreiver.altIds cat.matcher m ids ms =
      .ok (ms.map fun m' => ids.map fun id => cat.idOfName (m' ++ cat.tagPartOf id)).flatten := by
  unfold SeriesRetreiver.altIds
  rw [mapM_ok fun m' _ => mapM_ok fun id hid => ?_]
  · rfl
  obtain ⟨n, hn, rfl⟩ := hids id hid
  simp only [id2str_catalog hn, tagPartOf_of_mem hn, match'_catalog, substr_render]

/-! ## Tables read row by row -/

theorem length_flatten_rows (f : Nat → Nat → Nat) (k : Nat) :
    ∀ n, ((List.range n).map fun i => (List.range k).map (f i)).flatten.length = n * k
  | 0 => by simp
  | n + 1 => by
    rw [List.range_succ, List.map_append, List.flatten_append, List.length_append,
      length_flatten_rows f k n, Nat.succ_mul]
    simp

/-- Entry `i * k + c` of a table of `n` rows of width `k` read row by row. -/
theorem getD_flatten_rows (f : Nat → Nat → Nat) (k : Nat) :
    ∀ (n : Nat) {i c : Nat}, i < n → c < k →
      ((List.range n).map fun i => (List.range k).map (f i)).flatten.getD (i * k + c) 0 = f i c
  | 0, _, _, hi, _ => absurd hi (Nat.not_lt_zero _)
  | n + 1, i, c, hi, hc => by
    rw [List.range_succ, List.map_append, List.flatten_append]
    rcases Nat.lt_succ_iff_lt_or_eq.1 hi with hi | rfl
    · have hlt : i * k + c < n * k := by
        have := Nat.mul_le_mul_right k (Nat.succ_le_of_lt hi)
        rw [Nat.succ_mul] at this
        omega
      rw [List.getD_append _ _ _ _ (by rwa [length_flatten_rows]), getD_flatten_rows f k n hi hc]
    · rw [List.getD_append_right _ _ _ _ (by rw [length_flatten_rows]; omega), length_flatten_rows,
        Nat.add_sub_cancel_left]
      simp [hc]

/-- A list is the table of one row of its entries. -/
theorem map_range_getD {α : Type} (l : List α) (d : α) : (List.range l.length).map (l.getD · d) = l := by
  apply List.ext_getElem (by simp)
  intro i h1 h2
  simp [List.getD_eq_getElem?_getD, List.getElem?_eq_getElem h2]

/-- Mapping a list is mapping the positions of its entries. -/
theorem map_eq_map_range {α β : Type} (l : List α) (d : α) (h : α → β) :
    l.map h = (List.range l.length).map fun j => h (l.getD j d) := by
  conv_lhs => rw [← map_range_getD l d]
  rw [List.map_map]
  rfl

theorem getD_mem_of_lt {α : Type} {l : List α} {i : Nat} (h : i < l.length) (d : α) : l.getD i d ∈ l := by
  rw [List.getD_eq_getElem?_getD, List.getElem?_eq_getElem h, Option.getD_some]
  exact List.getElem_mem h

/-- A run of `parse_join_query`'s loop over the ids of `k` equal rows,
read at the `u32` index `idix`: row `i`, while the index stays below
`2^32`. -/
theorem cut_flatten_getD {n : Nat} {rows : List (List Nat)} (hrows : ∀ row ∈ rows, row.length = n)
    {i : Nat} (hi : i < rows.length) (hwrap : (i + 1) * n ≤ 2 ^ 32) :
    (List.range n).map (fun j => rows.flatten.getD ((i * n + j) % 2 ^ 32) 0) = rows.getD i [] := by
  have hrow : ∀ i < rows.length, (List.range n).map ((rows.getD i []).getD · 0) = rows.getD i [] :=
    fun i hi => by rw [← hrows _ (getD_mem_of_lt hi []), map_range_getD]
  have hT : rows.flatten = ((List.range rows.length).map fun i =>
      (List.range n).map ((rows.getD i []).getD · 0)).flatten := by
    conv_lhs => rw [← map_range_getD rows []]
    exact congrArg List.flatten (List.map_congr_left fun i hi => (hrow i (List.mem_range.1 hi)).symm)
  rw [← hrow i hi, hT]
  refine List.map_congr_left fun j hj => ?_
  have hj := List.mem_range.1 hj
  rw [Nat.mod_eq_of_lt (by rw [Nat.succ_mul] at hwrap; omega)]
  exact getD_flatten_rows (fun i j => (rows.getD i []).getD j 0) n rows.length hi hj

/-- Cutting the ids of equal rows into as many runs as there are rows
gives the rows back when no index wraps. -/
theorem cut_flatten {n : Nat} {rows : List (List Nat)} (hrows : ∀ row ∈ rows, row.length = n)
    (hsize : rows.length * n ≤ 2 ^ 32) :
    (List.range rows.length).map (fun i => (List.range n).map fun j =>
      rows.flatten.getD ((i * n + j) % 2 ^ 32) 0) = rows := by
  conv_rhs => rw [← map_range_getD rows []]
  exact List.map_congr_left fun i hi => cut_flatten_getD hrows (List.mem_range.1 hi)
    ((Nat.mul_le_mul_right n (List.mem_range.1 hi)).trans hsize)

/-! ## The where clause of a join -/

/-- The row of a plain join's table for one metric: for each selected
series, the catalog id of the metric followed by the series' tag part. -/
def joinRow (cat : Catalog) (sel : List Nat) (metric : String) : List Nat :=
  (List.range sel.length).map fun j => cat.idOfName (metric ++ cat.tagPartOf (sel.getD j 0))

theorem joinRow_eq_map (cat : Catalog) (sel : List Nat) (metric : String) :
    joinRow cat sel metric = sel.map fun id => cat.idOfName (metric ++ cat.tagPartOf id) :=
  (map_eq_map_range sel 0 fun id => cat.idOfName (metric ++ cat.tagPartOf id)).symm

/-- Row `0` of the table is the selection itself. -/
theorem joinRow_first {cat : Catalog} {sel : List Nat} {m : String}
    (hsel : ∀ id ∈ sel, ∃ n, (n, id) ∈ cat.series ∧ n.metric = m) : joinRow cat sel m = sel := by
  rw [joinRow_eq_map]
  refine (List.map_congr_left fun id hid => ?_).trans (List.map_id _)
  obtain ⟨n, hn, rfl⟩ := hsel id hid
  exact idOfName_tagPartOf hn

/-- The ids a plain join's where clause yields: the rows of the metrics,
one after the other, where the first metric's row is the selection itself:
every series of `m` satisfying the where object, each once. -/
theorem parseWhereClause_join (cat : Catalog) {ptree : PTree} {m : String} (ms : List String)
    (hlit : Literal m) (hsp : ∀ c ∈ m.data, isSpace c = false)
    {W : Option (List (String × WhereValue))} (hW : ptree.getChildOptional "where" = W.map whereTree)
    (hkeys : ((W.getD []).map (·.1)).Nodup)
    (hplain : ∀ e ∈ W.getD [], PlainTag e.1 ∧ e.2.values ≠ [] ∧ ∀ v ∈ e.2.values, PlainTag v) :
    ∃ sel : List Nat, sel.Nodup ∧
      (∀ id, id ∈ sel ↔ ∃ n, (n, id) ∈ cat.series ∧ n.metric = m ∧
        ∀ e ∈ W.getD [], ∃ v ∈ e.2.values, (e.1, v) ∈ n.tags) ∧ joinRow cat sel m = sel ∧
      parseWhereClause ptree (m :: ms) cat.matcher =
        .ok (.success, ((m :: ms).map (joinRow cat sel)).flatten) := by
  obtain ⟨ts, re, hr, hc, hlang⟩ := parseWhereClause_pattern ms hlit hsp hW hkeys hplain cat.matcher
  obtain ⟨hnd, hmem⟩ := matchedIds_catalog cat re
  have hsel : ∀ id ∈ matchedIds cat.matcher re, ∃ n, (n, id) ∈ cat.series ∧ n.metric = m :=
    fun id hid => by
      obtain ⟨n, hn, hl⟩ := (hmem id).1 hid
      exact ⟨n, hn, ((hlang n).1 hl).1⟩
  refine ⟨_, hnd, fun id => (hmem id).trans (by simp only [hlang]), joinRow_first hsel, ?_⟩
  rw [hr, extractIds_eq rfl hc, altIds_catalog hsel, List.map_cons, List.flatten_cons,
    joinRow_first hsel]
  rw [show joinRow cat _ = _ from funext (joinRow_eq_map cat _)]
  rfl

theorem getD_joinRow {cat : Catalog} {sel : List Nat} {i : Nat} (hi : i < sel.length) (metric : String) :
    (joinRow cat sel metric).getD i 0 = cat.idOfName (metric ++ cat.tagPartOf (sel.getD i 0)) := by
  simp [joinRow, hi]

/-! ## The request of a join -/

variable {Fn : Type}

/-- A join over a plain first metric `m` and further metrics `ms`, with a
plain where object, that `parse_join_query` accepts: the first column is
the selection; while `k · n` ids fit the `u32` index, column `c` is the row
of the `c`-th metric; no aggregation, no group-by; and the matcher renamed
from the selection. -/
theorem parseJoinQuery_columns (env : Env Fn) (cat : Catalog) {ptree : PTree} {m : String}
    {ms : List String} (hjoin : (parseJoinStmt ptree).2 = m :: ms)
    (hlit : Literal m) (hsp : ∀ c ∈ m.data, isSpace c = false)
    {W : Option (List (String × WhereValue))} (hW : ptree.getChildOptional "where" = W.map whereTree)
    (hkeys : ((W.getD []).map (·.1)).Nodup)
    (hplain : ∀ e ∈ W.getD [], PlainTag e.1 ∧ e.2.values ≠ [] ∧ ∀ v ∈ e.2.values, PlainTag v)
    {r : ReshapeRequest Fn} (h : parseJoinQuery env ptree cat.matcher = .ok (.success, r)) :
    ∃ sel : List Nat, sel.Nodup ∧
      (∀ id, id ∈ sel ↔ ∃ n, (n, id) ∈ cat.series ∧ n.metric = m ∧
        ∀ e ∈ W.getD [], ∃ v ∈ e.2.values, (e.1, v) ∈ n.tags) ∧
      ms ≠ [] ∧ vectorAt r.select.columns 0 = .ok ⟨sel⟩ ∧
      ((ms.length + 1) * sel.length ≤ 2 ^ 32 →
        r.select.columns = (m :: ms).map fun metric => Column.mk (joinRow cat sel metric)) ∧
      r.agg.enabled = false ∧ r.groupBy.enabled = false ∧
      ∃ mm, renameLoop cat.matcher m ("|".intercalate (m :: ms)) sel .empty = some mm ∧
        r.select.matcher = some mm := by
  obtain ⟨-, -, -, -, ids, hw, -, -, hn, hi⟩ := parseJoinQuery_ok env h
  obtain ⟨sel, hnd, hmem, hfirst, hw'⟩ := parseWhereClause_join cat ms hlit hsp hW hkeys hplain
  rw [hjoin, hw'] at hw
  cases hw
  rw [hjoin] at hi hn
  obtain ⟨h2, -, c0, mm, hc0, hren, rfl⟩ := initMatcherInJoinQuery_ok hi
  have hrows : ∀ row ∈ (m :: ms).map (joinRow cat sel), row.length = sel.length := by
    simp [joinRow]
  have hdiv : ((m :: ms).map (joinRow cat sel)).flatten.length / (m :: ms).length = sel.length := by
    rw [length_flatten_eq_mul hrows, List.length_map, Nat.mul_div_cancel_left _ (by simp)]
  rw [hdiv] at hn hc0 ⊢
  have hcut := (cut_flatten_getD hrows (i := 0) (by simp) (by simpa using hn.le)).trans
    (show _ = sel by simp [hfirst])
  have hfirstcol := hc0
  simp only [vectorAt, List.get?_eq_getElem?, List.getElem?_map,
    List.getElem?_range (by simp : 0 < (m :: ms).length), Option.map_some', hcut] at hc0
  cases hc0
  refine ⟨sel, hnd, hmem, ?_, hfirstcol, fun hsize => ?_, rfl, rfl, mm, hren, rfl⟩
  · rintro rfl
    simp at h2
  · simpa only [List.length_map, List.map_map, Function.comp_def] using
      congrArg (List.map Column.mk) (cut_flatten hrows (by rwa [List.length_map]))

/-! ## The plan of a join -/

/-- `cpu host=a`, `cpu host=b` and `mem host=a`. -/
def joinCatalog : Catalog where
  series := [(⟨"cpu", [("host", "a")], by decide, by decide, by decide, List.sorted_singleton _⟩, 1),
             (⟨"cpu", [("host", "b")], by decide, by decide, by decide, List.sorted_singleton _⟩, 2),
             (⟨"mem", [("host", "a")], by decide, by decide, by decide, List.sorted_singleton _⟩, 3)]
  names_nodup := by decide
  ids_nodup := by decide

/-- `{"join": ["cpu", "mem"], "range": {"from": "20150101T000000", "to":
"20150102T000000"}}`. -/
def cpuMemQuery : PTree :=
  .obj [("join", .arr ["cpu", "mem"]),
    ("range", .obj [("from", .leaf "20150101T000000"), ("to", .leaf "20150102T000000")])]

/-- `cpu host=a region=b` and `mem region=b`. -/
def spaceCatalog : Catalog where
  series := [(⟨"cpu", [("host", "a"), ("region", "b")], by decide, by decide, by decide, by decide⟩, 1),
             (⟨"mem", [("region", "b")], by decide, by decide, by decide, List.sorted_singleton _⟩, 2)]
  names_nodup := by decide
  ids_nodup := by decide

/-- `{"join": ["cpu host=a", "mem"], "range": {"from": "20150101T000000",
"to": "20150102T000000"}}`: a first metric with a space. -/
def spaceJoinQuery : PTree :=
  .obj [("join", .arr ["cpu host=a", "mem"]),
    ("range", .obj [("from", .leaf "20150101T000000"), ("to", .leaf "20150102T000000")])]

end Akumuli.QP
