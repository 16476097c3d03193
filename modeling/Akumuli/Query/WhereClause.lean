/-
Akumuli.Query.WhereClause — which series `parse_where_clause` selects
from a catalog.

The loop over the where entries hands each one to `add_tags`. When the keys
are distinct every call succeeds, and the filters end up as the entries
sorted by key (`foldl_addWhereItem`). `extract_ids` then writes the pattern
of the metric and the filters. For a plain metric and plain keys and
values, the pattern matches a canonical name exactly when the name has the
metric and each filter finds its tag there (`compile_wherePattern`, from
`Akumuli.Query.TagLanguage`). The matcher keeps the catalog's entries that
match, so each selected id appears once (`Catalog.select`).

Outside these conditions the pattern text does not mean what it says. A
`.` in the metric is the regex wildcard. A second entry with a key already
present is refused by `add_tags`, and the query goes on without it.
-/
import Akumuli.Query.TagLanguage

namespace Akumuli.QP

open Regex

/-! ## The where object -/

/-- The value of one `where` entry as the JSON reader gives it: a string,
or an array of strings. -/
inductive WhereValue where
  | single (v : String)
  | list (vs : List String)
  deriving DecidableEq, Repr

namespace WhereValue

/-- The values the entry allows. -/
def values : WhereValue → List String
  | single v => [v]
  | list vs => vs

/-- The tree of the value: a leaf, or an array of leaves. -/
def tree : WhereValue → PTree
  | single v => .leaf v
  | list vs => .arr vs

end WhereValue

/-- The tree of a where object with the given entries. -/
def whereTree (W : List (String × WhereValue)) : PTree := .obj (W.map fun e => (e.1, e.2.tree))

/-! ## The loop over the entries -/

/-- `add_tags` of a key not present yet, with a metric: the filter goes in
at its place in key order. -/
theorem addTags_of_new {r : SeriesRetreiver} (hm : r.metric ≠ []) {name : String}
    (hk : name ∉ r.tags.map (·.1)) (values : List String) :
    r.addTags name values = (.success, { r with tags := r.tags.orderedInsert keyLE (name, values) }) := by
  have hany : r.tags.any (·.1 = name) = false := by
    simpa [List.any_eq_false] using fun a b h hab => hk (List.mem_map.2 ⟨(a, b), h, hab⟩)
  simp [SeriesRetreiver.addTags, hm, hany]

/-- One entry of the loop: its values are added as a list (`add_tags`),
a single one through `add_tag`. -/
theorem addWhereItem_tree (r : SeriesRetreiver) (k : String) {w : WhereValue}
    (hw : w.values ≠ []) : addWhereItem r (k, w.tree) = (r.addTags k w.values).2 := by
  cases w with
  | single v => rfl
  | list vs =>
    cases vs with
    | nil => exact absurd rfl hw
    | cons v vs =>
      simp [addWhereItem, WhereValue.tree, WhereValue.values, PTree.arr, PTree.empty, PTree.leaf,
        Function.comp_def]

/-- The loop of `parse_where_clause` over entries with non-empty values and
distinct keys new to the filters: the filters end up holding all of them,
in key order. -/
theorem foldl_addWhereItem {metrics : List String} (hm : metrics ≠ []) :
    ∀ (W : List (String × WhereValue)) (tags : List (String × List String)),
      (∀ e ∈ W, e.2.values ≠ []) → (tags.map (·.1) ++ W.map (·.1)).Nodup → tags.Sorted keyLE →
      ∃ ts, (W.map fun e => (e.1, e.2.tree)).foldl addWhereItem ⟨metrics, tags⟩ = ⟨metrics, ts⟩ ∧
        ts.Perm (tags ++ W.map fun e => (e.1, e.2.values)) ∧ ts.Sorted keyLE
  | [], tags, _, _, hs => ⟨tags, rfl, by simp, hs⟩
  | e :: W, tags, hv, hnd, hs => by
    have hnew : e.1 ∉ tags.map (·.1) := fun h =>
      (List.nodup_append.1 hnd).2.2 h (List.mem_cons_self _ _)
    have hstep : addWhereItem ⟨metrics, tags⟩ (e.1, e.2.tree) =
        ⟨metrics, tags.orderedInsert keyLE (e.1, e.2.values)⟩ := by
      rw [addWhereItem_tree _ _ (hv e (List.mem_cons_self _ _)), addTags_of_new hm hnew]
    have hnd' : ((tags.orderedInsert keyLE (e.1, e.2.values)).map (·.1) ++ W.map (·.1)).Nodup :=
      (List.Perm.nodup_iff (((List.perm_orderedInsert keyLE _ tags).map Prod.fst).append_right _
        |>.trans List.perm_middle.symm)).2 hnd
    obtain ⟨ts, hfold, hperm, hsorted⟩ := foldl_addWhereItem hm W _
      (fun e' he' => hv e' (List.mem_cons_of_mem _ he')) hnd' (hs.orderedInsert _ _)
    refine ⟨ts, by rw [List.map_cons, List.foldl_cons, hstep, hfold], hperm.trans ?_, hsorted⟩
    exact ((List.perm_orderedInsert keyLE _ tags).append_right _).trans List.perm_middle.symm

/-- Filters in key order with distinct keys are in strictly increasing key
order. -/
theorem sorted_strLT_of_keyLE {ts : List (String × List String)} (hs : ts.Sorted keyLE)
    (hnd : (ts.map (·.1)).Nodup) : ts.Sorted fun a b => strLT a.1 b.1 :=
  (hs.and (List.pairwise_map.1 hnd)).imp fun h => strLT_of_strLE_of_ne h.1 h.2

/-! ## The series `extract_ids` selects -/

/-- The ids of the matcher's entries whose names a compiled pattern
matches in full, in insertion order: what `regex_match` returns, by id. -/
def matchedIds (matcher : SeriesMatcher) (re : RE) : List Nat :=
  (matcher.pool.entries.filter fun e => re.fullMatch e.name.data).map (·.id)

/-- `extract_ids` once its pattern has compiled: the ids of the first
metric, followed by those of the further metrics. -/
theorem extractIds_eq {r : SeriesRetreiver} {m : String} {tail : List String}
    (hr : r.metric = m :: tail) {re : RE}
    (hc : compile (if r.tags.isEmpty then m ++ anyTagsPattern else metricTagsPattern m r.tags) = some re)
    (matcher : SeriesMatcher) :
    r.extractIds matcher = (fun alt => (.success, matchedIds matcher re ++ alt)) <$>
      SeriesRetreiver.altIds matcher m (matchedIds matcher re) tail := by
  have hmatch : matcher.regexMatch
      (if r.tags.isEmpty then m ++ anyTagsPattern else metricTagsPattern m r.tags) =
      some (matcher.pool.entries.filter fun e => re.fullMatch e.name.data) := by
    rw [SeriesMatcher.regexMatch, Regex.regexMatch, hc]; rfl
  cases tail with
  | nil =>
    simp only [SeriesRetreiver.extractIds, hr, hmatch]
    exact congrArg (fun ids => Except.ok (Status.success, ids)) (List.append_nil _).symm
  | cons m' tail =>
    simp only [SeriesRetreiver.extractIds, hr, hmatch]
    simp [matchedIds]

/-- The matcher of a catalog returns each id once, and exactly the ids of
the series whose names the pattern matches. -/
theorem matchedIds_catalog (cat : Catalog) (re : RE) :
    (matchedIds cat.matcher re).Nodup ∧
      ∀ id, id ∈ matchedIds cat.matcher re ↔ ∃ n, (n, id) ∈ cat.series ∧ re.Lang n.render.data := by
  have hids : matchedIds cat.matcher re =
      (cat.series.filter fun s => re.fullMatch s.1.render.data).map (·.2) := by
    simp [matchedIds, Catalog.matcher, List.filter_map, Function.comp_def]
  rw [hids]
  exact ⟨cat.ids_nodup.sublist ((List.filter_sublist _).map _), fun id => by simp [RE.fullMatch_iff]⟩

/-- The pattern `extract_ids` writes for a plain metric and plain filters
in strictly increasing key order compiles, and matches the name of a series
exactly when the series has the metric and each filter finds its tag. -/
theorem compile_wherePattern {m : String} (hlit : Literal m) (hsp : ∀ c ∈ m.data, isSpace c = false)
    {ts : List (String × List String)}
    (hplain : ∀ kv ∈ ts, PlainTag kv.1 ∧ kv.2 ≠ [] ∧ ∀ v ∈ kv.2, PlainTag v)
    (hsorted : ts.Sorted fun a b => strLT a.1 b.1) :
    ∃ re, compile (if ts.isEmpty then m ++ anyTagsPattern else metricTagsPattern m ts) = some re ∧
      ∀ n : SeriesName, re.Lang n.render.data ↔
        n.metric = m ∧ ∀ kv ∈ ts, ∃ v ∈ kv.2, (kv.1, v) ∈ n.tags := by
  cases ts with
  | nil =>
    obtain ⟨re, hc, hl⟩ := compile_metricOnly hlit
    exact ⟨re, hc, fun n => by simp [hl, render_metricOnly_iff n hsp]⟩
  | cons kv rest =>
    obtain ⟨re, hc, hl⟩ := compile_metricTags hlit fun kv h =>
      ⟨(hplain kv h).1.literal, (hplain kv h).2.1, fun v hv => ((hplain kv h).2.2 v hv).literal⟩
    exact ⟨re, hc, fun n => (hl _).trans (render_metricTags_iff n hsp
      (fun kv h => ⟨(hplain kv h).1, (hplain kv h).2.2⟩) hsorted (List.cons_ne_nil _ _))⟩

/-! ## `parse_where_clause` -/

/-- The retriever `parse_where_clause` hands to `extract_ids` for a where
object (or none) with distinct keys and non-empty values: the metrics, and
the entries as filters in key order. -/
theorem parseWhereClause_retriever {ptree : PTree} {metrics : List String} (hm : metrics ≠ [])
    {W : Option (List (String × WhereValue))} (hW : ptree.getChildOptional "where" = W.map whereTree)
    (hkeys : ((W.getD []).map (·.1)).Nodup) (hvals : ∀ e ∈ W.getD [], e.2.values ≠ [])
    (matcher : SeriesMatcher) :
    ∃ ts, parseWhereClause ptree metrics matcher = (SeriesRetreiver.mk metrics ts).extractIds matcher ∧
      ts.Perm ((W.getD []).map fun e => (e.1, e.2.values)) ∧ ts.Sorted keyLE := by
  have hne : metrics.isEmpty = false := by simpa using hm
  cases W with
  | none => exact ⟨[], by simp [parseWhereClause, hW, hne], by simp, List.sorted_nil⟩
  | some W =>
    obtain ⟨ts, hfold, hperm, hs⟩ := foldl_addWhereItem hm W [] hvals hkeys List.sorted_nil
    exact ⟨ts, by simp [parseWhereClause, hW, hne, whereTree, PTree.obj, hfold], hperm, hs⟩

/-- For a plain metric and a plain where object, `parse_where_clause` runs
`extract_ids` with a pattern that selects exactly the series of the
metric that satisfy every entry. -/
theorem parseWhereClause_pattern {ptree : PTree} {m : String} (ms : List String)
    (hlit : Literal m) (hsp : ∀ c ∈ m.data, isSpace c = false)
    {W : Option (List (String × WhereValue))} (hW : ptree.getChildOptional "where" = W.map whereTree)
    (hkeys : ((W.getD []).map (·.1)).Nodup)
    (hplain : ∀ e ∈ W.getD [], PlainTag e.1 ∧ e.2.values ≠ [] ∧ ∀ v ∈ e.2.values, PlainTag v)
    (matcher : SeriesMatcher) :
    ∃ ts re, parseWhereClause ptree (m :: ms) matcher = (SeriesRetreiver.mk (m :: ms) ts).extractIds matcher ∧
      compile (if ts.isEmpty then m ++ anyTagsPattern else metricTagsPattern m ts) = some re ∧
      ∀ n : SeriesName, re.Lang n.render.data ↔
        n.metric = m ∧ ∀ e ∈ W.getD [], ∃ v ∈ e.2.values, (e.1, v) ∈ n.tags := by
  obtain ⟨ts, hr, hperm, hsorted⟩ := parseWhereClause_retriever (List.cons_ne_nil m ms) hW hkeys
    (fun e he => (hplain e he).2.1) matcher
  have hplain' : ∀ kv ∈ ts, PlainTag kv.1 ∧ kv.2 ≠ [] ∧ ∀ v ∈ kv.2, PlainTag v := fun kv hkv => by
    obtain ⟨e, he, rfl⟩ := List.mem_map.1 (hperm.subset hkv)
    exact hplain e he
  have hnd : (ts.map (·.1)).Nodup := by
    rw [(hperm.map _).nodup_iff]
    simpa [Function.comp_def] using hkeys
  obtain ⟨re, hc, hlang⟩ := compile_wherePattern hlit hsp hplain' (sorted_strLT_of_keyLE hsorted hnd)
  refine ⟨ts, re, hr, hc, fun n => (hlang n).trans ?_⟩
  simp only [hperm.mem_iff, List.forall_mem_map]

/-- Three series: `cpu host=a`, `cpu host=b` and `mem host=a`. -/
def hostCatalog : Catalog where
  series := [(⟨"cpu", [("host", "a")], by decide, by decide, by decide, List.sorted_singleton _⟩, 1),
             (⟨"cpu", [("host", "b")], by decide, by decide, by decide, List.sorted_singleton _⟩, 2),
             (⟨"mem", [("host", "a")], by decide, by decide, by decide, List.sorted_singleton _⟩, 3)]
  names_nodup := by decide
  ids_nodup := by decide

/-- Two series without tags, `cpu.a` and `cpu_a`. -/
def dotCatalog : Catalog where
  series := [(⟨"cpu.a", [], by decide, by decide, by decide, List.sorted_nil⟩, 1),
             (⟨"cpu_a", [], by decide, by decide, by decide, List.sorted_nil⟩, 2)]
  names_nodup := by decide
  ids_nodup := by decide

end Akumuli.QP
