/-
Akumuli.Query.DisplayNames — the names of the series of a plan's Tier-2
stage: the matcher a parser leaves in `select.matcher`, or the global
matcher where it leaves none.

A scan or an aggregate keeps the global matcher, or with group-by installs
`GroupByTag`'s local matcher, which names the groups of the transient map
when `GroupByTag` does (`LocalNamesGroups`, an assumption: its source is
not in the repository). A group-aggregate and a join install the matcher
that `renameLoop` builds from the first column (`renameLoop_id2str`): each
id is named by the metric part of §4.D followed by its name in the global
matcher from the first metric's length on. When the renaming stops, a
group-aggregate keeps the global matcher and a join fails.

The cut is the tag part of the name only when the where clause selected
series of the metric itself: a plain metric and a plain where object
(`PlainWhere`). A join over `cpu host=a` names `cpu host=a region=b` as
`cpu host=a|mem region=b`.
-/
import Akumuli.Query.Join

namespace Akumuli.QP

open Regex

/-! ## What the renamed matcher names -/

theorem id2str_add (m : SeriesMatcher) (name : String) (i j : Nat) :
    (m._add name i).id2str j = (m.id2str j).or (if i = j then some name else none) := by
  simp only [SeriesMatcher._add, SeriesMatcher.id2str, StringPool.add, List.find?_append,
    List.find?_singleton]
  cases m.pool.entries.find? (·.id = j) <;> by_cases h : i = j <;> simp [h]

theorem id2str_isSome_of_mem {matcher : SeriesMatcher} {e : PoolEntry} (h : e ∈ matcher.pool.entries) :
    (matcher.id2str e.id).isSome := by
  simpa [SeriesMatcher.id2str] using ⟨e, h, rfl⟩

/-- The name `renameLoop` gives an id: the prefix, then the id's name in
the global matcher from the metric's length on. -/
def renamedName (globalMatcher : SeriesMatcher) (metric prefix_ : String) (id : Nat) : String :=
  prefix_ ++ substr ((globalMatcher.id2str id).getD "") metric.length

/-- The matcher `renameLoop` builds names the ids it was given, each after
`renamedName`, and keeps the names it started with. -/
theorem renameLoop_id2str (gm : SeriesMatcher) (metric prefix_ : String) :
    ∀ {ids : List Nat} {m0 mm : SeriesMatcher}, renameLoop gm metric prefix_ ids m0 = some mm →
      ∀ id, mm.id2str id =
        (m0.id2str id).or (if id ∈ ids then some (renamedName gm metric prefix_ id) else none)
  | [], m0, mm, h, id => by
    cases h
    simp [Option.or_none]
  | i :: rest, m0, mm, h, id => by
    simp only [renameLoop] at h
    split at h
    · rw [renameLoop_id2str gm metric prefix_ h id, id2str_add]
      by_cases hi : i = id
      · subst hi
        cases m0.id2str i <;> simp [renamedName]
      · cases m0.id2str id <;> simp [hi, Ne.symm hi]
    · cases h

/-- A matcher renamed from nothing names every id it was given. -/
theorem renameLoop_names {gm : SeriesMatcher} {metric prefix_ : String} {ids : List Nat}
    {mm : SeriesMatcher} (h : renameLoop gm metric prefix_ ids .empty = some mm) :
    ∀ id ∈ ids, mm.id2str id = some (renamedName gm metric prefix_ id) := fun id hid => by
  rw [renameLoop_id2str gm metric prefix_ h id, if_pos hid]
  rfl

/-- The renaming goes through when every name starts with the metric. -/
theorem renameLoop_isSome (gm : SeriesMatcher) (metric prefix_ : String) :
    ∀ {ids : List Nat} {m0 : SeriesMatcher},
      (∀ id ∈ ids, metric.data.isPrefixOf ((gm.id2str id).getD "").data) →
        (renameLoop gm metric prefix_ ids m0).isSome
  | [], _, _ => rfl
  | i :: rest, _, h => by
    simp only [renameLoop, h i (List.mem_cons_self _ _), if_true]
    exact renameLoop_isSome gm metric prefix_ fun id hid => h id (List.mem_cons_of_mem _ hid)

/-- Renaming the series of a plain metric `m`: the name is the prefix
followed by the series' tag part. -/
theorem renamedName_catalog {cat : Catalog} {n : SeriesName} {id : Nat} (h : (n, id) ∈ cat.series)
    (prefix_ : String) : renamedName cat.matcher n.metric prefix_ id = prefix_ ++ cat.tagPartOf id := by
  rw [renamedName, id2str_catalog h, Option.getD_some, substr_render, tagPartOf_of_mem h]

/-- The renaming of series of the metric goes through. -/
theorem renameLoop_isSome_catalog {cat : Catalog} {m : String} (prefix_ : String) {ids : List Nat}
    (hsel : ∀ id ∈ ids, ∃ n, (n, id) ∈ cat.series ∧ n.metric = m) (m0 : SeriesMatcher) :
    (renameLoop cat.matcher m prefix_ ids m0).isSome :=
  renameLoop_isSome cat.matcher m prefix_ fun id hid => by
    obtain ⟨n, hn, rfl⟩ := hsel id hid
    simp [id2str_catalog hn, SeriesName.render]

/-- Renamed series of the metric are named by the prefix followed by
their tag part. -/
theorem renameLoop_catalog_names {cat : Catalog} {m prefix_ : String} {ids : List Nat}
    {mm : SeriesMatcher} (h : renameLoop cat.matcher m prefix_ ids .empty = some mm)
    (hsel : ∀ id ∈ ids, ∃ n, (n, id) ∈ cat.series ∧ n.metric = m) :
    ∀ id ∈ ids, mm.id2str id = some (prefix_ ++ cat.tagPartOf id) := fun id hid => by
  obtain ⟨n, hn, rfl⟩ := hsel id hid
  rw [renameLoop_names h id hid, renamedName_catalog hn]

/-! ## The ids a where clause returns for one metric -/

/-- `extract_ids` for one metric returns ids of the matcher's names. -/
theorem extractIds_single_named {r : SeriesRetreiver} {m : String} (hr : r.metric = [m])
    {matcher : SeriesMatcher} {s : Status} {ids : List Nat} (h : r.extractIds matcher = .ok (s, ids)) :
    ∀ id ∈ ids, (matcher.id2str id).isSome := by
  simp only [SeriesRetreiver.extractIds, hr] at h
  split at h
  · cases h
  · rename_i results hm
    simp only [pure_bind, List.isEmpty_nil, if_true] at h
    obtain ⟨test, -, rfl⟩ := Option.map_eq_some'.1 hm
    obtain ⟨-, rfl⟩ := Prod.mk.inj (pure_eq_ok.1 h)
    simp only [List.mem_map, List.mem_filter]
    rintro id ⟨e, ⟨he, -⟩, rfl⟩
    exact id2str_isSome_of_mem he

/-- `parse_where_clause` for one metric returns ids of the matcher's names. -/
theorem parseWhereClause_single_named {ptree : PTree} {m : String} {matcher : SeriesMatcher}
    {s : Status} {ids : List Nat} (h : parseWhereClause ptree [m] matcher = .ok (s, ids)) :
    ∀ id ∈ ids, (matcher.id2str id).isSome := by
  unfold parseWhereClause at h
  split at h
  · exact extractIds_single_named (foldl_addWhereItem_metric _ _) (by simpa using h)
  · exact extractIds_single_named rfl (by simpa using h)

/-- A where object `extract_ids` reads literally: absent, or distinct plain
keys, each with a non-empty list of plain values. -/
def PlainWhere (ptree : PTree) : Prop :=
  ∃ W : Option (List (String × WhereValue)), ptree.getChildOptional "where" = W.map whereTree ∧
    ((W.getD []).map (·.1)).Nodup ∧
    ∀ e ∈ W.getD [], PlainTag e.1 ∧ e.2.values ≠ [] ∧ ∀ v ∈ e.2.values, PlainTag v

/-- For a plain metric and a plain where object, the ids of one metric are
catalog series of that metric. -/
theorem parseWhereClause_plain_single {cat : Catalog} {ptree : PTree} {m : String}
    (hlit : Literal m) (hsp : ∀ c ∈ m.data, isSpace c = false) (hw : PlainWhere ptree)
    {s : Status} {ids : List Nat} (h : parseWhereClause ptree [m] cat.matcher = .ok (s, ids)) :
    ∀ id ∈ ids, ∃ n, (n, id) ∈ cat.series ∧ n.metric = m := by
  obtain ⟨W, hW, hkeys, hplain⟩ := hw
  obtain ⟨ts, re, hr, hc, hlang⟩ := parseWhereClause_pattern [] hlit hsp hW hkeys hplain cat.matcher
  rw [hr, extractIds_eq rfl hc] at h
  obtain ⟨-, rfl⟩ := Prod.mk.inj (Except.ok.inj h)
  intro id hid
  obtain ⟨n, hn, hl⟩ := ((matchedIds_catalog cat re).2 id).1 (by simpa using hid)
  exact ⟨n, hn, ((hlang n).1 hl).1⟩

/-! ## The Tier-2 ids of a plan -/

variable {Fn : Type}

/-- `create_group_aggregate` builds no plan for a request with group-by. -/
theorem createGroupAggregate_groupBy {r : ReshapeRequest Fn} (hg : r.groupBy.enabled = true)
    (stages : List (QueryPlanStage Fn)) : createGroupAggregate r ≠ .ok stages := by
  unfold createGroupAggregate
  cases firstIds r <;> split_ifs <;> simp [hg] <;> nofun

/-- Whatever builder `create_plan` picks, the Tier-2 ids are the ids of the
first column, or with group-by their `transient_map` images. -/
theorem createPlan_tier2_ids {r : ReshapeRequest Fn} {t1 t2 : QueryPlanStage Fn}
    (hp : createPlan r = .ok [t1, t2]) :
    ∃ ids, firstIds r = .ok ids ∧ t2.ids = if r.groupBy.enabled then transientIds r ids else ids := by
  cases hf : firstIds r with
  | error e =>
    exfalso
    unfold createPlan at hp
    split_ifs at hp <;> simp [createAggregate, createGroupAggregate, createJoin, createScan, hf,
      error_bind, throw_bind] at hp <;> split_ifs at hp
  | ok ids =>
    refine ⟨ids, rfl, ?_⟩
    unfold createPlan at hp
    split_ifs at hp <;> simp [createAggregate, createGroupAggregate, createJoin, createScan, hf,
      error_bind, throw_bind] at hp <;> split_ifs at hp
    all_goals first
      | (cases hp <;> simp [*])
      | (obtain ⟨_, -, hp⟩ := bind_eq_ok.1 hp; cases hp <;> simp [*])

/-! ## The names of the Tier-2 ids -/

/-- `GroupByTag`'s local matcher names every group of its transient map. -/
def LocalNamesGroups (env : Env Fn) (matcher : SeriesMatcher) : Prop :=
  ∀ metric tags, ∀ p ∈ (env.groupByTag matcher metric tags).mapping,
    ((env.groupByTag matcher metric tags).localMatcher.id2str p.2).isSome

/-- The metric whose series the where clause selects: the statement's
metric, the first one of a join. -/
def selectedMetric (env : Env Fn) (K : QueryKind) (ptree : PTree) : String :=
  match K with
  | .SELECT => (parseSelectStmt ptree).2
  | .AGGREGATE => (parseAggregateStmt ptree).2.1
  | .GROUP_AGGREGATE => (parseGroupAggregateStmt env ptree).2.metric
  | .JOIN => (parseJoinStmt ptree).2.headD ""
  | .SELECT_META => ""

/-- The metric part of a display name (§4.D): `m:f1|...|m:fj` for a
group-aggregate, `m1|...|mk` for a join; the other kinds keep the names of
the catalog. -/
def displayMetric (env : Env Fn) (K : QueryKind) (ptree : PTree) : String :=
  match K with
  | .GROUP_AGGREGATE =>
    "|".intercalate ((parseGroupAggregateStmt env ptree).2.func.map fun f =>
      (parseGroupAggregateStmt env ptree).2.metric ++ ":" ++ env.aggToString f)
  | .JOIN => "|".intercalate (parseJoinStmt ptree).2
  | _ => ""

section Names

variable (env : Env Fn) (cat : Catalog) {ptree : PTree} {r : ReshapeRequest Fn}
  {t1 t2 : QueryPlanStage Fn}

/-- A scan or an aggregate of one metric: the Tier-2 ids are those of its
where clause, named by the global matcher, or with group-by their groups,
named by the local matcher. -/
theorem withGroupBy_tier2_named (hgroup : LocalNamesGroups env cat.matcher)
    {req : ReshapeRequest Fn} (hm : req.select.matcher = none) {c : Column}
    (hc : req.select.columns = [c]) (hw : ∀ id ∈ c.ids, (cat.matcher.id2str id).isSome)
    {metric : String} {tags : List String}
    (hp : createPlan (withGroupBy req (groupByTagOf env cat.matcher metric tags)) = .ok [t1, t2]) :
    ∀ id ∈ t2.ids, (((withGroupBy req (groupByTagOf env cat.matcher metric tags)).select.matcher.getD
      cat.matcher).id2str id).isSome := by
  obtain ⟨ids, hf, ht2⟩ := createPlan_tier2_ids hp
  rw [firstIds_cons (by rw [withGroupBy_columns, hc])] at hf
  cases hf
  rw [ht2]
  generalize hG : groupByTagOf env cat.matcher metric tags = g
  intro id hid
  cases g with
  | none =>
    simp only [withGroupBy, hm, Bool.false_eq_true, if_false, Option.getD_none] at hid ⊢
    exact hw id hid
  | some G =>
    simp only [withGroupBy, transientIds, if_true, List.mem_filterMap, Option.getD_some] at hid ⊢
    obtain ⟨k, -, hk⟩ := hid
    obtain ⟨l₁, l₂, hl, -⟩ := List.lookup_eq_some_iff.1 hk
    unfold groupByTagOf at hG
    split_ifs at hG
    cases hG
    exact hgroup metric tags (k, id) (by rw [hl]; simp)

/-- A group-aggregate: the Tier-2 ids are those of its where clause, named
by the renamed matcher, or by the global one where the renaming stopped;
for a plain metric and a plain where object the renaming goes through and
names each id by `m:f1|...|m:fj` followed by its tag part. -/
theorem groupAggregate_tier2_named
    (h : parseGroupAggregateQuery env ptree cat.matcher = .ok (.success, r))
    (hp : createPlan r = .ok [t1, t2]) :
    (∀ id ∈ t2.ids, ((r.select.matcher.getD cat.matcher).id2str id).isSome) ∧
      (Literal (parseGroupAggregateStmt env ptree).2.metric →
        (∀ c ∈ (parseGroupAggregateStmt env ptree).2.metric.data, isSpace c = false) →
        PlainWhere ptree → ∀ id ∈ t2.ids, (r.select.matcher.getD cat.matcher).id2str id =
          some (displayMetric env .GROUP_AGGREGATE ptree ++ cat.tagPartOf id)) := by
  obtain ⟨-, -, ⟨-, rfl⟩ | ⟨-, hs, -, -, ids, st, r', hw, hi, hr⟩⟩ := parseGroupAggregateQuery_ok env h
  · cases hp
  have hr' := initMatcherInGroupAggregate_select env rfl hi
  have hagg : r.agg = ⟨true, (parseGroupAggregateStmt env ptree).2.func,
      (parseGroupAggregateStmt env ptree).2.step⟩ := by
    rw [hr, withGroupBy_agg, hr']
  generalize groupByTagOf env cat.matcher _ _ = g at hr
  cases g
  case some G =>
    have hga : createPlan r = createGroupAggregate r := by simp [createPlan, hagg, hs]
    exact absurd (hga.symm.trans hp) (createGroupAggregate_groupBy (by rw [hr]; rfl) _)
  obtain ⟨ids', hf, ht2⟩ := createPlan_tier2_ids hp
  rw [firstIds_cons (show r.select.columns = [⟨ids⟩] by rw [hr, withGroupBy_columns, hr'])] at hf
  cases hf
  rw [show r.groupBy.enabled = false by rw [hr]; rfl, if_neg Bool.false_ne_true] at ht2
  have hm : r.select.matcher = r'.select.matcher := by rw [hr]; rfl
  rw [initMatcherInGroupAggregate_eq env rfl] at hi
  rw [ht2, hm]
  split at hi
  · rename_i hren
    obtain ⟨-, rfl⟩ := Prod.mk.inj (Except.ok.inj hi)
    refine ⟨parseWhereClause_single_named hw, fun hlit hsp hpw => ?_⟩
    exact absurd hren (Option.ne_none_iff_isSome.2
      (renameLoop_isSome_catalog _ (parseWhereClause_plain_single hlit hsp hpw hw) _))
  · rename_i mm hren
    obtain ⟨-, rfl⟩ := Prod.mk.inj (Except.ok.inj hi)
    refine ⟨fun id hid => by simp [renameLoop_names hren id hid], fun hlit hsp hpw => ?_⟩
    exact renameLoop_catalog_names hren (parseWhereClause_plain_single hlit hsp hpw hw)

/-- A join: the Tier-2 ids are its first column, named by the renamed
matcher; for a plain first metric and a plain where object each id is
named by `m1|...|mk` followed by its tag part. -/
theorem join_tier2_named (h : parseJoinQuery env ptree cat.matcher = .ok (.success, r))
    (hp : createPlan r = .ok [t1, t2]) :
    (∀ id ∈ t2.ids, ((r.select.matcher.getD cat.matcher).id2str id).isSome) ∧
      (Literal ((parseJoinStmt ptree).2.headD "") →
        (∀ c ∈ ((parseJoinStmt ptree).2.headD "").data, isSpace c = false) →
        PlainWhere ptree → ∀ id ∈ t2.ids, (r.select.matcher.getD cat.matcher).id2str id =
          some (displayMetric env .JOIN ptree ++ cat.tagPartOf id)) := by
  obtain ⟨-, -, -, -, ids, -, -, -, -, hi⟩ := parseJoinQuery_ok env h
  obtain ⟨h2, hlen, c0, mm, hc0, hren, hr⟩ := initMatcherInJoinQuery_ok hi
  have hc0 : vectorAt r.select.columns 0 = .ok c0 := by rw [hr]; exact hc0
  obtain ⟨ids', hf, ht2⟩ := createPlan_tier2_ids hp
  rw [firstIds, hc0] at hf
  cases hf
  rw [show r.groupBy.enabled = false by rw [hr], if_neg Bool.false_ne_true] at ht2
  refine ⟨fun id hid => ?_, fun hlit hsp hpw => ?_⟩
  · rw [ht2] at hid
    simp [hr, renameLoop_names hren id hid]
  · have hk : 2 ≤ (parseJoinStmt ptree).2.length := hlen ▸ h2
    obtain ⟨m, ms, hjoin⟩ := List.exists_cons_of_ne_nil
      (show (parseJoinStmt ptree).2 ≠ [] from List.ne_nil_of_length_pos (by omega))
    simp only [hjoin, List.headD_cons] at hlit hsp
    obtain ⟨W, hW, hkeys, hplain⟩ := hpw
    obtain ⟨sel, -, hmem, -, hc0', -, -, -, mm', hren', hm'⟩ :=
      parseJoinQuery_columns env cat hjoin hlit hsp hW hkeys hplain h
    have hsel : ∀ id ∈ sel, ∃ n, (n, id) ∈ cat.series ∧ n.metric = m := fun id hid => by
      obtain ⟨n, hn, hm, -⟩ := (hmem id).1 hid
      exact ⟨n, hn, hm⟩
    rw [hc0'] at hc0
    cases hc0
    rw [ht2, hm', displayMetric, hjoin]
    exact renameLoop_catalog_names hren' hsel

end Names

end Akumuli.QP
