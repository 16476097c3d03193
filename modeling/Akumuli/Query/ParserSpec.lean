/-
Akumuli.Query.ParserSpec — what a successful run of each
`QueryParser::parse_*_query` has passed through, and the request it
returns.

Each parser is a chain of early exits `if (status != AKU_SUCCESS) return
std::make_tuple(status, result)`. A run that ends with `AKU_SUCCESS` has
passed every one of them (`guard_ok`), except for the two exits of
`parse_group_aggregate_query` that carry the status of a successful
statement parse. The lemmas here say, once per parser, which calls
succeeded and what the request is; the theorems about plans and names
use them and never unfold a parser.
-/
import Akumuli.Query.Parser

namespace Akumuli.QP

variable {Fn : Type} (env : Env Fn)

/-! ## Runs in `Except` -/

/-- An early exit that returns its status: a run that succeeds has passed it. -/
theorem guard_ok {α : Type} {s : Status} {e r : α} {x : Except Fault (Status × α)}
    (h : (if s ≠ .success then pure (s, e) else x) = .ok (.success, r)) :
    s = .success ∧ x = .ok (.success, r) := by
  by_cases hs : s = .success
  · simp_all
  · simp [hs, pure, Except.pure] at h

/-- An early exit with any status: a run that succeeds took it with a
success status, or passed it. -/
theorem exit_ok {α : Type} {c : Prop} [Decidable c] {s : Status} {e r : α}
    {x : Except Fault (Status × α)} (h : (if c then pure (s, e) else x) = .ok (.success, r)) :
    c ∧ s = .success ∧ e = r ∨ ¬c ∧ x = .ok (.success, r) := by
  by_cases hc : c <;> simp_all [pure, Except.pure]

/-- A panic on the way: a run that succeeds did not reach it. -/
theorem throw_ok {α β : Type} {c : Prop} [Decidable c] {f : Fault} {k : α → Except Fault β}
    {x : Except Fault β} {b : β} (h : (if c then throw f >>= k else x) = .ok b) :
    ¬c ∧ x = .ok b := by
  by_cases hc : c <;> simp_all [throw, throwThe, MonadExceptOf.throw, bind, Except.bind]

theorem vectorAt_of_lt {α : Type} {xs : List α} {i : Nat} (d : α) (h : i < xs.length) :
    vectorAt xs i = .ok (xs.getD i d) := by
  simp [vectorAt, List.get?_eq_getElem?, h]

/-! ## The group-by part -/

@[simp] theorem withGroupBy_agg (req : ReshapeRequest Fn) (g : Option GroupByTag) :
    (withGroupBy req g).agg = req.agg := by cases g <;> rfl

@[simp] theorem withGroupBy_columns (req : ReshapeRequest Fn) (g : Option GroupByTag) :
    (withGroupBy req g).select.columns = req.select.columns := by cases g <;> rfl

@[simp] theorem withGroupBy_orderBy (req : ReshapeRequest Fn) (g : Option GroupByTag) :
    (withGroupBy req g).orderBy = req.orderBy := by cases g <;> rfl

@[simp] theorem withGroupBy_enabled (req : ReshapeRequest Fn) (g : Option GroupByTag) :
    (withGroupBy req g).groupBy.enabled = g.isSome := by cases g <;> rfl

@[simp] theorem groupByTagOf_nil (matcher : SeriesMatcher) (metric : String) :
    groupByTagOf env matcher metric [] = none := rfl

/-! ## The four parsers -/

variable {ptree : PTree} {matcher : SeriesMatcher} {r : ReshapeRequest Fn}

theorem parseSelectQuery_ok (h : parseSelectQuery env ptree matcher = .ok (.success, r)) :
    validateQuery ptree = .success ∧ (parseSelectStmt ptree).1 = .success ∧
      (parseOrderby ptree).1 = .success ∧ (parseRangeTimestamp env ptree).1 = .success ∧
      ∃ ids, parseWhereClause ptree [(parseSelectStmt ptree).2] matcher = .ok (.success, ids) ∧
        r = withGroupBy
          { (ReshapeRequest.empty : ReshapeRequest Fn) with
            agg.enabled := false,
            select.begin := (parseRangeTimestamp env ptree).2.1,
            select.«end» := (parseRangeTimestamp env ptree).2.2,
            select.columns := [Column.mk ids], orderBy := (parseOrderby ptree).2 }
          (groupByTagOf env matcher (parseSelectStmt ptree).2 (parseGroupby ptree).2) := by
  simp only [parseSelectQuery, pure_bind] at h
  obtain ⟨hv, h⟩ := guard_ok h
  obtain ⟨hs, h⟩ := guard_ok h
  obtain ⟨-, h⟩ := guard_ok h
  obtain ⟨ho, h⟩ := guard_ok h
  obtain ⟨⟨st, ids⟩, hw, h⟩ := bind_eq_ok.1 h
  obtain ⟨rfl, h⟩ := guard_ok h
  obtain ⟨hr, h⟩ := guard_ok h
  exact ⟨hv, hs, ho, hr, ids, hw, (Prod.mk.inj (pure_eq_ok.1 h)).2.symm⟩

theorem parseAggregateQuery_ok (h : parseAggregateQuery env ptree matcher = .ok (.success, r)) :
    validateQuery ptree = .success ∧ (parseAggregateStmt ptree).1 = .success ∧
      (env.aggFromString (parseAggregateStmt ptree).2.2).1 = .success ∧
      ptree.getChildOptional "order-by" = none ∧ (parseRangeTimestamp env ptree).1 = .success ∧
      ∃ ids, parseWhereClause ptree [(parseAggregateStmt ptree).2.1] matcher = .ok (.success, ids) ∧
        r = withGroupBy
          { (ReshapeRequest.empty : ReshapeRequest Fn) with
            agg.enabled := true, agg.func := [(env.aggFromString (parseAggregateStmt ptree).2.2).2],
            select.begin := (parseRangeTimestamp env ptree).2.1,
            select.«end» := (parseRangeTimestamp env ptree).2.2,
            select.columns := [Column.mk ids], orderBy := .SERIES }
          (groupByTagOf env matcher (parseAggregateStmt ptree).2.1 (parseGroupby ptree).2) := by
  simp only [parseAggregateQuery, pure_bind] at h
  obtain ⟨hv, h⟩ := guard_ok h
  obtain ⟨hs, h⟩ := guard_ok h
  obtain ⟨hf, h⟩ := guard_ok h
  obtain ⟨-, h⟩ := guard_ok h
  obtain ⟨-, ho, -⟩ | ⟨ho, h⟩ := exit_ok h
  · cases ho
  obtain ⟨⟨st, ids⟩, hw, h⟩ := bind_eq_ok.1 h
  obtain ⟨rfl, h⟩ := guard_ok h
  obtain ⟨hr, h⟩ := guard_ok h
  refine ⟨hv, hs, hf, by simpa using ho, hr, ids, hw, (Prod.mk.inj (pure_eq_ok.1 h)).2.symm⟩

/-- `parse_group_aggregate_query` succeeds with the empty request when the
statement has no function or a zero step; otherwise with the request of
its statement, whatever `init_matcher_in_group_aggregate` reports. -/
theorem parseGroupAggregateQuery_ok
    (h : parseGroupAggregateQuery env ptree matcher = .ok (.success, r)) :
    validateQuery ptree = .success ∧ (parseGroupAggregateStmt env ptree).1 = .success ∧
      ((((parseGroupAggregateStmt env ptree).2.func = [] ∨ (parseGroupAggregateStmt env ptree).2.step = 0) ∧
        r = .empty) ∨
      ((parseGroupAggregateStmt env ptree).2.func ≠ [] ∧ (parseGroupAggregateStmt env ptree).2.step ≠ 0 ∧
        (parseRangeTimestamp env ptree).1 = .success ∧ (parseOrderby ptree).1 = .success ∧
        ∃ ids st r', parseWhereClause ptree [(parseGroupAggregateStmt env ptree).2.metric] matcher =
            .ok (.success, ids) ∧
          initMatcherInGroupAggregate env
            { (ReshapeRequest.empty : ReshapeRequest Fn) with
              agg.enabled := true, agg.func := (parseGroupAggregateStmt env ptree).2.func,
              agg.step := (parseGroupAggregateStmt env ptree).2.step,
              select.begin := (parseRangeTimestamp env ptree).2.1,
              select.«end» := (parseRangeTimestamp env ptree).2.2,
              select.columns := [Column.mk ids], orderBy := (parseOrderby ptree).2 }
            matcher (parseGroupAggregateStmt env ptree).2.metric
            (parseGroupAggregateStmt env ptree).2.func = .ok (st, r') ∧
          r = withGroupBy r' (groupByTagOf env matcher (parseGroupAggregateStmt env ptree).2.metric
            (parseGroupby ptree).2))) := by
  simp only [parseGroupAggregateQuery, pure_bind] at h
  obtain ⟨hv, h⟩ := guard_ok h
  obtain ⟨hs, h⟩ := guard_ok h
  refine ⟨hv, hs, ?_⟩
  obtain ⟨hf, -, hr⟩ | ⟨hf, h⟩ := exit_ok h
  · exact .inl ⟨.inl (by simpa using hf), hr.symm⟩
  obtain ⟨hz, -, hr⟩ | ⟨hz, h⟩ := exit_ok h
  · exact .inl ⟨.inr hz, hr.symm⟩
  obtain ⟨-, h⟩ := guard_ok h
  obtain ⟨⟨st, ids⟩, hw, h⟩ := bind_eq_ok.1 h
  obtain ⟨rfl, h⟩ := guard_ok h
  obtain ⟨hr, h⟩ := guard_ok h
  obtain ⟨ho, h⟩ := guard_ok h
  obtain ⟨⟨st', r'⟩, hi, h⟩ := bind_eq_ok.1 h
  exact .inr ⟨by simpa using hf, hz, hr, ho, ids, st', r', hw, hi,
    (Prod.mk.inj (pure_eq_ok.1 h)).2.symm⟩

/-- The columns of a join: `ncolumns` runs of `nentries` ids, read at the
`u32` index `idix`. -/
theorem joinColumns_ok (ids : List Nat) (k : Nat) (hk : ids.length % k = 0) :
    ((List.range k).mapM fun i => (List.range (ids.length / k)).mapM fun j =>
      vectorAt ids ((i * (ids.length / k) + j) % 2 ^ 32)) =
      .ok ((List.range k).map fun i => (List.range (ids.length / k)).map fun j =>
        ids.getD ((i * (ids.length / k) + j) % 2 ^ 32) 0) := by
  refine mapM_ok fun i hi => mapM_ok fun j hj => vectorAt_of_lt 0 ?_
  have hi := List.mem_range.1 hi
  have hj := List.mem_range.1 hj
  have hlen : ids.length = k * (ids.length / k) := (Nat.mul_div_cancel' (Nat.dvd_of_mod_eq_zero hk)).symm
  calc (i * (ids.length / k) + j) % 2 ^ 32 ≤ i * (ids.length / k) + j := Nat.mod_le _ _
    _ < i * (ids.length / k) + ids.length / k := by omega
    _ = (i + 1) * (ids.length / k) := by rw [Nat.succ_mul]
    _ ≤ k * (ids.length / k) := Nat.mul_le_mul_right _ hi
    _ = ids.length := hlen.symm

/-- `parse_join_query` succeeds with the columns cut from the ids of the
where clause, once `init_matcher_in_join_query` succeeds on them; its
`u32` loops have ended, so both bounds are below `2^32`. -/
theorem parseJoinQuery_ok (h : parseJoinQuery env ptree matcher = .ok (.success, r)) :
    validateQuery ptree = .success ∧ (parseJoinStmt ptree).1 = .success ∧
      (parseOrderby ptree).1 = .success ∧ (parseRangeTimestamp env ptree).1 = .success ∧
      ∃ ids, parseWhereClause ptree (parseJoinStmt ptree).2 matcher = .ok (.success, ids) ∧
        ids.length % (parseJoinStmt ptree).2.length = 0 ∧
        (parseJoinStmt ptree).2.length < 2 ^ 32 ∧ ids.length / (parseJoinStmt ptree).2.length < 2 ^ 32 ∧
        initMatcherInJoinQuery
          { (ReshapeRequest.empty : ReshapeRequest Fn) with
            agg.enabled := false, groupBy.enabled := false,
            select.begin := (parseRangeTimestamp env ptree).2.1,
            select.«end» := (parseRangeTimestamp env ptree).2.2,
            select.columns := (List.range (parseJoinStmt ptree).2.length).map fun i =>
              Column.mk ((List.range (ids.length / (parseJoinStmt ptree).2.length)).map fun j =>
                ids.getD ((i * (ids.length / (parseJoinStmt ptree).2.length) + j) % 2 ^ 32) 0),
            orderBy := (parseOrderby ptree).2 }
          matcher (parseJoinStmt ptree).2 = .ok (.success, r) := by
  simp only [parseJoinQuery, pure_bind] at h
  obtain ⟨hv, h⟩ := guard_ok h
  obtain ⟨hs, h⟩ := guard_ok h
  obtain ⟨ho, h⟩ := guard_ok h
  obtain ⟨⟨st, ids⟩, hw, h⟩ := bind_eq_ok.1 h
  obtain ⟨rfl, h⟩ := guard_ok h
  obtain ⟨hr, h⟩ := guard_ok h
  obtain ⟨hk, h⟩ := throw_ok h
  have hk : ids.length % (parseJoinStmt ptree).2.length = 0 := not_not.1 hk
  obtain ⟨hbounds, h⟩ := throw_ok h
  obtain ⟨hcols, hrows⟩ := not_or.1 hbounds
  obtain ⟨cols, hcols', h⟩ := bind_eq_ok.1 h
  rw [joinColumns_ok ids _ hk] at hcols'
  cases hcols'
  obtain ⟨⟨st', r'⟩, hi, h⟩ := bind_eq_ok.1 h
  obtain ⟨rfl, h⟩ := guard_ok h
  obtain rfl := (Prod.mk.inj (pure_eq_ok.1 h)).2
  refine ⟨hv, hs, ho, hr, ids, hw, hk, Nat.lt_of_not_le hcols, Nat.lt_of_not_le hrows, ?_⟩
  simpa [List.map_map, Function.comp_def] using hi

/-! ## The ids of a join's where clause

For metrics `m :: ms`, `extract_ids` returns the selection followed by one
id per further metric and selected series: `|ms| + 1` runs of one length.
So the `% ncolumns` check of `parse_join_query` never fires. -/

theorem addTags_metric (r : SeriesRetreiver) (name : String) (values : List String) :
    (r.addTags name values).2.metric = r.metric := by
  unfold SeriesRetreiver.addTags
  split_ifs <;> rfl

theorem foldl_addWhereItem_metric (es : List (String × PTree)) (r : SeriesRetreiver) :
    (es.foldl addWhereItem r).metric = r.metric := by
  induction es generalizing r with
  | nil => rfl
  | cons e es ih =>
    rw [List.foldl_cons, ih]
    unfold addWhereItem
    split <;> apply addTags_metric

theorem length_flatten_eq_mul {α : Type} {n : Nat} :
    ∀ {rows : List (List α)}, (∀ row ∈ rows, row.length = n) → rows.flatten.length = rows.length * n
  | [], _ => by simp
  | row :: rows, h => by
    rw [List.flatten_cons, List.length_append, h row (List.mem_cons_self _ _),
      length_flatten_eq_mul fun r hr => h r (List.mem_cons_of_mem _ hr), List.length_cons,
      Nat.succ_mul, Nat.add_comm]

theorem altIds_length {firstMetric : String} {ids : List Nat} {tail : List String} {alt : List Nat}
    (h : SeriesRetreiver.altIds matcher firstMetric ids tail = .ok alt) :
    alt.length = tail.length * ids.length := by
  obtain ⟨rows, hrows, rfl⟩ := map_eq_ok.1 h
  obtain ⟨hlen, hmem⟩ := mapM_eq_ok hrows
  rw [← hlen]
  refine length_flatten_eq_mul fun row hrow => ?_
  obtain ⟨_, -, hrow⟩ := hmem row hrow
  exact (mapM_eq_ok hrow).1

theorem altIds_error {firstMetric : String} {ids : List Nat} {tail : List String} {f : Fault}
    (h : SeriesRetreiver.altIds matcher firstMetric ids tail = .error f) :
    f = .panic "Matcher data is broken" := by
  obtain ⟨_, -, h⟩ := mapM_eq_error (map_eq_error.1 h)
  obtain ⟨id, -, h⟩ := mapM_eq_error h
  split at h <;> cases h
  rfl

/-- `extract_ids` for metrics `m :: ms` returns `|ms| + 1` runs of ids. -/
theorem extractIds_length {r : SeriesRetreiver} {m : String} {ms : List String}
    (hr : r.metric = m :: ms) {s : Status} {ids : List Nat}
    (h : r.extractIds matcher = .ok (s, ids)) : (ms.length + 1) ∣ ids.length := by
  simp only [SeriesRetreiver.extractIds, hr, pure_bind] at h
  split at h
  · cases h
  split at h
  · obtain ⟨-, rfl⟩ := Prod.mk.inj (pure_eq_ok.1 h)
    simp_all [List.isEmpty_iff]
  · obtain ⟨alt, halt, h⟩ := bind_eq_ok.1 h
    obtain ⟨-, rfl⟩ := Prod.mk.inj (pure_eq_ok.1 h)
    exact ⟨_, by rw [List.length_append, altIds_length halt, List.length_map, Nat.succ_mul,
      Nat.add_comm]⟩

theorem extractIds_error {r : SeriesRetreiver} {f : Fault} (h : r.extractIds matcher = .error f) :
    f = .regexError ∨ f = .panic "Matcher data is broken" := by
  simp only [SeriesRetreiver.extractIds, pure_bind] at h
  split at h
  · cases h
  split at h
  · exact .inl (by cases h; rfl)
  split at h
  · cases h
  rcases bind_eq_error.1 h with h | ⟨_, -, h⟩
  · exact .inr (altIds_error h)
  · cases h

theorem parseWhereClause_length {m : String} {ms : List String} {s : Status} {ids : List Nat}
    (h : parseWhereClause ptree (m :: ms) matcher = .ok (s, ids)) : (ms.length + 1) ∣ ids.length := by
  rw [parseWhereClause] at h
  split at h
  · rw [if_neg (by simp)] at h
    exact extractIds_length (foldl_addWhereItem_metric _ _) h
  · rw [if_pos (by simp)] at h
    exact extractIds_length rfl h

theorem parseWhereClause_error {metrics : List String} {f : Fault}
    (h : parseWhereClause ptree metrics matcher = .error f) :
    f = .regexError ∨ f = .panic "Matcher data is broken" := by
  rw [parseWhereClause] at h
  split at h <;> split_ifs at h
  all_goals first | cases h | exact extractIds_error h

theorem parseJoinStmt_ne_nil (h : (parseJoinStmt ptree).1 = .success) : (parseJoinStmt ptree).2 ≠ [] := by
  dsimp only [parseJoinStmt] at h ⊢
  split_ifs at h ⊢ with he
  simpa [List.isEmpty_iff] using he

/-- An early exit returns: a run that fails has passed it. -/
theorem exit_error {α : Type} {c : Prop} [Decidable c] {a : α} {x : Except Fault α} {f : Fault}
    (h : (if c then pure a else x) = .error f) : ¬c ∧ x = .error f := by
  by_cases hc : c <;> simp_all [pure, Except.pure]

theorem initMatcherInJoinQuery_error {req : ReshapeRequest Fn} {metricNames : List String}
    {f : Fault} (h : initMatcherInJoinQuery req matcher metricNames = .error f) : f = .outOfRange := by
  simp only [initMatcherInJoinQuery, pure_bind] at h
  obtain ⟨-, h⟩ := exit_error h
  obtain ⟨-, h⟩ := exit_error h
  rcases bind_eq_error.1 h with h | ⟨_, -, h⟩
  · simp only [vectorAt] at h
    split at h <;> cases h
    rfl
  · split at h <;> cases h

/-- The `AKU_PANIC` of `parse_join_query` on `ids.size() % ncolumns` is
never reached, whatever the query and the matcher. -/
theorem parseJoinQuery_ne_where_panic (ptree : PTree) (matcher : SeriesMatcher) :
    parseJoinQuery env ptree matcher ≠ .error (.panic "Invalid `where` statement processing results") := by
  intro h
  simp only [parseJoinQuery, pure_bind] at h
  obtain ⟨-, h⟩ := exit_error h
  obtain ⟨hs, h⟩ := exit_error h
  obtain ⟨-, h⟩ := exit_error h
  rcases bind_eq_error.1 h with hw | ⟨⟨st, ids⟩, hw, h⟩
  · rcases parseWhereClause_error hw with h | h <;> simp at h
  obtain ⟨-, h⟩ := exit_error h
  obtain ⟨-, h⟩ := exit_error h
  obtain ⟨m, ms, hjoin⟩ := List.exists_cons_of_ne_nil (parseJoinStmt_ne_nil (not_not.1 hs))
  have hmod : ids.length % (parseJoinStmt ptree).2.length = 0 := by
    rw [hjoin] at hw ⊢
    exact Nat.mod_eq_zero_of_dvd (parseWhereClause_length hw)
  rw [if_neg (not_not.2 hmod)] at h
  split_ifs at h
  · cases h
  rcases bind_eq_error.1 h with h | ⟨_, -, h⟩
  · rw [joinColumns_ok ids _ hmod] at h
    cases h
  rcases bind_eq_error.1 h with h | ⟨_, -, h⟩
  · cases initMatcherInJoinQuery_error h
  · cases (exit_error h).2

/-! ## The group-aggregate statement -/

/-- The loop of `parse_group_aggregate_stmt` marks `func` as read only
after at least one function was read. -/
theorem groupAggregateLoop_func (aggregate : PTree) :
    ∀ (es : List (String × PTree)) (st : GroupAggregate Fn × Bool × Bool × Bool),
      (st.2.2.2 = true → st.1.func ≠ []) →
      (groupAggregateLoop env aggregate st es).2.2.2 = true →
        (groupAggregateLoop env aggregate st es).1.func ≠ []
  | [], _, h => h
  | (tagName, value) :: rest, (result, c0, c1, c2), h => by
    unfold groupAggregateLoop
    dsimp only
    split_ifs <;> (try split) <;>
      first
      | exact h
      | exact groupAggregateLoop_func aggregate rest _ h
      | (refine groupAggregateLoop_func aggregate rest _ fun hc => ?_; simp_all [List.isEmpty_iff])
      | (intro hc; simp_all)

/-- A group-aggregate statement that parses has at least one function. -/
theorem parseGroupAggregateStmt_func_ne_nil
    (h : (parseGroupAggregateStmt env ptree).1 = .success) :
    (parseGroupAggregateStmt env ptree).2.func ≠ [] := by
  have hinv : (groupAggregateComponents env ptree).2.2.2 = true →
      (groupAggregateComponents env ptree).1.func ≠ [] := by
    unfold groupAggregateComponents
    split
    · exact groupAggregateLoop_func env _ _ _ (by simp)
    · simp
  unfold parseGroupAggregateStmt at h ⊢
  generalize groupAggregateComponents env ptree = st at h hinv ⊢
  obtain ⟨result, c0, c1, c2⟩ := st
  dsimp only at h hinv ⊢
  split_ifs at h ⊢ with hc
  exact hinv (by simp_all)

/-! ## The matcher initialisations -/

/-- `init_matcher_in_group_aggregate` on a request with a first column:
the renamed matcher is installed when every id is named after the metric;
otherwise the request is returned as it is, with `AKU_EBAD_DATA`. -/
theorem initMatcherInGroupAggregate_eq {req : ReshapeRequest Fn} {c0 : Column} {rest : List Column}
    (hc : req.select.columns = c0 :: rest) (metricName : String) (funcNames : List Fn) :
    initMatcherInGroupAggregate env req matcher metricName funcNames =
      .ok (match renameLoop matcher metricName
          ("|".intercalate (funcNames.map fun f => metricName ++ ":" ++ env.aggToString f)) c0.ids .empty with
        | none => (.ebadData, req)
        | some m => (.success, { req with select.matcher := some m })) := by
  simp only [initMatcherInGroupAggregate, hc, vectorAt, List.get?_cons_zero, ok_bind]
  cases renameLoop matcher metricName
    ("|".intercalate (funcNames.map fun f => metricName ++ ":" ++ env.aggToString f)) c0.ids .empty <;> rfl

/-- `init_matcher_in_group_aggregate` changes at most the matcher. -/
theorem initMatcherInGroupAggregate_select {req : ReshapeRequest Fn} {c0 : Column}
    {rest : List Column} (hc : req.select.columns = c0 :: rest) {metricName : String}
    {funcNames : List Fn} {st : Status} {r' : ReshapeRequest Fn}
    (h : initMatcherInGroupAggregate env req matcher metricName funcNames = .ok (st, r')) :
    r' = { req with select.matcher := r'.select.matcher } := by
  rw [initMatcherInGroupAggregate_eq env hc] at h
  split at h <;> cases h <;> rfl

/-- `init_matcher_in_join_query` succeeds on at least two columns, one per
metric, once every id of the first column is named after the first
metric; it installs the renamed matcher. -/
theorem initMatcherInJoinQuery_ok {req : ReshapeRequest Fn} {metricNames : List String}
    (h : initMatcherInJoinQuery req matcher metricNames = .ok (.success, r)) :
    2 ≤ req.select.columns.length ∧ req.select.columns.length = metricNames.length ∧
      ∃ c0 m, vectorAt req.select.columns 0 = .ok c0 ∧
        renameLoop matcher (metricNames.headD "") ("|".intercalate metricNames) c0.ids .empty = some m ∧
        r = { req with select.matcher := some m } := by
  simp only [initMatcherInJoinQuery, pure_bind] at h
  obtain ⟨-, h, -⟩ | ⟨hlt, h⟩ := exit_ok h
  · cases h
  obtain ⟨-, h, -⟩ | ⟨hne, h⟩ := exit_ok h
  · cases h
  obtain ⟨c0, hc0, h⟩ := bind_eq_ok.1 h
  split at h
  · cases (Prod.mk.inj (pure_eq_ok.1 h)).1
  · exact ⟨by omega, not_not.1 hne, c0, _, hc0, ‹_›, (Prod.mk.inj (pure_eq_ok.1 h)).2.symm⟩

end Akumuli.QP
