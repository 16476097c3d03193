/-
Akumuli.Query.PlanTable — the plan `create_plan` builds for each request a
parser returns, against the operator table of the specification.

`create_plan` dispatches on `agg.enabled`, `agg.step` and the number of
columns, not on the kind of the query. Each parser leaves its requests in
one of the four shapes the builders accept (`createPlan_scan` to
`createPlan_join`), so a successful parse gets the two stages the table
assigns to its kind (`createPlan_follows_table`). Two successful parses of
a `group-aggregate` query do not: a zero step returns the empty request,
which `create_scan` refuses, and a `group-by` reaches the
`AKU_PANIC("Not implemented")` of `create_group_aggregate`.
-/
import Akumuli.Query.ParserSpec
import Akumuli.Query.SpecEnv

namespace Akumuli.QP

variable {Fn : Type}

/-! ## The table of the specification -/

/-- The Tier-1 operator the table of §4.D gives a query kind. -/
def tier1Of : QueryKind → Option Tier1Operator
  | .SELECT => some .SCAN_RANGE
  | .AGGREGATE => some .AGGREGATE_RANGE
  | .GROUP_AGGREGATE => some .GROUP_AGGREGATE_RANGE
  | .JOIN => some .SCAN_RANGE
  | .SELECT_META => none

/-- The Tier-2 operator the table of §4.D gives a query kind, its order and
whether it groups; `none` where the table says "not supported". -/
def tier2Of : QueryKind → OrderBy → Bool → Option Tier2Operator
  | .SELECT, .SERIES, false => some .CHAIN_SERIES
  | .SELECT, .SERIES, true => some .MERGE_SERIES_ORDER
  | .SELECT, .TIME, _ => some .MERGE_TIME_ORDER
  | .AGGREGATE, _, false => some .AGGREGATE
  | .AGGREGATE, _, true => some .AGGREGATE_COMBINE
  | .GROUP_AGGREGATE, .SERIES, false => some .SERIES_ORDER_AGGREGATE_MATERIALIZER
  | .GROUP_AGGREGATE, .TIME, false => some .TIME_ORDER_AGGREGATE_MATERIALIZER
  | .JOIN, .SERIES, false => some .MERGE_JOIN_SERIES_ORDER
  | .JOIN, .TIME, false => some .MERGE_JOIN_TIME_ORDER
  | _, _, _ => none

/-! ## The builders on the requests the parsers make -/

variable {r : ReshapeRequest Fn}

@[simp] theorem firstIds_cons {c : Column} {rest : List Column} (hc : r.select.columns = c :: rest) :
    firstIds r = .ok c.ids := by
  simp [firstIds, vectorAt, hc]

/-- A request without aggregation and with one column is a scan. -/
theorem createPlan_scan {c : Column} (ha : r.agg.enabled = false) (hc : r.select.columns = [c]) :
    ∃ t1 t2, createPlan r = .ok [t1, t2] ∧ t1.op = .tier1 .SCAN_RANGE ∧ t1.ids = c.ids ∧
      some t2.op = (tier2Of .SELECT r.orderBy r.groupBy.enabled).map .tier2 ∧
      t2.ids = if r.groupBy.enabled then transientIds r c.ids else c.ids := by
  have hp : createPlan r = createScan r := by simp [createPlan, ha, hc]
  simp only [hp, createScan, ha, hc, firstIds_cons hc]
  cases hg : r.groupBy.enabled <;> cases ho : r.orderBy <;>
    exact ⟨_, _, rfl, rfl, rfl, rfl, rfl⟩

/-- An aggregation without a step, in series order, with one column. -/
theorem createPlan_aggregate {c : Column} (ha : r.agg.enabled = true) (hs : r.agg.step = 0)
    (ho : r.orderBy = .SERIES) (hc : r.select.columns = [c]) :
    ∃ t1 t2, createPlan r = .ok [t1, t2] ∧ t1.op = .tier1 .AGGREGATE_RANGE ∧ t1.ids = c.ids ∧
      some t2.op = (tier2Of .AGGREGATE r.orderBy r.groupBy.enabled).map .tier2 ∧
      t2.ids = if r.groupBy.enabled then transientIds r c.ids else c.ids := by
  have hp : createPlan r = createAggregate r := by simp [createPlan, ha, hs]
  simp only [hp, createAggregate, ho, firstIds_cons hc]
  cases hg : r.groupBy.enabled <;> exact ⟨_, _, rfl, rfl, rfl, rfl, rfl⟩

/-- An aggregation with a step and without group-by. -/
theorem createPlan_groupAggregate {c : Column} {rest : List Column} (ha : r.agg.enabled = true)
    (hs : r.agg.step ≠ 0) (hg : r.groupBy.enabled = false) (hc : r.select.columns = c :: rest) :
    ∃ t1 t2, createPlan r = .ok [t1, t2] ∧ t1.op = .tier1 .GROUP_AGGREGATE_RANGE ∧
      t1.ids = c.ids ∧ t1.step = r.agg.step ∧
      some t2.op = (tier2Of .GROUP_AGGREGATE r.orderBy r.groupBy.enabled).map .tier2 ∧
      t2.ids = c.ids := by
  have hp : createPlan r = createGroupAggregate r := by simp [createPlan, ha, hs]
  simp only [hp, createGroupAggregate, ha, hs, hg, firstIds_cons hc]
  cases ho : r.orderBy <;> exact ⟨_, _, rfl, rfl, rfl, rfl, by simp [tier2Of, hg, ho], rfl⟩

/-- The ids of a join when every column has at least `rows` ids: for each
row, the row's id of every column. -/
theorem joinIds_ok {columns : List Column} {rows : Nat}
    (h : ∀ col ∈ columns, rows ≤ col.ids.length) :
    joinIds columns rows columns.length = .ok ((List.range rows).map fun i =>
      (List.range columns.length).map fun c => (columns.getD c ⟨[]⟩).ids.getD i 0).flatten := by
  unfold joinIds
  rw [mapM_ok fun i hi => mapM_ok fun c hc => ?_]
  · rfl
  have hc := List.mem_range.1 hc
  have hmem : columns.getD c ⟨[]⟩ ∈ columns := by
    rw [List.getD_eq_getElem?_getD, List.getElem?_eq_getElem hc, Option.getD_some]
    exact List.getElem_mem hc
  rw [vectorAt_of_lt ⟨[]⟩ hc]
  exact vectorAt_of_lt 0 (lt_of_lt_of_le (List.mem_range.1 hi) (h _ hmem))

/-- A request without aggregation or group-by, with at least two columns
none shorter than the first, is a join. -/
theorem createPlan_join {c : Column} {rest : List Column} (ha : r.agg.enabled = false)
    (hg : r.groupBy.enabled = false) (hc : r.select.columns = c :: rest) (hk : rest ≠ [])
    (hlen : ∀ col ∈ r.select.columns, c.ids.length ≤ col.ids.length) :
    ∃ t1 t2, createPlan r = .ok [t1, t2] ∧ t1.op = .tier1 .SCAN_RANGE ∧
      t1.ids = ((List.range c.ids.length).map fun i => (List.range r.select.columns.length).map
        fun j => (r.select.columns.getD j ⟨[]⟩).ids.getD i 0).flatten ∧
      some t2.op = (tier2Of .JOIN r.orderBy r.groupBy.enabled).map .tier2 ∧
      t2.ids = c.ids ∧ t2.joinCardinality = r.select.columns.length := by
  have h2 : 1 < r.select.columns.length := by
    rw [hc, List.length_cons]
    exact Nat.succ_lt_succ (List.length_pos.2 hk)
  have hp : createPlan r = createJoin r := by simp [createPlan, ha, h2]
  simp only [hp, createJoin, ha, hg, firstIds_cons hc, Bool.false_or, decide_eq_true_eq,
    Nat.not_lt.2 h2, if_false, pure_bind, ok_bind, joinIds_ok hlen]
  cases ho : r.orderBy <;> exact ⟨_, _, rfl, rfl, rfl, by simp [tier2Of, hg, ho], rfl, rfl⟩

/-! ## A successful parse and its plan -/

/-- For each kind, a request parsed with `AKU_SUCCESS` gets two stages, the
ones the table assigns to the kind, its order and its group-by; with
group-by the Tier-2 ids are the `transient_map` images of the Tier-1 ids.
A group-aggregate query needs a non-zero step and no group-by. -/
theorem createPlan_follows_table (env : Env Fn) (ptree : PTree) (matcher : SeriesMatcher)
    (K : QueryKind) (h : parseByKind env K ptree matcher = some (.ok (.success, r)))
    (hga : K = .GROUP_AGGREGATE →
      (parseGroupAggregateStmt env ptree).2.step ≠ 0 ∧ (parseGroupby ptree).2 = []) :
    ∃ t1 t2, createPlan r = .ok [t1, t2] ∧ some t1.op = (tier1Of K).map .tier1 ∧
      some t2.op = (tier2Of K r.orderBy r.groupBy.enabled).map .tier2 ∧
      (r.groupBy.enabled = true → t2.ids = transientIds r t1.ids) ∧
      (K = .GROUP_AGGREGATE → t1.step = r.agg.step ∧ r.agg.step ≠ 0) := by
  cases K with
  | SELECT_META => cases h
  | SELECT =>
    obtain ⟨-, -, -, -, ids, -, hr⟩ := parseSelectQuery_ok env (Option.some.inj h)
    obtain ⟨t1, t2, hp, h1, hi1, h2, hi2⟩ :=
      createPlan_scan (r := r) (c := ⟨ids⟩) (by simp [hr]) (by simp [hr])
    exact ⟨t1, t2, hp, by rw [h1]; rfl, h2, fun hg => by rw [hi2, if_pos hg, hi1], nofun⟩
  | AGGREGATE =>
    obtain ⟨-, -, -, -, -, ids, -, hr⟩ := parseAggregateQuery_ok env (Option.some.inj h)
    obtain ⟨t1, t2, hp, h1, hi1, h2, hi2⟩ := createPlan_aggregate (r := r) (c := ⟨ids⟩)
      (by simp [hr]) (by simp [hr, ReshapeRequest.empty]) (by simp [hr]) (by simp [hr])
    exact ⟨t1, t2, hp, by rw [h1]; rfl, h2, fun hg => by rw [hi2, if_pos hg, hi1], nofun⟩
  | GROUP_AGGREGATE =>
    obtain ⟨hs, htags⟩ := hga rfl
    obtain ⟨-, hok, ⟨hz, -⟩ | ⟨-, -, -, -, ids, st, r', -, hi, hr⟩⟩ :=
      parseGroupAggregateQuery_ok env (Option.some.inj h)
    · exact absurd (hz.resolve_left (parseGroupAggregateStmt_func_ne_nil env hok)) hs
    rw [htags, groupByTagOf_nil, initMatcherInGroupAggregate_select env rfl hi] at hr
    obtain ⟨t1, t2, hp, h1, -, hstep, h2, -⟩ := createPlan_groupAggregate (by simp [hr])
      (by simpa [hr]) (by simp [hr, withGroupBy]) (show r.select.columns = [⟨ids⟩] by simp [hr])
    exact ⟨t1, t2, hp, by rw [h1]; rfl, h2, by simp [hr, withGroupBy],
      fun _ => ⟨hstep, by simpa [hr]⟩⟩
  | JOIN =>
    obtain ⟨-, -, -, -, ids, -, -, -, -, hi⟩ := parseJoinQuery_ok env (Option.some.inj h)
    obtain ⟨h2, -, -, m, -, -, hr⟩ := initMatcherInJoinQuery_ok hi
    have hk2 : 2 ≤ r.select.columns.length := by rw [hr]; exact h2
    obtain ⟨c, rest, hc⟩ : ∃ c rest, r.select.columns = c :: rest :=
      List.exists_cons_of_ne_nil (List.ne_nil_of_length_pos (by omega))
    have hlen : ∀ col ∈ r.select.columns, col.ids.length = ids.length / (parseJoinStmt ptree).2.length := by
      simp [hr]
    rw [hc, List.length_cons] at hk2
    obtain ⟨t1, t2, hp, h1, -, h2, -, -⟩ := createPlan_join (by simp [hr]) (by simp [hr]) hc
      (List.ne_nil_of_length_pos (by omega)) fun col hcol => by
        rw [hlen c (by simp [hc]), hlen col hcol]
    exact ⟨t1, t2, hp, by rw [h1]; rfl, h2, by simp [hr], nofun⟩

/-- `{"group-aggregate": {"step": "1s", "metric": "x", "func": ["min", "max"]},
"range": {"from": "20150101T000000", "to": "20150102T000000"}}`, the third
scenario of the specification. -/
def minMaxQuery : PTree :=
  .obj [("group-aggregate", .obj [("step", .leaf "1s"), ("metric", .leaf "x"),
      ("func", .arr ["min", "max"])]),
    ("range", .obj [("from", .leaf "20150101T000000"), ("to", .leaf "20150102T000000")])]

theorem createPlan_follows_table_minMax :
    ∃ r, parseByKind specEnv .GROUP_AGGREGATE minMaxQuery ⟨⟨[⟨"x host=a", 1⟩]⟩⟩ =
        some (.ok (.success, r)) ∧
      ∃ t1 t2, createPlan r = .ok [t1, t2] ∧ some t1.op = (tier1Of .GROUP_AGGREGATE).map .tier1 ∧
        some t2.op = (tier2Of .GROUP_AGGREGATE r.orderBy r.groupBy.enabled).map .tier2 ∧
        (r.groupBy.enabled = true → t2.ids = transientIds r t1.ids) ∧
        (QueryKind.GROUP_AGGREGATE = .GROUP_AGGREGATE → t1.step = r.agg.step ∧ r.agg.step ≠ 0) := by
  refine ⟨_, rfl, ?_⟩
  exact createPlan_follows_table specEnv minMaxQuery ⟨⟨[⟨"x host=a", 1⟩]⟩⟩ .GROUP_AGGREGATE rfl
    fun _ => ⟨by decide, by decide⟩

/-! ## The group-aggregate queries that parse and have no plan -/

/-- A group-aggregate statement with a zero step parses with `AKU_SUCCESS`
and the empty request (the exit "Step can't be zero" keeps the status of
the statement), and the plan of the empty request stops at the guard of
`create_scan`. -/
theorem parseGroupAggregateQuery_zero_step_panics (env : Env Fn) (ptree : PTree)
    (matcher : SeriesMatcher) (hv : validateQuery ptree = .success)
    (hs : (parseGroupAggregateStmt env ptree).1 = .success)
    (hz : (parseGroupAggregateStmt env ptree).2.step = 0) :
    parseGroupAggregateQuery env ptree matcher = .ok (.success, .empty) ∧
      createPlan (.empty : ReshapeRequest Fn) = .error (.panic "Invalid request") :=
  ⟨by simp [parseGroupAggregateQuery, hv, hs, hz, pure_eq_ok], rfl⟩

/-- `{"group-aggregate": {"step": "0s", "metric": "cpu", "func": ["max"]}}`. -/
def zeroStepQuery : PTree :=
  .obj [("group-aggregate", .obj [("step", .leaf "0s"), ("metric", .leaf "cpu"), ("func", .arr ["max"])])]

theorem parseGroupAggregateQuery_zero_step_cpu :
    parseGroupAggregateQuery specEnv zeroStepQuery .empty = .ok (.success, .empty) ∧
      createPlan (.empty : ReshapeRequest AggregationFunction) = .error (.panic "Invalid request") :=
  parseGroupAggregateQuery_zero_step_panics specEnv zeroStepQuery .empty (by decide) (by decide)
    (by decide)

/-- A group-aggregate query with a `group-by` that parses with
`AKU_SUCCESS` gets no plan: `create_group_aggregate` stops at its
`AKU_PANIC("Not implemented")`. -/
theorem createPlan_groupAggregate_groupBy_panics (env : Env Fn) (ptree : PTree)
    (matcher : SeriesMatcher) (h : parseGroupAggregateQuery env ptree matcher = .ok (.success, r))
    (hs : (parseGroupAggregateStmt env ptree).2.step ≠ 0) (hg : (parseGroupby ptree).2 ≠ []) :
    createPlan r = .error (.panic "Not implemented") := by
  obtain ⟨-, hok, ⟨hz, -⟩ | ⟨-, -, -, -, ids, st, r', -, hi, hr⟩⟩ := parseGroupAggregateQuery_ok env h
  · exact absurd (hz.resolve_left (parseGroupAggregateStmt_func_ne_nil env hok)) hs
  rw [initMatcherInGroupAggregate_select env rfl hi, groupByTagOf,
    if_neg (by simpa using hg)] at hr
  have hp : createPlan r = createGroupAggregate r := by simp [createPlan, hr, hs]
  rw [hp, hr]
  simp [createGroupAggregate, hs, firstIds, vectorAt]
  rfl

/-- `{"group-aggregate": {"step": "1s", "metric": "cpu", "func": ["max"]},
"group-by": ["host"], "range": {"from": "20150101T000000", "to":
"20150102T000000"}}`. -/
def groupByQuery : PTree :=
  .obj [("group-aggregate", .obj [("step", .leaf "1s"), ("metric", .leaf "cpu"), ("func", .arr ["max"])]),
    ("group-by", .arr ["host"]),
    ("range", .obj [("from", .leaf "20150101T000000"), ("to", .leaf "20150102T000000")])]

theorem createPlan_groupAggregate_groupBy_host :
    ∃ r, parseGroupAggregateQuery specEnv groupByQuery .empty = .ok (.success, r) ∧
      createPlan r = .error (.panic "Not implemented") := by
  refine ⟨_, rfl, ?_⟩
  exact createPlan_groupAggregate_groupBy_panics specEnv groupByQuery .empty rfl (by decide)
    (by decide)

end Akumuli.QP
