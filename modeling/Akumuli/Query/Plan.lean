/-
Akumuli.Query.Plan — `ReshapeRequest`, what the query parsers produce, and
the stage builder of `QueryPlan` (`queryplan.cpp`): `create_scan`,
`create_aggregate`, `create_join`, `create_group_aggregate` and the
dispatch `create_plan`.

The builder returns the list of stages, or fails: a guard that does not
hold is the `AKU_PANIC` with its message, and a `vector::at` past the end
is `std::out_of_range` (`Fault`). What a stage later asks of the column
store (`ScanProcessingStep` and its siblings) is not modelled; what the
builder decides is. A stage's `tier_` is the member of the `op_` union
that is set, so it is computed from `op` and cannot disagree with it.

`ReshapeRequest` and the stage are declared in `queryplan.h`, which is not
in the repository: their fields are the ones the two source files read
and write. `ReshapeRequest result = {}` zero-initialises every field; the
`order_by` it starts with is never read on any path of the model.
-/
import Akumuli.Query.Statements

namespace Akumuli.QP

/-! ## The request -/

/-- `Column`: the ids of one column of the selection. -/
structure Column where
  ids : List Nat
  deriving DecidableEq, Repr

/-- `Selection`: the columns, the time range and the matcher that names the
output series (`nullptr` is `none`). -/
structure Selection where
  columns : List Column
  begin : Nat
  «end» : Nat
  matcher : Option SeriesMatcher
  deriving DecidableEq, Repr

/-- `Aggregation`. -/
structure Aggregation (Fn : Type) where
  enabled : Bool
  func : List Fn
  step : Nat
  deriving DecidableEq, Repr

/-- `GroupBy`: the `transient_map` from series ids to group ids (an
`unordered_map`, read by key) and its matcher. -/
structure GroupBy where
  enabled : Bool
  transientMap : List (Nat × Nat)
  matcher : Option SeriesMatcher
  deriving DecidableEq, Repr

/-- `ReshapeRequest`. -/
structure ReshapeRequest (Fn : Type) where
  agg : Aggregation Fn
  select : Selection
  orderBy : OrderBy
  groupBy : GroupBy
  deriving DecidableEq, Repr

/-- `ReshapeRequest result = {}`. -/
def ReshapeRequest.empty {Fn : Type} : ReshapeRequest Fn :=
  ⟨⟨false, [], 0⟩, ⟨[], 0, 0, none⟩, .TIME, ⟨false, [], none⟩⟩

/-! ## The stages -/

/-- `Tier1Operator`. -/
inductive Tier1Operator where
  | SCAN_RANGE
  | AGGREGATE_RANGE
  | GROUP_AGGREGATE_RANGE
  deriving DecidableEq, Repr

/-- `Tier2Operator`. -/
inductive Tier2Operator where
  | CHAIN_SERIES
  | MERGE_SERIES_ORDER
  | MERGE_TIME_ORDER
  | AGGREGATE
  | AGGREGATE_COMBINE
  | SERIES_ORDER_AGGREGATE_MATERIALIZER
  | TIME_ORDER_AGGREGATE_MATERIALIZER
  | MERGE_JOIN_SERIES_ORDER
  | MERGE_JOIN_TIME_ORDER
  deriving DecidableEq, Repr

/-- `op_`, a union of the two operator kinds. -/
inductive StageOp where
  | tier1 (op : Tier1Operator)
  | tier2 (op : Tier2Operator)
  deriving DecidableEq, Repr

/-- `QueryPlanStage`, with the defaults of `new QueryPlanStage()`. -/
structure QueryPlanStage (Fn : Type) where
  op : StageOp
  ids : List Nat
  matcher : Option SeriesMatcher
  timeRange : Nat × Nat
  func : List Fn := []
  step : Nat := 0
  joinCardinality : Nat := 0
  deriving DecidableEq, Repr

/-- `tier_`: which member of `op_` is set. -/
def QueryPlanStage.tier {Fn : Type} (s : QueryPlanStage Fn) : Nat :=
  match s.op with
  | .tier1 _ => 1
  | .tier2 _ => 2

variable {Fn : Type}

/-- `req.select.columns.at(0).ids`. -/
def firstIds (req : ReshapeRequest Fn) : Except Fault (List Nat) :=
  Column.ids <$> vectorAt req.select.columns 0

/-- The group-by rewrite of `create_scan` and `create_aggregate`: the
`transient_map` images of the ids the map contains, in order. -/
def transientIds (req : ReshapeRequest Fn) (ids : List Nat) : List Nat :=
  ids.filterMap fun id => req.groupBy.transientMap.lookup id

/-- `create_scan`. -/
def createScan (req : ReshapeRequest Fn) : Except Fault (List (QueryPlanStage Fn)) := do
  if req.agg.enabled || req.select.columns.length != 1 then throw (.panic "Invalid request")
  let tier1ids ← firstIds req
  let range := (req.select.begin, req.select.«end»)
  let t1 : QueryPlanStage Fn :=
    { op := .tier1 .SCAN_RANGE, ids := tier1ids, matcher := req.select.matcher, timeRange := range }
  if req.groupBy.enabled then
    let ids := transientIds req (← firstIds req)
    let op := if req.orderBy = .SERIES then Tier2Operator.MERGE_SERIES_ORDER else .MERGE_TIME_ORDER
    return [t1, { op := .tier2 op, matcher := req.groupBy.matcher, ids := ids, timeRange := range }]
  else
    let op := if req.orderBy = .SERIES then Tier2Operator.CHAIN_SERIES else .MERGE_TIME_ORDER
    return [t1, { op := .tier2 op, ids := ← firstIds req, timeRange := range,
                  matcher := req.select.matcher }]

/-- `create_aggregate`. -/
def createAggregate (req : ReshapeRequest Fn) : Except Fault (List (QueryPlanStage Fn)) := do
  if req.orderBy = .TIME then throw (.panic "Invalid request")
  let tier1ids ← firstIds req
  let range := (req.select.begin, req.select.«end»)
  let t1 : QueryPlanStage Fn :=
    { op := .tier1 .AGGREGATE_RANGE, ids := tier1ids, matcher := req.select.matcher,
      timeRange := range }
  if req.groupBy.enabled then
    let ids := transientIds req (← firstIds req)
    return [t1, { op := .tier2 .AGGREGATE_COMBINE, matcher := req.groupBy.matcher, ids := ids,
                  timeRange := range, func := req.agg.func }]
  else
    return [t1, { op := .tier2 .AGGREGATE, ids := ← firstIds req, timeRange := range,
                  matcher := req.select.matcher, func := req.agg.func }]

/-- The loop of `create_join`: for each row `i` of the first column, the
`i`-th id of every column. -/
def joinIds (columns : List Column) (rows cardinality : Nat) : Except Fault (List Nat) :=
  List.flatten <$> (List.range rows).mapM fun i =>
    (List.range cardinality).mapM fun c => do vectorAt (← vectorAt columns c).ids i

/-- `create_join`. -/
def createJoin (req : ReshapeRequest Fn) : Except Fault (List (QueryPlanStage Fn)) := do
  if req.agg.enabled || req.groupBy.enabled || req.select.columns.length < 2 then
    throw (.panic "Invalid request")
  let cardinality := req.select.columns.length
  let t1ids ← joinIds req.select.columns (← firstIds req).length cardinality
  let range := (req.select.begin, req.select.«end»)
  let t1 : QueryPlanStage Fn :=
    { op := .tier1 .SCAN_RANGE, ids := t1ids, matcher := req.select.matcher, timeRange := range }
  if req.groupBy.enabled then throw (.panic "Group-by not supported")
  let op := if req.orderBy = .SERIES then Tier2Operator.MERGE_JOIN_SERIES_ORDER
    else .MERGE_JOIN_TIME_ORDER
  return [t1, { op := .tier2 op, joinCardinality := cardinality, ids := ← firstIds req,
                timeRange := range, matcher := req.select.matcher }]

/-- `create_group_aggregate`. -/
def createGroupAggregate (req : ReshapeRequest Fn) : Except Fault (List (QueryPlanStage Fn)) := do
  if !req.agg.enabled || req.agg.step = 0 then throw (.panic "Invalid request")
  let tier1ids ← firstIds req
  let range := (req.select.begin, req.select.«end»)
  let t1 : QueryPlanStage Fn :=
    { op := .tier1 .GROUP_AGGREGATE_RANGE, ids := tier1ids, matcher := req.select.matcher,
      timeRange := range, step := req.agg.step }
  if req.groupBy.enabled then throw (.panic "Not implemented")
  let op := if req.orderBy = .SERIES then Tier2Operator.SERIES_ORDER_AGGREGATE_MATERIALIZER
    else .TIME_ORDER_AGGREGATE_MATERIALIZER
  return [t1, { op := .tier2 op, ids := ← firstIds req, timeRange := range,
                matcher := req.select.matcher, func := req.agg.func }]

/-- `create_plan`: the builder is chosen by `agg.enabled`, `agg.step` and
the number of columns, not by the kind of the query. -/
def createPlan (req : ReshapeRequest Fn) : Except Fault (List (QueryPlanStage Fn)) :=
  if req.agg.enabled && req.agg.step = 0 then createAggregate req
  else if req.agg.enabled && req.agg.step ≠ 0 then createGroupAggregate req
  else if !req.agg.enabled && req.select.columns.length > 1 then createJoin req
  else createScan req

end Akumuli.QP
