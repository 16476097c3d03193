/-
Akumuli.Query.Parser — the four `QueryParser::parse_*_query` functions
that build a `ReshapeRequest`, and the two matcher initialisations of the
group-aggregate and join queries.

Each parser returns `(status, result)`; every early exit returns the
request as it stands at that point (the empty one before the last block).
`parse_group_aggregate_query` has two exits after a successful statement
parse that still carry `AKU_SUCCESS`: an empty function list, which cannot
happen, and a zero step, which returns the empty request. It also drops
the status of `init_matcher_in_group_aggregate`, where the join parser
returns it.

The matcher initialisations name every selected id anew: the metric part
(`m:f1|m:f2` for a group-aggregate, `m1|m2` for a join) followed by the
id's name from the first metric's length on. A name that does not start
with the metric stops the loop with `AKU_EBAD_DATA` before the matcher is
installed. An id the global matcher does not know reads as the empty name.

The join parser cuts the ids into columns with the `u32` counters of the
source: a column count or length of `2^32` or more makes a loop that never
ends (`Fault.hang`), and the running index `idix` is taken modulo `2^32`.
-/
import Akumuli.Query.Where
import Akumuli.Query.Plan

namespace Akumuli.QP

variable {Fn : Type} (env : Env Fn)

/-! ## Naming the selected series -/

/-- The loop of the matcher initialisations: add each id under `prefix_`
followed by its name from `metric`'s length on; `none` where a name does
not start with `metric`. -/
def renameLoop (globalMatcher : SeriesMatcher) (metric prefix_ : String) :
    List Nat → SeriesMatcher → Option SeriesMatcher
  | [], m => some m
  | id :: rest, m =>
    let name := (globalMatcher.id2str id).getD ""
    if metric.data.isPrefixOf name.data then
      renameLoop globalMatcher metric prefix_ rest (m._add (prefix_ ++ substr name metric.length) id)
    else none

/-- `init_matcher_in_group_aggregate`. -/
def initMatcherInGroupAggregate (req : ReshapeRequest Fn) (globalMatcher : SeriesMatcher)
    (metricName : String) (funcNames : List Fn) : Except Fault (Status × ReshapeRequest Fn) := do
  let ids := (← vectorAt req.select.columns 0).ids
  let prefix_ := "|".intercalate (funcNames.map fun f => metricName ++ ":" ++ env.aggToString f)
  match renameLoop globalMatcher metricName prefix_ ids .empty with
  | none => return (.ebadData, req)
  | some matcher => return (.success, { req with select.matcher := some matcher })

/-- `init_matcher_in_join_query`. -/
def initMatcherInJoinQuery (req : ReshapeRequest Fn) (globalMatcher : SeriesMatcher)
    (metricNames : List String) : Except Fault (Status × ReshapeRequest Fn) := do
  if req.select.columns.length < 2 then return (.ebadArg, req)
  if req.select.columns.length ≠ metricNames.length then return (.ebadArg, req)
  let ids := (← vectorAt req.select.columns 0).ids
  match renameLoop globalMatcher (metricNames.headD "") ("|".intercalate metricNames) ids .empty with
  | none => return (.ebadData, req)
  | some matcher => return (.success, { req with select.matcher := some matcher })

/-! ## The parsers -/

/-- The group-by part every non-join parser ends with. -/
def withGroupBy (req : ReshapeRequest Fn) : Option GroupByTag → ReshapeRequest Fn
  | none => { req with groupBy.enabled := false }
  | some g =>
    { req with groupBy.enabled := true, groupBy.transientMap := g.mapping,
               select.matcher := some g.localMatcher }

/-- `GroupByTag` is built only for a non-empty tag list. -/
def groupByTagOf (matcher : SeriesMatcher) (metric : String) (tags : List String) :
    Option GroupByTag :=
  if tags.isEmpty then none else some (env.groupByTag matcher metric tags)

/-- `QueryParser::parse_select_query`. -/
def parseSelectQuery (ptree : PTree) (matcher : SeriesMatcher) :
    Except Fault (Status × ReshapeRequest Fn) := do
  let result : ReshapeRequest Fn := .empty
  let status := validateQuery ptree
  if status ≠ .success then return (status, result)
  let (status, metric) := parseSelectStmt ptree
  if status ≠ .success then return (status, result)
  let (status, tags) := parseGroupby ptree
  if status ≠ .success then return (status, result)
  let groupbytag := groupByTagOf env matcher metric tags
  let (status, order) := parseOrderby ptree
  if status ≠ .success then return (status, result)
  let (status, ids) ← parseWhereClause ptree [metric] matcher
  if status ≠ .success then return (status, result)
  let (status, tsBegin, tsEnd) := parseRangeTimestamp env ptree
  if status ≠ .success then return (status, result)
  let result := { result with agg.enabled := false, select.begin := tsBegin, select.«end» := tsEnd,
                              select.columns := result.select.columns ++ [Column.mk ids], orderBy := order }
  return (.success, withGroupBy result groupbytag)

/-- `QueryParser::parse_aggregate_query`. -/
def parseAggregateQuery (ptree : PTree) (matcher : SeriesMatcher) :
    Except Fault (Status × ReshapeRequest Fn) := do
  let result : ReshapeRequest Fn := .empty
  let status := validateQuery ptree
  if status ≠ .success then return (status, result)
  let (status, metric, aggfun) := parseAggregateStmt ptree
  if status ≠ .success then return (status, result)
  let (status, func) := env.aggFromString aggfun
  if status ≠ .success then return (status, result)
  let (status, tags) := parseGroupby ptree
  if status ≠ .success then return (status, result)
  let groupbytag := groupByTagOf env matcher metric tags
  if (ptree.getChildOptional "order-by").isSome then return (.equeryParsingError, result)
  let (status, ids) ← parseWhereClause ptree [metric] matcher
  if status ≠ .success then return (status, result)
  let (status, tsBegin, tsEnd) := parseRangeTimestamp env ptree
  if status ≠ .success then return (status, result)
  let result := { result with agg.enabled := true, agg.func := [func], select.begin := tsBegin,
                              select.«end» := tsEnd, select.columns := result.select.columns ++ [Column.mk ids],
                              orderBy := .SERIES }
  return (.success, withGroupBy result groupbytag)

/-- `QueryParser::parse_group_aggregate_query`. -/
def parseGroupAggregateQuery (ptree : PTree) (matcher : SeriesMatcher) :
    Except Fault (Status × ReshapeRequest Fn) := do
  let result : ReshapeRequest Fn := .empty
  let status := validateQuery ptree
  if status ≠ .success then return (status, result)
  let (status, gagg) := parseGroupAggregateStmt env ptree
  if status ≠ .success then return (status, result)
  if gagg.func.isEmpty then return (status, result)
  if gagg.step = 0 then return (status, result)
  let (status, tags) := parseGroupby ptree
  if status ≠ .success then return (status, result)
  let groupbytag := groupByTagOf env matcher gagg.metric tags
  let (status, ids) ← parseWhereClause ptree [gagg.metric] matcher
  if status ≠ .success then return (status, result)
  let (status, tsBegin, tsEnd) := parseRangeTimestamp env ptree
  if status ≠ .success then return (status, result)
  let result := { result with agg.enabled := true, agg.func := gagg.func, agg.step := gagg.step,
                              select.begin := tsBegin, select.«end» := tsEnd,
                              select.columns := result.select.columns ++ [Column.mk ids] }
  let (status, order) := parseOrderby ptree
  let result := { result with orderBy := order }
  if status ≠ .success then return (status, result)
  let (_, result) ← initMatcherInGroupAggregate env result matcher gagg.metric gagg.func
  return (.success, withGroupBy result groupbytag)

/-- `QueryParser::parse_join_query`. -/
def parseJoinQuery (ptree : PTree) (matcher : SeriesMatcher) :
    Except Fault (Status × ReshapeRequest Fn) := do
  let result : ReshapeRequest Fn := .empty
  let status := validateQuery ptree
  if status ≠ .success then return (status, result)
  let (status, metrics) := parseJoinStmt ptree
  if status ≠ .success then return (status, result)
  let (status, order) := parseOrderby ptree
  if status ≠ .success then return (status, result)
  let result := { result with orderBy := order }
  let (status, ids) ← parseWhereClause ptree metrics matcher
  if status ≠ .success then return (status, result)
  let (status, tsBegin, tsEnd) := parseRangeTimestamp env ptree
  if status ≠ .success then return (status, result)
  let result := { result with groupBy.enabled := false, agg.enabled := false,
                              select.begin := tsBegin, select.«end» := tsEnd }
  let ncolumns := metrics.length
  let nentries := ids.length / ncolumns
  if ids.length % ncolumns ≠ 0 then throw (.panic "Invalid `where` statement processing results")
  -- `i`, `j` and `idix` are `u32`: a loop bound of `2^32` or more is never
  -- reached, and `idix` wraps
  if 2 ^ 32 ≤ ncolumns ∨ 2 ^ 32 ≤ nentries then throw .hang
  let columns ← (List.range ncolumns).mapM fun i =>
    (List.range nentries).mapM fun j => vectorAt ids ((i * nentries + j) % 2 ^ 32)
  let result := { result with select.columns := result.select.columns ++ columns.map Column.mk }
  let (status, result) ← initMatcherInJoinQuery result matcher metrics
  if status ≠ .success then return (status, result)
  return (.success, result)

/-- The parser a caller runs for each kind `get_query_kind` reports (the
caller is not in the repository); `SELECT_META` is answered by
`parse_select_meta_query`, which builds no request. -/
def parseByKind (kind : QueryKind) (ptree : PTree) (matcher : SeriesMatcher) :
    Option (Except Fault (Status × ReshapeRequest Fn)) :=
  match kind with
  | .SELECT => some (parseSelectQuery env ptree matcher)
  | .AGGREGATE => some (parseAggregateQuery env ptree matcher)
  | .GROUP_AGGREGATE => some (parseGroupAggregateQuery env ptree matcher)
  | .JOIN => some (parseJoinQuery env ptree matcher)
  | .SELECT_META => none

end Akumuli.QP
