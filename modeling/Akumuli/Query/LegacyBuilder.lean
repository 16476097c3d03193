/-
Akumuli.Query.LegacyBuilder — `Builder::build_query_processor`
(`queryprocessor.cpp`), the legacy query path: it reads the group-by
step, the metric, the `select` and `sample` entries and the where clause
from the parsed query, and builds a `ScanQueryProcessor` over a pipeline
of samplers, or a `MetadataQueryProcessor` for `select: names`.

The pipeline is made tail first. The loop runs over the `sample` entries
from the last one, wraps each sampler around the node made before it
(the terminal node to begin with) and pushes it onto `allnodes`; the list
is then reversed. The composition is the listed order: for descriptions
`d_1 … d_k` the constructor receives `[n_1, …, n_k, terminal]`, where
`n_i` wraps `n_(i+1)` (`buildTopology_chain`), and the constructor's
order check accepts it when the samplers are not terminal nodes.

The legacy `parse_where_clause` builds one `RegexFilter` per where
entry, each over the alternatives of that entry's values, and keeps the
last one: the filter installed tests the last entry only
(`parseWhereClause_eq_last`). Each filter's constructor runs its pattern
over the pool, and a pattern the regex library rejects raises
`std::regex_error` (`makeFilter`). The library is a parameter
(`PoolRegex`): which patterns it rejects, with what `what()`, and which
names a pattern matches; `fullMatchRegex` is the ECMAScript model of
`Akumuli.Regex`. A leaf entry `tag: "v"` has no values, so its pattern is
`)`, which does not compile.

Every exception of the helpers is caught by the builder and rethrown as
`QueryParserError(e.what())`, so the model keeps the `what()` text only.
Modelled from the spec: `DateTimeUtil`, `QP::create_node` and the nodes'
requirement masks are not in the repository; they are the fields of
`BuilderEnv`, each failure given with its `what()`.
-/
import Akumuli.Pipeline.ScanProcessor
import Akumuli.Query.RegexFilter
import Akumuli.PropertyTree

namespace Akumuli.QP.Legacy

/-! ## The collaborators and the results -/

/-- How `QP::create_node` fails: a `ptree_error` while it reads the
description, or another exception with its `what()`. -/
inductive CreateNodeError where
  | ptreeError
  | other (what : String)
  deriving DecidableEq, Repr

/-- The collaborators of the builder that are not in the repository. -/
structure BuilderEnv (Node : Type) where
  /-- `DateTimeUtil::parse_duration`, or the `what()` of its exception. -/
  parseDuration : String → Except String Nat
  /-- `DateTimeUtil::from_iso_string`, or the `what()` of its exception. -/
  fromIsoString : String → Except String Nat
  /-- `QP::create_node(name, ptree, next)`. -/
  createNode : String → PTree → Node → Except CreateNodeError Node
  /-- `Node::get_requirements()`. -/
  requirements : Node → Nat

/-- The regex library behind `StringPool::regex_match`: the `what()` of
the `std::regex_error` a pattern raises when it does not compile (`none`
when it compiles), and the names a compiled pattern matches. -/
structure PoolRegex where
  error : String → Option String
  sem : String → String → Bool

/-- `QueryParserError`, with its `what()`. -/
structure QueryParserError where
  what : String
  deriving DecidableEq, Repr

/-- The processors the builder returns. The filter is a `shared_ptr`,
null when the where clause has no entries. -/
inductive QueryProcessor (Node : Type) where
  | scan (p : ScanQueryProcessor Node (Option RegexFilter))
  | metadata (filter : Option RegexFilter) (root : Node)

/-- The filter a processor holds. -/
def QueryProcessor.filter {Node : Type} : QueryProcessor Node → Option RegexFilter
  | .scan p => p.filter
  | .metadata filter _ => filter

variable {Node : Type} (rx : PoolRegex) (env : BuilderEnv Node)

/-! ## The helpers -/

/-- `parse_select_stmt`: a leaf `select` must read `names`. -/
def parseSelectStmt (ptree : PTree) : Except QueryParserError (Option String) :=
  match ptree.getChildOptional "select" with
  | some select =>
    if select.empty then
      if select.data = "names" then .ok (some select.data)
      else .error ⟨"Invalid `select` query"⟩
    else .ok none
  | none => .ok none

/-- The loop of `parse_groupby` over the `group-by` entries: each `time`
entry sets the duration. -/
def groupbyLoop (duration : Nat) : List (String × PTree) → Except QueryParserError Nat
  | [] => .ok duration
  | (key, child) :: rest =>
    if key = "time" then
      match env.parseDuration child.data with
      | .ok d => groupbyLoop d rest
      | .error what => .error ⟨what⟩
    else groupbyLoop duration rest

/-- `parse_groupby`. -/
def parseGroupby (ptree : PTree) : Except QueryParserError GroupByStatement :=
  match ptree.getChildOptional "group-by" with
  | some groupby => (groupbyLoop env 0 groupby.children).map GroupByStatement.init
  | none => .ok (GroupByStatement.init 0)

/-- `parse_metric`. -/
def parseMetric (ptree : PTree) : String :=
  ((ptree.getChildOptional "metric").map (·.data)).getD ""

/-- `parse_range_timestamp`: `get_child("range")` throws boost's
`ptree_bad_path`, whose `what()` is `No such node (range)`. -/
def parseRangeTimestamp (ptree : PTree) (name : String) : Except QueryParserError Nat :=
  match ptree.getChildOptional "range" with
  | none => .error ⟨"No such node (range)"⟩
  | some range =>
    match range.getChildOptional name with
    | some child => (env.fromIsoString child.data).mapError (⟨·⟩)
    | none => .error ⟨"can't find `" ++ name ++ "` tag inside the query"⟩

/-- `make_sampler`: the description's `name`, then `create_node`; a
`ptree_error` on the way is reported as an invalid description. -/
def makeSampler (ptree : PTree) (next : Node) : Except QueryParserError Node :=
  match ptree.getChildOptional "name" with
  | none => .error ⟨"invalid sampler description"⟩
  | some name =>
    match env.createNode name.data ptree next with
    | .ok node => .ok node
    | .error .ptreeError => .error ⟨"invalid sampler description"⟩
    | .error (.other what) => .error ⟨what⟩

/-! ## The where clause -/

/-- `std::make_shared<RegexFilter>(regex, pool)`: the constructor's
`refresh()` runs the pattern over the pool, and a pattern that does not
compile throws its `std::regex_error`, which the builder rethrows as
`QueryParserError(e.what())`. -/
def makeFilter (regex : String) (pool : StringPool) : Except QueryParserError RegexFilter :=
  match rx.error regex with
  | some what => .error ⟨what⟩
  | none => .ok (RegexFilter.create rx.sem regex pool)

theorem makeFilter_ok {regex : String} (pool : StringPool) (h : rx.error regex = none) :
    makeFilter rx regex pool = .ok (RegexFilter.create rx.sem regex pool) := by
  rw [makeFilter, h]

/-- One alternative of a where entry's pattern. -/
def valueRegexp (metric tag value : String) : String :=
  "(" ++ metric ++ "(?:\\s\\w+=\\w+)*\\s" ++ tag ++ "=" ++ value ++ "(?:\\s\\w+=\\w+)*)"

/-- The loop over an entry's values, with `firstitem`. -/
def valuesRegexp (metric tag : String) : Bool → List String → String
  | _, [] => ""
  | firstitem, value :: rest =>
    (if firstitem then "(?:" else "|") ++ valueRegexp metric tag value ++
      valuesRegexp metric tag false rest

/-- The pattern of one where entry. A leaf entry `tag: "v"` has no values,
so its pattern is `)`. -/
def itemRegexp (metric tag : String) (values : List String) : String :=
  valuesRegexp metric tag true values ++ ")"

/-- The pattern of a where entry, as the loop writes it. -/
def entryRegexp (metric : String) (item : String × PTree) : String :=
  itemRegexp metric item.1 (item.2.children.map (·.2.data))

/-- The loop over the where entries: each builds its filter, which
replaces the one before. -/
def whereLoop (metric : String) (pool : StringPool) :
    Option RegexFilter → List (String × PTree) → Except QueryParserError (Option RegexFilter)
  | result, [] => .ok result
  | _, item :: rest => do
    let filter ← makeFilter rx (entryRegexp metric item) pool
    whereLoop metric pool (some filter) rest

/-- The legacy `parse_where_clause(ptree, metric, "in", pool)`. -/
def parseWhereClause (ptree : PTree) (metric : String) (pool : StringPool) :
    Except QueryParserError (Option RegexFilter) :=
  let metric := if metric.isEmpty then "\\w+" else metric
  match ptree.getChildOptional "where" with
  | some where_ => whereLoop rx metric pool none where_.children
  | none => some <$> makeFilter rx (metric ++ "(\\s\\w+=\\w+)*") pool

/-- Once every entry's pattern compiles, the loop keeps the filter of the
last entry. -/
theorem whereLoop_eq_last (metric : String) (pool : StringPool) :
    ∀ (result : Option RegexFilter) (items : List (String × PTree)),
      (∀ item ∈ items, rx.error (entryRegexp metric item) = none) →
      whereLoop rx metric pool result items =
        .ok ((items.getLast?.map fun item => RegexFilter.create rx.sem (entryRegexp metric item) pool).or
          result)
  | _, [], _ => rfl
  | _, item :: rest, h => by
    rw [whereLoop, makeFilter_ok rx pool (h item (List.mem_cons_self _ _)), ok_bind,
      whereLoop_eq_last metric pool _ rest fun i hi => h i (List.mem_cons_of_mem _ hi),
      List.getLast?_cons]
    cases rest.getLast? <;> rfl

/-- With a where clause whose entries' patterns all compile, the filter is
the one of its last entry, and none when it has no entries. -/
theorem parseWhereClause_eq_last {ptree where_ : PTree} (metric : String) (pool : StringPool)
    (h : ptree.getChildOptional "where" = some where_)
    (hok : ∀ item ∈ where_.children,
      rx.error (entryRegexp (if metric.isEmpty then "\\w+" else metric) item) = none) :
    parseWhereClause rx ptree metric pool =
      .ok (where_.children.getLast?.map fun item =>
        RegexFilter.create rx.sem (entryRegexp (if metric.isEmpty then "\\w+" else metric) item) pool) := by
  rw [parseWhereClause, h]
  exact (whereLoop_eq_last rx _ pool none _ hok).trans (congrArg Except.ok Option.or_none)

/-- Without a where clause, the filter of the metric's pattern. -/
theorem parseWhereClause_no_where {ptree : PTree} (metric : String) (pool : StringPool)
    (h : ptree.getChildOptional "where" = none)
    (hok : rx.error ((if metric.isEmpty then "\\w+" else metric) ++ "(\\s\\w+=\\w+)*") = none) :
    parseWhereClause rx ptree metric pool =
      .ok (some (RegexFilter.create rx.sem
        ((if metric.isEmpty then "\\w+" else metric) ++ "(\\s\\w+=\\w+)*") pool)) := by
  rw [parseWhereClause, h]
  simp only [makeFilter_ok rx pool hok]
  rfl

/-! ## The builder -/

/-- The loop over the `sample` entries from the last one. -/
def samplerLoop : Node → List Node → List (String × PTree) → Except QueryParserError (List Node)
  | _, allnodes, [] => .ok allnodes
  | next, allnodes, (_, d) :: rest =>
    match makeSampler env d next with
    | .ok next => samplerLoop next (allnodes ++ [next]) rest
    | .error e => .error e

/-- The node list of the scan path: the samplers made from the last
entry, then `std::reverse`. -/
def buildTopology (terminal : Node) (samplingParams : Option PTree) :
    Except QueryParserError (List Node) :=
  match samplingParams with
  | some params => (samplerLoop env terminal [terminal] params.children.reverse).map List.reverse
  | none => .ok [terminal]

/-- The check that `sample` and `select` are not both present. -/
def combineCheck (samplingParams : Option PTree) (select : Option String) :
    Except QueryParserError Unit :=
  if samplingParams.isSome && select.isSome then
    .error ⟨"`sample` and `select` can't be used together"⟩
  else .ok ()

/-- `Builder::build_query_processor`, from the parsed query on. -/
def buildQueryProcessor (terminal : Node) (pool : StringPool) (ptree : PTree) :
    Except QueryParserError (QueryProcessor Node) := do
  let groupby ← parseGroupby env ptree
  let metric := parseMetric ptree
  let select ← parseSelectStmt ptree
  let samplingParams := ptree.getChildOptional "sample"
  let filter ← parseWhereClause rx ptree metric pool
  combineCheck samplingParams select
  match select with
  | none =>
    let tsBegin ← parseRangeTimestamp env ptree "from"
    let tsEnd ← parseRangeTimestamp env ptree "to"
    let allnodes ← buildTopology env terminal samplingParams
    let p ← (ScanQueryProcessor.create env.requirements allnodes metric tsBegin tsEnd filter
      groupby).mapError fun e => ⟨e.what⟩
    pure (.scan p)
  | some _ => pure (.metadata filter terminal)

/-! ## The sampler chain -/

/-- The samplers `d_1 … d_k` describe the nodes `n_1 … n_k`: `create_node`
makes each `n_i` from `d_i`'s name with successor `n_(i+1)`, and `n_k`
with the terminal node. -/
def SamplerChain (terminal : Node) : List PTree → List Node → Prop
  | [], [] => True
  | d :: ds, n :: ns =>
    (∃ name, d.getChildOptional "name" = some name ∧
      env.createNode name.data d (ns.headD terminal) = .ok n) ∧ SamplerChain terminal ds ns
  | _, _ => False

/-- The descriptions in a `sample` entry, in order. -/
def samplerDescriptions (samplingParams : Option PTree) : List PTree :=
  ((samplingParams.map PTree.children).getD []).map (·.2)

/-- The samplers in the order the loop makes them, last description
first: each wraps the node made before it, the first wraps `next`. -/
def LoopChain : Node → List PTree → List Node → Prop
  | _, [], [] => True
  | next, d :: ds, n :: ns => makeSampler env d next = .ok n ∧ LoopChain n ds ns
  | _, _, _ => False

theorem makeSampler_eq_ok {d : PTree} {name : PTree} {next n : Node}
    (hname : d.getChildOptional "name" = some name) (h : env.createNode name.data d next = .ok n) :
    makeSampler env d next = .ok n := by
  rw [makeSampler, hname]
  simp only [h]

/-- The loop's step lemma, run to the end: along a chain it pushes the
nodes of the chain in order. -/
theorem samplerLoop_chain : ∀ (next : Node) (acc : List Node) (entries : List (String × PTree))
    (ms : List Node), LoopChain env next (entries.map (·.2)) ms →
      samplerLoop env next acc entries = .ok (acc ++ ms)
  | _, acc, [], [], _ => by rw [List.append_nil]; rfl
  | next, acc, (_, d) :: rest, m :: ms, ⟨hd, hrest⟩ => by
    rw [samplerLoop, hd]
    simpa only [List.append_assoc, List.singleton_append] using
      samplerLoop_chain m (acc ++ [m]) rest ms hrest

theorem loopChain_append {next : Node} {d : PTree} {n : Node} :
    ∀ {ds : List PTree} {ms : List Node}, LoopChain env next ds ms →
      makeSampler env d (ms.getLast?.getD next) = .ok n →
        LoopChain env next (ds ++ [d]) (ms ++ [n])
  | [], [], _, hd => ⟨hd, trivial⟩
  | _ :: _, m :: ms, ⟨he, hrest⟩, hd => by
    rw [List.getLast?_cons, Option.getD_some] at hd
    exact ⟨he, loopChain_append hrest hd⟩

/-- The descriptions read from the last one make the chain reversed. -/
theorem loopChain_reverse {terminal : Node} :
    ∀ {ds : List PTree} {ns : List Node}, SamplerChain env terminal ds ns →
      LoopChain env terminal ds.reverse ns.reverse
  | [], [], _ => trivial
  | d :: ds, n :: ns, ⟨⟨name, hname, hcreate⟩, hrest⟩ => by
    rw [List.reverse_cons, List.reverse_cons]
    refine loopChain_append env (loopChain_reverse hrest) ?_
    rw [List.getLast?_reverse, ← List.headD_eq_head?_getD]
    exact makeSampler_eq_ok env hname hcreate

/-- The node list of the scan path is the chain, then the terminal node. -/
theorem buildTopology_chain {terminal : Node} {samplingParams : Option PTree} {ns : List Node}
    (h : SamplerChain env terminal (samplerDescriptions samplingParams) ns) :
    buildTopology env terminal samplingParams = .ok (ns ++ [terminal]) := by
  cases samplingParams with
  | none =>
    cases ns with
    | nil => rfl
    | cons _ _ => exact h.elim
  | some params =>
    have hloop := samplerLoop_chain env terminal [terminal] params.children.reverse ns.reverse
      (by rw [List.map_reverse]; exact loopChain_reverse env h)
    rw [buildTopology, hloop]
    exact congrArg Except.ok (by simp)

/-- A list whose nodes are not terminal passes the order scan from any
count. -/
theorem orderLoop_of_not_terminal {l : List Node}
    (h : ∀ n ∈ l, hasRequirement (env.requirements n) TERMINAL = false) (nnormal : Nat) :
    orderLoop env.requirements nnormal l = .ok () := by
  induction l generalizing nnormal with
  | nil => rfl
  | cons n l ih =>
    rw [orderLoop, h n (List.mem_cons_self _ _), if_neg Bool.false_ne_true]
    exact ih (fun m hm => h m (List.mem_cons_of_mem _ hm)) _

/-- For every `sample` list whose descriptions `create_node` accepts,
making non-terminal samplers, a query on the scan path whose where clause
the builder reads reaches the `ScanQueryProcessor` constructor with
`[n_1, …, n_k, terminal]`, each `n_i` wrapping the next; the constructor's
order scan accepts that list. -/
theorem buildQueryProcessor_passes_chain (terminal : Node) (pool : StringPool) (ptree : PTree)
    (ns : List Node) (groupby : GroupByStatement) (filter : Option RegexFilter) (tsBegin tsEnd : Nat)
    (hgroupby : parseGroupby env ptree = .ok groupby)
    (hselect : parseSelectStmt ptree = .ok none)
    (hwhere : parseWhereClause rx ptree (parseMetric ptree) pool = .ok filter)
    (hfrom : parseRangeTimestamp env ptree "from" = .ok tsBegin)
    (hto : parseRangeTimestamp env ptree "to" = .ok tsEnd)
    (hchain : SamplerChain env terminal (samplerDescriptions (ptree.getChildOptional "sample")) ns)
    (hsamplers : ∀ n ∈ ns, hasRequirement (env.requirements n) TERMINAL = false) :
    buildQueryProcessor rx env terminal pool ptree =
        ((ScanQueryProcessor.create env.requirements (ns ++ [terminal]) (parseMetric ptree) tsBegin
          tsEnd filter groupby).mapError fun e => ⟨e.what⟩).map .scan ∧
      orderLoop env.requirements 0 (ns ++ [terminal]).reverse = .ok () := by
  refine ⟨?_, ?_⟩
  · have hcombine : combineCheck (ptree.getChildOptional "sample") none = .ok () := by
      simp [combineCheck]
    rw [buildQueryProcessor, hgroupby, ok_bind, hselect, ok_bind]
    dsimp only
    rw [hwhere, ok_bind, hcombine, ok_bind]
    simp only [hfrom, hto, buildTopology_chain env hchain, ok_bind]
    cases ScanQueryProcessor.create env.requirements (ns ++ [terminal]) (parseMetric ptree) tsBegin
      tsEnd filter groupby <;> rfl
  · rw [List.reverse_append, List.reverse_singleton, List.singleton_append, orderLoop,
      if_neg (not_not.2 rfl : ¬ (0 : Nat) ≠ 0)]
    have hrest := orderLoop_of_not_terminal env (l := ns.reverse)
      fun n hn => hsamplers n (List.mem_reverse.1 hn)
    split_ifs <;> exact hrest _

/-- The names a pattern matches in full, under the ECMAScript model of
`Akumuli.Regex`; it is asked only of patterns that compile. -/
def fullMatchSem (pattern name : String) : Bool :=
  ((Regex.regexMatch pattern).map (· name)).getD false

/-- The pool's regex library under the ECMAScript model: a pattern that
does not compile raises `std::regex_error`, whose `what()` the library
words; the model writes `regex_error`. -/
def fullMatchRegex : PoolRegex where
  error pattern := if (Regex.compile pattern).isSome then none else some "regex_error"
  sem := fullMatchSem

/-- Builder collaborators whose samplers count the nodes below them;
node `0` is the terminal node. -/
def countingEnv : BuilderEnv Nat where
  parseDuration _ := .ok 0
  fromIsoString _ := .ok 0
  createNode _ _ next := .ok (next + 1)
  requirements n := if n = 0 then TERMINAL else 0

/-- `{"sample": [{"name": "reservoir"}, {"name": "reservoir"}],
"range": {"from": "20150101T000000", "to": "20150102T000000"}}`. -/
def twoSamplersQuery : PTree :=
  .obj [("sample", .node "" [("", .obj [("name", .leaf "reservoir")]),
                             ("", .obj [("name", .leaf "reservoir")])]),
        ("range", .obj [("from", .leaf "20150101T000000"), ("to", .leaf "20150102T000000")])]

theorem buildQueryProcessor_passes_chain_twoSamplers :
    parseWhereClause fullMatchRegex twoSamplersQuery "" ⟨[]⟩ =
        .ok (some (RegexFilter.create fullMatchSem "\\w+(\\s\\w+=\\w+)*" ⟨[]⟩)) ∧
      buildQueryProcessor fullMatchRegex countingEnv 0 ⟨[]⟩ twoSamplersQuery =
        ((ScanQueryProcessor.create countingEnv.requirements [2, 1, 0] "" 0 0
          (some (RegexFilter.create fullMatchSem "\\w+(\\s\\w+=\\w+)*" ⟨[]⟩))
          (GroupByStatement.init 0)).mapError fun e => ⟨e.what⟩).map .scan ∧
      orderLoop countingEnv.requirements 0 [0, 1, 2] = .ok () :=
  have hwhere : parseWhereClause fullMatchRegex twoSamplersQuery "" ⟨[]⟩ =
      .ok (some (RegexFilter.create fullMatchSem "\\w+(\\s\\w+=\\w+)*" ⟨[]⟩)) := rfl
  ⟨hwhere, buildQueryProcessor_passes_chain fullMatchRegex countingEnv 0 ⟨[]⟩ twoSamplersQuery [2, 1] _ _
    0 0 rfl rfl hwhere rfl rfl ⟨⟨_, rfl, rfl⟩, ⟨_, rfl, rfl⟩, trivial⟩ (by decide)⟩

/-! ## The filter at work -/

/-- Three series of `cpu`: `cpu host=a region=x` (id 1),
`cpu host=b region=y` (id 2) and `cpu host=c-1` (id 3). -/
def hostRegionCatalog : Catalog where
  series :=
    [(⟨"cpu", [("host", "a"), ("region", "x")], by decide, by decide, by decide, by decide⟩, 1),
     (⟨"cpu", [("host", "b"), ("region", "y")], by decide, by decide, by decide, by decide⟩, 2),
     (⟨"cpu", [("host", "c-1")], by decide, by decide, by decide, by decide⟩, 3)]
  names_nodup := by decide
  ids_nodup := by decide

/-- `{"select": "names", "metric": "cpu", "where": {"host": ["a"], "region": ["y"]}}`. -/
def hostRegionQuery : PTree :=
  .obj [("select", .leaf "names"), ("metric", .leaf "cpu"),
        ("where", .obj [("host", .arr ["a"]), ("region", .arr ["y"])])]

/-- `{"select": "names"}`: no metric and no where clause. -/
def namesQuery : PTree := .obj [("select", .leaf "names")]

/-- For every set of collaborators, the filter the builder installs for
`host = a` and `region = y` passes series 2, which has `host = b`: only
the last where entry is tested. Without a metric and a where clause the
filter skips series 3, whose tag value `c-1` is not made of `\w`
characters. -/
theorem buildQueryProcessor_where_tests_last_entry (env : BuilderEnv Node) (terminal : Node) :
    (∃ f, buildQueryProcessor fullMatchRegex env terminal hostRegionCatalog.matcher.pool
        hostRegionQuery = .ok (.metadata (some f) terminal) ∧
      (f.apply fullMatchSem hostRegionCatalog.matcher.pool 2).1 = .PROCESS) ∧
    (∃ g, buildQueryProcessor fullMatchRegex env terminal hostRegionCatalog.matcher.pool
        namesQuery = .ok (.metadata (some g) terminal) ∧
      (g.apply fullMatchSem hostRegionCatalog.matcher.pool 3).1 = .SKIP_THIS) ∧
    hostRegionCatalog.series.map (fun s => (s.1.metric, s.1.tags, s.2)) =
      [("cpu", [("host", "a"), ("region", "x")], 1), ("cpu", [("host", "b"), ("region", "y")], 2),
       ("cpu", [("host", "c-1")], 3)] :=
  ⟨⟨_, rfl, by decide⟩, ⟨_, rfl, by decide⟩, rfl⟩

end Akumuli.QP.Legacy
