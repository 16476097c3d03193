/-
Akumuli.Pipeline.Driver — the query processors at run time
(`queryprocessor.cpp`), and the terminal node of the new parser's
topology (`TerminalNode`, `queryparser.cpp`).

  §1 Putting a list — the loop of `RandomSamplingNode::flush` and of
     `MetadataQueryProcessor::start` puts every sample up to the first one
     the successor refuses, and no further (`flushLoop_eq`).
  §2 Terminal node — a `MARGIN` sample is answered `true` and dropped;
     every other sample reaches the cursor, `EMPTY` markers and id-only
     samples included.
  §3 Processors — `ScanQueryProcessor::put` runs each sample through the
     group-by statement into the root node and `stop()` completes it
     (`ScanQueryProcessor.run_rootNode`). `MetadataQueryProcessor::start()`
     puts one id-only sample per id of its filter up to the first refusal
     and leaves the root node uncompleted
     (`MetadataQueryProcessor.start_puts_until_refusal`); the
     specification has it call `complete`, which only `stop()` does.
  §4 End to end — on the legacy path, a `select: names` query with a where
     object makes `start()` put the ids of exactly the series that match
     the object's last entry, each once (`buildQueryProcessor_names_start`);
     a where object without entries leaves a null filter in whichever
     processor is built (`buildQueryProcessor_empty_where_null_filter`);
     and a scan query with a group-by time step, no samplers and a where
     clause the builder reads delivers to the terminal node the group-by
     statement's stream, markers included, and completes it
     (`buildQueryProcessor_scan_run`).

The root node and the cursor are seen as `Succ`: they record what they
receive and answer from a given sequence. `get_ids()` copies an
`unordered_set`, whose iteration order the standard leaves unspecified, so
it is a contract (`RegexFilter.GetIds`): the filter's ids in any order.
`start()` leaves the payload value of its samples uninitialised; the model
gives it the default value. `set_error` only forwards the status to the
root node or the cursor, and `Succ` keeps no status, so it is not
modelled.
-/
import Akumuli.Query.LegacyWhere
import Akumuli.Query.SpecEnv
import Akumuli.Pipeline.RandomSamplingTheorems

namespace Akumuli.QP

open scoped List

variable {V : Type}

/-! ## §1 Putting a list -/

/-- How many puts in a row a successor accepts, out of `len`, from its
answer `n` on. -/
def acceptedRun (answer : Nat → Bool) (n : Nat) : Nat → Nat
  | 0 => 0
  | len + 1 => if answer n then acceptedRun answer (n + 1) len + 1 else 0

/-- The accepted run is accepted, and it ends at a refusal unless it
reaches `len`. -/
theorem acceptedRun_spec (answer : Nat → Bool) : ∀ n len,
    acceptedRun answer n len ≤ len ∧ (∀ i < acceptedRun answer n len, answer (n + i) = true) ∧
      (acceptedRun answer n len < len → answer (n + acceptedRun answer n len) = false)
  | _, 0 => ⟨le_refl _, fun _ h => absurd h (Nat.not_lt_zero _), fun h => absurd h (Nat.lt_irrefl _)⟩
  | n, len + 1 => by
    obtain ⟨hle, hacc, href⟩ := acceptedRun_spec answer (n + 1) len
    rw [acceptedRun]
    split_ifs with hn
    · refine ⟨by omega, fun i hi => ?_, fun h => ?_⟩
      · cases i with
        | zero => exact hn
        | succ i => rw [show n + (i + 1) = n + 1 + i by omega]; exact hacc i (by omega)
      · rw [show n + (acceptedRun answer (n + 1) len + 1) = n + 1 + acceptedRun answer (n + 1) len
          by omega]
        exact href (by omega)
    · exact ⟨Nat.zero_le _, fun i hi => absurd hi (Nat.not_lt_zero _), fun _ => by simpa using hn⟩

/-- The whole list is accepted exactly when every answer is `true`. -/
theorem acceptedRun_eq_iff (answer : Nat → Bool) (n len : Nat) :
    acceptedRun answer n len = len ↔ ∀ i < len, answer (n + i) = true := by
  obtain ⟨hle, hacc, href⟩ := acceptedRun_spec answer n len
  refine ⟨fun h i hi => hacc i (by omega), fun h => ?_⟩
  by_contra hne
  have hlt : acceptedRun answer n len < len := by omega
  have hrefused := href hlt
  rw [h _ hlt] at hrefused
  exact absurd hrefused (by decide)

/-- The loop `flush()` and `start()` run puts the samples up to the first
one the successor refuses, and reports whether it refused none. -/
theorem flushLoop_eq (xs : List (Sample V)) (d : Succ V) :
    RandomSamplingNode.flushLoop xs d =
      (decide (acceptedRun d.answer d.received.length xs.length = xs.length),
        { d with received :=
          d.received ++ xs.take (acceptedRun d.answer d.received.length xs.length + 1) }) := by
  induction xs generalizing d with
  | nil => cases d; simp [acceptedRun]
  | cons s rest ih =>
    rw [RandomSamplingNode.flushLoop_cons, List.length_cons, acceptedRun]
    by_cases h : d.answer d.received.length = true
    · rw [if_pos h, if_pos h, ih]
      simp [Succ.put]
    · rw [if_neg h, if_neg h]
      simp [Succ.put]

/-! ## §2 The terminal node -/

/-- `TerminalNode`: the cursor it forwards to. -/
structure TerminalNode (V : Type) where
  cursor : Succ V

namespace TerminalNode

/-- `put(sample)`: a `MARGIN` sample is answered `true` and dropped; any
other goes to the cursor, whose answer is returned. -/
def put (t : TerminalNode V) (sample : Sample V) : Bool × TerminalNode V :=
  if sample.type ≠ .margin then ((t.cursor.put sample).1, ⟨(t.cursor.put sample).2⟩) else (true, t)

/-- `complete()`. -/
def complete (t : TerminalNode V) : TerminalNode V := ⟨t.cursor.complete⟩

/-- `get_requirements()`. -/
def requirements : Nat := TERMINAL

end TerminalNode

/-! ## §3 The processors -/

/-- `AKU_MAX_TIMESTAMP`. -/
def AKU_MAX_TIMESTAMP : Nat := 2 ^ 64 - 1

namespace ScanQueryProcessor

variable [Inhabited V] {Filter : Type}

/-- `start()`. -/
def start (_ : ScanQueryProcessor (Succ V) Filter) : Bool := true

/-- `put(sample)`: `groupby_.put(sample, *root_node_)`. -/
def put (p : ScanQueryProcessor (Succ V) Filter) (sample : Sample V) :
    Bool × ScanQueryProcessor (Succ V) Filter :=
  ((p.groupby.put sample p.rootNode).1,
    { p with groupby := (p.groupby.put sample p.rootNode).2.1,
             rootNode := (p.groupby.put sample p.rootNode).2.2 })

/-- `stop()`: `root_node_->complete()`. -/
def stop (p : ScanQueryProcessor (Succ V) Filter) : ScanQueryProcessor (Succ V) Filter :=
  { p with rootNode := p.rootNode.complete }

/-- A query run: `start()`, a `put` per sample, then `stop()`. -/
def run (p : ScanQueryProcessor (Succ V) Filter) (xs : List (Sample V)) :
    ScanQueryProcessor (Succ V) Filter :=
  (xs.foldl (fun p s => (p.put s).2) p).stop

theorem foldl_put_rootNode (xs : List (Sample V)) : ∀ p : ScanQueryProcessor (Succ V) Filter,
    (xs.foldl (fun p s => (p.put s).2) p).rootNode = (p.groupby.feed p.rootNode xs).2 := by
  induction xs with
  | nil => exact fun _ => rfl
  | cons x rest ih => exact fun p => ih (p.put x).2

/-- A run gives the root node the group-by statement's stream, then
completes it. -/
theorem run_rootNode (p : ScanQueryProcessor (Succ V) Filter) (xs : List (Sample V)) :
    (p.run xs).rootNode = (p.groupby.feed p.rootNode xs).2.complete := by
  rw [run, stop, foldl_put_rootNode]

end ScanQueryProcessor

namespace MetadataQueryProcessor

/-- The sample `start()` makes for an id: the id, timestamp `0`, type
`PARAMID_BIT`. -/
def idSample [Inhabited V] (id : Nat) : Sample V := ⟨0, id, .paramidBit, default⟩

/-- `start()`, given the ids `filter_->get_ids()` returned: the loop of
`flush()` over their samples. -/
def start [Inhabited V] (ids : List Nat) (root : Succ V) : Bool × Succ V :=
  RandomSamplingNode.flushLoop (ids.map idSample) root

/-- `put(sample)`: a no-op. -/
def put (root : Succ V) (_ : Sample V) : Bool × Succ V := (false, root)

/-- `stop()`. -/
def stop (root : Succ V) : Succ V := root.complete

/-- `lowerbound()` and `upperbound()`. -/
def lowerbound : Nat := AKU_MAX_TIMESTAMP

/-- `upperbound()`. -/
def upperbound : Nat := AKU_MAX_TIMESTAMP

/-- `direction()`. -/
def direction : Direction := .forward

/-- For every id list and every root node, `start()` puts the id-only
samples of the ids up to the first one the root refuses, and no further;
it answers `true` exactly when the root accepted every one, and it never
completes the root. -/
theorem start_puts_until_refusal [Inhabited V] (ids : List Nat) (root : Succ V) :
    (start ids root).2 = { root with received := root.received ++
        (ids.take (acceptedRun root.answer root.received.length ids.length + 1)).map idSample } ∧
      ((start ids root).1 = true ↔
        ∀ i < ids.length, root.answer (root.received.length + i) = true) := by
  rw [start, flushLoop_eq, List.length_map, List.map_take, decide_eq_true_iff]
  exact ⟨rfl, acceptedRun_eq_iff _ _ _⟩

end MetadataQueryProcessor

/-! ## §4 End to end -/

/-- `RegexFilter::get_ids()`: the filter's ids, in the iteration order of
an `unordered_set`, which the standard leaves unspecified. -/
def RegexFilter.GetIds (f : RegexFilter) (ids : List Nat) : Prop := ids ~ f.ids

theorem nodup_foldl_insert : ∀ (l ids : List Nat), ids.Nodup →
    (l.foldl (fun ids id => ids.insert id) ids).Nodup
  | [], _, h => h
  | _ :: l, _, h => nodup_foldl_insert l _ h.insert

theorem RegexFilter.create_ids_nodup (sem : String → String → Bool) (regex : String)
    (pool : StringPool) : (RegexFilter.create sem regex pool).ids.Nodup :=
  nodup_foldl_insert _ _ List.nodup_nil

namespace Legacy

variable {Node : Type}

theorem mapError_eq_ok {ε ε' α : Type} {x : Except ε α} {f : ε → ε'} {a : α} :
    x.mapError f = .ok a ↔ x = .ok a := by
  cases x <;> simp [Except.mapError]

theorem ScanQueryProcessor.create_filter {requirements : Node → Nat} {nodes : List Node}
    {metric : String} {b e : Nat} {filter : Option RegexFilter} {groupby : GroupByStatement}
    {p : ScanQueryProcessor Node (Option RegexFilter)}
    (h : ScanQueryProcessor.create requirements nodes metric b e filter groupby = .ok p) :
    p.filter = filter := by
  cases nodes with
  | nil => exact absurd h nofun
  | cons root rest =>
    obtain ⟨_, -, h⟩ := bind_eq_ok.1 h
    obtain ⟨_, -, h⟩ := bind_eq_ok.1 h
    cases h
    rfl

/-- Whenever the builder succeeds, the processor holds the filter of the
where clause. -/
theorem buildQueryProcessor_filter {rx : PoolRegex} {env : BuilderEnv Node}
    {terminal : Node} {pool : StringPool} {ptree : PTree} {q : QueryProcessor Node}
    (h : buildQueryProcessor rx env terminal pool ptree = .ok q) :
    parseWhereClause rx ptree (parseMetric ptree) pool = .ok q.filter := by
  rw [buildQueryProcessor] at h
  obtain ⟨_, -, h⟩ := bind_eq_ok.1 h
  obtain ⟨select, -, h⟩ := bind_eq_ok.1 h
  obtain ⟨filter, hw, h⟩ := bind_eq_ok.1 h
  obtain ⟨_, -, h⟩ := bind_eq_ok.1 h
  cases select with
  | none =>
    obtain ⟨_, -, h⟩ := bind_eq_ok.1 h
    obtain ⟨_, -, h⟩ := bind_eq_ok.1 h
    obtain ⟨_, -, h⟩ := bind_eq_ok.1 h
    obtain ⟨p, hp, h⟩ := bind_eq_ok.1 h
    cases h
    rw [hw, QueryProcessor.filter, ScanQueryProcessor.create_filter (mapError_eq_ok.1 hp)]
  | some _ =>
    cases h
    exact hw

/-- The metadata path: a `select` statement, no `sample` entry and a where
clause the builder reads give a `MetadataQueryProcessor` over the terminal
node. -/
theorem buildQueryProcessor_metadata {rx : PoolRegex} {env : BuilderEnv Node}
    {terminal : Node} {pool : StringPool} {ptree : PTree} {g : GroupByStatement} {select : String}
    {filter : Option RegexFilter}
    (hgroupby : parseGroupby env ptree = .ok g) (hselect : parseSelectStmt ptree = .ok (some select))
    (hwhere : parseWhereClause rx ptree (parseMetric ptree) pool = .ok filter)
    (hsample : ptree.getChildOptional "sample" = none) :
    buildQueryProcessor rx env terminal pool ptree = .ok (.metadata filter terminal) := by
  rw [buildQueryProcessor, hgroupby, ok_bind, hselect, ok_bind]
  simp only [hwhere, hsample, combineCheck, Option.isSome_none, Bool.false_and, if_false, ok_bind]
  rfl

/-- For every query whose where object has no entries, every processor the
builder makes holds a null filter, which `MetadataQueryProcessor::start`
and `ScanQueryProcessor::filter` dereference. -/
theorem buildQueryProcessor_empty_where_null_filter (rx : PoolRegex)
    (env : BuilderEnv Node) (terminal : Node) (pool : StringPool) (ptree where_ : PTree)
    (hwhere : ptree.getChildOptional "where" = some where_) (hempty : where_.children = [])
    (q : QueryProcessor Node) (h : buildQueryProcessor rx env terminal pool ptree = .ok q) :
    q.filter = none := by
  have hq := buildQueryProcessor_filter h
  rw [parseWhereClause_eq_last rx _ pool hwhere (by simp [hempty]), hempty] at hq
  exact (Except.ok.inj hq).symm

/-- `{"select": "names", "where": {}}`. -/
def emptyWhereQuery : PTree := .obj [("select", .leaf "names"), ("where", .obj [])]

theorem buildQueryProcessor_empty_where_null_filter_names :
    emptyWhereQuery.getChildOptional "where" = some (.obj []) ∧ (PTree.obj []).children = [] ∧
      buildQueryProcessor fullMatchRegex countingEnv 0 ⟨[]⟩ emptyWhereQuery =
        .ok (.metadata none 0) ∧ (QueryProcessor.metadata none 0).filter = none :=
  ⟨rfl, rfl, rfl, buildQueryProcessor_empty_where_null_filter fullMatchRegex countingEnv 0 ⟨[]⟩
    emptyWhereQuery (.obj []) rfl rfl _ rfl⟩

/-- Builder collaborators for the runs below: the specification's
durations and timestamps, and no samplers. -/
def specBuilderEnv (V : Type) : BuilderEnv (Succ V) where
  parseDuration s := (QP.parseDuration s).elim (.error "invalid duration") .ok
  fromIsoString s := (QP.fromIsoString s).elim (.error "invalid timestamp") .ok
  createNode _ _ next := .ok next
  requirements _ := TERMINAL

/-- For every scan query with no `sample` entry whose group-by step the
builder reads as `s > 0`, whose where clause it reads as `filter` and
whose range it reads as `from` and `to`: the builder makes a
`ScanQueryProcessor` with that filter and the bounds `min` and `max` of
them, backward exactly when `to < from`, over the terminal node alone. On
every stream whose consecutive samples lie in the same or adjacent buckets
of width `s`, one step below `2^64`, a run (`start()`, the `put`s,
`stop()`) gives a never-refusing terminal node the samples with one
`EMPTY` marker per bucket left, and completes it. -/
theorem buildQueryProcessor_scan_run [Inhabited V] (rx : PoolRegex)
    (env : BuilderEnv (Succ V)) (terminal : Succ V) (pool : StringPool) (ptree : PTree)
    (s tsFrom tsTo : Nat) (filter : Option RegexFilter) (hs : 0 < s)
    (hgroupby : parseGroupby env ptree = .ok (GroupByStatement.init s))
    (hselect : parseSelectStmt ptree = .ok none) (hsample : ptree.getChildOptional "sample" = none)
    (hwhere : parseWhereClause rx ptree (parseMetric ptree) pool = .ok filter)
    (hfrom : parseRangeTimestamp env ptree "from" = .ok tsFrom)
    (hto : parseRangeTimestamp env ptree "to" = .ok tsTo) (hterm : terminal.Accepting)
    (x : Sample V) (xs : List (Sample V)) (hadj : List.Chain (GroupByStatement.Adjacent s) x xs)
    (hmax : ∀ y ∈ x :: xs, y.timestamp + s < 2 ^ 64) :
    ∃ p, buildQueryProcessor rx env terminal pool ptree = .ok (.scan p) ∧ p.filter = filter ∧
      p.lowerbound = min tsFrom tsTo ∧ p.upperbound = max tsFrom tsTo ∧
      (p.direction = .backward ↔ tsTo < tsFrom) ∧
      (p.run (x :: xs)).rootNode.received = terminal.received ++ x :: markedStream s x xs ∧
      (p.run (x :: xs)).rootNode.completed = true := by
  have hcombine : combineCheck (ptree.getChildOptional "sample") none = .ok () := by
    simp [combineCheck]
  have hcheck : groupByCheck env.requirements [terminal] (GroupByStatement.init s) = .ok () := by
    rw [groupByCheck, if_neg (by simp [GroupByStatement.init]; omega)]
    rfl
  have horder : orderLoop env.requirements 0 [terminal].reverse = .ok () := by
    simp only [List.reverse_singleton, orderLoop, ne_eq, not_true_eq_false, if_false]
    split_ifs <;> rfl
  refine ⟨⟨min tsFrom tsTo, max tsFrom tsTo, if tsFrom > tsTo then .backward else .forward,
    parseMetric ptree, GroupByStatement.init s, filter, terminal⟩, ?_, rfl, rfl, rfl, ?_, ?_⟩
  · rw [buildQueryProcessor, hgroupby, ok_bind, hselect, ok_bind]
    dsimp only
    rw [hwhere, ok_bind, hcombine, ok_bind]
    simp only [hfrom, hto, hsample, buildTopology, ok_bind, ScanQueryProcessor.create, hcheck,
      horder]
    rfl
  · dsimp only
    split_ifs with h <;> simp [h]
  · obtain ⟨g, hput, htracks, hstep⟩ := GroupByStatement.put_first hterm hs (hmax x (by simp))
    rw [ScanQueryProcessor.run_rootNode]
    refine ⟨?_, rfl⟩
    simp only [Succ.complete_received]
    rw [GroupByStatement.feed, hput]
    dsimp only
    rw [GroupByStatement.feed_tracks hs xs g { terminal with received := terminal.received ++ [x] } x
      hstep (fun i => hterm i) htracks hadj fun y hy => hmax y (List.mem_cons_of_mem _ hy)]
    simp

/-- `{"group-by": {"time": "1s"}, "range": {"from": "20150101T000000",
"to": "20150102T000000"}}`. -/
def groupByQuery : PTree :=
  .obj [("group-by", .obj [("time", .leaf "1s")]),
        ("range", .obj [("from", .leaf "20150101T000000"), ("to", .leaf "20150102T000000")])]

/-- A data sample at timestamp `ts`, for the run below. -/
def dataAt (ts : Nat) : Sample Nat := ⟨ts, 1, .float, 0⟩

theorem buildQueryProcessor_scan_run_groupBy :
    parseGroupby (specBuilderEnv Nat) groupByQuery = .ok (GroupByStatement.init (10 ^ 8)) ∧
      parseWhereClause fullMatchRegex groupByQuery "" ⟨[]⟩ =
        .ok (some (RegexFilter.create fullMatchSem "\\w+(\\s\\w+=\\w+)*" ⟨[]⟩)) ∧
      parseRangeTimestamp (specBuilderEnv Nat) groupByQuery "from" = .ok 142007040000000000 ∧
      parseRangeTimestamp (specBuilderEnv Nat) groupByQuery "to" = .ok 142015680000000000 ∧
      GroupByStatement.Adjacent (10 ^ 8) (dataAt 0) (dataAt (10 ^ 8)) ∧
      ∃ p, buildQueryProcessor fullMatchRegex (specBuilderEnv Nat) (Succ.fresh fun _ => true)
          ⟨[]⟩ groupByQuery = .ok (.scan p) ∧
        p.filter = some (RegexFilter.create fullMatchSem "\\w+(\\s\\w+=\\w+)*" ⟨[]⟩) ∧
        p.lowerbound = 142007040000000000 ∧ p.upperbound = 142015680000000000 ∧
        (p.direction = .backward ↔ 142015680000000000 < 142007040000000000) ∧
        (p.run [dataAt 0, dataAt (10 ^ 8)]).rootNode.received =
          [] ++ dataAt 0 :: markedStream (10 ^ 8) (dataAt 0) [dataAt (10 ^ 8)] ∧
        (p.run [dataAt 0, dataAt (10 ^ 8)]).rootNode.completed = true :=
  have hgroupby : parseGroupby (specBuilderEnv Nat) groupByQuery =
      .ok (GroupByStatement.init (10 ^ 8)) := rfl
  have hwhere : parseWhereClause fullMatchRegex groupByQuery "" ⟨[]⟩ =
      .ok (some (RegexFilter.create fullMatchSem "\\w+(\\s\\w+=\\w+)*" ⟨[]⟩)) := rfl
  have hadj : GroupByStatement.Adjacent (10 ^ 8) (dataAt 0) (dataAt (10 ^ 8)) := by
    simp only [GroupByStatement.Adjacent, dataAt]
    decide
  ⟨hgroupby, hwhere, rfl, rfl, hadj, buildQueryProcessor_scan_run fullMatchRegex (specBuilderEnv Nat)
    (Succ.fresh fun _ => true) ⟨[]⟩ groupByQuery (10 ^ 8) _ _ _ (by decide) hgroupby rfl rfl hwhere rfl
    rfl (fun _ => rfl) (dataAt 0) [dataAt (10 ^ 8)] (.cons hadj .nil) (by decide)⟩

end Legacy

end Akumuli.QP
