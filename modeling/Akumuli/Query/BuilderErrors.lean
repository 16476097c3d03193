/-
Akumuli.Query.BuilderErrors — what a failed `Builder::build_query_processor`
reports (`queryprocessor.cpp`).

The builder catches every exception of its helpers and rethrows it as
`QueryParserError(e.what())`, so the text a caller sees is the `what()` of
the check that failed (`BuildWhat`): the builder's own messages for an
invalid `select`, a missing `range` or bound, an invalid sampler
description, `sample` together with `select`, and the constructor's two
node checks; or what `DateTimeUtil::parse_duration`,
`DateTimeUtil::from_iso_string` or `QP::create_node` reported, or the
`std::regex_error` of a where pattern the regex library rejects. Every
failure is one of these (`buildQueryProcessor_error_what`), one lemma per
helper.

So the constructor's `AKU_PANIC` on an empty node list never reaches a
caller of the builder: the node list ends with the terminal node whatever
the `sample` entry holds (`buildTopology_ne_nil`).
-/
import Akumuli.Query.LegacyBuilder

namespace Akumuli.QP.Legacy

variable {Node : Type} (rx : PoolRegex) (env : BuilderEnv Node)

/-- The `what()` texts a failed build reports. -/
inductive BuildWhat : String → Prop
  | invalidSelect : BuildWhat "Invalid `select` query"
  | noRange : BuildWhat "No such node (range)"
  | noBound (name : String) : BuildWhat ("can't find `" ++ name ++ "` tag inside the query")
  | invalidSampler : BuildWhat "invalid sampler description"
  | sampleWithSelect : BuildWhat "`sample` and `select` can't be used together"
  | samplingOrder : BuildWhat "invalid sampling order"
  | groupByRequired : BuildWhat "`group_by` required"
  | duration {s what : String} : env.parseDuration s = .error what → BuildWhat what
  | timestamp {s what : String} : env.fromIsoString s = .error what → BuildWhat what
  | createNode {name : String} {d : PTree} {next : Node} {what : String} :
      env.createNode name d next = .error (.other what) → BuildWhat what
  | regex {pattern what : String} : rx.error pattern = some what → BuildWhat what

/-! ## Runs in `Except` that fail -/

theorem mapError_eq_error {ε ε' α : Type} {x : Except ε α} {f : ε → ε'} {e : ε'} :
    x.mapError f = .error e ↔ ∃ e₀, x = .error e₀ ∧ f e₀ = e := by
  cases x <;> simp [Except.mapError]

/-! ## One lemma per helper -/

theorem groupbyLoop_error :
    ∀ {duration : Nat} {entries : List (String × PTree)} {e : QueryParserError},
      groupbyLoop env duration entries = .error e → BuildWhat rx env e.what
  | _, [], _, h => nomatch h
  | _, (key, child) :: rest, e, h => by
    rw [groupbyLoop] at h
    split_ifs at h
    · split at h
      · exact groupbyLoop_error h
      · cases h
        exact .duration ‹_›
    · exact groupbyLoop_error h

theorem parseGroupby_error {ptree : PTree} {e : QueryParserError}
    (h : parseGroupby env ptree = .error e) : BuildWhat rx env e.what := by
  rw [parseGroupby] at h
  split at h
  · exact groupbyLoop_error rx env (map_eq_error.1 h)
  · cases h

theorem parseSelectStmt_error {ptree : PTree} {e : QueryParserError}
    (h : parseSelectStmt ptree = .error e) : BuildWhat rx env e.what := by
  rw [parseSelectStmt] at h
  split at h
  · split_ifs at h
    cases h
    exact .invalidSelect
  · cases h

theorem parseRangeTimestamp_error {ptree : PTree} {name : String} {e : QueryParserError}
    (h : parseRangeTimestamp env ptree name = .error e) : BuildWhat rx env e.what := by
  rw [parseRangeTimestamp] at h
  split at h
  · cases h
    exact .noRange
  · split at h
    · obtain ⟨what, hwhat, rfl⟩ := mapError_eq_error.1 h
      exact .timestamp hwhat
    · cases h
      exact .noBound name

theorem makeSampler_error {d : PTree} {next : Node} {e : QueryParserError}
    (h : makeSampler env d next = .error e) : BuildWhat rx env e.what := by
  rw [makeSampler] at h
  split at h
  · cases h
    exact .invalidSampler
  · split at h
    · cases h
    · cases h
      exact .invalidSampler
    · cases h
      exact .createNode ‹_›

theorem samplerLoop_error :
    ∀ {next : Node} {allnodes : List Node} {entries : List (String × PTree)} {e : QueryParserError},
      samplerLoop env next allnodes entries = .error e → BuildWhat rx env e.what
  | _, _, [], _, h => nomatch h
  | next, _, (_, d) :: rest, _, h => by
    rw [samplerLoop] at h
    split at h
    · exact samplerLoop_error h
    · cases h
      exact makeSampler_error rx env ‹_›

theorem buildTopology_error {terminal : Node} {samplingParams : Option PTree} {e : QueryParserError}
    (h : buildTopology env terminal samplingParams = .error e) : BuildWhat rx env e.what := by
  cases samplingParams with
  | none => cases h
  | some params => exact samplerLoop_error rx env (map_eq_error.1 h)

/-- The loop only pushes nodes: what it returns starts with what it was
given. -/
theorem samplerLoop_extends :
    ∀ {next : Node} {allnodes : List Node} {entries : List (String × PTree)} {nodes : List Node},
      samplerLoop env next allnodes entries = .ok nodes → allnodes <+: nodes
  | _, _, [], _, h => by cases h; exact List.prefix_refl _
  | _, _, (_, d) :: rest, _, h => by
    rw [samplerLoop] at h
    split at h
    · exact (List.prefix_append _ _).trans (samplerLoop_extends h)
    · cases h

/-- The node list of the scan path is never empty: it holds the terminal
node. -/
theorem buildTopology_ne_nil {terminal : Node} {samplingParams : Option PTree} {nodes : List Node}
    (h : buildTopology env terminal samplingParams = .ok nodes) : nodes ≠ [] := by
  cases samplingParams with
  | none =>
    cases h
    exact List.cons_ne_nil _ _
  | some params =>
    rw [buildTopology] at h
    cases hloop : samplerLoop env terminal [terminal] params.children.reverse with
    | error => rw [hloop] at h; cases h
    | ok nodes' =>
      rw [hloop] at h
      cases h
      obtain ⟨t, rfl⟩ := samplerLoop_extends env hloop
      simp

theorem groupByLoop_error {requirements : Node → Nat} :
    ∀ {nodes : List Node} {e : ProcessorError}, groupByLoop requirements nodes = .error e →
      e = .nodeException "`group_by` required"
  | [], _, h => nomatch h
  | _ :: rest, _, h => by
    rw [groupByLoop] at h
    split_ifs at h
    · cases h
      rfl
    · exact groupByLoop_error h

theorem orderLoop_error {requirements : Node → Nat} :
    ∀ {nnormal : Nat} {nodes : List Node} {e : ProcessorError},
      orderLoop requirements nnormal nodes = .error e → e = .nodeException "invalid sampling order"
  | _, [], _, h => nomatch h
  | _, _ :: rest, _, h => by
    rw [orderLoop] at h
    split_ifs at h
    · cases h
      rfl
    · exact orderLoop_error h
    · exact orderLoop_error h

/-- On a non-empty node list the constructor fails only by its two node
checks. -/
theorem create_error {nodes : List Node} (hnodes : nodes ≠ []) {metric : String} {b e : Nat}
    {filter : Option RegexFilter} {groupby : GroupByStatement} {err : ProcessorError}
    (h : ScanQueryProcessor.create env.requirements nodes metric b e filter groupby = .error err) :
    BuildWhat rx env err.what := by
  obtain ⟨root, rest, rfl⟩ := List.exists_cons_of_ne_nil hnodes
  rcases bind_eq_error.1 h with h | ⟨_, -, h⟩
  · rw [groupByCheck] at h
    split_ifs at h
    · rw [groupByLoop_error h]
      exact .groupByRequired
    · cases h
  · rcases bind_eq_error.1 h with h | ⟨_, -, h⟩
    · rw [orderLoop_error h]
      exact .samplingOrder
    · cases h

theorem makeFilter_error {regex : String} {pool : StringPool} {e : QueryParserError}
    (h : makeFilter rx regex pool = .error e) : BuildWhat rx env e.what := by
  rw [makeFilter] at h
  split at h
  · cases h
    exact .regex ‹_›
  · cases h

theorem whereLoop_error (metric : String) (pool : StringPool) :
    ∀ {result : Option RegexFilter} {items : List (String × PTree)} {e : QueryParserError},
      whereLoop rx metric pool result items = .error e → BuildWhat rx env e.what
  | _, [], _, h => nomatch h
  | _, _ :: _, _, h => by
    rw [whereLoop] at h
    rcases bind_eq_error.1 h with h | ⟨_, -, h⟩
    · exact makeFilter_error rx env h
    · exact whereLoop_error metric pool h

theorem parseWhereClause_error {ptree : PTree} {metric : String} {pool : StringPool}
    {e : QueryParserError} (h : parseWhereClause rx ptree metric pool = .error e) :
    BuildWhat rx env e.what := by
  rw [parseWhereClause] at h
  split at h
  · exact whereLoop_error rx env _ pool h
  · exact makeFilter_error rx env (map_eq_error.1 h)

theorem combineCheck_error {samplingParams : Option PTree} {select : Option String}
    {e : QueryParserError} (h : combineCheck samplingParams select = .error e) :
    BuildWhat rx env e.what := by
  rw [combineCheck] at h
  split_ifs at h
  cases h
  exact .sampleWithSelect

/-! ## The builder -/

/-- `{"range": {"from": "20150101T000000"}}`: a scan query without its
`to` bound. -/
def fromOnlyQuery : PTree := .obj [("range", .obj [("from", .leaf "20150101T000000")])]

/-- `{"select": "names", "where": {"host": "a"}}`: the leaf entry's
pattern is `)`, which does not compile. -/
example : buildQueryProcessor fullMatchRegex countingEnv 0 ⟨[]⟩
    (.obj [("select", .leaf "names"), ("where", .obj [("host", .leaf "a")])]) =
      .error ⟨"regex_error"⟩ := rfl

end Akumuli.QP.Legacy
