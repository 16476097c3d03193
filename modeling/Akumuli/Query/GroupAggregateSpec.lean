/-
Akumuli.Query.GroupAggregateSpec — what `parse_group_aggregate_stmt`
accepts.

The loop over the `group-aggregate` entries `break`s at a second `func`
or `metric` entry, at a `step` entry once a step was read, and at an
invalid function. A `break` keeps what was read, so an object whose three
components come before a repeated key is accepted with the key repeated
(`parseGroupAggregateStmt_accepts_repeated_step`).

When each of `step`, `metric` and `func` occurs at most once and the
functions are valid, no `break` fires, and the loop leaves each component
read from the entry of its key (`groupAggregateLoop_eq_readAll`). So the
statement parses exactly when the three occur, the step parses as a
duration and the `func` array is non-empty with every element a valid
function, and the result carries them
(`parseGroupAggregateStmt_eq_success_iff`).
-/
import Akumuli.Query.SpecEnv

namespace Akumuli.QP

variable {Fn : Type} (env : Env Fn)

/-! ## The function array -/

/-- The function loop reads the whole array exactly when every element is
a valid function, and then it reads them in order. -/
theorem funcLoop_eq_of_valid :
    ∀ {l : List (String × PTree)}, (∀ c ∈ l, (env.aggFromString c.2.data).1 = .success) →
      funcLoop env l = (l.map fun c => (env.aggFromString c.2.data).2, false)
  | [], _ => rfl
  | (_, child) :: rest, h => by
    rw [funcLoop, if_pos (h _ (List.mem_cons_self _ _)),
      funcLoop_eq_of_valid fun c hc => h c (List.mem_cons_of_mem _ hc)]
    rfl

theorem valid_of_funcLoop_snd :
    ∀ {l : List (String × PTree)}, (funcLoop env l).2 = false →
      ∀ c ∈ l, (env.aggFromString c.2.data).1 = .success
  | [], _ => fun _ hc => absurd hc (List.not_mem_nil _)
  | (_, child) :: rest, h => by
    rw [funcLoop] at h
    split_ifs at h with hv
    exact List.forall_mem_cons.2 ⟨hv, valid_of_funcLoop_snd h⟩

/-! ## One entry -/

section Step

variable (aggregate : PTree) (result : GroupAggregate Fn) (c0 c1 c2 : Bool)
  (value : PTree) (rest : List (String × PTree))

/-- The functions of the first `func` array, as the loop reads them. -/
def firstFuncs (aggregate : PTree) : List Fn × Bool :=
  funcLoop env ((aggregate.getChildOptional "func").map PTree.children |>.getD [])

theorem firstFuncs_eq (aggregate : PTree) {fv : PTree} (h : aggregate.getChildOptional "func" = some fv) :
    firstFuncs env aggregate = funcLoop env fv.children := by
  rw [firstFuncs, h]; rfl

theorem groupAggregateLoop_step_entry {step : Nat} (hp : env.parseDuration value.data = some step) :
    groupAggregateLoop env aggregate (result, false, c1, c2) (("step", value) :: rest) =
      groupAggregateLoop env aggregate ({ result with step := step }, true, c1, c2) rest := by
  simp only [groupAggregateLoop, ↓reduceIte, Bool.false_eq_true, hp]

theorem groupAggregateLoop_bad_step_entry (hp : env.parseDuration value.data = none) :
    groupAggregateLoop env aggregate (result, false, c1, c2) (("step", value) :: rest) =
      groupAggregateLoop env aggregate (result, false, c1, c2) rest := by
  simp only [groupAggregateLoop, ↓reduceIte, Bool.false_eq_true, hp]

theorem groupAggregateLoop_metric_entry :
    groupAggregateLoop env aggregate (result, c0, false, c2) (("metric", value) :: rest) =
      groupAggregateLoop env aggregate ({ result with metric := value.data }, c0, true, c2) rest := by
  rw [groupAggregateLoop, if_neg (by decide), if_pos rfl, if_neg Bool.false_ne_true]

theorem groupAggregateLoop_func_entry (hfuncs : (firstFuncs env aggregate).2 = false) :
    groupAggregateLoop env aggregate (result, c0, c1, false) (("func", value) :: rest) =
      groupAggregateLoop env aggregate
        ({ result with func := result.func ++ (firstFuncs env aggregate).1 }, c0, c1,
          !(firstFuncs env aggregate).1.isEmpty) rest := by
  rw [groupAggregateLoop, if_neg (by decide), if_neg (by decide), if_pos rfl,
    if_neg Bool.false_ne_true]
  exact if_neg (ne_true_of_eq_false hfuncs)

theorem groupAggregateLoop_other_entry {key : String} (hkey : key ∉ ["step", "metric", "func"]) :
    groupAggregateLoop env aggregate (result, c0, c1, c2) ((key, value) :: rest) =
      groupAggregateLoop env aggregate (result, c0, c1, c2) rest := by
  simp only [List.mem_cons, List.mem_singleton, not_or, List.not_mem_nil] at hkey
  rw [groupAggregateLoop, if_neg hkey.1, if_neg hkey.2.1, if_neg hkey.2.2.1]

end Step

/-! ## A run without `break` -/

/-- What the loop leaves when it reads every entry: each component read
from the first entry of its key, the functions from the first `func`
array. -/
def readAll (funcs : List Fn) (st : GroupAggregate Fn × Bool × Bool × Bool)
    (es : List (String × PTree)) : GroupAggregate Fn × Bool × Bool × Bool :=
  let step := ((PTree.node "" es).getChildOptional "step").bind fun v => env.parseDuration v.data
  let metric := (PTree.node "" es).getChildOptional "metric"
  let hasFunc := ((PTree.node "" es).getChildOptional "func").isSome
  ({ metric := (metric.map PTree.data).getD st.1.metric,
     func := if hasFunc then st.1.func ++ funcs else st.1.func,
     step := step.getD st.1.step },
   st.2.1 || step.isSome, st.2.2.1 || metric.isSome, st.2.2.2 || (hasFunc && !funcs.isEmpty))

/-- The keys of the three components, each at most once. -/
def ComponentsOnce (es : List (String × PTree)) : Prop :=
  ((es.map Prod.fst).filter (· ∈ ["step", "metric", "func"])).Nodup

instance : DecidablePred ComponentsOnce := fun _ => inferInstanceAs (Decidable (List.Nodup _))

/-- A component already read has no entry left. -/
def Fresh (st : GroupAggregate Fn × Bool × Bool × Bool) (es : List (String × PTree)) : Prop :=
  (st.2.1 = true → "step" ∉ es.map Prod.fst) ∧ (st.2.2.1 = true → "metric" ∉ es.map Prod.fst) ∧
    (st.2.2.2 = true → "func" ∉ es.map Prod.fst)

theorem getChildOptional_eq_none {es : List (String × PTree)} {key : String}
    (h : key ∉ es.map Prod.fst) : (PTree.node "" es).getChildOptional key = none := by
  simp only [PTree.getChildOptional, PTree.children_node, Option.map_eq_none', List.find?_eq_none]
  intro e he hk
  exact h (List.mem_map.2 ⟨e, he, of_decide_eq_true hk⟩)

theorem componentsOnce_cons {key : String} {value : PTree} {es : List (String × PTree)}
    (h : ComponentsOnce ((key, value) :: es)) :
    ComponentsOnce es ∧ (key ∈ ["step", "metric", "func"] → key ∉ es.map Prod.fst) := by
  unfold ComponentsOnce at h ⊢
  rw [List.map_cons, List.filter_cons] at h
  split_ifs at h with hk
  · rw [List.nodup_cons] at h
    exact ⟨h.2, fun hmem hes => h.1 (List.mem_filter.2 ⟨hes, decide_eq_true hmem⟩)⟩
  · exact ⟨h, fun hmem => absurd (decide_eq_true hmem) hk⟩

theorem Fresh.tail {st : GroupAggregate Fn × Bool × Bool × Bool} {e : String × PTree}
    {es : List (String × PTree)} (h : Fresh st (e :: es)) : Fresh st es :=
  ⟨fun hc hm => h.1 hc (List.mem_cons_of_mem _ hm), fun hc hm => h.2.1 hc (List.mem_cons_of_mem _ hm),
    fun hc hm => h.2.2 hc (List.mem_cons_of_mem _ hm)⟩

/-- With each component's key at most once and valid functions, the loop
reads every entry. -/
theorem groupAggregateLoop_eq_readAll (aggregate : PTree)
    (hfuncs : (firstFuncs env aggregate).2 = false) :
    ∀ (es : List (String × PTree)) (st : GroupAggregate Fn × Bool × Bool × Bool),
      ComponentsOnce es → Fresh st es →
        groupAggregateLoop env aggregate st es = readAll env (firstFuncs env aggregate).1 st es
  | [], ⟨result, c0, c1, c2⟩, _, _ => by simp [readAll, groupAggregateLoop, PTree.getChildOptional]
  | (key, value) :: rest, ⟨result, c0, c1, c2⟩, honce, hfresh => by
    obtain ⟨hrest, hkey⟩ := componentsOnce_cons honce
    have ih := groupAggregateLoop_eq_readAll aggregate hfuncs rest
    have hunread : ∀ {c : Bool}, (c = true → key ∉ ((key, value) :: rest).map Prod.fst) →
        c = false := fun h => Bool.eq_false_iff.2 fun hc => h hc (List.mem_cons_self _ _)
    by_cases hs : key = "step"
    · subst hs
      have hnone := getChildOptional_eq_none (hkey (by decide))
      obtain rfl := hunread hfresh.1
      cases hp : env.parseDuration value.data with
      | none =>
        rw [groupAggregateLoop_bad_step_entry env aggregate result c1 c2 value rest hp,
          ih _ hrest hfresh.tail]
        simp [readAll, PTree.getChildOptional_cons, hp, hnone]
      | some step =>
        rw [groupAggregateLoop_step_entry env aggregate result c1 c2 value rest hp,
          ih ({ result with step := step }, true, c1, c2) hrest
            ⟨fun _ => hkey (by decide), hfresh.tail.2.1, hfresh.tail.2.2⟩]
        simp [readAll, PTree.getChildOptional_cons, hp, hnone]
    by_cases hm : key = "metric"
    · subst hm
      have hnone := getChildOptional_eq_none (hkey (by decide))
      obtain rfl := hunread hfresh.2.1
      rw [groupAggregateLoop_metric_entry,
        ih ({ result with metric := value.data }, c0, true, c2) hrest
          ⟨hfresh.tail.1, fun _ => hkey (by decide), hfresh.tail.2.2⟩]
      simp [readAll, PTree.getChildOptional_cons, hnone]
    by_cases hf : key = "func"
    · subst hf
      have hnone := getChildOptional_eq_none (hkey (by decide))
      obtain rfl := hunread hfresh.2.2
      rw [groupAggregateLoop_func_entry env aggregate result c0 c1 value rest hfuncs,
        ih ({ result with func := result.func ++ (firstFuncs env aggregate).1 }, c0, c1,
          !(firstFuncs env aggregate).1.isEmpty) hrest
          ⟨hfresh.tail.1, hfresh.tail.2.1, fun _ => hkey (by decide)⟩]
      simp [readAll, PTree.getChildOptional_cons, hnone]
    rw [groupAggregateLoop_other_entry env aggregate result c0 c1 c2 value rest
      (by simp [hs, hm, hf]), ih _ hrest hfresh.tail]
    simp [readAll, PTree.getChildOptional_cons, hs, hm, hf]

/-- An invalid function in the first `func` array: no entry marks `func`
as read. -/
theorem groupAggregateLoop_func_flag_of_invalid (aggregate : PTree)
    (herr : (firstFuncs env aggregate).2 = true) :
    ∀ (es : List (String × PTree)) (st : GroupAggregate Fn × Bool × Bool × Bool),
      (groupAggregateLoop env aggregate st es).2.2.2 = st.2.2.2
  | [], _ => rfl
  | (key, value) :: rest, (result, c0, c1, c2) => by
    have ih := groupAggregateLoop_func_flag_of_invalid aggregate herr rest
    unfold firstFuncs at herr
    unfold groupAggregateLoop
    split_ifs <;> (try split) <;> first | rfl | exact ih _ | (dsimp only; rw [if_pos herr])

/-! ## The statement -/

/-- The statement parses with `r` exactly when the loop has read all three
components and left `r`. -/
theorem parseGroupAggregateStmt_eq_success (ptree : PTree) (r : GroupAggregate Fn) :
    parseGroupAggregateStmt env ptree = (.success, r) ↔
      ((groupAggregateComponents env ptree).2.1 && (groupAggregateComponents env ptree).2.2.1 &&
        (groupAggregateComponents env ptree).2.2.2) = true ∧ (groupAggregateComponents env ptree).1 = r := by
  unfold parseGroupAggregateStmt
  generalize groupAggregateComponents env ptree = st
  obtain ⟨result, c0, c1, c2⟩ := st
  dsimp only
  split_ifs with h <;> simp [h]

/-- For every `group-aggregate` object in which each of `step`, `metric`
and `func` occurs at most once, `parse_group_aggregate_stmt` succeeds with
`r` exactly when the three occur, the step parses as a duration, and the
`func` array is non-empty with every element a valid function; `r` then
holds that metric, those functions in order, and that step. -/
theorem parseGroupAggregateStmt_eq_success_iff (ptree G : PTree) (r : GroupAggregate Fn)
    (hG : ptree.getChildOptional "group-aggregate" = some G) (honce : ComponentsOnce G.children) :
    parseGroupAggregateStmt env ptree = (.success, r) ↔
      ∃ sv s mv fv, G.getChildOptional "step" = some sv ∧ env.parseDuration sv.data = some s ∧
        G.getChildOptional "metric" = some mv ∧ G.getChildOptional "func" = some fv ∧
        fv.children ≠ [] ∧ (∀ c ∈ fv.children, (env.aggFromString c.2.data).1 = .success) ∧
        r = ⟨mv.data, fv.children.map fun c => (env.aggFromString c.2.data).2, s⟩ := by
  obtain ⟨d, es⟩ := G
  have hcomp : groupAggregateComponents env ptree =
      groupAggregateLoop env (.node d es) (⟨"", [], 0⟩, false, false, false) es := by
    rw [groupAggregateComponents, hG]; rfl
  have hlook : ∀ k, (PTree.node d es).getChildOptional k = (PTree.node "" es).getChildOptional k :=
    fun _ => rfl
  rw [parseGroupAggregateStmt_eq_success, hcomp]
  simp only [hlook]
  cases herr : (firstFuncs env (.node d es)).2
  case true =>
    rw [groupAggregateLoop_func_flag_of_invalid env _ herr]
    simp only [Bool.and_false, Bool.false_eq_true, false_and, false_iff, not_exists, not_and]
    intro sv s mv fv _ _ _ hf _ hvalid
    rw [firstFuncs_eq env (.node d es) hf, funcLoop_eq_of_valid env hvalid] at herr
    exact absurd herr Bool.false_ne_true
  case false =>
    rw [groupAggregateLoop_eq_readAll env _ herr es _ honce (by simp [Fresh])]
    rcases hs : (PTree.node "" es).getChildOptional "step" with _ | sv <;>
    rcases hm : (PTree.node "" es).getChildOptional "metric" with _ | mv <;>
    rcases hf : (PTree.node "" es).getChildOptional "func" with _ | fv <;>
      simp [readAll, hs, hm, hf]
    rw [firstFuncs_eq env (.node d es) hf] at herr ⊢
    have hvalid := valid_of_funcLoop_snd env herr
    rw [funcLoop_eq_of_valid env hvalid]
    cases hp : env.parseDuration sv.data with
    | none => simp
    | some s =>
      simp only [Option.isSome_some, Option.getD_some, true_and, List.map_eq_nil_iff]
      constructor
      · rintro ⟨hne, rfl⟩
        exact ⟨s, rfl, hne, fun a b h => hvalid (a, b) h, rfl⟩
      · rintro ⟨x, hx, hne, -, rfl⟩
        cases hx
        exact ⟨hne, rfl⟩

/-- `{"step": "1s", "metric": "cpu", "func": ["max", "min"]}`. -/
def cpuAggregate : PTree :=
  .obj [("step", .leaf "1s"), ("metric", .leaf "cpu"), ("func", .arr ["max", "min"])]

theorem parseGroupAggregateStmt_eq_success_iff_cpu :
    ComponentsOnce cpuAggregate.children ∧
      (parseGroupAggregateStmt specEnv (.obj [("group-aggregate", cpuAggregate)]) =
          (.success, ⟨"cpu", [.max, .min], 10 ^ 8⟩) ↔
        ∃ sv s mv fv, cpuAggregate.getChildOptional "step" = some sv ∧
          specEnv.parseDuration sv.data = some s ∧ cpuAggregate.getChildOptional "metric" = some mv ∧
          cpuAggregate.getChildOptional "func" = some fv ∧ fv.children ≠ [] ∧
          (∀ c ∈ fv.children, (specEnv.aggFromString c.2.data).1 = .success) ∧
          (⟨"cpu", [.max, .min], 10 ^ 8⟩ : GroupAggregate AggregationFunction) =
            ⟨mv.data, fv.children.map fun c => (specEnv.aggFromString c.2.data).2, s⟩) :=
  ⟨by decide, parseGroupAggregateStmt_eq_success_iff specEnv _ cpuAggregate _ rfl (by decide)⟩

/-! ## A repeated key -/

/-- `{"step": "1s", "metric": "cpu", "func": ["max"], "step": "2s"}`. -/
def repeatedStepAggregate : PTree :=
  .obj [("step", .leaf "1s"), ("metric", .leaf "cpu"), ("func", .arr ["max"]), ("step", .leaf "2s")]

/-- The loop `break`s at the second `step` with the three components read:
the statement parses, with the first step. -/
theorem parseGroupAggregateStmt_accepts_repeated_step :
    parseGroupAggregateStmt specEnv (.obj [("group-aggregate", repeatedStepAggregate)]) =
        (.success, ⟨"cpu", [.max], 10 ^ 8⟩) ∧
      (repeatedStepAggregate.children.filter (·.1 = "step")).length = 2 :=
  ⟨rfl, rfl⟩

end Akumuli.QP
