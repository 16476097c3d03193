/-
Akumuli.Pipeline.ScanProcessor — the constructor of `ScanQueryProcessor`
(`queryprocessor.cpp`), which takes the nodes of a pipeline, head first,
and checks them before the query runs.

A node's `get_requirements()` is a bit mask. The constructor throws
`NodeException("`group_by` required")` when the group-by statement is
empty (`step_ == 0`) and some node asks for `GROUP_BY_REQUIRED`. It then
scans the nodes from the tail, counting the non-terminal nodes it has
passed (`nnormal`), and throws `NodeException("invalid sampling order")`
at a `TERMINAL` node met with a non-zero count. The count is non-zero
exactly when a non-terminal node lies after the terminal one, so the scan
rejects a list exactly when some terminal node comes before a non-terminal
one (`orderLoop_eq_ok_iff`): the terminal nodes must form the tail.

Modelled from the spec: `Node` and its mask values are declared in
`queryprocessor_framework.h`, which is not in the repository. The nodes
are a type parameter, their masks a function, and the two requirements
two distinct bits.
-/
import Akumuli.Pipeline.GroupBy

namespace Akumuli.QP

/-! ## Requirements -/

/-- `Node::GROUP_BY_REQUIRED`. -/
def GROUP_BY_REQUIRED : Nat := 1

/-- `Node::TERMINAL`. -/
def TERMINAL : Nat := 2

/-- `(mask & bit) != 0`. -/
def hasRequirement (mask bit : Nat) : Bool := mask &&& bit != 0

/-! ## The constructor -/

/-- The cursor directions `AKU_CURSOR_DIR_FORWARD` and
`AKU_CURSOR_DIR_BACKWARD`. -/
inductive Direction where
  | forward
  | backward
  deriving DecidableEq, Repr

/-- How the constructor ends other than by returning: `AKU_PANIC` or a
`NodeException`, each with its message. -/
inductive ProcessorError where
  | panic (msg : String)
  | nodeException (msg : String)
  deriving DecidableEq, Repr

/-- The `what()` of the constructor's exceptions. -/
def ProcessorError.what : ProcessorError → String
  | .panic msg => msg
  | .nodeException msg => msg

/-- `ScanQueryProcessor`: the fields its constructor sets. -/
structure ScanQueryProcessor (Node Filter : Type) where
  lowerbound : Nat
  upperbound : Nat
  direction : Direction
  metric : String
  groupby : GroupByStatement
  filter : Filter
  rootNode : Node

variable {Node Filter : Type} (requirements : Node → Nat)

/-- The constructor's scan over the nodes from the tail, with `nnormal`,
the number of non-terminal nodes passed. -/
def orderLoop : Nat → List Node → Except ProcessorError Unit
  | _, [] => .ok ()
  | nnormal, node :: rest =>
    if hasRequirement (requirements node) TERMINAL then
      if nnormal ≠ 0 then .error (.nodeException "invalid sampling order")
      else orderLoop nnormal rest
    else orderLoop (nnormal + 1) rest

/-- The constructor's loop over the nodes for an empty group-by. -/
def groupByLoop : List Node → Except ProcessorError Unit
  | [] => .ok ()
  | node :: rest =>
    if hasRequirement (requirements node) GROUP_BY_REQUIRED then
      .error (.nodeException "`group_by` required")
    else groupByLoop rest

/-- The constructor's first check: the loop runs for an empty group-by
statement only. -/
def groupByCheck (nodes : List Node) (groupby : GroupByStatement) : Except ProcessorError Unit :=
  if groupby.step = 0 then groupByLoop requirements nodes else pure ()

/-- `ScanQueryProcessor(nodes, metric, begin, end, filter, groupby)`. -/
def ScanQueryProcessor.create (nodes : List Node) (metric : String) (begin «end» : Nat)
    (filter : Filter) (groupby : GroupByStatement) :
    Except ProcessorError (ScanQueryProcessor Node Filter) :=
  match nodes with
  | [] => .error (.panic "`nodes` shouldn't be empty")
  | root :: _ => do
    groupByCheck requirements nodes groupby
    orderLoop requirements 0 nodes.reverse
    pure ⟨min begin «end», max begin «end», if begin > «end» then .backward else .forward, metric,
      groupby, filter, root⟩

/-! ## The driver rules -/

/-- The two driver rules of the specification, as the condition under
which a pipeline is rejected: an empty group-by with a node that needs
one, or a terminal node followed, later in the list, by a non-terminal
one. -/
def Rejects (nodes : List Node) (step : Nat) : Prop :=
  (step = 0 ∧ ∃ n ∈ nodes, hasRequirement (requirements n) GROUP_BY_REQUIRED = true) ∨
    ∃ a b, [a, b].Sublist nodes ∧ hasRequirement (requirements a) TERMINAL = true ∧
      hasRequirement (requirements b) TERMINAL = false

theorem pair_sublist_cons {a b x : Node} {l : List Node} :
    [b, a].Sublist (x :: l) ↔ [b, a].Sublist l ∨ b = x ∧ a ∈ l := by
  rw [List.sublist_cons_iff]
  constructor
  · rintro (h | ⟨r, hr, h⟩)
    · exact .inl h
    · obtain ⟨rfl, rfl⟩ := List.cons.inj hr
      exact .inr ⟨rfl, List.singleton_sublist.1 h⟩
  · rintro (h | ⟨rfl, h⟩)
    exacts [.inl h, .inr ⟨[a], rfl, List.singleton_sublist.2 h⟩]

/-- The scan from the tail passes exactly when a terminal node is met
with a zero count and no non-terminal node comes after a terminal one,
in the order scanned. -/
theorem orderLoop_eq_ok_iff (nnormal : Nat) (l : List Node) :
    orderLoop requirements nnormal l = .ok () ↔
      (∀ a ∈ l, hasRequirement (requirements a) TERMINAL = true → nnormal = 0) ∧
      ∀ b a, [b, a].Sublist l → hasRequirement (requirements a) TERMINAL = true →
        hasRequirement (requirements b) TERMINAL = true := by
  induction l generalizing nnormal with
  | nil => simp [orderLoop]
  | cons x rest ih =>
    simp only [orderLoop, List.mem_cons, forall_eq_or_imp, pair_sublist_cons]
    by_cases hx : hasRequirement (requirements x) TERMINAL = true
    · by_cases hn : nnormal = 0
      · simp only [hx, hn, if_true, ne_eq, not_true_eq_false, if_false, ih]
        constructor
        · rintro ⟨-, h⟩
          exact ⟨⟨fun _ => trivial, fun _ _ _ => trivial⟩,
            fun b a hba ha => hba.elim (h b a · ha) fun hb => hb.1 ▸ hx⟩
        · rintro ⟨-, h⟩
          exact ⟨fun _ _ _ => trivial, fun b a hba ha => h b a (.inl hba) ha⟩
      · simp [hx, hn]
    · simp only [hx, Bool.false_eq_true, if_false, ih]
      constructor
      · rintro ⟨hnone, h⟩
        have hrest : ∀ a ∈ rest, hasRequirement (requirements a) TERMINAL = false := fun a ha => by
          simpa using fun hta => Nat.succ_ne_zero _ (hnone a ha hta)
        exact ⟨⟨False.elim, fun a ha hta => by simp [hrest a ha] at hta⟩,
          fun b a hba hta => hba.elim (h b a · hta) fun hb => by simp [hrest a hb.2] at hta⟩
      · rintro ⟨-, h⟩
        exact ⟨fun a ha hta => absurd (h x a (.inr ⟨rfl, ha⟩) hta) hx,
          fun b a hba hta => h b a (.inl hba) hta⟩

theorem groupByLoop_eq (nodes : List Node) :
    groupByLoop requirements nodes =
      if ∃ n ∈ nodes, hasRequirement (requirements n) GROUP_BY_REQUIRED = true then
        .error (.nodeException "`group_by` required")
      else .ok () := by
  induction nodes with
  | nil => simp [groupByLoop]
  | cons x rest ih => by_cases hx : hasRequirement (requirements x) GROUP_BY_REQUIRED = true <;>
      simp [groupByLoop, hx, ih]

/-- The constructor's first check throws exactly when the group-by is
empty and some node needs one. -/
theorem groupByCheck_eq (nodes : List Node) (groupby : GroupByStatement) :
    groupByCheck requirements nodes groupby =
      if groupby.step = 0 ∧ ∃ n ∈ nodes, hasRequirement (requirements n) GROUP_BY_REQUIRED = true then
        .error (.nodeException "`group_by` required")
      else .ok () := by
  by_cases h0 : groupby.step = 0
  · simp [groupByCheck, h0, groupByLoop_eq]
  · simp [groupByCheck, h0]; rfl

/-- The scan ends in one way only when it throws. -/
theorem orderLoop_cases : ∀ (nnormal : Nat) (l : List Node),
    orderLoop requirements nnormal l = .ok () ∨
      orderLoop requirements nnormal l = .error (.nodeException "invalid sampling order")
  | _, [] => .inl rfl
  | nnormal, x :: rest => by
    unfold orderLoop
    split_ifs
    exacts [.inr rfl, orderLoop_cases nnormal rest, orderLoop_cases (nnormal + 1) rest]

/-- Scanned from the tail, the nodes pass exactly when no terminal node
comes before a non-terminal one. -/
theorem orderLoop_reverse_eq_ok_iff (nodes : List Node) :
    orderLoop requirements 0 nodes.reverse = .ok () ↔
      ¬ ∃ a b, [a, b].Sublist nodes ∧ hasRequirement (requirements a) TERMINAL = true ∧
        hasRequirement (requirements b) TERMINAL = false := by
  rw [orderLoop_eq_ok_iff]
  have hrev : ∀ a b : Node, [b, a].Sublist nodes.reverse ↔ [a, b].Sublist nodes := fun a b =>
    show [a, b].reverse.Sublist nodes.reverse ↔ _ from List.reverse_sublist
  simp only [hrev, implies_true, true_and, not_exists, not_and, Bool.not_eq_true]
  exact ⟨fun h a b hab ha => by simpa using h b a hab ha, fun h b a hab ha => by
    cases hb : hasRequirement (requirements b) TERMINAL
    · exact absurd hb (by simp [h a b hab ha])
    · rfl⟩

/-- For every non-empty list of nodes and every group-by statement, the
constructor throws a `NodeException` exactly when the driver rules reject
the list; otherwise it succeeds with the first node as its root. -/
theorem ScanQueryProcessor.create_throws_iff {Filter : Type} (root : Node) (rest : List Node)
    (metric : String) (begin «end» : Nat) (filter : Filter) (groupby : GroupByStatement) :
    ((∃ msg, ScanQueryProcessor.create requirements (root :: rest) metric begin «end» filter groupby =
        .error (.nodeException msg)) ↔ Rejects requirements (root :: rest) groupby.step) ∧
      (¬ Rejects requirements (root :: rest) groupby.step →
        ∃ p, ScanQueryProcessor.create requirements (root :: rest) metric begin «end» filter groupby =
          .ok p ∧ p.rootNode = root) := by
  have hrej : Rejects requirements (root :: rest) groupby.step ↔
      (groupby.step = 0 ∧ ∃ n ∈ root :: rest,
        hasRequirement (requirements n) GROUP_BY_REQUIRED = true) ∨
      ¬ orderLoop requirements 0 (root :: rest).reverse = .ok () := by
    rw [Rejects, orderLoop_reverse_eq_ok_iff, not_not]
  obtain ⟨p, hroot, hcreate⟩ : ∃ p : ScanQueryProcessor Node Filter, p.rootNode = root ∧
      ScanQueryProcessor.create requirements (root :: rest) metric begin «end» filter groupby =
        groupByCheck requirements (root :: rest) groupby >>= fun _ =>
          orderLoop requirements 0 (root :: rest).reverse >>= fun _ => pure p := ⟨_, rfl, rfl⟩
  rw [hrej, hcreate, groupByCheck_eq]
  by_cases hgb : groupby.step = 0 ∧ ∃ n ∈ root :: rest,
      hasRequirement (requirements n) GROUP_BY_REQUIRED = true
  · rw [if_pos hgb]
    exact ⟨⟨fun _ => .inl hgb, fun _ => ⟨_, rfl⟩⟩, fun h => absurd (.inl hgb) h⟩
  · rw [if_neg hgb]
    rcases orderLoop_cases requirements 0 (root :: rest).reverse with ho | ho <;> rw [ho]
    · exact ⟨⟨fun ⟨_, h⟩ => (nomatch h), fun h => (h.resolve_left hgb rfl).elim⟩,
        fun _ => ⟨p, rfl, hroot⟩⟩
    · have hfail : ¬ (Except.error (.nodeException "invalid sampling order") :
          Except ProcessorError Unit) = .ok () := nofun
      exact ⟨⟨fun _ => .inr hfail, fun _ => ⟨_, rfl⟩⟩, fun h => absurd (.inr hfail) h⟩

end Akumuli.QP
