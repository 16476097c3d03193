/-
Akumuli.Core — the values every query-processing component passes around:
the status codes (`aku_Status`), samples with their payload tags
(`aku_Sample`, `aku_PData`), and the successor a pipeline node writes to.

Timestamps (`aku_Timestamp`) and parameter ids (`aku_ParamId`, `0` for
"no such series") are `Nat`. Where the code's `u64` arithmetic
can wrap (the group-by bucket bounds) the wrap is written out as `% 2^64`
in that module. The payload value (`payload.float64`) is a type parameter
`V`: nothing modelled here computes with it except the PAA counters.

A node sees its successor only through the answers its `put` returns.
`Succ` is that view: `answer n` is the answer to the `n`-th `put` (from 0),
and `received` lists what was put, oldest first. A statement over every
`answer` is a statement over every behaviour of the successor.
-/
import Mathlib.Algebra.Group.Nat.Basic
import Mathlib.Data.List.Perm.Basic

namespace Akumuli

/-- `aku_Status`: the status codes the query core returns. -/
inductive Status where
  | success
  | ebadArg
  | ebadData
  | equeryParsingError
  | enoData
  | eoverflow
  deriving DecidableEq, Repr

/-- How a call ends other than by returning: `AKU_PANIC` with its message,
the `std::regex_error` of a pattern the regex library rejects, the
`std::out_of_range` of a `vector::at` past the end, or a loop whose 32-bit
counter can never reach its bound, so that the call never returns. -/
inductive Fault where
  | panic (msg : String)
  | regexError
  | outOfRange
  | hang
  deriving DecidableEq, Repr

/-- `vector::at(i)`. -/
def vectorAt {α : Type} (xs : List α) (i : Nat) : Except Fault α :=
  match xs.get? i with
  | some x => .ok x
  | none => .error .outOfRange

/-! ## Runs in `Except`

The bind, pure and `mapM` steps every fallible model is read through. -/

theorem bind_eq_ok {ε α β : Type} {x : Except ε α} {f : α → Except ε β} {b : β} :
    x >>= f = .ok b ↔ ∃ a, x = .ok a ∧ f a = .ok b := by
  cases x <;> simp [bind, Except.bind]

@[simp] theorem ok_bind {ε α β : Type} (a : α) (f : α → Except ε β) :
    (Except.ok a >>= f) = f a := rfl

theorem error_bind {ε α β : Type} (e : ε) (f : α → Except ε β) :
    (Except.error e >>= f) = .error e := rfl

theorem throw_bind {ε α β : Type} (e : ε) (f : α → Except ε β) :
    ((throw e : Except ε α) >>= f) = .error e := rfl

theorem pure_eq_ok {ε α : Type} {a b : α} : (pure a : Except ε α) = .ok b ↔ a = b := by
  simp [pure, Except.pure]

/-- `mapM` of a function that succeeds on every element. -/
theorem mapM_ok {ε α β : Type} {f : α → Except ε β} {g : α → β} :
    ∀ {l : List α}, (∀ a ∈ l, f a = .ok (g a)) → l.mapM f = .ok (l.map g)
  | [], _ => rfl
  | a :: l, h => by
    rw [List.mapM_cons, h a (List.mem_cons_self _ _),
      mapM_ok fun x hx => h x (List.mem_cons_of_mem _ hx)]
    rfl

theorem bind_eq_error {ε α β : Type} {x : Except ε α} {f : α → Except ε β} {e : ε} :
    x >>= f = .error e ↔ x = .error e ∨ ∃ a, x = .ok a ∧ f a = .error e := by
  cases x <;> simp [bind, Except.bind]

theorem map_eq_ok {ε α β : Type} {x : Except ε α} {f : α → β} {b : β} :
    f <$> x = .ok b ↔ ∃ a, x = .ok a ∧ f a = b := by
  cases x <;> simp [Functor.map, Except.map]

theorem map_eq_error {ε α β : Type} {x : Except ε α} {f : α → β} {e : ε} :
    f <$> x = .error e ↔ x = .error e := by
  cases x <;> simp [Functor.map, Except.map]

/-- What a `mapM` that succeeds returns: one result per element, each one
that `f` returned for an element. -/
theorem mapM_eq_ok {ε α β : Type} {f : α → Except ε β} :
    ∀ {l : List α} {r : List β}, l.mapM f = .ok r →
      r.length = l.length ∧ ∀ b ∈ r, ∃ a ∈ l, f a = .ok b
  | [], _, h => by cases h; simp
  | a :: l, r, h => by
    rw [List.mapM_cons] at h
    obtain ⟨b, hb, h⟩ := bind_eq_ok.1 h
    obtain ⟨bs, hbs, h⟩ := bind_eq_ok.1 h
    cases pure_eq_ok.1 h
    obtain ⟨hlen, hmem⟩ := mapM_eq_ok hbs
    refine ⟨by simp [hlen], fun b' hb' => ?_⟩
    rcases List.mem_cons.1 hb' with rfl | hb'
    · exact ⟨a, List.mem_cons_self _ _, hb⟩
    · obtain ⟨a', ha', hfa'⟩ := hmem b' hb'
      exact ⟨a', List.mem_cons_of_mem _ ha', hfa'⟩

/-- A `mapM` that fails fails as `f` does on an element. -/
theorem mapM_eq_error {ε α β : Type} {f : α → Except ε β} {e : ε} :
    ∀ {l : List α}, l.mapM f = .error e → ∃ a ∈ l, f a = .error e
  | [], h => nomatch h
  | a :: l, h => by
    rw [List.mapM_cons] at h
    rcases bind_eq_error.1 h with h | ⟨_, -, h⟩
    · exact ⟨a, List.mem_cons_self _ _, h⟩
    rcases bind_eq_error.1 h with h | ⟨_, -, h⟩
    · obtain ⟨a', ha', h⟩ := mapM_eq_error h
      exact ⟨a', List.mem_cons_of_mem _ ha', h⟩
    · cases h

/-- The `payload.type` tags the query core distinguishes (`aku_PData`). -/
inductive PayloadType where
  | float
  | empty
  | margin
  | paramidBit
  deriving DecidableEq, Repr

/-- `aku_Sample`, with the value of the payload in `V`. -/
structure Sample (V : Type) where
  timestamp : Nat
  paramid : Nat
  type : PayloadType
  float64 : V
  deriving DecidableEq, Repr

/-- `EMPTY_SAMPLE` with its timestamp set: the bucket-boundary marker. -/
def Sample.empty {V : Type} [Inhabited V] (ts : Nat) : Sample V :=
  ⟨ts, 0, .empty, default⟩

/-- The successor of a node, seen from the node. -/
structure Succ (V : Type) where
  answer : Nat → Bool
  received : List (Sample V)
  completed : Bool

namespace Succ

variable {V : Type}

/-- A fresh successor that answers `answer`. -/
def fresh (answer : Nat → Bool) : Succ V := ⟨answer, [], false⟩

/-- `next->put(sample)`: record the sample, return the successor's answer. -/
def put (d : Succ V) (s : Sample V) : Bool × Succ V :=
  (d.answer d.received.length, { d with received := d.received ++ [s] })

/-- A successor whose `put` never refuses. -/
def Accepting (d : Succ V) : Prop := ∀ n, d.answer n = true

/-- `next->complete()`. -/
def complete (d : Succ V) : Succ V := { d with completed := true }

@[simp] theorem put_fst (d : Succ V) (s : Sample V) :
    (d.put s).1 = d.answer d.received.length := rfl

@[simp] theorem put_received (d : Succ V) (s : Sample V) :
    (d.put s).2.received = d.received ++ [s] := rfl

@[simp] theorem put_answer (d : Succ V) (s : Sample V) : (d.put s).2.answer = d.answer := rfl

@[simp] theorem complete_received (d : Succ V) : d.complete.received = d.received := rfl

@[simp] theorem complete_answer (d : Succ V) : d.complete.answer = d.answer := rfl

end Succ

end Akumuli
