/-
Akumuli.Pipeline.PaaCounters — `MeanCounter` and `MaxCounter`
(`paa.cpp`), the counters of the `paa` and `max-paa` nodes, and what a
counter of the `PAA<Counter>` node is for.

A counter stands for the values added since the last `reset()`: that is
the abstract machine a counter refines (`Counter.Refines`). `reset`
empties the list, `add` appends a value, `ready()` says whether the list is
non-empty, and `value()` answers for a non-empty list. One lemma per call
gives the run theorem shared by the counters (`Counter.Refines.run_spec`):
along every sequence of calls, the state stands for the values added since
the last reset, and every `value()` answers for the values added before it.

`MeanCounter` keeps the running sum `acc += value` and the count `num++`
and answers `acc / num`; `MaxCounter` keeps the first value, then
`std::max(acc, value)`, which is `acc < value ? value : acc`. So after a
`reset()`, every `value()` made after `n ≥ 1` adds answers the left fold
of `+` over the added values divided by `n`
(`MeanCounter.run_value_mean`), respectively their maximum
(`MaxCounter.run_value_max`), and the counter is `ready()` exactly when a
value was added since the last reset.

The sum is the left fold in the order the values were added, as
floating-point addition computes it: no associativity is assumed, and
`acc / num` divides by `num` converted to the value type. `num` is a
`size_t`; it would wrap after `2^64` adds, which no run reaches. The values
of `MaxCounter` are a linear order (no NaN).
-/
import Akumuli.Pipeline.Paa

namespace Akumuli.QP

/-- A counter of the `PAA<Counter>` node: `reset()`, `add(value)`,
`ready()` and `value()`, over the counter's state. -/
structure Counter (σ α : Type) where
  reset : σ
  add : σ → Sample α → σ
  ready : σ → Bool
  value : σ → α

/-- The values added since the last reset after the calls, from `added`
at the start. -/
def addedAfter {α : Type} : List α → List (CounterCall α) → List α
  | added, [] => added
  | _, .reset :: calls => addedAfter [] calls
  | added, .add s :: calls => addedAfter (added ++ [s.float64]) calls
  | added, .value :: calls => addedAfter added calls

namespace Counter

variable {σ α : Type} (k : Counter σ α)

/-- A sequence of calls: the state it leaves, and the answers of its
`value()` calls, in order. -/
def run : σ → List (CounterCall α) → σ × List α
  | c, [] => (c, [])
  | _, .reset :: calls => run k.reset calls
  | c, .add s :: calls => run (k.add c s) calls
  | c, .value :: calls => ((run c calls).1, k.value c :: (run c calls).2)

/-- The counter refines the abstract machine: its state `c` stands for
the values `l` added since the last reset (`abs c l`), and for a non-empty
`l` its `value()` is an answer `ans l` asks for. -/
structure Refines (abs : σ → List α → Prop) (ans : List α → α → Prop) : Prop where
  reset : abs k.reset []
  add : ∀ {c l} (s : Sample α), abs c l → abs (k.add c s) (l ++ [s.float64])
  ready : ∀ {c l}, abs c l → k.ready c = !l.isEmpty
  value : ∀ {c l}, abs c l → l ≠ [] → ans l (k.value c)

variable {k} {abs : σ → List α → Prop} {ans : List α → α → Prop}

/-- The run lemma: from a state standing for `added`, the state a run
leaves stands for the values added since the last reset, and every
`value()` answers for the values added before it. -/
theorem Refines.run_spec (h : k.Refines abs ans) : ∀ (calls : List (CounterCall α)) {c : σ}
    {added : List α}, abs c added →
      abs (k.run c calls).1 (addedAfter added calls) ∧
        List.Forall₂ (fun l r => l ≠ [] → ans l r) (addedAtValues added calls) (k.run c calls).2
  | [], _, _, hc => ⟨hc, .nil⟩
  | .reset :: calls, _, _, _ => h.run_spec calls h.reset
  | .add s :: calls, _, _, hc => h.run_spec calls (h.add s hc)
  | .value :: calls, _, _, hc =>
    ⟨(h.run_spec calls hc).1, .cons (h.value hc) (h.run_spec calls hc).2⟩

end Counter

/-! ## `MeanCounter` -/

/-- `MeanCounter`: the running sum and the count. -/
structure MeanCounter (α : Type) where
  acc : α
  num : Nat

namespace MeanCounter

variable {α : Type} [Zero α] [Add α] [Div α] [NatCast α]

/-- `reset()`. -/
def reset : MeanCounter α := ⟨0, 0⟩

/-- `add(value)`. -/
def add (c : MeanCounter α) (value : Sample α) : MeanCounter α := ⟨c.acc + value.float64, c.num + 1⟩

/-- `ready()`. -/
def ready (c : MeanCounter α) : Bool := c.num != 0

/-- `value()`: `acc/num`. -/
def value (c : MeanCounter α) : α := c.acc / c.num

/-- The counter. -/
def counter : Counter (MeanCounter α) α := ⟨reset, add, ready, value⟩

/-- The state is the left fold of `+` over the added values, and their
number. -/
def Abs (c : MeanCounter α) (l : List α) : Prop := c.acc = l.foldl (· + ·) 0 ∧ c.num = l.length

/-- The mean the specification asks for: the sum over the number. -/
def MeanAnswer (l : List α) (r : α) : Prop := r = l.foldl (· + ·) 0 / (l.length : α)

theorem refines : counter.Refines (Abs : MeanCounter α → List α → Prop) MeanAnswer where
  reset := ⟨rfl, rfl⟩
  add s := fun ⟨hacc, hnum⟩ => ⟨by simp [counter, add, hacc], by simp [counter, add, hnum]⟩
  ready := fun {_ l} h => by cases l <;> simp [counter, ready, h.2]
  value := fun ⟨hacc, hnum⟩ _ => by simp [MeanAnswer, counter, value, hacc, hnum]

/-- For every sequence of `add`, `value()` and `reset()` calls after
`reset()`, every `value()` made after `n ≥ 1` adds since the last reset
answers the left fold of `+` over those values divided by `n`, and the
counter is left `ready()` exactly when a value was added since the last
reset. -/
theorem run_value_mean (calls : List (CounterCall α)) :
    List.Forall₂ (fun l r => l ≠ [] → r = l.foldl (· + ·) 0 / (l.length : α))
        (addedAtValues [] calls) (counter.run reset calls).2 ∧
      ready (counter.run reset calls).1 = !(addedAfter [] calls).isEmpty :=
  ⟨(refines.run_spec calls refines.reset).2,
    refines.ready (refines.run_spec calls refines.reset).1⟩

end MeanCounter

/-! ## `MaxCounter` -/

/-- `MaxCounter`: the largest value so far, and the count. -/
structure MaxCounter (α : Type) where
  acc : α
  num : Nat

namespace MaxCounter

variable {α : Type} [LinearOrder α]

theorem max?_append_singleton {l : List α} {m : α} (hl : l.max? = some m) (v : α) :
    (l ++ [v]).max? = some (max m v) := by
  cases l with
  | nil => simp at hl
  | cons a rest =>
    rw [List.max?_cons'] at hl
    rw [List.cons_append, List.max?_cons', List.foldl_append, Option.some_inj.1 hl]
    rfl

variable [Zero α]

/-- `reset()`. -/
def reset : MaxCounter α := ⟨0, 0⟩

/-- `add(value)`: the first value, then `std::max(acc, value)`. -/
def add (c : MaxCounter α) (value : Sample α) : MaxCounter α :=
  if c.num = 0 then ⟨value.float64, c.num + 1⟩
  else ⟨if c.acc < value.float64 then value.float64 else c.acc, c.num + 1⟩

/-- `ready()`. -/
def ready (c : MaxCounter α) : Bool := c.num != 0

/-- `value()`. -/
def value (c : MaxCounter α) : α := c.acc

/-- The counter. -/
def counter : Counter (MaxCounter α) α := ⟨reset, add, ready, value⟩

/-- The count is the number of added values, and the state holds their
maximum once there is one. -/
def Abs (c : MaxCounter α) (l : List α) : Prop := c.num = l.length ∧ (l ≠ [] → l.max? = some c.acc)

/-- The answer the specification asks for: the maximum. -/
def MaxAnswer (l : List α) (r : α) : Prop := l.max? = some r

theorem refines : counter.Refines (Abs : MaxCounter α → List α → Prop) MaxAnswer where
  reset := ⟨rfl, fun h => absurd rfl h⟩
  add := by
    rintro c l s ⟨hnum, hmax⟩
    simp only [counter, add]
    by_cases h0 : c.num = 0
    · obtain rfl : l = [] := List.length_eq_zero.1 (hnum ▸ h0)
      exact ⟨by simp [h0, hnum], fun _ => by simp [h0]⟩
    · have hl : l ≠ [] := fun hl => h0 (by simp [hnum, hl])
      rw [if_neg h0]
      refine ⟨by simp [hnum], fun _ => ?_⟩
      rw [max?_append_singleton (hmax hl)]
      split_ifs with hlt
      exacts [congrArg some (max_eq_right hlt.le), congrArg some (max_eq_left (not_lt.1 hlt))]
  ready := fun {_ l} h => by cases l <;> simp [counter, ready, h.1]
  value := fun ⟨_, hmax⟩ hl => hmax hl

/-- For every sequence of `add`, `value()` and `reset()` calls after
`reset()`, every `value()` made after at least one add since the last
reset answers the maximum of the values added since then, and the counter
is left `ready()` exactly when a value was added since the last reset. -/
theorem run_value_max (calls : List (CounterCall α)) :
    List.Forall₂ (fun l r => l ≠ [] → l.max? = some r)
        (addedAtValues [] calls) (counter.run reset calls).2 ∧
      ready (counter.run reset calls).1 = !(addedAfter [] calls).isEmpty :=
  ⟨(refines.run_spec calls refines.reset).2,
    refines.ready (refines.run_spec calls refines.reset).1⟩

end MaxCounter

end Akumuli.QP
