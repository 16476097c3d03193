/-
Akumuli.Pipeline.Paa — `MedianCounter` (`paa.cpp`), the counter of the
`median-paa` node: `add` appends a sample's value to the buffer `acc`,
`reset` empties it, and `value()` answers the middle element.

`value()` is `const` but reorders the `mutable` buffer in place: for
three or more values it runs `std::partial_sort(acc.begin(), middle + 1,
acc.end())` with `middle` at index `size / 2` and reads `*middle`. The
standard fixes only the contract of `partial_sort`: the result is a
permutation whose first `k` elements are the `k` smallest, sorted, and the
rest are in an unspecified order (`PartialSort`). So `value` is a relation,
and what is proved holds for every implementation of that contract.

A partially sorted permutation agrees with the sorted list on its first
`k` positions (`PartialSort.take_eq`), and every `value()` leaves the
buffer a permutation of the values added since the reset. So along every
run, whatever earlier calls did to the buffer, each `value()` answers the
element of rank `⌊n/2⌋` of the added values when `n ≥ 3`, and the value
itself when `n = 1` (`run_value_answers`). Runs exist for every list of
calls: sorting the whole buffer is one way to meet the contract
(`PartialSort.insertionSort`).

The values are a linear order (no NaN). The two-value case computes the
mean `(acc[0] + acc[1]) / 2` in the value type.
-/
import Akumuli.Core
import Mathlib.Data.List.Sort

namespace Akumuli.QP

open scoped List

variable {α : Type} [LinearOrder α]

/-- `MedianCounter`: its buffer `acc`. -/
structure MedianCounter (α : Type) where
  acc : List α

/-- The contract of `std::partial_sort(first, first + k, last)`: `acc'` is
a permutation of `acc` whose first `k` elements are sorted and below every
later one. -/
structure PartialSort (k : Nat) (acc acc' : List α) : Prop where
  perm : acc' ~ acc
  sorted : (acc'.take k).Sorted (· ≤ ·)
  le_rest : ∀ a ∈ acc'.take k, ∀ b ∈ acc'.drop k, a ≤ b

/-! ## Partial sorting -/

/-- A partially sorted permutation agrees with the sorted list on its
first `k` positions. -/
theorem PartialSort.take_eq {k : Nat} {acc acc' : List α} (h : PartialSort k acc acc')
    (hk : k ≤ acc.length) :
    acc'.take k = (acc.insertionSort (· ≤ ·)).take k := by
  have hlen : (acc'.take k).length = k := by rw [List.length_take, h.perm.length_eq]; omega
  have hsorted : (acc'.take k ++ (acc'.drop k).insertionSort (· ≤ ·)).Sorted (· ≤ ·) :=
    List.pairwise_append.2 ⟨h.sorted, List.sorted_insertionSort _ _,
      fun a ha b hb => h.le_rest a ha b ((List.perm_insertionSort _ _).subset hb)⟩
  have hperm : acc'.take k ++ (acc'.drop k).insertionSort (· ≤ ·) ~ acc.insertionSort (· ≤ ·) :=
    calc _ ~ acc'.take k ++ acc'.drop k := (List.perm_insertionSort _ _).append_left _
      _ = acc' := List.take_append_drop k acc'
      _ ~ acc := h.perm
      _ ~ acc.insertionSort (· ≤ ·) := (List.perm_insertionSort _ _).symm
  rw [← List.eq_of_perm_of_sorted hperm hsorted (List.sorted_insertionSort _ _),
    List.take_left' hlen]

/-- Sorting the whole buffer meets the contract, for every `k`. -/
theorem PartialSort.insertionSort (k : Nat) (acc : List α) :
    PartialSort k acc (acc.insertionSort (· ≤ ·)) := by
  have hs := List.sorted_insertionSort (· ≤ ·) acc
  refine ⟨List.perm_insertionSort _ _, hs.sublist (List.take_sublist _ _), ?_⟩
  rw [← List.take_append_drop k (acc.insertionSort (· ≤ ·))] at hs
  exact (List.pairwise_append.1 hs).2.2

/-- Permutations have the same sorted list. -/
theorem insertionSort_eq_of_perm {l l' : List α} (h : l ~ l') :
    l.insertionSort (· ≤ ·) = l'.insertionSort (· ≤ ·) :=
  List.eq_of_perm_of_sorted
    (((List.perm_insertionSort _ _).trans h).trans (List.perm_insertionSort _ _).symm)
    (List.sorted_insertionSort _ _) (List.sorted_insertionSort _ _)

/-! ## The counter -/

section Counter

variable [Add α] [Div α] [OfNat α 2]

namespace MedianCounter

/-- `reset()`: swap the buffer with an empty one. -/
def reset : MedianCounter α := ⟨[]⟩

/-- `add(value)`. -/
def add (c : MedianCounter α) (value : Sample α) : MedianCounter α := ⟨c.acc ++ [value.float64]⟩

/-- `ready()`. -/
def ready (c : MedianCounter α) : Bool := !c.acc.isEmpty

/-- `value()`: the answer, or the `AKU_PANIC` on an empty buffer, and the
buffer it leaves. -/
def Value (c : MedianCounter α) (r : Except String α) (c' : MedianCounter α) : Prop :=
  match c.acc with
  | [] => r = .error "`ready` should be called first" ∧ c' = c
  | [a] => r = .ok a ∧ c' = c
  | [a, b] => r = .ok ((a + b) / 2) ∧ c' = c
  | _ :: _ :: _ :: _ =>
    PartialSort (c.acc.length / 2 + 1) c.acc c'.acc ∧
      ∃ x, r = .ok x ∧ c'.acc[c.acc.length / 2]? = some x

end MedianCounter

/-- Every buffer has an answer to `value()`: the sorted buffer is one
result of the partial sort. -/
theorem MedianCounter.Value.exists (c : MedianCounter α) : ∃ r c', c.Value r c' := by
  unfold MedianCounter.Value
  split
  case h_4 a b d rest hc =>
    have hlt : c.acc.length / 2 < (c.acc.insertionSort (· ≤ ·)).length := by
      rw [List.length_insertionSort, hc]; simp; omega
    exact ⟨_, ⟨c.acc.insertionSort (· ≤ ·)⟩, PartialSort.insertionSort _ _, _, rfl,
      List.getElem?_eq_getElem hlt⟩
  all_goals exact ⟨_, c, rfl, rfl⟩

/-- The calls a counter receives. -/
inductive CounterCall (α : Type) where
  | reset
  | add (value : Sample α)
  | value

/-- `Run c calls answers c'`: from `c`, the calls leave `c'`, and the
`value()` calls answer `answers`, in order. -/
inductive Run : MedianCounter α → List (CounterCall α) → List (Except String α) →
    MedianCounter α → Prop
  | nil (c : MedianCounter α) : Run c [] [] c
  | reset {c c' : MedianCounter α} {calls rs} :
      Run .reset calls rs c' → Run c (.reset :: calls) rs c'
  | add {c c' : MedianCounter α} {s : Sample α} {calls rs} :
      Run (c.add s) calls rs c' → Run c (.add s :: calls) rs c'
  | value {c mid c' : MedianCounter α} {r calls rs} :
      c.Value r mid → Run mid calls rs c' → Run c (.value :: calls) (r :: rs) c'

/-- For each `value()` call, the values added since the last reset, oldest
first, from `added` at the start. -/
def addedAtValues : List α → List (CounterCall α) → List (List α)
  | _, [] => []
  | _, .reset :: calls => addedAtValues [] calls
  | added, .add s :: calls => addedAtValues (added ++ [s.float64]) calls
  | added, .value :: calls => added :: addedAtValues added calls

/-- What the specification asks of an answer for the values `added`: the
value itself for one value, and the element of rank `⌊n/2⌋` of the sorted
values for `n ≥ 3`. -/
def MedianAnswer (added : List α) (r : Except String α) : Prop :=
  (∀ a, added = [a] → r = .ok a) ∧
    (3 ≤ added.length → ∃ x, r = .ok x ∧ (added.insertionSort (· ≤ ·))[added.length / 2]? = some x)

/-! ## One call, then a run -/

/-- The step lemma for `value()`: from a buffer that is a permutation of
the added values, the answer is the one asked for, and the buffer stays a
permutation of them. -/
theorem MedianCounter.Value.spec {c c' : MedianCounter α} {r : Except String α} {added : List α}
    (hv : c.Value r c') (hp : c.acc ~ added) : c'.acc ~ added ∧ MedianAnswer added r := by
  unfold MedianCounter.Value at hv
  have hlen := hp.length_eq
  split at hv
  case h_1 hc =>
    obtain ⟨rfl, rfl⟩ := hv
    obtain rfl := (hc ▸ hp).nil_eq
    exact ⟨hp, by simp [MedianAnswer]⟩
  case h_2 a hc =>
    obtain ⟨rfl, rfl⟩ := hv
    obtain rfl := List.singleton_perm.1 (hc ▸ hp)
    exact ⟨hp, by simp [MedianAnswer]⟩
  case h_3 a b hc =>
    obtain ⟨rfl, rfl⟩ := hv
    rw [hc, List.length_cons, List.length_singleton] at hlen
    exact ⟨hp, fun x h => by simp [h] at hlen, fun h => by omega⟩
  case h_4 a b d rest hc =>
    obtain ⟨hsort, x, rfl, hx⟩ := hv
    have hlt : c.acc.length / 2 < c.acc.length / 2 + 1 := Nat.lt_succ_self _
    have hk : c.acc.length / 2 + 1 ≤ c.acc.length := by rw [hc]; simp; omega
    have hmid : (c.acc.insertionSort (· ≤ ·))[c.acc.length / 2]? = some x := by
      rw [← List.getElem?_take_of_lt hlt, ← hsort.take_eq hk, List.getElem?_take_of_lt hlt, hx]
    refine ⟨hsort.perm.trans hp, fun y h => ?_, fun _ => ⟨x, rfl, ?_⟩⟩
    · rw [hc, h] at hlen; simp at hlen
    · rwa [← insertionSort_eq_of_perm hp, ← hlen]

/-- Every list of calls has a run from every counter. -/
theorem Run.exists (c : MedianCounter α) (calls : List (CounterCall α)) : ∃ rs c', Run c calls rs c' := by
  induction calls generalizing c with
  | nil => exact ⟨[], c, .nil c⟩
  | cons call calls ih =>
    cases call with
    | reset =>
      obtain ⟨rs, c', h⟩ := ih .reset
      exact ⟨rs, c', .reset h⟩
    | add s =>
      obtain ⟨rs, c', h⟩ := ih (c.add s)
      exact ⟨rs, c', .add h⟩
    | value =>
      obtain ⟨r, mid, hv⟩ := MedianCounter.Value.exists c
      obtain ⟨rs, c', h⟩ := ih mid
      exact ⟨r :: rs, c', .value hv h⟩

/-- Along every run from a buffer that is a permutation of `added`, every
`value()` call answers as the specification asks for the values added
before it since the last reset. -/
theorem Run.answers {c c' : MedianCounter α} {calls : List (CounterCall α)}
    {rs : List (Except String α)} (h : Run c calls rs c') :
    ∀ {added : List α}, c.acc ~ added →
      List.Forall₂ MedianAnswer (addedAtValues added calls) rs := by
  induction h with
  | nil => exact fun _ => .nil
  | reset _ ih => exact fun _ => ih (List.Perm.refl _)
  | add _ ih => exact fun hp => ih (hp.append_right _)
  | value hv _ ih =>
    intro added hp
    obtain ⟨hp', hans⟩ := hv.spec hp
    exact .cons hans (ih hp')

/-- Every sequence of `add`, `value()` and `reset()` calls on a counter
after `reset()` has a run, and along every run each `value()` call made
when `n` values have been added since the last reset answers that value
when `n = 1`, and the element of rank `⌊n/2⌋` of the sorted added values
when `n ≥ 3`, whatever order earlier calls left the buffer in. -/
theorem run_value_answers (calls : List (CounterCall α)) :
    (∃ rs c', Run .reset calls rs c') ∧
      ∀ rs c', Run .reset calls rs c' → List.Forall₂ MedianAnswer (addedAtValues [] calls) rs :=
  ⟨Run.exists _ calls, fun _ _ h => h.answers (List.Perm.refl _)⟩

/-- The calls `add(3)`, `add(1)`, `add(2)`, `value()`. -/
def threeValuesCalls : List (CounterCall Nat) :=
  [.add ⟨0, 1, .float, 3⟩, .add ⟨1, 1, .float, 1⟩, .add ⟨2, 1, .float, 2⟩, .value]

theorem run_value_answers_threeValues :
    Run .reset threeValuesCalls [.ok 2] ⟨[1, 2, 3]⟩ ∧
      List.Forall₂ MedianAnswer (addedAtValues [] threeValuesCalls) [.ok 2] :=
  have h : Run .reset threeValuesCalls [.ok 2] ⟨[1, 2, 3]⟩ :=
    .add (.add (.add (.value (show MedianCounter.Value ⟨[3, 1, 2]⟩ (.ok 2) ⟨[1, 2, 3]⟩ from
      ⟨⟨by decide, by decide, by decide⟩, 2, rfl, rfl⟩) (.nil _))))
  ⟨h, (run_value_answers _).2 _ _ h⟩

end Counter

end Akumuli.QP
