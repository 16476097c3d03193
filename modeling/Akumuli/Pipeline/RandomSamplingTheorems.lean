/-
Akumuli.Pipeline.RandomSamplingTheorems — what a `RandomSamplingNode`
passes to its successor, over every stream, every draw of `random_()` and
every behaviour of the successor.

  §1 Flush      — a never-refusing successor receives the sorted buffer and
                  the buffer is cleared (`flush_accepting`); a refused flush
                  keeps the whole sorted buffer, so the next flush sends the
                  already delivered samples again
                  (`complete_resends_after_refusal`).
  §2 Put        — with capacity `N ≥ 1` no `put` divides by zero
                  (`put_isSome`) and the buffer never exceeds the capacity,
                  whatever the successor answers (`feed_length_le`); at
                  capacity `0` the first data sample evaluates
                  `random_() % 0` (`put_zero_capacity_divides_by_zero`).
  §3 Reservoir  — `Holds`, the invariant linking the buffer to the samples
                  received since the last flush, is kept by every `put`
                  (`put_data`), and every flush passes on a `FlushOf` its
                  interval (`feed_complete_flushes`).

The coin is not Algorithm R's. A data sample reaching a full buffer
overwrites slot `random_() % samples_.size()`, and `samples_.size()` is the
capacity, so the slot is always below `buffer_size_` and the new sample is
always kept (`put_data`). The last sample of every interval therefore
reaches the successor with probability one
(`reservoir_keeps_last_of_two`).
-/
import Akumuli.Pipeline.RandomSampling
import Mathlib.Data.List.Forall2

namespace Akumuli.QP

open List

variable {V : Type}

/-- What one flush may pass on, given the interval `I` of data samples it
closes: `min N |I|` of them, as a sub-multiset, in `(timestamp, paramid)`
order. -/
structure FlushOf (N : Nat) (I B : List (Sample V)) : Prop where
  sorted : B.Pairwise fun a b => sampleLE a b
  subperm : B <+~ I
  length : B.length = min N I.length

/-- Overwriting one slot of a buffer drawn from `pending` by a new sample
`s` gives a buffer drawn from `pending ++ [s]`. -/
theorem set_subperm {l pending : List (Sample V)} (h : l <+~ pending) {i : Nat}
    (hi : i < l.length) (s : Sample V) : l.set i s <+~ pending ++ [s] := by
  have hperm : l.set i s ~ l.eraseIdx i ++ [s] := by
    rw [set_eq_take_append_cons_drop, if_pos hi, eraseIdx_eq_take_drop_succ]
    exact perm_middle.trans (perm_append_singleton _ _).symm
  exact hperm.subperm_right.2 ((subperm_append_right _).2 ((eraseIdx_sublist l i).subperm.trans h))

namespace RandomSamplingNode

variable {N : Nat} {n n' : RandomSamplingNode V} {d d' : Succ V} {s : Sample V}
  {pending : List (Sample V)} {b : Bool} {r : Nat}

/-! ## §1 Flush -/

/-- A successor that never refuses receives the whole list. -/
theorem flushLoop_accepting (hd : d.Accepting) (l : List (Sample V)) :
    flushLoop l d = (true, { d with received := d.received ++ l }) := by
  induction l generalizing d with
  | nil => simp
  | cons s rest ih =>
    rw [flushLoop_cons, if_pos (hd _), ih (d := (d.put s).2) fun i => hd i]
    simp [Succ.put]

theorem flush_accepting (hd : d.Accepting) (n : RandomSamplingNode V) :
    n.flush d = (true, { n with samples := [] },
      { d with received := d.received ++ n.samples.mergeSort sampleLE }) := by
  simp only [flush, flushLoop_accepting hd]

/-- A flush never grows the buffer: it is emptied, or kept sorted. -/
theorem flush_length_le (n : RandomSamplingNode V) (d : Succ V) :
    (n.flush d).2.1.samples.length ≤ n.samples.length := by
  simp only [flush]
  split <;> simp [(mergeSort_perm _ _).length_eq]

/-- A sample of timestamp 1, the first of the examples below. -/
def sampleA : Sample Nat := ⟨1, 7, .float, 10⟩

/-- A sample of timestamp 2, the second of the examples below. -/
def sampleB : Sample Nat := ⟨2, 7, .float, 20⟩

/-- A successor that refuses the only sample of a flush receives it again
from the flush of `complete()`: one input occurrence passed twice, the
second time after a refusal. -/
theorem complete_resends_after_refusal :
    ((init 1).feed (Succ.fresh fun _ => false) [(sampleA, 0), (Sample.empty 2, 0)]).map
      (fun x => (x.1.complete x.2).2.received) = some [sampleA, sampleA] := by
  simp [feed, put, init, sampleA, Sample.empty, flush, flushLoop, complete, Succ.put, Succ.fresh]

/-! ## §2 Put -/

/-- With capacity at least one, `put` never reaches `random_() % 0`. -/
theorem put_isSome (h : 1 ≤ n.bufferSize) (s : Sample V) (r : Nat) (d : Succ V) :
    (n.put s r d).isSome := by
  simp only [put]
  split_ifs <;> first | rfl | omega

/-- At capacity `0` the first data sample makes `put` divide by zero,
whatever `random_()` returns and whatever the successor is. -/
theorem put_zero_capacity_divides_by_zero (r : Nat) (d : Succ Nat) :
    (init 0).put sampleA r d = none := by
  simp [put, init, sampleA]

/-- One `put` keeps the capacity and a buffer within it. -/
theorem put_length_le (hle : n.samples.length ≤ n.bufferSize)
    (hput : n.put s r d = some (b, n', d')) :
    n'.bufferSize = n.bufferSize ∧ n'.samples.length ≤ n'.bufferSize := by
  simp only [put] at hput
  split_ifs at hput
  · obtain rfl := congrArg (fun x => x.2.1) (Option.some.inj hput)
    exact ⟨flush_bufferSize n d, by rw [flush_bufferSize]; exact (flush_length_le n d).trans hle⟩
  · cases hput; exact ⟨rfl, by simp only [length_append, length_singleton]; omega⟩
  · cases hput; exact ⟨rfl, by simpa using hle⟩
  · cases hput; exact ⟨rfl, hle⟩

/-- Along every stream and whatever the successor answers, the buffer never
holds more samples than the capacity. -/
theorem feed_length_le : ∀ (xs : List (Sample V × Nat)) (n : RandomSamplingNode V) (d : Succ V),
    n.samples.length ≤ n.bufferSize → n.feed d xs = some (n', d') →
    n'.bufferSize = n.bufferSize ∧ n'.samples.length ≤ n'.bufferSize
  | [], n, d, hle, hfeed => by cases hfeed; exact ⟨rfl, hle⟩
  | (s, r) :: rest, n, d, hle, hfeed => by
    rw [feed_cons] at hfeed
    obtain ⟨⟨b, n₁, d₁⟩, hput, hrest⟩ := Option.bind_eq_some.1 hfeed
    obtain ⟨hcap₁, hle₁⟩ := put_length_le hle hput
    exact (feed_length_le rest n₁ d₁ hle₁ hrest).imp_left (·.trans hcap₁)

/-! ## §3 Reservoir -/

/-- The reservoir invariant, relative to `pending`, the data samples received
since the last flush. -/
structure Holds (N : Nat) (n : RandomSamplingNode V) (pending : List (Sample V)) : Prop where
  capacity : n.bufferSize = N
  subperm : n.samples <+~ pending
  length : n.samples.length = min N pending.length

theorem holds_init (N : Nat) : Holds N (init N : RandomSamplingNode V) [] :=
  ⟨rfl, .refl _, by simp [init]⟩

/-- The samples a flush sends are a `FlushOf` the interval it closes. -/
theorem Holds.flushOf (h : Holds N n pending) :
    FlushOf N pending (n.samples.mergeSort sampleLE) :=
  ⟨sorted_mergeSort sampleLE_trans sampleLE_total _,
   (mergeSort_perm _ _).subperm_right.2 h.subperm,
   by rw [(mergeSort_perm _ _).length_eq, h.length]⟩

theorem put_marker (hs : s.type = .empty) (r : Nat) (d : Succ V) :
    n.put s r d = some (n.flush d) := by
  simp [put, hs]

/-- A data sample keeps the invariant, and is in the buffer afterwards, for
every draw. -/
theorem put_data (hN : 1 ≤ N) (h : Holds N n pending) (hs : s.type ≠ .empty) (r : Nat)
    (d : Succ V) :
    ∃ n', n.put s r d = some (true, n', d) ∧ Holds N n' (pending ++ [s]) ∧ s ∈ n'.samples := by
  obtain ⟨hcap, hsub, hlen⟩ := h
  by_cases hlt : n.samples.length < n.bufferSize
  · refine ⟨{ n with samples := n.samples ++ [s] }, by simp [put, hs, hlt],
      ⟨hcap, (subperm_append_right _).2 hsub, ?_⟩, by simp⟩
    simp only [length_append, length_singleton]; omega
  · have hix : r % n.samples.length < n.samples.length := Nat.mod_lt _ (by omega)
    refine ⟨{ n with samples := n.samples.set (r % n.samples.length) s },
      by simp [put, hs, hlt, show n.samples.length ≠ 0 by omega,
        show r % n.samples.length < n.bufferSize by omega],
      ⟨hcap, set_subperm hsub hix s, ?_⟩, mem_set _ _ hix _⟩
    simp only [length_set, length_append, length_singleton]; omega

/-- With capacity one, of two data samples closed by a marker only the
second reaches the successor, whatever `random_()` returns: the first
position survives with probability `0`, not `1/2`. -/
theorem reservoir_keeps_last_of_two (r₁ r₂ r₃ : Nat) :
    ((init 1).feed (Succ.fresh fun _ => true)
      [(sampleA, r₁), (sampleB, r₂), (Sample.empty 3, r₃)]).map (·.2.received) =
      some [sampleB] := by
  simp [feed, put, init, sampleA, sampleB, Sample.empty, flush, flushLoop, Succ.put, Succ.fresh,
    Nat.mod_one]

/-- The flush intervals of a stream fed to a node that has buffered from
`pending`: the data samples up to each `EMPTY` marker, and the open
interval the stream ends in. -/
def intervals (pending : List (Sample V)) :
    List (Sample V × Nat) → List (List (Sample V)) × List (Sample V)
  | [] => ([], pending)
  | (s, _) :: rest =>
    if s.type = .empty then (pending :: (intervals [] rest).1, (intervals [] rest).2)
    else intervals (pending ++ [s]) rest

/-- The run lemma: along any stream, a never-refusing successor receives one
`FlushOf` block per closed interval, and the invariant holds of the open
one. -/
theorem feed_accepting (hN : 1 ≤ N) :
    ∀ (xs : List (Sample V × Nat)) (n : RandomSamplingNode V) (pending : List (Sample V))
      (d : Succ V), d.Accepting → Holds N n pending →
      ∃ n' d' blocks, n.feed d xs = some (n', d') ∧ d'.Accepting ∧
        d'.received = d.received ++ blocks.flatten ∧
        Forall₂ (FlushOf N) (intervals pending xs).1 blocks ∧
        Holds N n' (intervals pending xs).2
  | [], n, pending, d, hd, h => ⟨n, d, [], rfl, hd, by simp, .nil, h⟩
  | (s, r) :: rest, n, pending, d, hd, h => by
    by_cases hs : s.type = .empty
    · obtain ⟨n', d', blocks, hfeed, hd', hrec, hblocks, h'⟩ :=
        feed_accepting hN rest { n with samples := [] } []
          { d with received := d.received ++ n.samples.mergeSort sampleLE } (fun i => hd i)
          ⟨h.capacity, .refl _, by simp⟩
      refine ⟨n', d', n.samples.mergeSort sampleLE :: blocks, ?_, hd', ?_, ?_, ?_⟩
      · rw [feed_cons, put_marker hs, flush_accepting hd]; exact hfeed
      · simp [hrec]
      · simpa [intervals, hs] using Forall₂.cons h.flushOf hblocks
      · simpa [intervals, hs] using h'
    · obtain ⟨n₁, hput, h₁, -⟩ := put_data hN h hs r d
      obtain ⟨n', d', blocks, hfeed, hd', hrec, hblocks, h'⟩ :=
        feed_accepting hN rest n₁ _ d hd h₁
      refine ⟨n', d', blocks, ?_, hd', hrec, ?_, ?_⟩
      · rw [feed_cons, hput]; exact hfeed
      · simpa [intervals, hs] using hblocks
      · simpa [intervals, hs] using h'

/-- For every capacity `N ≥ 1` and every stream fed to a fresh node with a
never-refusing successor, then `complete()`: no `put` divides by zero, and
the successor receives one `FlushOf` block per flush interval, the last
closed by `complete()`. -/
theorem feed_complete_flushes (hN : 1 ≤ N) (xs : List (Sample V × Nat)) :
    ∃ n d blocks, (init N).feed (Succ.fresh fun _ => true) xs = some (n, d) ∧
      (n.complete d).2.received = blocks.flatten ∧
      Forall₂ (FlushOf N) ((intervals [] xs).1 ++ [(intervals [] xs).2]) blocks := by
  obtain ⟨n, d, blocks, hfeed, hd, hrec, hblocks, h⟩ :=
    feed_accepting hN xs (init N) [] (Succ.fresh fun _ => true) (fun _ => rfl) (holds_init N)
  refine ⟨n, d, blocks ++ [n.samples.mergeSort sampleLE], hfeed, ?_,
    rel_append hblocks (.cons h.flushOf .nil)⟩
  simp [complete, flush_accepting hd, hrec, Succ.fresh]

end RandomSamplingNode

end Akumuli.QP
