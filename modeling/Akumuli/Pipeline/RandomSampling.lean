/-
Akumuli.Pipeline.RandomSampling — `RandomSamplingNode`
(`query_processing/randomsamplingnode.cpp`), the reservoir-sampling stage
of the pipeline.

The node buffers up to `buffer_size_` samples. A data sample arriving at
a full buffer overwrites slot `random_() % samples_.size()` when that slot
is below `buffer_size_`. An `EMPTY` marker, and `complete()`, flush the
buffer: stable sort by `(timestamp, paramid)`, then `put` to the successor
in order, stopping at the first refusal. The buffer is cleared only after
a flush that was never refused.

The value `random_()` returns is an explicit argument (`draw`) of `put`, so
a statement for every draw is a statement that holds with probability one.
A `put` that evaluates `random_() % 0` returns `none`: C++ gives that no
meaning.
-/
import Akumuli.Core

namespace Akumuli.QP

variable {V : Type}

/-- The order `flush` sorts by: `(timestamp, paramid)` lexicographically.
`std::stable_sort` with `<` keeps equal keys in order, as `mergeSort` with
the matching `≤` does. -/
def sampleLE (a b : Sample V) : Bool :=
  a.timestamp < b.timestamp || (a.timestamp = b.timestamp && a.paramid ≤ b.paramid)

theorem sampleLE_trans (a b c : Sample V) (hab : sampleLE a b) (hbc : sampleLE b c) :
    sampleLE a c := by
  simp only [sampleLE, Bool.or_eq_true, decide_eq_true_eq, Bool.and_eq_true] at *
  omega

theorem sampleLE_total (a b : Sample V) : sampleLE a b || sampleLE b a := by
  simp only [sampleLE, Bool.or_eq_true, decide_eq_true_eq, Bool.and_eq_true]
  omega

/-- The state of a `RandomSamplingNode`: its capacity and its buffer. -/
structure RandomSamplingNode (V : Type) where
  bufferSize : Nat
  samples : List (Sample V)

namespace RandomSamplingNode

/-- The constructor: an empty buffer of capacity `buffer_size`. -/
def init (bufferSize : Nat) : RandomSamplingNode V := ⟨bufferSize, []⟩

/-- The loop of `flush`: `put` each sample, stop at the first `false`. -/
def flushLoop : List (Sample V) → Succ V → Bool × Succ V
  | [], d => (true, d)
  | s :: rest, d =>
    match d.put s with
    | (true, d') => flushLoop rest d'
    | (false, d') => (false, d')

/-- `flush()`: sort the buffer in place, drain it, and clear it only if the
successor accepted every sample. -/
def flush (n : RandomSamplingNode V) (d : Succ V) : Bool × RandomSamplingNode V × Succ V :=
  let sorted := n.samples.mergeSort sampleLE
  match flushLoop sorted d with
  | (true, d') => (true, { n with samples := [] }, d')
  | (false, d') => (false, { n with samples := sorted }, d')

/-- `complete()`: flush, then complete the successor. -/
def complete (n : RandomSamplingNode V) (d : Succ V) : RandomSamplingNode V × Succ V :=
  ((n.flush d).2.1, (n.flush d).2.2.complete)

/-- `put(sample)`; `draw` is the value of `random_()`. -/
def put (n : RandomSamplingNode V) (sample : Sample V) (draw : Nat) (d : Succ V) :
    Option (Bool × RandomSamplingNode V × Succ V) :=
  if sample.type = .empty then
    some (n.flush d)
  else if n.samples.length < n.bufferSize then
    some (true, { n with samples := n.samples ++ [sample] }, d)
  else if n.samples.length = 0 then
    none
  else if draw % n.samples.length < n.bufferSize then
    some (true, { n with samples := n.samples.set (draw % n.samples.length) sample }, d)
  else
    some (true, n, d)

/-- A stream of upstream `put`s, each with its draw; `none` as soon as one
`put` divides by zero. -/
def feed : RandomSamplingNode V → Succ V → List (Sample V × Nat) →
    Option (RandomSamplingNode V × Succ V)
  | n, d, [] => some (n, d)
  | n, d, (s, r) :: rest =>
    match n.put s r d with
    | none => none
    | some (_, n', d') => n'.feed d' rest

@[simp] theorem flushLoop_nil (d : Succ V) : flushLoop [] d = (true, d) := rfl

theorem flushLoop_cons (s : Sample V) (rest : List (Sample V)) (d : Succ V) :
    flushLoop (s :: rest) d =
      if d.answer d.received.length then flushLoop rest (d.put s).2 else (false, (d.put s).2) := by
  simp only [flushLoop, Succ.put]
  split <;> simp_all

@[simp] theorem feed_nil (n : RandomSamplingNode V) (d : Succ V) : n.feed d [] = some (n, d) := rfl

theorem feed_cons (n : RandomSamplingNode V) (d : Succ V) (s : Sample V) (r : Nat)
    (rest : List (Sample V × Nat)) :
    n.feed d ((s, r) :: rest) = (n.put s r d).bind fun x => x.2.1.feed x.2.2 rest := by
  simp only [feed]
  split <;> simp_all

@[simp] theorem flush_bufferSize (n : RandomSamplingNode V) (d : Succ V) :
    (n.flush d).2.1.bufferSize = n.bufferSize := by
  simp only [flush]
  split <;> rfl

@[simp] theorem complete_bufferSize (n : RandomSamplingNode V) (d : Succ V) :
    (n.complete d).1.bufferSize = n.bufferSize := flush_bufferSize n d

end RandomSamplingNode

end Akumuli.QP
