/-
Akumuli.Pipeline.GroupBy — `GroupByStatement::put` (`queryprocessor.cpp`),
the time-bucketing step `ScanQueryProcessor::put` runs every sample
through before the root node.

On the first sample the bucket `[lowerbound_, upperbound_)` is aligned to
`ts / step_ * step_`. Afterwards a sample at or above `upperbound_` emits
one `EMPTY` marker stamped `upperbound_` and moves the bucket up by one
step; a sample below `lowerbound_` emits one marker stamped `upperbound_`
and moves it down by one step. The bounds are `u64`: every addition and
subtraction is taken `% 2^64`.

`markedStream` follows the specification's words instead: between
consecutive samples, one marker for every aligned bucket the stream
leaves. The two agree on every stream whose consecutive samples lie in the
same or adjacent buckets and stay one step below `2^64`
(`feed_eq_markedStream`). They differ when a gap spans two buckets, since
`put` moves the bucket by one step per sample
(`feed_skips_bucket_marker`), and when the first bucket's upper end wraps
past `2^64` (`feed_wraps_first_bucket`).
-/
import Akumuli.Core

namespace Akumuli.QP

variable {V : Type} [Inhabited V]

/-- The state of a `GroupByStatement`. -/
structure GroupByStatement where
  step : Nat
  firstHit : Bool
  lowerbound : Nat
  upperbound : Nat

namespace GroupByStatement

/-- `GroupByStatement(step)`; both bounds start at `AKU_MIN_TIMESTAMP`, which
the first sample overwrites before any use. -/
def init (step : Nat) : GroupByStatement := ⟨step, true, 0, 0⟩

/-- The first-hit branch of `put`: align the bucket to the first sample. -/
def align (g : GroupByStatement) (ts : Nat) : GroupByStatement :=
  if g.firstHit then
    { g with firstHit := false, lowerbound := ts / g.step * g.step,
             upperbound := (ts / g.step * g.step + g.step) % 2 ^ 64 }
  else g

/-- `lowerbound_ += step_; upperbound_ += step_;` -/
def advance (g : GroupByStatement) : GroupByStatement :=
  { g with lowerbound := (g.lowerbound + g.step) % 2 ^ 64,
           upperbound := (g.upperbound + g.step) % 2 ^ 64 }

/-- `lowerbound_ -= step_; upperbound_ -= step_;` -/
def retreat (g : GroupByStatement) : GroupByStatement :=
  { g with lowerbound := (g.lowerbound + 2 ^ 64 - g.step) % 2 ^ 64,
           upperbound := (g.upperbound + 2 ^ 64 - g.step) % 2 ^ 64 }

/-- `put(sample, next)`. -/
def put (g : GroupByStatement) (sample : Sample V) (d : Succ V) :
    Bool × GroupByStatement × Succ V :=
  if g.step = 0 then
    ((d.put sample).1, g, (d.put sample).2)
  else
    let g := g.align sample.timestamp
    if g.upperbound ≤ sample.timestamp then
      match d.put (Sample.empty g.upperbound) with
      | (false, d) => (false, g, d)
      | (true, d) => ((d.put sample).1, g.advance, (d.put sample).2)
    else if sample.timestamp < g.lowerbound then
      match d.put (Sample.empty g.upperbound) with
      | (false, d) => (false, g, d)
      | (true, d) => ((d.put sample).1, g.retreat, (d.put sample).2)
    else
      ((d.put sample).1, g, (d.put sample).2)

/-- `ScanQueryProcessor::put` over a stream, ignoring the answers. -/
def feed (g : GroupByStatement) (d : Succ V) : List (Sample V) → GroupByStatement × Succ V
  | [] => (g, d)
  | s :: rest => (g.put s d).2.1.feed (g.put s d).2.2 rest

@[simp] theorem align_step (g : GroupByStatement) (ts : Nat) : (g.align ts).step = g.step := by
  unfold align; split <;> rfl

end GroupByStatement

/-! ## The markers the specification asks for -/

/-- The marker timestamps between consecutive samples at `t` and `t'`: one
for each aligned bucket `[j*s, (j+1)*s)` left, `j` running from `t/s`
towards `t'/s` (that bucket excluded), stamped `(j+1)*s`. -/
def bucketMarkers (s t t' : Nat) : List Nat :=
  if t / s ≤ t' / s then (List.range (t' / s - t / s)).map fun i => (t / s + i + 1) * s
  else (List.range (t / s - t' / s)).map fun i => (t / s - i + 1) * s

/-- The stream the successor should receive after the sample `prev`. -/
def markedStream (s : Nat) (prev : Sample V) : List (Sample V) → List (Sample V)
  | [] => []
  | x :: xs => (bucketMarkers s prev.timestamp x.timestamp).map Sample.empty ++ x :: markedStream s x xs

/-! ## Where `put` follows the specification -/

namespace GroupByStatement

variable {g : GroupByStatement} {d : Succ V} {x : Sample V} {t : Nat}

/-- After a sample at `t`, the bounds are the aligned bucket of `t`. -/
structure Tracks (g : GroupByStatement) (t : Nat) : Prop where
  hit : g.firstHit = false
  lower : g.lowerbound = t / g.step * g.step
  upper : g.upperbound = g.lowerbound + g.step

theorem bucket_of (s t : Nat) (hs : 0 < s) : t / s * s ≤ t ∧ t < t / s * s + s :=
  ⟨Nat.div_mul_le_self t s, Nat.lt_div_mul_add hs⟩

variable {s : Nat}

/-- The first sample aligns the bucket around itself and gets no marker. -/
theorem put_first (hd : d.Accepting) (hs : 0 < s) (hmax : x.timestamp + s < 2 ^ 64) :
    ∃ g', (init s).put x d = (true, g', { d with received := d.received ++ [x] }) ∧
      Tracks g' x.timestamp ∧ g'.step = s := by
  obtain ⟨h1, h2⟩ := bucket_of s x.timestamp hs
  have hmod : (x.timestamp / s * s + s) % 2 ^ 64 = x.timestamp / s * s + s :=
    Nat.mod_eq_of_lt (by omega)
  refine ⟨(init s).align x.timestamp, ?_, ⟨rfl, rfl, by simp [align, init, hmod, -Nat.reducePow]⟩, rfl⟩
  simp [put, align, init, hmod, show s ≠ 0 by omega,
    show ¬ x.timestamp / s * s + s ≤ x.timestamp by omega,
    show ¬ x.timestamp < x.timestamp / s * s by omega, Succ.put, hd _, -Nat.reducePow]

/-- The step lemma: a sample in the bucket below, the same bucket or the
bucket above gets exactly the markers `bucketMarkers` lists, and the bounds
follow it. -/
theorem put_tracks (hd : d.Accepting) (hs : 0 < g.step) (h : Tracks g t)
    (hup : x.timestamp / g.step ≤ t / g.step + 1) (hdown : t / g.step ≤ x.timestamp / g.step + 1)
    (hmax : x.timestamp + g.step < 2 ^ 64) :
    ∃ g', g.put x d = (true, g', { d with received :=
        d.received ++ (bucketMarkers g.step t x.timestamp).map Sample.empty ++ [x] }) ∧
      Tracks g' x.timestamp ∧ g'.step = g.step := by
  obtain ⟨hit, hlo, hhi⟩ := h
  obtain ⟨h1, h2⟩ := bucket_of g.step x.timestamp hs
  obtain ⟨h3, h4⟩ := bucket_of g.step t hs
  have halign : g.align x.timestamp = g := by simp [align, hit]
  rcases Nat.lt_trichotomy (x.timestamp / g.step) (t / g.step) with hlt | heq | hgt
  · -- one bucket down
    have hq : t / g.step = x.timestamp / g.step + 1 := by omega
    have hmul : t / g.step * g.step = x.timestamp / g.step * g.step + g.step := by
      rw [hq, Nat.succ_mul]
    have hm : bucketMarkers g.step t x.timestamp = [g.upperbound] := by
      rw [bucketMarkers, if_neg (show ¬ t / g.step ≤ x.timestamp / g.step by omega),
        show t / g.step - x.timestamp / g.step = 1 by omega]
      simp [List.range_succ, hhi, hlo, Nat.succ_mul]
    refine ⟨g.retreat, ?_, ⟨hit, ?_, ?_⟩, rfl⟩
    · simp [put, halign, show g.step ≠ 0 by omega, show ¬ g.upperbound ≤ x.timestamp by omega,
        show x.timestamp < g.lowerbound by omega, Succ.put, hd _, hm]
    · simp only [retreat]; rw [hlo, hmul]; omega
    · simp only [retreat]; rw [hhi, hlo, hmul]; omega
  · -- the same bucket
    have hm : bucketMarkers g.step t x.timestamp = [] := by simp [bucketMarkers, heq]
    refine ⟨g, ?_, ⟨hit, by rw [hlo, heq], hhi⟩, rfl⟩
    rw [heq] at h1 h2
    simp [put, halign, show g.step ≠ 0 by omega, show ¬ g.upperbound ≤ x.timestamp by omega,
      show ¬ x.timestamp < g.lowerbound by omega, Succ.put, hd _, hm]
  · -- one bucket up
    have hq : x.timestamp / g.step = t / g.step + 1 := by omega
    have hmul : x.timestamp / g.step * g.step = t / g.step * g.step + g.step := by
      rw [hq, Nat.succ_mul]
    have hm : bucketMarkers g.step t x.timestamp = [g.upperbound] := by
      rw [bucketMarkers, if_pos (show t / g.step ≤ x.timestamp / g.step by omega),
        show x.timestamp / g.step - t / g.step = 1 by omega]
      simp [List.range_succ, hhi, hlo, Nat.succ_mul]
    refine ⟨g.advance, ?_, ⟨hit, ?_, ?_⟩, rfl⟩
    · simp [put, halign, show g.step ≠ 0 by omega, show g.upperbound ≤ x.timestamp by omega,
        Succ.put, hd _, hm]
    · simp only [advance]; rw [hlo, hmul]; omega
    · simp only [advance]; rw [hhi, hlo]; omega

/-- Consecutive samples `a`, `b` lie in the same or adjacent buckets of
width `s`. -/
def Adjacent (s : Nat) (a b : Sample V) : Prop :=
  b.timestamp / s ≤ a.timestamp / s + 1 ∧ a.timestamp / s ≤ b.timestamp / s + 1

/-- The run lemma: after a sample `prev` whose bucket the bounds track, a
stream of adjacent samples is marked as `markedStream` marks it. -/
theorem feed_tracks (hs : 0 < s) :
    ∀ (xs : List (Sample V)) (g : GroupByStatement) (d : Succ V) (prev : Sample V),
      g.step = s → d.Accepting → Tracks g prev.timestamp → List.Chain (Adjacent s) prev xs →
      (∀ y ∈ xs, y.timestamp + s < 2 ^ 64) →
      (g.feed d xs).2.received = d.received ++ markedStream s prev xs
  | [], g, d, prev, _, _, _, _, _ => by simp [feed, markedStream]
  | x :: rest, g, d, prev, hstep, hd, h, hchain, hmax => by
    obtain ⟨hadj, hrest⟩ := List.chain_cons.1 hchain
    obtain ⟨g', hput, h', hstep'⟩ := put_tracks hd (hstep ▸ hs) h (hstep ▸ hadj.1)
      (hstep ▸ hadj.2) (hstep ▸ hmax x (by simp))
    rw [feed, hput]
    dsimp only
    rw [feed_tracks hs rest g' { d with received := d.received ++
      (bucketMarkers g.step prev.timestamp x.timestamp).map Sample.empty ++ [x] } x
      (hstep'.trans hstep) (fun i => hd i) h' hrest fun y hy => hmax y (List.mem_cons_of_mem _ hy)]
    simp [markedStream, hstep]

/-- On every stream whose consecutive samples lie in the same or adjacent
buckets, one step below `2^64`, a fresh `GroupByStatement(s)` with a
never-refusing successor forwards exactly the specification's stream: the
samples in order, no marker before the first, one marker per bucket left. -/
theorem feed_eq_markedStream (hs : 0 < s) (x : Sample V) (xs : List (Sample V))
    (hadj : List.Chain (Adjacent s) x xs) (hmax : ∀ y ∈ x :: xs, y.timestamp + s < 2 ^ 64) :
    ((init s).feed (Succ.fresh fun _ => true) (x :: xs)).2.received =
      x :: markedStream s x xs := by
  obtain ⟨g, hput, h, hstep⟩ :=
    put_first (d := Succ.fresh fun _ => true) (fun _ => rfl) hs (hmax x (by simp))
  rw [feed, hput]
  dsimp only
  rw [feed_tracks hs xs g _ x hstep (fun _ => rfl) h hadj
    fun y hy => hmax y (List.mem_cons_of_mem _ hy)]
  simp [Succ.fresh]

/-! ## Where `put` departs from it -/

/-- A data sample at timestamp `ts`, for the examples below. -/
def sampleAt (ts : Nat) : Sample Nat := ⟨ts, 1, .float, 0⟩

/-- With step `1`, samples at `0` and `2` leave two buckets, `[0, 1)` and
`[1, 2)`; `put` emits one marker where the specification asks for two. -/
theorem feed_skips_bucket_marker :
    ((init 1).feed (Succ.fresh fun _ => true) [sampleAt 0, sampleAt 2]).2.received =
      [sampleAt 0, Sample.empty 1, sampleAt 2] ∧
    sampleAt 0 :: markedStream 1 (sampleAt 0) [sampleAt 2] =
      [sampleAt 0, Sample.empty 1, Sample.empty 2, sampleAt 2] := by decide

/-- With step `2`, a first sample at `2^64 - 1` aligns the bucket to
`[2^64 - 2, 2^64)`, whose upper end wraps to `0`: a marker stamped `0`
precedes the first sample. -/
theorem feed_wraps_first_bucket :
    ((init 2).feed (Succ.fresh fun _ => true) [sampleAt (2 ^ 64 - 1)]).2.received =
      [Sample.empty 0, sampleAt (2 ^ 64 - 1)] := by decide

end GroupByStatement

end Akumuli.QP
