/-
Akumuli.Query.RegexFilter — `RegexFilter` (`queryprocessor.cpp`), the id
filter of the legacy query path, and why its incremental refresh is as
good as a full rescan.

The filter keeps the ids of the pool entries its pattern matches, and the
pool offset up to which it has scanned. `apply(id)` refreshes (scans from
the offset to the current end) whenever the pool size differs from
`prev_size_`, the size captured at construction and never updated after.

`Synced` is the invariant: `prev_size_ ≤ offset_ ≤ size()`, and `ids_` is
the set of ids of the matching entries below `offset_`. Every `add` and
every `apply` keeps it (`Synced.add`, `Synced.apply`). Because the pool
only grows, `size() = prev_size_` forces `offset_ = size()`, so the skipped
refresh loses nothing, and every `apply` answers as a full rescan of the
pool would (`run_eq_rescan`).
-/
import Akumuli.Catalog

namespace Akumuli.QP

/-- `FilterResult`, the answers `apply` gives. -/
inductive FilterResult where
  | PROCESS
  | SKIP_THIS
  deriving DecidableEq, Repr

/-- The state of a `RegexFilter`; the pool it reads is passed to each call. -/
structure RegexFilter where
  regex : String
  ids : List Nat
  offset : Nat
  prevSize : Nat

namespace RegexFilter

variable (sem : String → String → Bool)

/-- `refresh()`: scan the pool from `offset_` and insert the ids found. -/
def refresh (f : RegexFilter) (pool : StringPool) : RegexFilter :=
  { f with ids := ((pool.regexMatch sem f.regex f.offset).1.map (·.id)).foldl (fun ids id => ids.insert id) f.ids,
           offset := (pool.regexMatch sem f.regex f.offset).2 }

/-- The constructor `RegexFilter(regex, spool)`. -/
def create (regex : String) (pool : StringPool) : RegexFilter :=
  refresh sem ⟨regex, [], 0, pool.size⟩ pool

/-- `apply(id)`. -/
def apply (f : RegexFilter) (pool : StringPool) (id : Nat) : FilterResult × RegexFilter :=
  let f := if pool.size ≠ f.prevSize then refresh sem f pool else f
  (if id ∈ f.ids then .PROCESS else .SKIP_THIS, f)

/-- A step of the reader's world: an ingest appends to the pool, or the
query applies the filter to an id. -/
inductive Event where
  | add (e : PoolEntry)
  | apply (id : Nat)

/-- The answers of the filter along a run. -/
def run : StringPool → RegexFilter → List Event → List FilterResult
  | _, _, [] => []
  | pool, f, .add e :: rest => run (pool.add e) f rest
  | pool, f, .apply id :: rest => (apply sem f pool id).1 :: run pool (apply sem f pool id).2 rest

/-- What a full rescan of the pool answers for `id`. -/
def rescan (pool : StringPool) (regex : String) (id : Nat) : FilterResult :=
  if ∃ e ∈ pool.entries, sem regex e.name ∧ e.id = id then .PROCESS else .SKIP_THIS

/-- The answers a full rescan gives along the same run. -/
def runRescan (regex : String) : StringPool → List Event → List FilterResult
  | _, [] => []
  | pool, .add e :: rest => runRescan regex (pool.add e) rest
  | pool, .apply id :: rest => rescan sem pool regex id :: runRescan regex pool rest

/-- The ids of the matching entries among `entries`. -/
def Matched (entries : List PoolEntry) (regex : String) (ids : List Nat) : Prop :=
  ∀ id, id ∈ ids ↔ ∃ e ∈ entries, sem regex e.name ∧ e.id = id

/-- The filter's invariant against the pool. -/
structure Synced (pool : StringPool) (f : RegexFilter) : Prop where
  prev_le : f.prevSize ≤ f.offset
  offset_le : f.offset ≤ pool.size
  matched : Matched sem (pool.entries.take f.offset) f.regex f.ids

variable {sem}

theorem mem_foldl_insert (l ids : List Nat) (id : Nat) :
    id ∈ l.foldl (fun ids id => ids.insert id) ids ↔ id ∈ ids ∨ id ∈ l := by
  induction l generalizing ids with
  | nil => simp
  | cons a l ih =>
    simp only [List.foldl_cons, ih, List.mem_insert_iff, List.mem_cons]
    tauto

@[simp] theorem refresh_prevSize (f : RegexFilter) (pool : StringPool) :
    (refresh sem f pool).prevSize = f.prevSize := rfl

@[simp] theorem refresh_regex (f : RegexFilter) (pool : StringPool) :
    (refresh sem f pool).regex = f.regex := rfl

/-- A refresh scans up to the end: afterwards the ids are those of the
whole pool. -/
theorem refresh_matched {pool : StringPool} {f : RegexFilter}
    (h : Matched sem (pool.entries.take f.offset) f.regex f.ids) :
    (refresh sem f pool).offset = pool.size ∧
      Matched sem pool.entries f.regex (refresh sem f pool).ids := by
  have hsplit : ∀ e, e ∈ pool.entries ↔
      e ∈ pool.entries.take f.offset ∨ e ∈ pool.entries.drop f.offset := fun e => by
    rw [← List.mem_append, List.take_append_drop]
  refine ⟨rfl, fun id => ?_⟩
  rw [refresh, mem_foldl_insert, h]
  simp only [StringPool.regexMatch, List.mem_map, List.mem_filter, hsplit]
  constructor
  · rintro (⟨e, he, hs, rfl⟩ | ⟨e, ⟨he, hs⟩, rfl⟩)
    exacts [⟨e, .inl he, hs, rfl⟩, ⟨e, .inr he, hs, rfl⟩]
  · rintro ⟨e, he | he, hs, rfl⟩
    exacts [.inl ⟨e, he, hs, rfl⟩, .inr ⟨e, ⟨he, hs⟩, rfl⟩]

theorem synced_create (regex : String) (pool : StringPool) :
    Synced sem pool (create sem regex pool) := by
  obtain ⟨hoff, hm⟩ := @refresh_matched sem pool ⟨regex, [], 0, pool.size⟩ (by simp [Matched])
  refine ⟨?_, ?_, ?_⟩ <;> simp only [create, refresh_prevSize, refresh_regex, hoff, le_refl]
  rw [StringPool.size, List.take_length]
  exact hm

/-- An append keeps the invariant: the scanned prefix is unchanged. -/
theorem Synced.add {pool : StringPool} {f : RegexFilter} (h : Synced sem pool f) (e : PoolEntry) :
    Synced sem (pool.add e) f :=
  ⟨h.prev_le, by rw [StringPool.size_add]; exact Nat.le_succ_of_le h.offset_le, by rw [StringPool.take_add h.offset_le]; exact h.matched⟩

theorem apply_regex (f : RegexFilter) (pool : StringPool) (id : Nat) :
    (apply sem f pool id).2.regex = f.regex := by
  simp only [apply]; split_ifs <;> rfl

/-- The step lemma for `apply`: the answer is the full rescan's, and the
invariant holds afterwards. -/
theorem Synced.apply {pool : StringPool} {f : RegexFilter} (h : Synced sem pool f) (id : Nat) :
    (apply sem f pool id).1 = rescan sem pool f.regex id ∧
      Synced sem pool (apply sem f pool id).2 := by
  set f' := if pool.size ≠ f.prevSize then refresh sem f pool else f with hf'
  have hprev : f'.prevSize = f.prevSize := by rw [hf']; split_ifs <;> rfl
  have hregex : f'.regex = f.regex := by rw [hf']; split_ifs <;> rfl
  obtain ⟨hoff, hm⟩ : f'.offset = pool.size ∧ Matched sem pool.entries f.regex f'.ids := by
    rw [hf']
    split_ifs
    · exact refresh_matched h.matched
    · have hoff : f.offset = pool.size := by have := h.prev_le; have := h.offset_le; omega
      have hm := h.matched
      rw [hoff, StringPool.size, List.take_length] at hm
      exact ⟨hoff, hm⟩
  show (if id ∈ f'.ids then _ else _, f').1 = _ ∧ Synced sem pool f'
  refine ⟨by simp only [rescan, hm id], by rw [hprev, hoff]; exact h.prev_le.trans h.offset_le,
    hoff.le, ?_⟩
  rw [hoff, hregex, StringPool.size, List.take_length]
  exact hm

/-- Along every interleaving of appends and lookups, the filter answers
every `apply(id)` exactly as a full rescan of the current pool would. -/
theorem run_eq_rescan : ∀ (events : List Event) (pool : StringPool) (f : RegexFilter),
    Synced sem pool f → run sem pool f events = runRescan sem f.regex pool events
  | [], _, _, _ => rfl
  | .add e :: rest, pool, f, h => run_eq_rescan rest (pool.add e) f (h.add e)
  | .apply id :: rest, pool, f, h => by
    obtain ⟨hans, h'⟩ := h.apply id
    rw [run, runRescan, hans, run_eq_rescan rest pool _ h', apply_regex]

/-- A filter built on any pool answers, along every later run, as the full
rescan does. -/
theorem run_create_eq_rescan (regex : String) (pool : StringPool) (events : List Event) :
    run sem pool (create sem regex pool) events = runRescan sem regex pool events :=
  run_eq_rescan events pool _ (synced_create regex pool)

end RegexFilter

end Akumuli.QP
