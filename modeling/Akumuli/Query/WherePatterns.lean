/-
Akumuli.Query.WherePatterns — what the pattern texts of `extract_ids`
compile to.

The pattern of a metric `m` compiles to the literal `m` followed by
`anyTagsRE`, and the pattern with tag filters to `m` followed by one group
per filter (`compile_metricTags`). Each group's alternatives are the value
terms `anyTagsRE \s key = val anyTagsRE` (`valueTerms`). This holds when
the metric, keys and values read literally (`Literal`); every piece of
the text has its own reading lemma, and `run_append` joins them.
-/
import Akumuli.Query.Where

namespace Akumuli.QP

open Regex RE

/-! ## The expressions -/

/-- `[\w\.\-]`, with its items in the order the reader collects them. -/
def tagCharClass : Atom := .set false [.single '-', .single '.', .escape .word false]

/-- `\s`. -/
def spaceClass : Atom := .set false [.escape .space false]

/-- `[\w\.\-]+`. -/
def tagCharsRE : RE := .cat (.atom tagCharClass) (.star (.atom tagCharClass))

/-- One tag, `\s[\w\.\-]+=[\w\.\-]+`, as the reader closes its group. -/
def oneTagRE : RE :=
  Frame.close ⟨[], [tagCharsRE, .atom (.char '='), tagCharsRE, .atom spaceClass]⟩

/-- `(?:\s[\w\.\-]+=[\w\.\-]+)*`. -/
def anyTagsRE : RE := .star oneTagRE

/-- The terms of one value of a tag filter. -/
def valueTerms (key val : String) : List RE :=
  [anyTagsRE, .atom spaceClass] ++ lits key.data ++ [.atom (.char '=')] ++ lits val.data ++
    [anyTagsRE]

/-- A string every character of which the reader takes literally. -/
def Literal (s : String) : Prop := ∀ c ∈ s.data, isLiteral c = true

instance (s : String) : Decidable (Literal s) := inferInstanceAs (Decidable (∀ c ∈ s.data, _))

/-! ## Reading the pieces -/

theorem run_anyTags (f : Frame) (fs : List Frame) :
    run ⟨.term 0, f :: fs⟩ anyTagsPattern.data = some ⟨.term 1, ⟨f.alts, anyTagsRE :: f.seq⟩ :: fs⟩ :=
  rfl

theorem run_literal {s : String} (hs : Literal s) (alts seq : List RE) (fs : List Frame) :
    run ⟨.term 0, ⟨alts, seq⟩ :: fs⟩ s.data = some ⟨.term 0, ⟨alts, (lits s.data).reverse ++ seq⟩ :: fs⟩ := by
  rw [run_literals s.data hs, ite_self]

theorem run_valuePattern {key val : String} (hk : Literal key) (hv : Literal val)
    (alts seq : List RE) (fs : List Frame) :
    run ⟨.term 0, ⟨alts, seq⟩ :: fs⟩ (valuePattern key val).data =
      some ⟨.term 1, ⟨alts, (valueTerms key val).reverse ++ seq⟩ :: fs⟩ := by
  have hspace : ∀ f : Frame, run ⟨.term 1, f :: fs⟩ "\\s".data =
      some ⟨.term 0, ⟨f.alts, .atom spaceClass :: f.seq⟩ :: fs⟩ := fun _ => rfl
  have heq : ∀ f : Frame, run ⟨.term 0, f :: fs⟩ "=".data =
      some ⟨.term 0, ⟨f.alts, .atom (.char '=') :: f.seq⟩ :: fs⟩ := fun _ => rfl
  simp only [valuePattern, String.data_append, run_append]
  rw [run_anyTags, Option.some_bind, hspace, Option.some_bind, run_literal hk, Option.some_bind,
    heq, Option.some_bind, run_literal hv, Option.some_bind, run_anyTags]
  simp [valueTerms, lits]

/-- The values of a filter, separated by `|`, leave the innermost group
with one alternative per value. -/
theorem run_valuesPattern {key : String} (hk : Literal key) (fs : List Frame) :
    ∀ (vs : List String) (alts : List RE), (∀ v ∈ vs, Literal v) → vs ≠ [] →
      ∃ f, run ⟨.term 0, ⟨alts, []⟩ :: fs⟩ (valuesPattern key vs).data = some ⟨.term 1, f :: fs⟩ ∧
        ∀ w, f.close.Lang w ↔ (∃ r ∈ alts, r.Lang w) ∨ ∃ v ∈ vs, (catList (valueTerms key v)).Lang w
  | [], _, _, h => absurd rfl h
  | [v], alts, hvs, _ => by
    refine ⟨⟨alts, (valueTerms key v).reverse⟩, ?_, fun w => ?_⟩
    · simpa [valuesPattern] using run_valuePattern hk (hvs v (List.mem_singleton_self v)) alts [] fs
    · simp [lang_close, or_comm]
  | v :: v' :: vs, alts, hvs, _ => by
    obtain ⟨f, hrun, hlang⟩ := run_valuesPattern hk fs (v' :: vs) (catList (valueTerms key v) :: alts)
      (fun x hx => hvs x (List.mem_cons_of_mem _ hx)) (List.cons_ne_nil _ _)
    have hbar : ∀ seq, run ⟨.term 1, ⟨alts, seq⟩ :: fs⟩ "|".data =
        some ⟨.term 0, ⟨catList seq.reverse :: alts, []⟩ :: fs⟩ := fun _ => rfl
    refine ⟨f, ?_, fun w => ?_⟩
    · rw [valuesPattern, String.data_append, String.data_append, run_append, run_append,
        run_valuePattern hk (hvs v (List.mem_cons_self _ _)), Option.some_bind, hbar,
        Option.some_bind, List.append_nil, List.reverse_reverse]
      · exact hrun
      · exact List.cons_ne_nil _ _
    · rw [hlang]
      simp only [List.mem_cons, exists_eq_or_imp]
      constructor
      · rintro ((h | h) | h)
        exacts [.inr (.inl h), .inl h, .inr (.inr h)]
      · rintro (h | h | h)
        exacts [.inl (.inr h), .inl (.inl h), .inr h]

/-- A tag filter becomes one group term, whose words are those of one of
its values. -/
theorem run_tagFilterPattern {key : String} {vals : List String} (hk : Literal key)
    (hvs : ∀ v ∈ vals, Literal v) (hne : vals ≠ []) (alts seq : List RE) (fs : List Frame) :
    ∃ g, run ⟨.term 0, ⟨alts, seq⟩ :: fs⟩ (tagFilterPattern key vals).data =
        some ⟨.term 0, ⟨alts, g :: seq⟩ :: fs⟩ ∧
      ∀ w, g.Lang w ↔ ∃ v ∈ vals, (catList (valueTerms key v)).Lang w := by
  obtain ⟨f, hrun, hlang⟩ := run_valuesPattern hk (⟨alts, seq⟩ :: fs) vals [] hvs hne
  have hopen : run ⟨.term 0, ⟨alts, seq⟩ :: fs⟩ "(?:".data =
      some ⟨.term 0, ⟨[], []⟩ :: ⟨alts, seq⟩ :: fs⟩ := rfl
  have hclose : run ⟨.term 1, f :: ⟨alts, seq⟩ :: fs⟩ ")".data =
      some ⟨.term 0, ⟨alts, f.close :: seq⟩ :: fs⟩ := rfl
  refine ⟨f.close, ?_, fun w => by simpa using hlang w⟩
  rw [tagFilterPattern, String.data_append, String.data_append, run_append, run_append, hopen,
    Option.some_bind, hrun, Option.some_bind, hclose]

/-! ## The whole patterns -/

theorem metricTagsPattern_data (m : String) (tags : List (String × List String)) :
    (metricTagsPattern m tags).data =
      m.data ++ (tags.map fun kv => (tagFilterPattern kv.1 kv.2).data).flatten := by
  induction tags generalizing m with
  | nil => simp [metricTagsPattern]
  | cons kv tags ih =>
    rw [metricTagsPattern, List.foldl_cons, ← metricTagsPattern, ih]
    simp

/-- Filters the reader takes literally: literal keys and values, and at
least one value each. -/
def LiteralFilters (tags : List (String × List String)) : Prop :=
  ∀ kv ∈ tags, Literal kv.1 ∧ kv.2 ≠ [] ∧ ∀ v ∈ kv.2, Literal v

/-- The words of one tag filter: those of one of its values. -/
def FilterLang (kv : String × List String) (w : List Char) : Prop :=
  ∃ v ∈ kv.2, (catList (valueTerms kv.1 v)).Lang w

/-- The words of the filters, one after the other. -/
def FiltersLang : List (String × List String) → List Char → Prop
  | [], w => w = []
  | kv :: rest, w => ∃ u v, w = u ++ v ∧ FilterLang kv u ∧ FiltersLang rest v

/-- The filters become one group term each, in order. -/
theorem run_tagFilters : ∀ (tags : List (String × List String)), LiteralFilters tags →
    ∀ seq : List RE, ∃ gs : List RE,
      run ⟨.term 0, [⟨[], seq⟩]⟩ (tags.map fun kv => (tagFilterPattern kv.1 kv.2).data).flatten =
        some ⟨.term 0, [⟨[], gs.reverse ++ seq⟩]⟩ ∧
      ∀ w, (catList gs).Lang w ↔ FiltersLang tags w
  | [], _, seq => ⟨[], rfl, fun w => by simp [FiltersLang]⟩
  | kv :: tags, hl, seq => by
    obtain ⟨hk, hne, hvs⟩ := hl kv (List.mem_cons_self _ _)
    obtain ⟨g, hrun, hg⟩ := run_tagFilterPattern hk hvs hne [] seq []
    obtain ⟨gs, hrest, hgs⟩ := run_tagFilters tags (fun x hx => hl x (List.mem_cons_of_mem _ hx))
      (g :: seq)
    refine ⟨g :: gs, ?_, fun w => ?_⟩
    · rw [List.map_cons, List.flatten_cons, run_append, hrun, Option.some_bind, hrest]
      simp
    · simp only [lang_catList_cons, hg, hgs, FiltersLang, FilterLang]

/-- The pattern of a literal metric: the metric, then any tags. -/
theorem compile_metricOnly {m : String} (hm : Literal m) :
    ∃ r, compile (m ++ anyTagsPattern) = some r ∧
      ∀ w, r.Lang w ↔ ∃ v, w = m.data ++ v ∧ anyTagsRE.Lang v := by
  refine ⟨Frame.close ⟨[], anyTagsRE :: (lits m.data).reverse⟩, ?_, fun w => ?_⟩
  · rw [compile, String.data_append, run_append, start, run_literal hm, List.append_nil,
      Option.some_bind, run_anyTags]
    rfl
  · simp only [lang_close, List.reverse_cons, List.reverse_reverse, lang_catList_append,
      lang_lits, List.not_mem_nil, false_and, exists_false, or_false]
    constructor
    · rintro ⟨_, v, rfl, rfl, hv⟩
      exact ⟨v, rfl, (lang_cat_eps_right _ v).1 hv⟩
    · rintro ⟨v, rfl, hv⟩
      exact ⟨_, v, rfl, rfl, (lang_cat_eps_right _ v).2 hv⟩

/-- The pattern of a literal metric with literal filters: the metric, then
the filters in order. -/
theorem compile_metricTags {m : String} (hm : Literal m) {tags : List (String × List String)}
    (hl : LiteralFilters tags) :
    ∃ r, compile (metricTagsPattern m tags) = some r ∧
      ∀ w, r.Lang w ↔ ∃ v, w = m.data ++ v ∧ FiltersLang tags v := by
  obtain ⟨gs, hrun, hgs⟩ := run_tagFilters tags hl (lits m.data).reverse
  refine ⟨Frame.close ⟨[], gs.reverse ++ (lits m.data).reverse⟩, ?_, fun w => ?_⟩
  · rw [compile, metricTagsPattern_data, run_append, start, run_literal hm, List.append_nil,
      Option.some_bind, hrun]
    rfl
  · simp only [lang_close, List.reverse_append, List.reverse_reverse, lang_catList_append,
      lang_lits, hgs, List.not_mem_nil, false_and, exists_false, or_false]
    constructor
    · rintro ⟨_, v, rfl, rfl, hv⟩
      exact ⟨v, rfl, hv⟩
    · rintro ⟨v, rfl, hv⟩
      exact ⟨_, v, rfl, rfl, hv⟩

end Akumuli.QP
