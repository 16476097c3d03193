/-
Akumuli.Query.LegacyWhere — which series the filter of the legacy
`parse_where_clause` (`queryprocessor.cpp`) passes.

The legacy patterns accept only `\w` characters in the tags around the one
they look for. A value `v` of a where entry `tag: [v_1, …]` becomes
`(m(?:\s\w+=\w+)*\stag=v(?:\s\w+=\w+)*)`, the values are joined by `|`
inside `(?:…)`, and without a where object the pattern is
`m(\s\w+=\w+)*`; an empty metric is replaced by `\w+`. Each piece of the
text has its reading lemma (`run_valueRegexp`, `run_valuesRegexp`), and
every word of `(?:\s\w+=\w+)*` is a word of the `extract_ids` pattern
`(?:\s[\w\.\-]+=[\w\.\-]+)*` (`wordTags_anyTags`), so the splitting lemmas
of `Akumuli.Query.TagLanguage` place the tag `tag=v` in a canonical name.

So the installed filter holds, and answers `PROCESS` for, exactly the
series whose metric is `m` (a `\w` word when `m` is empty) and all of
whose tags are `\w` words, and which, with a where object, carry
`tag = v` for a value `v` of its last entry
(`parseWhereClause_last_entry_passes`, `parseWhereClause_no_where_passes`).
A series with a `.` or a `-` in any of its tags is never passed. The
entries before the last one build filters too, so their patterns must
compile as well: every entry is a `\w` key with a non-empty list of `\w`
values (`WordEntry`).

The key and the values are words over `[A-Za-z0-9_]` (`WordString`); the
metric, when given, is read literally and holds no space (`MetricText`).
-/
import Akumuli.Query.LegacyBuilder
import Akumuli.Query.TagLanguage

namespace Akumuli.QP.Legacy

open Regex RE

/-! ## Characters -/

/-- `\w`: `[A-Za-z0-9_]`. -/
def isWordChar (c : Char) : Bool := c.isAlphanum || c = '_'

/-- A non-empty word of `\w` characters. -/
def WordString (s : String) : Prop := s.data ≠ [] ∧ ∀ c ∈ s.data, isWordChar c = true

instance (s : String) : Decidable (WordString s) := inferInstanceAs (Decidable (_ ∧ _))

/-- A tag whose key and value are `\w` words. -/
def WordTag (t : String × String) : Prop := WordString t.1 ∧ WordString t.2

/-- A metric the patterns read as itself: empty, when `\w+` stands in for
it, or read literally and free of spaces. -/
def MetricText (m : String) : Prop :=
  m.isEmpty = true ∨ (Literal m ∧ ∀ c ∈ m.data, isSpace c = false)

instance (m : String) : Decidable (MetricText m) := inferInstanceAs (Decidable (_ ∨ _))

theorem isPlainTagChar_of_isWordChar {c : Char} (h : isWordChar c = true) :
    isPlainTagChar c = true := by
  simp only [isWordChar, isPlainTagChar, Bool.or_eq_true] at h ⊢
  tauto

theorem isTagChar_of_isWordChar {c : Char} (h : isWordChar c = true) : isTagChar c = true :=
  isTagChar_of_isPlainTagChar (isPlainTagChar_of_isWordChar h)

theorem WordString.plain {s : String} (h : WordString s) : PlainTag s :=
  ⟨h.1, fun c hc => isPlainTagChar_of_isWordChar (h.2 c hc)⟩

theorem data_ne_nil_of_isEmpty {m : String} (h : m.isEmpty = false) : m.data ≠ [] := by
  rintro hm
  obtain ⟨cs⟩ := m
  subst hm
  exact absurd h (by decide)

/-! ## The expressions -/

/-- `\w`, as the reader makes it. -/
def wordClass : Atom := .set false [.escape .word false]

/-- `\w+`. -/
def wordCharsRE : RE := .cat (.atom wordClass) (.star (.atom wordClass))

/-- One tag of the legacy patterns, `\s\w+=\w+`, as the reader closes its
group. -/
def wordTagRE : RE :=
  Frame.close ⟨[], [wordCharsRE, .atom (.char '='), wordCharsRE, .atom spaceClass]⟩

/-- `(?:\s\w+=\w+)*`, and the capturing `(\s\w+=\w+)*`. -/
def wordTagsRE : RE := .star wordTagRE

/-- The metric part: `\w+` for an empty metric, the metric's characters
otherwise. -/
def metricTerms (metric : String) : List RE :=
  if metric.isEmpty then [wordCharsRE] else lits metric.data

/-- What follows the metric in one value's group: any tags, a space,
`tag=value`, any tags. -/
def tagTerms (tag value : String) : List RE :=
  [wordTagsRE, .atom spaceClass] ++ lits tag.data ++ [.atom (.char '=')] ++ lits value.data ++
    [wordTagsRE]

/-- The group one value of a where entry compiles to. -/
def valueGroup (metric tag value : String) : RE :=
  Frame.close ⟨[], (metricTerms metric ++ tagTerms tag value).reverse⟩

/-! ## Reading the pieces -/

theorem run_open (q : Nat) (fs : List Frame) :
    run ⟨.term q, fs⟩ "(".data = some ⟨.groupOpen, ⟨[], []⟩ :: fs⟩ := rfl

theorem run_wordTags_space (q : Nat) (f : Frame) (fs : List Frame) :
    run ⟨.term q, f :: fs⟩ "(?:\\s\\w+=\\w+)*\\s".data =
      some ⟨.term 0, ⟨f.alts, .atom spaceClass :: wordTagsRE :: f.seq⟩ :: fs⟩ := rfl

theorem run_wordTags_close (q : Nat) (f g : Frame) (fs : List Frame) :
    run ⟨.term q, f :: g :: fs⟩ "(?:\\s\\w+=\\w+)*)".data =
      some ⟨.term 0, ⟨g.alts, Frame.close ⟨f.alts, wordTagsRE :: f.seq⟩ :: g.seq⟩ :: fs⟩ := rfl

theorem run_equals (f : Frame) (fs : List Frame) :
    run ⟨.term 0, f :: fs⟩ "=".data = some ⟨.term 0, ⟨f.alts, .atom (.char '=') :: f.seq⟩ :: fs⟩ :=
  rfl

/-- A group opening followed by a character that is not `?` reads the
character as a term. -/
theorem run_groupOpen_cons {c : Char} (hc : c ≠ '?') (stack : List Frame) (cs : List Char) :
    run ⟨.groupOpen, stack⟩ (c :: cs) = run ⟨.term 0, stack⟩ (c :: cs) := by
  simp [run, step, hc]

/-- The metric, read right after the `(` of a value's group. -/
theorem run_metric {m : String} (hm : MetricText m) (fs : List Frame) :
    ∃ q, run ⟨.groupOpen, ⟨[], []⟩ :: fs⟩ (if m.isEmpty then "\\w+" else m).data =
      some ⟨.term q, ⟨[], (metricTerms m).reverse⟩ :: fs⟩ := by
  cases he : m.isEmpty
  · obtain ⟨c, cs, hcs⟩ := List.exists_cons_of_ne_nil (data_ne_nil_of_isEmpty he)
    have hlit : Literal m := (hm.resolve_left (by simp [he])).1
    have hq : c ≠ '?' := fun h => by
      have := hlit c (hcs ▸ List.mem_cons_self _ _)
      subst h
      exact absurd this (by decide)
    refine ⟨0, ?_⟩
    rw [if_neg (by simp), hcs, run_groupOpen_cons hq, ← hcs, run_literal hlit, metricTerms, if_neg (by simp [he]),
      List.append_nil]
  · exact ⟨1, by rw [if_pos rfl, metricTerms, if_pos he]; rfl⟩

/-- One value's text becomes one group term, `valueGroup`. -/
theorem run_valueRegexp {m tag value : String} (hm : MetricText m) (ht : Literal tag)
    (hv : Literal value) (q : Nat) (f : Frame) (fs : List Frame) :
    run ⟨.term q, f :: fs⟩ (valueRegexp (if m.isEmpty then "\\w+" else m) tag value).data =
      some ⟨.term 0, ⟨f.alts, valueGroup m tag value :: f.seq⟩ :: fs⟩ := by
  obtain ⟨q', hmetric⟩ := run_metric hm (f :: fs)
  simp only [valueRegexp, String.data_append, run_append]
  rw [run_open, Option.some_bind, hmetric, Option.some_bind, run_wordTags_space, Option.some_bind,
    run_literal ht, Option.some_bind, run_equals, Option.some_bind, run_literal hv, Option.some_bind,
    run_wordTags_close]
  simp [valueGroup, tagTerms, lits]

/-- The values after the first, each behind a `|`, add one alternative
each to the group. -/
theorem run_valuesRegexp {m tag : String} (hm : MetricText m) (ht : Literal tag) (fs : List Frame) :
    ∀ (vs : List String) (alts seq : List RE), (∀ v ∈ vs, Literal v) →
      ∃ f, run ⟨.term 0, ⟨alts, seq⟩ :: fs⟩
          (valuesRegexp (if m.isEmpty then "\\w+" else m) tag false vs).data = some ⟨.term 0, f :: fs⟩ ∧
        ∀ w, f.close.Lang w ↔
          (Frame.close ⟨alts, seq⟩).Lang w ∨ ∃ v ∈ vs, (valueGroup m tag v).Lang w
  | [], alts, seq, _ => ⟨⟨alts, seq⟩, rfl, fun w => by simp⟩
  | v :: vs, alts, seq, hvs => by
    obtain ⟨f, hrun, hlang⟩ := run_valuesRegexp hm ht fs vs (catList seq.reverse :: alts)
      [valueGroup m tag v] fun x hx => hvs x (List.mem_cons_of_mem _ hx)
    have hbar : run ⟨.term 0, ⟨alts, seq⟩ :: fs⟩ "|".data =
        some ⟨.term 0, ⟨catList seq.reverse :: alts, []⟩ :: fs⟩ := rfl
    refine ⟨f, ?_, fun w => ?_⟩
    · show run _ ("|" ++ valueRegexp _ tag v ++ valuesRegexp _ tag false vs).data = _
      rw [String.data_append, String.data_append, run_append, run_append, hbar, Option.some_bind,
        run_valueRegexp hm ht (hvs v (List.mem_cons_self _ _)), Option.some_bind]
      exact hrun
    · rw [hlang, lang_close, lang_close]
      simp only [List.reverse_cons, List.reverse_nil, List.nil_append, List.mem_cons,
        exists_eq_or_imp, lang_catList_cons, lang_catList_nil]
      constructor
      · rintro ((⟨u, _, rfl, hu, rfl⟩ | h | h) | h)
        exacts [.inr (.inl (by simpa using hu)), .inl (.inl h), .inl (.inr h), .inr (.inr h)]
      · rintro ((h | h) | h | h)
        exacts [.inl (.inr (.inl h)), .inl (.inr (.inr h)),
          .inl (.inl ⟨w, [], by simp, h, rfl⟩), .inr h]

/-- The pattern of a where entry with at least one value compiles to the
alternatives of its values. -/
theorem compile_itemRegexp {m tag : String} (hm : MetricText m) (ht : Literal tag)
    {values : List String} (hvs : ∀ v ∈ values, Literal v) (hne : values ≠ []) :
    ∃ r, compile (itemRegexp (if m.isEmpty then "\\w+" else m) tag values) = some r ∧
      ∀ w, r.Lang w ↔ ∃ v ∈ values, (valueGroup m tag v).Lang w := by
  obtain ⟨v, vs, rfl⟩ := List.exists_cons_of_ne_nil hne
  obtain ⟨f, hrun, hlang⟩ := run_valuesRegexp hm ht [⟨[], []⟩] vs [] [valueGroup m tag v]
    fun x hx => hvs x (List.mem_cons_of_mem _ hx)
  refine ⟨Frame.close ⟨[], [f.close]⟩, ?_, fun w => ?_⟩
  · have hopen : run start "(?:".data = some ⟨.term 0, [⟨[], []⟩, ⟨[], []⟩]⟩ := rfl
    have hclose : run ⟨.term 0, [f, ⟨[], []⟩]⟩ ")".data = some ⟨.term 0, [⟨[], [f.close]⟩]⟩ := rfl
    show (run start ("(?:" ++ valueRegexp _ tag v ++ valuesRegexp _ tag false vs ++ ")").data).bind
      finish = _
    rw [String.data_append, String.data_append, String.data_append, run_append, run_append,
      run_append, hopen, Option.some_bind, run_valueRegexp hm ht (hvs v (List.mem_cons_self _ _)),
      Option.some_bind, hrun, Option.some_bind, hclose]
    rfl
  · have hone : ∀ r : RE, (Frame.close ⟨[], [r]⟩).Lang w ↔ r.Lang w := fun r => by
      simp [lang_close, lang_catList_cons]
    rw [hone, hlang, hone]
    simp

/-- The pattern without a where object: the metric, then any `\w` tags. -/
theorem compile_metricRegexp {m : String} (hm : MetricText m) :
    ∃ r, compile ((if m.isEmpty then "\\w+" else m) ++ "(\\s\\w+=\\w+)*") = some r ∧
      ∀ w, r.Lang w ↔ (catList (metricTerms m ++ [wordTagsRE])).Lang w := by
  have htags : ∀ q (f : Frame), run ⟨.term q, [f]⟩ "(\\s\\w+=\\w+)*".data =
      some ⟨.term 1, [⟨f.alts, wordTagsRE :: f.seq⟩]⟩ := fun _ _ => rfl
  obtain ⟨q, hmetric⟩ : ∃ q, run start (if m.isEmpty then "\\w+" else m).data =
      some ⟨.term q, [⟨[], (metricTerms m).reverse⟩]⟩ := by
    cases he : m.isEmpty
    · have hlit : Literal m := (hm.resolve_left (by simp [he])).1
      exact ⟨0, by rw [if_neg (by simp), start, run_literal hlit, metricTerms, if_neg (by simp [he]),
        List.append_nil]⟩
    · exact ⟨1, by rw [if_pos rfl, metricTerms, if_pos he]; rfl⟩
  refine ⟨Frame.close ⟨[], wordTagsRE :: (metricTerms m).reverse⟩, ?_, fun w => ?_⟩
  · rw [compile, String.data_append, run_append, hmetric, Option.some_bind, htags]
    rfl
  · simp [lang_close]

/-! ## The languages of the pieces -/

@[simp] theorem wordClass_test (c : Char) : wordClass.test c = isWordChar c := by
  simp [wordClass, Atom.test, Item.test, ClassEscape.test, isWordChar]

/-- `a+` for a one-character expression `a`. -/
theorem lang_plus_atom (a : Atom) (w : List Char) :
    (cat (atom a) (star (atom a))).Lang w ↔ w ≠ [] ∧ ∀ c ∈ w, a.test c = true := by
  simp only [lang_cat, lang_atom, lang_star_atom]
  constructor
  · rintro ⟨_, v, rfl, ⟨c, rfl, hc⟩, hv⟩
    exact ⟨by simp, by simpa [hc] using hv⟩
  · rintro ⟨hne, h⟩
    obtain ⟨c, v, rfl⟩ := List.exists_cons_of_ne_nil hne
    exact ⟨[c], v, rfl, ⟨c, rfl, h c (List.mem_cons_self _ _)⟩,
      fun d hd => h d (List.mem_cons_of_mem _ hd)⟩

theorem lang_wordCharsRE (w : List Char) :
    wordCharsRE.Lang w ↔ w ≠ [] ∧ ∀ c ∈ w, isWordChar c = true := by
  rw [wordCharsRE, lang_plus_atom]
  simp

/-- A space, then `key=value` with the key and the value words of `r`. -/
theorem lang_tagGroup (r : RE) (w : List Char) :
    (Frame.close ⟨[], [r, .atom (.char '='), r, .atom spaceClass]⟩).Lang w ↔
      ∃ s k v, w = s :: (k ++ '=' :: v) ∧ isSpace s = true ∧ r.Lang k ∧ r.Lang v := by
  simp only [lang_close, List.reverse_cons, List.reverse_nil, List.nil_append, List.cons_append,
    List.not_mem_nil, false_and, exists_false, or_false, lang_catList_cons, lang_catList_nil,
    lang_atom, spaceClass_test, Atom.test_char]
  constructor
  · rintro ⟨_, _, rfl, ⟨s, rfl, hs⟩, k, _, rfl, hk, _, _, rfl, ⟨_, rfl, he⟩, v, _, rfl, hv, rfl⟩
    simp only [decide_eq_true_eq] at he
    exact ⟨s, k, v, by simp [he], hs, hk, hv⟩
  · rintro ⟨s, k, v, rfl, hs, hk, hv⟩
    exact ⟨[s], _, rfl, ⟨s, rfl, hs⟩, k, _, rfl, hk, ['='], _, rfl, ⟨'=', rfl, by simp⟩, v, [],
      by simp, hv, rfl⟩

/-- Every word of `(?:\s\w+=\w+)*` is a word of `(?:\s[\w\.\-]+=[\w\.\-]+)*`. -/
theorem wordTags_anyTags {w : List Char} (h : wordTagsRE.Lang w) : anyTagsRE.Lang w := by
  obtain ⟨ws, rfl, hws⟩ := h
  refine ⟨ws, rfl, fun x hx => ?_⟩
  obtain ⟨s, k, v, rfl, hs, hk, hv⟩ := (lang_tagGroup _ x).1 (hws x hx)
  have hsub : ∀ {u}, wordCharsRE.Lang u → tagCharsRE.Lang u := fun hu => by
    simp only [tagCharsRE, lang_plus_atom, tagCharClass_test]
    rw [lang_wordCharsRE] at hu
    exact ⟨hu.1, fun c hc => isTagChar_of_isWordChar (hu.2 c hc)⟩
  exact (lang_tagGroup _ _).2 ⟨s, k, v, rfl, hs, hsub hk, hsub hv⟩

/-- The characters of a word of `(?:\s\w+=\w+)*`: spaces, `=` and `\w`. -/
theorem wordTags_chars {w : List Char} (h : wordTagsRE.Lang w) :
    ∀ c ∈ w, isSpace c = true ∨ c = '=' ∨ isWordChar c = true := by
  obtain ⟨ws, rfl, hws⟩ := h
  intro c hc
  obtain ⟨x, hx, hcx⟩ := List.mem_flatten.1 hc
  obtain ⟨s, k, v, rfl, hs, hk, hv⟩ := (lang_tagGroup _ x).1 (hws x hx)
  rw [lang_wordCharsRE] at hk hv
  simp only [List.mem_cons, List.mem_append] at hcx
  rcases hcx with rfl | hc | rfl | hc
  exacts [.inl hs, .inr (.inr (hk.2 c hc)), .inr (.inl rfl), .inr (.inr (hv.2 c hc))]

/-- The text of `\w` tags is a word of `(?:\s\w+=\w+)*`. -/
theorem lang_wordTags_tagsText {ts : List (String × String)} (hts : ∀ t ∈ ts, WordTag t) :
    wordTagsRE.Lang (tagsText ts) :=
  ⟨ts.map tagText, rfl, fun x hx => by
    obtain ⟨t, ht, rfl⟩ := List.mem_map.1 hx
    obtain ⟨⟨hk, hk'⟩, ⟨hv, hv'⟩⟩ := hts t ht
    exact (lang_tagGroup _ _).2 ⟨' ', t.1.data, t.2.data, rfl, rfl,
      (lang_wordCharsRE _).2 ⟨hk, hk'⟩, (lang_wordCharsRE _).2 ⟨hv, hv'⟩⟩⟩

theorem mem_tagsText {ts : List (String × String)} {t : String × String} (ht : t ∈ ts) {c : Char}
    (hc : c ∈ t.1.data ∨ c ∈ t.2.data) : c ∈ tagsText ts :=
  List.mem_flatten.2 ⟨tagText t, List.mem_map_of_mem _ ht, by
    rcases hc with hc | hc <;> simp [tagText, hc]⟩

/-- Canonical tags whose text has no character but spaces, `=` and `\w`
are `\w` words. -/
theorem wordTag_of_chars {ts : List (String × String)} (hts : ∀ t ∈ ts, CanonicalTag t)
    (h : ∀ c ∈ tagsText ts, isSpace c = true ∨ c = '=' ∨ isWordChar c = true) :
    ∀ t ∈ ts, WordTag t := by
  intro t ht
  obtain ⟨hk, hv, hkc, hvc⟩ := hts t ht
  have hword : ∀ c, isTagChar c = true → c ∈ tagsText ts → isWordChar c = true := fun c htc hc => by
    rcases h c hc with hs | rfl | hw
    · simp [isSpace_of_isTagChar htc] at hs
    · exact absurd htc (by decide)
    · exact hw
  exact ⟨⟨hk, fun c hc => hword c (hkc c hc) (mem_tagsText ht (.inl hc))⟩,
    ⟨hv, fun c hc => hword c (hvc c hc) (mem_tagsText ht (.inr hc))⟩⟩

/-! ## Names -/

/-- What the metric part asks of a series: the metric `m`, or a `\w` word
for an empty `m`. -/
def MetricMatches (m : String) (n : SeriesName) : Prop :=
  if m.isEmpty then WordString n.metric else n.metric = m

/-- What the filter of a where entry `tag: values` asks of a series. -/
def EntryMatches (m tag : String) (values : List String) (n : SeriesName) : Prop :=
  MetricMatches m n ∧ (∀ t ∈ n.tags, WordTag t) ∧ ∃ v ∈ values, (tag, v) ∈ n.tags

theorem lang_metricTerms {m : String} (w : List Char) :
    (catList (metricTerms m)).Lang w ↔ if m.isEmpty then w ≠ [] ∧ ∀ c ∈ w, isWordChar c = true
      else w = m.data := by
  unfold metricTerms
  split_ifs
  · simp [lang_catList_cons, lang_wordCharsRE]
  · exact lang_lits _ _

/-- A canonical name splits after its metric token, whatever the metric
part matched. -/
theorem metric_align {m : String} (hm : MetricText m) (n : SeriesName) {mw x : List Char}
    (heq : n.render.data = mw ++ x) (hmw : (catList (metricTerms m)).Lang mw) (hx : Led isSpace x) :
    MetricMatches m n ∧ x = tagsText n.tags := by
  have hspace : ∀ c ∈ mw, isSpace c = false := by
    rw [lang_metricTerms] at hmw
    split_ifs at hmw with he
    · exact fun c hc => isSpace_of_isTagChar (isTagChar_of_isWordChar (hmw.2 c hc))
    · exact hmw ▸ (hm.resolve_left (by simp [he])).2
  obtain ⟨hmetric, hx'⟩ := append_cancel_of_led heq.symm hspace n.metric_token hx
    (led_tagsText n.tags)
  refine ⟨?_, hx'⟩
  rw [lang_metricTerms, hmetric] at hmw
  unfold MetricMatches
  split_ifs at hmw ⊢
  · exact hmw
  · exact String.ext hmw

theorem metricTerms_of_matches {m : String} {n : SeriesName} (h : MetricMatches m n) :
    (catList (metricTerms m)).Lang n.metric.data := by
  rw [lang_metricTerms]
  unfold MetricMatches at h
  split_ifs at h ⊢
  · exact h
  · rw [h]

/-- The words of what follows the metric. -/
theorem lang_tagTerms (tag value : String) (w : List Char) :
    (catList (tagTerms tag value)).Lang w ↔
      ∃ x s z, w = x ++ s :: (tag.data ++ '=' :: (value.data ++ z)) ∧ wordTagsRE.Lang x ∧
        isSpace s = true ∧ wordTagsRE.Lang z := by
  simp only [tagTerms, List.append_assoc, List.cons_append, List.nil_append, lang_catList_cons,
    lang_catList_append, lang_lits, lang_catList_nil, lang_atom, spaceClass_test, Atom.test_char,
    decide_eq_true_eq]
  constructor
  · rintro ⟨x, _, rfl, hx, _, _, rfl, ⟨s, rfl, hs⟩, _, _, rfl, rfl, _, _, rfl, ⟨_, rfl, rfl⟩, _, _,
      rfl, rfl, z, _, rfl, hz, rfl⟩
    exact ⟨x, s, z, by simp, hx, hs, hz⟩
  · rintro ⟨x, s, z, rfl, hx, hs, hz⟩
    exact ⟨x, _, rfl, hx, [s], _, rfl, ⟨s, rfl, hs⟩, tag.data, _, rfl, rfl, ['='], _, rfl,
      ⟨'=', rfl, rfl⟩, value.data, _, rfl, rfl, z, [], by simp, hz, rfl⟩

theorem lang_valueGroup (m tag value : String) (w : List Char) :
    (valueGroup m tag value).Lang w ↔ (catList (metricTerms m ++ tagTerms tag value)).Lang w := by
  simp [valueGroup, lang_close]

/-- A canonical name matches one value's group exactly when its metric
matches, all its tags are `\w` words, and `tag=value` is one of them. -/
theorem render_valueGroup_iff {m tag value : String} (hm : MetricText m) (ht : WordString tag)
    (hv : WordString value) (n : SeriesName) :
    (valueGroup m tag value).Lang n.render.data ↔
      MetricMatches m n ∧ (∀ t ∈ n.tags, WordTag t) ∧ (tag, value) ∈ n.tags := by
  rw [lang_valueGroup, lang_catList_append]
  constructor
  · rintro ⟨mw, w, heq, hmw, hw⟩
    obtain ⟨x, s, z, rfl, hx, hs, hz⟩ := (lang_tagTerms _ _ _).1 hw
    obtain ⟨hmetric, htags⟩ := metric_align hm n heq hmw
      (led_append (led_anyTags (wordTags_anyTags hx)) hs)
    have hfilter : FilterLang (tag, [value]) (tagsText n.tags) :=
      ⟨value, List.mem_singleton_self _, htags ▸ (lang_valueTerms _ _ _).2
        ⟨x, s, z, rfl, wordTags_anyTags hx, hs, wordTags_anyTags hz⟩⟩
    obtain ⟨v, hv', hmem⟩ := (@filterLang_tagsText_iff n.tags n.tags_canonical (tag, [value])
      ht.plain fun v hv' => (List.mem_singleton.1 hv') ▸ hv.plain).1 hfilter
    have hvv : v = value := by simpa using hv'
    refine ⟨hmetric, wordTag_of_chars n.tags_canonical fun c hc => ?_, hvv ▸ hmem⟩
    rw [← htags] at hc
    simp only [List.mem_append, List.mem_cons] at hc
    rcases hc with hc | rfl | hc | rfl | hc | hc
    exacts [wordTags_chars hx c hc, .inl hs, .inr (.inr (ht.2 c hc)), .inr (.inl rfl),
      .inr (.inr (hv.2 c hc)), wordTags_chars hz c hc]
  · rintro ⟨hmetric, hword, hmem⟩
    obtain ⟨pre, post, htags⟩ := List.append_of_mem hmem
    refine ⟨n.metric.data, tagsText n.tags, rfl, metricTerms_of_matches hmetric,
      (lang_tagTerms _ _ _).2 ⟨tagsText pre, ' ', tagsText post, ?_,
        lang_wordTags_tagsText fun t ht => hword t (by simp [htags, ht]), rfl,
        lang_wordTags_tagsText fun t ht => hword t (by simp [htags, ht])⟩⟩
    simp [htags, tagsText_append, tagsText_cons, tagText]

/-- A canonical name matches the pattern without a where object exactly
when its metric matches and all its tags are `\w` words. -/
theorem render_metricRegexp_iff {m : String} (hm : MetricText m) (n : SeriesName) :
    (catList (metricTerms m ++ [wordTagsRE])).Lang n.render.data ↔
      MetricMatches m n ∧ ∀ t ∈ n.tags, WordTag t := by
  rw [lang_catList_append]
  constructor
  · rintro ⟨mw, x, heq, hmw, hx⟩
    have hx : wordTagsRE.Lang x := by simpa [lang_catList_cons] using hx
    obtain ⟨hmetric, rfl⟩ := metric_align hm n heq hmw (led_anyTags (wordTags_anyTags hx))
    exact ⟨hmetric, wordTag_of_chars n.tags_canonical (wordTags_chars hx)⟩
  · rintro ⟨hmetric, hword⟩
    exact ⟨n.metric.data, tagsText n.tags, rfl, metricTerms_of_matches hmetric,
      by simpa [lang_catList_cons] using lang_wordTags_tagsText hword⟩

/-! ## The filter the builder installs -/

theorem fullMatchSem_iff {pattern : String} {r : RE} (h : compile pattern = some r) (name : String) :
    fullMatchSem pattern name = true ↔ r.Lang name.data := by
  simp [fullMatchSem, regexMatch, h, fullMatch_iff]

theorem fullMatchRegex_error {pattern : String} {r : RE} (h : compile pattern = some r) :
    fullMatchRegex.error pattern = none := by
  simp [fullMatchRegex, h]

/-- A filter made on the catalog's pool for a pattern whose language, on
canonical names, is `P`: it holds the ids of the series with `P` and
answers `PROCESS` for them. -/
theorem create_passes (cat : Catalog) {pattern : String} {r : RE} (hc : compile pattern = some r)
    {P : SeriesName → Prop} (hP : ∀ n : SeriesName, r.Lang n.render.data ↔ P n) (id : Nat) :
    (id ∈ (RegexFilter.create fullMatchSem pattern cat.matcher.pool).ids ↔
        ∃ s ∈ cat.series, s.2 = id ∧ P s.1) ∧
      (((RegexFilter.create fullMatchSem pattern cat.matcher.pool).apply fullMatchSem
        cat.matcher.pool id).1 = .PROCESS ↔ ∃ s ∈ cat.series, s.2 = id ∧ P s.1) := by
  have hentries : (∃ e ∈ cat.matcher.pool.entries, fullMatchSem pattern e.name ∧ e.id = id) ↔
      ∃ s ∈ cat.series, s.2 = id ∧ P s.1 := by
    simp only [Catalog.matcher, List.mem_map]
    constructor
    · rintro ⟨_, ⟨s, hs, rfl⟩, hp, rfl⟩
      exact ⟨s, hs, rfl, (hP s.1).1 ((fullMatchSem_iff hc _).1 hp)⟩
    · rintro ⟨s, hs, rfl, hp⟩
      exact ⟨_, ⟨s, hs, rfl⟩, (fullMatchSem_iff hc _).2 ((hP s.1).2 hp), rfl⟩
  have hsynced := @RegexFilter.synced_create fullMatchSem pattern cat.matcher.pool
  have hoff : (RegexFilter.create fullMatchSem pattern cat.matcher.pool).offset =
      cat.matcher.pool.size := rfl
  refine ⟨?_, ?_⟩
  · rw [hsynced.matched id, hoff, StringPool.size, List.take_length, ← hentries]
    rfl
  · rw [(hsynced.apply id).1, RegexFilter.rescan, ← hentries]
    simp only [RegexFilter.create, RegexFilter.refresh_regex]
    split_ifs with h <;> simp [h]

/-- The pattern of a where entry with at least one value: the canonical
names it matches are those `EntryMatches` describes. -/
theorem compile_itemRegexp_names {m tag : String} (hm : MetricText m) (htag : WordString tag)
    {values : List String} (hvals : ∀ v ∈ values, WordString v) (hne : values ≠ []) :
    ∃ r, compile (itemRegexp (if m.isEmpty then "\\w+" else m) tag values) = some r ∧
      ∀ n : SeriesName, r.Lang n.render.data ↔ EntryMatches m tag values n := by
  obtain ⟨r, hc, hr⟩ := compile_itemRegexp hm (WordString.plain htag).literal
    (fun v hv => (hvals v hv).plain.literal) hne
  refine ⟨r, hc, fun n => ?_⟩
  rw [hr]
  constructor
  · rintro ⟨v, hv, hlang⟩
    obtain ⟨hmetric, hword, hmem⟩ := (render_valueGroup_iff hm htag (hvals v hv) n).1 hlang
    exact ⟨hmetric, hword, v, hv, hmem⟩
  · rintro ⟨hmetric, hword, v, hv, hmem⟩
    exact ⟨v, hv, (render_valueGroup_iff hm htag (hvals v hv) n).2 ⟨hmetric, hword, hmem⟩⟩

/-- The pattern without a where object: the canonical names it matches
are those whose metric matches and whose tags are `\w` words. -/
theorem compile_metricRegexp_names {m : String} (hm : MetricText m) :
    ∃ r, compile ((if m.isEmpty then "\\w+" else m) ++ "(\\s\\w+=\\w+)*") = some r ∧
      ∀ n : SeriesName, r.Lang n.render.data ↔ MetricMatches m n ∧ ∀ t ∈ n.tags, WordTag t := by
  obtain ⟨r, hc, hr⟩ := compile_metricRegexp hm
  exact ⟨r, hc, fun n => by rw [hr, render_metricRegexp_iff hm n]⟩

/-- A where entry the legacy patterns read: a `\w` key and a non-empty
list of `\w` values. -/
def WordEntry (item : String × PTree) : Prop :=
  WordString item.1 ∧ item.2.children.map (·.2.data) ≠ [] ∧
    ∀ v ∈ item.2.children.map (·.2.data), WordString v

instance : DecidablePred WordEntry := fun _ => inferInstanceAs (Decidable (_ ∧ _ ∧ _))

/-- The pattern of a `\w` entry compiles, to the language `EntryMatches`
describes on canonical names. -/
theorem compile_entryRegexp_names {m : String} (hm : MetricText m) {item : String × PTree}
    (h : WordEntry item) :
    ∃ r, compile (entryRegexp (if m.isEmpty then "\\w+" else m) item) = some r ∧
      ∀ n : SeriesName, r.Lang n.render.data ↔
        EntryMatches m item.1 (item.2.children.map (·.2.data)) n :=
  compile_itemRegexp_names hm h.1 h.2.2 h.2.1

/-- With `\w` entries, the where clause installs the filter of its last
entry. -/
theorem parseWhereClause_wordEntries {ptree where_ : PTree} {m : String} (pool : StringPool)
    (hwhere : ptree.getChildOptional "where" = some where_)
    (hentries : ∀ item ∈ where_.children, WordEntry item) (hm : MetricText m) :
    parseWhereClause fullMatchRegex ptree m pool =
      .ok (where_.children.getLast?.map fun item =>
        RegexFilter.create fullMatchSem (entryRegexp (if m.isEmpty then "\\w+" else m) item) pool) :=
  parseWhereClause_eq_last fullMatchRegex m pool hwhere fun item hi => by
    obtain ⟨r, hc, -⟩ := compile_entryRegexp_names hm (hentries item hi)
    exact fullMatchRegex_error hc

end Akumuli.QP.Legacy
