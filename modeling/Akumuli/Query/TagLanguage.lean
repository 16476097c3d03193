/-
Akumuli.Query.TagLanguage — which canonical names the where-clause
expressions match.

A canonical name is its metric token followed by ` key=value` per tag
(`tagsText`). The facts that make the matching exact are two splitting
lemmas. First, a word of `anyTagsRE` that is followed by a space (or by
nothing) inside a tag text ends at a tag boundary (`anyTags_align`).
Second, two splits of a word before a character class that neither left
part contains are equal (`append_cancel_of_led`), which pins the metric
token and each key and value. From them: a value term of a filter matches
a run of tags exactly when one of them is `key=value`
(`filterLang_tagsText_iff`). The filters, in strictly increasing key
order, match the sorted tags of a name exactly when each finds its tag
(`filtersLang_tagsText_iff`). The metric part is the name's metric token
(`render_metricTags_iff`).

The keys and values of the filters are plain (`PlainTag`): letters,
digits, `_` and `-`, the tag characters that the pattern reads literally.
A `.` would be the regex wildcard.
-/
import Akumuli.Query.WherePatterns

namespace Akumuli.QP

open Regex RE

/-! ## Characters -/

/-- The characters of a plain key or value: `[A-Za-z0-9_-]`. -/
def isPlainTagChar (c : Char) : Bool := c.isAlphanum || c = '_' || c = '-'

/-- A non-empty string of plain tag characters. -/
def PlainTag (s : String) : Prop := s.data ≠ [] ∧ ∀ c ∈ s.data, isPlainTagChar c = true

instance (s : String) : Decidable (PlainTag s) := inferInstanceAs (Decidable (_ ∧ _))

theorem isAlphanum_of_isSyntaxChar {c : Char} (h : isSyntaxChar c = true) :
    c.isAlphanum = false := by
  simp only [isSyntaxChar, Bool.or_eq_true, decide_eq_true_eq, or_assoc] at h
  rcases h with h | h | h | h | h | h | h | h | h | h | h | h | h | h <;>
    first | (subst h; decide) | (rw [← Char.ofNat_toNat c, h]; decide)

theorem isTagChar_of_isPlainTagChar {c : Char} (h : isPlainTagChar c = true) :
    isTagChar c = true := by
  simp only [isPlainTagChar, isTagChar, Bool.or_eq_true] at h ⊢
  tauto

theorem isLiteral_of_isPlainTagChar {c : Char} (h : isPlainTagChar c = true) :
    isLiteral c = true := by
  cases hs : isSyntaxChar c
  · simp [isLiteral, hs]
  · have ha := isAlphanum_of_isSyntaxChar hs
    simp only [isPlainTagChar, ha, Bool.false_or, Bool.or_eq_true, decide_eq_true_eq] at h
    rcases h with rfl | rfl <;> exact absurd hs (by decide)

theorem PlainTag.literal {s : String} (h : PlainTag s) : Literal s :=
  fun c hc => isLiteral_of_isPlainTagChar (h.2 c hc)

/-! ## Splitting words -/

/-- The word is empty or starts with a character `p` accepts. -/
def Led (p : Char → Bool) : List Char → Prop
  | [] => True
  | c :: _ => p c = true

theorem led_append {p : Char → Bool} {u v : List Char} (hu : Led p u) (hv : Led p v) :
    Led p (u ++ v) := by
  cases u <;> simp_all [Led]

/-- Two splits of one word, each after a part with no character `p`
accepts and before a `p`-led rest, are the same split. -/
theorem append_cancel_of_led {p : Char → Bool} : ∀ {a b u v : List Char}, a ++ u = b ++ v →
    (∀ x ∈ a, p x = false) → (∀ x ∈ b, p x = false) → Led p u → Led p v → a = b ∧ u = v
  | [], [], _, _, h, _, _, _, _ => ⟨rfl, h⟩
  | [], x :: b, _, _, h, _, hb, hu, _ => by
    subst h; simp [Led, hb x (List.mem_cons_self _ _)] at hu
  | x :: a, [], _, _, h, ha, _, _, hv => by
    subst h; simp [Led, ha x (List.mem_cons_self _ _)] at hv
  | x :: a, y :: b, u, v, h, ha, hb, hu, hv => by
    simp only [List.cons_append, List.cons.injEq] at h
    obtain ⟨rfl, h⟩ := h
    obtain ⟨rfl, rfl⟩ := append_cancel_of_led h (fun z hz => ha z (List.mem_cons_of_mem _ hz))
      (fun z hz => hb z (List.mem_cons_of_mem _ hz)) hu hv
    exact ⟨rfl, rfl⟩

/-! ## The languages of the pieces -/

@[simp] theorem tagCharClass_test (c : Char) : tagCharClass.test c = isTagChar c := by
  simp only [tagCharClass, Atom.test, List.any_cons, Item.test, ClassEscape.test, List.any_nil,
    Bool.or_false, isTagChar]
  cases c.isAlphanum <;> by_cases h1 : c = '-' <;> by_cases h2 : c = '.' <;>
    by_cases h3 : c = '_' <;> simp_all

@[simp] theorem spaceClass_test (c : Char) : spaceClass.test c = isSpace c := by
  simp [spaceClass, Atom.test, Item.test, ClassEscape.test]

theorem lang_star_atom (a : Atom) (w : List Char) :
    (star (atom a)).Lang w ↔ ∀ c ∈ w, a.test c = true := by
  constructor
  · rintro ⟨ws, rfl, hws⟩ c hc
    obtain ⟨x, hx, hcx⟩ := List.mem_flatten.mp hc
    obtain ⟨d, rfl, hd⟩ := hws x hx
    rwa [List.mem_singleton.mp hcx]
  · induction w with
    | nil => exact fun _ => lang_star_nil _
    | cons c w ih =>
      intro h
      exact lang_star_append (u := [c]) ⟨c, rfl, h c (List.mem_cons_self _ _)⟩
        (ih fun d hd => h d (List.mem_cons_of_mem _ hd))

theorem lang_tagCharsRE (w : List Char) :
    tagCharsRE.Lang w ↔ w ≠ [] ∧ ∀ c ∈ w, isTagChar c = true := by
  simp only [tagCharsRE, lang_cat, lang_atom, lang_star_atom, tagCharClass_test]
  constructor
  · rintro ⟨_, v, rfl, ⟨c, rfl, hc⟩, hv⟩
    exact ⟨by simp, by simpa [hc] using hv⟩
  · rintro ⟨hne, h⟩
    obtain ⟨c, v, rfl⟩ := List.exists_cons_of_ne_nil hne
    exact ⟨[c], v, rfl, ⟨c, rfl, h c (List.mem_cons_self _ _)⟩,
      fun d hd => h d (List.mem_cons_of_mem _ hd)⟩

/-- A word of one tag: a space, then the text of a canonical tag. -/
theorem lang_oneTagRE (w : List Char) :
    oneTagRE.Lang w ↔
      ∃ s t, w = s :: (t.1.data ++ '=' :: t.2.data) ∧ isSpace s = true ∧ CanonicalTag t := by
  simp only [oneTagRE, lang_close, List.reverse_cons, List.reverse_nil, List.nil_append,
    List.cons_append, List.not_mem_nil, false_and, exists_false, or_false, lang_catList_cons,
    lang_catList_nil, lang_atom, spaceClass_test, Atom.test_char, lang_tagCharsRE, CanonicalTag]
  constructor
  · rintro ⟨_, _, rfl, ⟨s, rfl, hs⟩, a, _, rfl, ⟨ha, hac⟩, _, _, rfl, ⟨_, rfl, he⟩, b, _, rfl,
      ⟨hb, hbc⟩, rfl⟩
    refine ⟨s, (⟨a⟩, ⟨b⟩), ?_, hs, ha, hb, hac, hbc⟩
    simp only [decide_eq_true_eq] at he
    simp [he]
  · rintro ⟨s, t, rfl, hs, ha, hb, hac, hbc⟩
    exact ⟨[s], _, rfl, ⟨s, rfl, hs⟩, t.1.data, _, rfl, ⟨ha, hac⟩, ['='], _, rfl, ⟨'=', rfl, by simp⟩,
      t.2.data, [], by simp, ⟨hb, hbc⟩, rfl⟩

theorem lang_star_append_star {r : RE} {u v : List Char} (hu : (star r).Lang u)
    (hv : (star r).Lang v) : (star r).Lang (u ++ v) := by
  obtain ⟨us, rfl, hus⟩ := hu
  obtain ⟨vs, rfl, hvs⟩ := hv
  exact ⟨us ++ vs, by simp, fun x hx => (List.mem_append.mp hx).elim (hus x) (hvs x)⟩

/-- The text of a canonical tag is a word of one tag. -/
theorem lang_oneTagRE_tagText {t : String × String} (ht : CanonicalTag t) :
    oneTagRE.Lang (tagText t) :=
  (lang_oneTagRE _).2 ⟨' ', t, rfl, rfl, ht⟩

/-- The text of canonical tags is a word of `anyTagsRE`. -/
theorem lang_anyTags_tagsText {ts : List (String × String)} (hts : ∀ t ∈ ts, CanonicalTag t) :
    anyTagsRE.Lang (tagsText ts) :=
  ⟨ts.map tagText, rfl, fun x hx => by
    obtain ⟨t, ht, rfl⟩ := List.mem_map.mp hx
    exact lang_oneTagRE_tagText (hts t ht)⟩

theorem led_anyTags {w : List Char} (hw : anyTagsRE.Lang w) : Led isSpace w := by
  obtain ⟨ws, rfl, hws⟩ := hw
  induction ws with
  | nil => trivial
  | cons x ws ih =>
    obtain ⟨s, t, rfl, hs, -⟩ := (lang_oneTagRE x).1 (hws x (List.mem_cons_self _ _))
    exact hs

theorem led_tagsText (ts : List (String × String)) : Led isSpace (tagsText ts) := by
  cases ts <;> simp [tagsText, tagText, Led, isSpace]

theorem tagsText_cons (t : String × String) (ts : List (String × String)) :
    tagsText (t :: ts) = tagText t ++ tagsText ts := rfl

/-- A word of `anyTagsRE` at the start of a tag text, followed by a space
or by nothing, ends at a tag boundary. -/
theorem anyTags_align {x : List Char} (hx : anyTagsRE.Lang x) :
    ∀ {ts : List (String × String)} {y : List Char}, (∀ t ∈ ts, CanonicalTag t) →
      x ++ y = tagsText ts → Led isSpace y →
      ∃ i, x = tagsText (ts.take i) ∧ y = tagsText (ts.drop i) := by
  obtain ⟨ws, rfl, hws⟩ := hx
  induction ws with
  | nil => exact fun _ hxy _ => ⟨0, rfl, hxy⟩
  | cons w ws ih =>
    intro ts y hts hxy hy
    obtain ⟨s, t, rfl, hs, ht⟩ := (lang_oneTagRE w).1 (hws w (List.mem_cons_self _ _))
    have hws' : anyTagsRE.Lang ws.flatten := ⟨ws, rfl, fun x hx => hws x (List.mem_cons_of_mem _ hx)⟩
    cases ts with
    | nil => simp [tagsText] at hxy
    | cons t' ts =>
      have ht' := hts t' (List.mem_cons_self _ _)
      simp only [List.flatten_cons, tagsText_cons, tagText, List.cons_append, List.append_assoc,
        List.cons.injEq] at hxy
      obtain ⟨rfl, hxy⟩ := hxy
      obtain ⟨hk, hxy⟩ := append_cancel_of_led (p := (· == '=')) hxy
        (fun c hc => ne_eq_of_isTagChar (ht.2.2.1 c hc))
        (fun c hc => ne_eq_of_isTagChar (ht'.2.2.1 c hc)) (by simp [Led]) (by simp [Led])
      obtain ⟨hv, hxy⟩ := append_cancel_of_led (p := isSpace) (List.cons.inj hxy).2
        (fun c hc => isSpace_of_isTagChar (ht.2.2.2 c hc))
        (fun c hc => isSpace_of_isTagChar (ht'.2.2.2 c hc))
        (led_append (led_anyTags hws') hy) (led_tagsText ts)
      obtain ⟨i, hi, rfl⟩ := ih (fun x hx => hws x (List.mem_cons_of_mem _ hx))
        (fun x hx => hts x (List.mem_cons_of_mem _ hx)) hxy hy
      refine ⟨i + 1, ?_, rfl⟩
      simp [tagsText_cons, tagText, hk, hv, hi]

theorem tagsText_append (a b : List (String × String)) :
    tagsText (a ++ b) = tagsText a ++ tagsText b := by
  simp [tagsText]

/-! ## The filters -/

/-- The words of one value term: any tags, a space, `key=val`, any tags. -/
theorem lang_valueTerms (key val : String) (w : List Char) :
    (catList (valueTerms key val)).Lang w ↔
      ∃ x s z, w = x ++ s :: (key.data ++ '=' :: (val.data ++ z)) ∧ anyTagsRE.Lang x ∧
        isSpace s = true ∧ anyTagsRE.Lang z := by
  simp only [valueTerms, List.append_assoc, List.cons_append, List.nil_append, lang_catList_cons,
    lang_catList_append, lang_lits, lang_catList_nil, lang_atom, spaceClass_test, Atom.test_char,
    decide_eq_true_eq]
  constructor
  · rintro ⟨x, _, rfl, hx, _, _, rfl, ⟨s, rfl, hs⟩, _, _, rfl, rfl, _, _, rfl, ⟨_, rfl, rfl⟩, _, _,
      rfl, rfl, z, _, rfl, hz, rfl⟩
    exact ⟨x, s, z, by simp, hx, hs, hz⟩
  · rintro ⟨x, s, z, rfl, hx, hs, hz⟩
    exact ⟨x, _, rfl, hx, [s], _, rfl, ⟨s, rfl, hs⟩, key.data, _, rfl, rfl, ['='], _, rfl,
      ⟨'=', rfl, rfl⟩, val.data, _, rfl, rfl, z, [], by simp, hz, rfl⟩

/-- A plain key and value make a canonical tag. -/
theorem canonicalTag_of_plain {k v : String} (hk : PlainTag k) (hv : PlainTag v) :
    CanonicalTag (k, v) :=
  ⟨hk.1, hv.1, fun c hc => isTagChar_of_isPlainTagChar (hk.2 c hc),
    fun c hc => isTagChar_of_isPlainTagChar (hv.2 c hc)⟩

/-- A filter of plain key and values matches words of `anyTagsRE` only. -/
theorem FilterLang.anyTags {kv : String × List String} (hk : PlainTag kv.1)
    (hv : ∀ v ∈ kv.2, PlainTag v) {w : List Char} (h : FilterLang kv w) : anyTagsRE.Lang w := by
  obtain ⟨v, hmem, hw⟩ := h
  obtain ⟨x, s, z, rfl, hx, hs, hz⟩ := (lang_valueTerms _ _ _).1 hw
  have hmid : oneTagRE.Lang (s :: (kv.1.data ++ '=' :: v.data)) :=
    (lang_oneTagRE _).2 ⟨s, (kv.1, v), rfl, hs, canonicalTag_of_plain hk (hv v hmem)⟩
  simpa using lang_star_append_star hx (lang_star_append hmid hz)

theorem FilterLang.led {kv : String × List String} {w : List Char} (h : FilterLang kv w) :
    Led isSpace w := by
  obtain ⟨v, -, hw⟩ := h
  obtain ⟨x, s, z, rfl, hx, hs, -⟩ := (lang_valueTerms _ _ _).1 hw
  exact led_append (led_anyTags hx) hs

theorem FiltersLang.led : ∀ {filters : List (String × List String)} {w : List Char},
    FiltersLang filters w → Led isSpace w
  | [], _, h => by rw [show _ = [] from h]; trivial
  | _ :: _, _, ⟨_, _, rfl, hu, hv⟩ => led_append hu.led (FiltersLang.led hv)

/-- A filter matches a run of canonical tags exactly when one of its
values is there under its key. -/
theorem filterLang_tagsText_iff {ts : List (String × String)} (hts : ∀ t ∈ ts, CanonicalTag t)
    {kv : String × List String} (hk : PlainTag kv.1) (hv : ∀ v ∈ kv.2, PlainTag v) :
    FilterLang kv (tagsText ts) ↔ ∃ v ∈ kv.2, (kv.1, v) ∈ ts := by
  constructor
  · rintro ⟨v, hmem, hw⟩
    obtain ⟨x, s, z, heq, hx, hs, hz⟩ := (lang_valueTerms _ _ _).1 hw
    obtain ⟨i, -, hdrop⟩ := anyTags_align hx hts heq.symm hs
    rcases hrest : ts.drop i with _ | ⟨t, rest⟩
    · simp [hrest, tagsText] at hdrop
    have ht : t ∈ ts := List.mem_of_mem_drop (hrest ▸ List.mem_cons_self t rest)
    have hct := hts t ht
    simp only [hrest, tagsText_cons, tagText, List.cons_append, List.append_assoc,
      List.cons.injEq] at hdrop
    obtain ⟨hkey, hdrop⟩ := append_cancel_of_led (p := (· == '=')) hdrop.2
      (fun c hc => ne_eq_of_isTagChar (isTagChar_of_isPlainTagChar (hk.2 c hc)))
      (fun c hc => ne_eq_of_isTagChar (hct.2.2.1 c hc)) (by simp [Led]) (by simp [Led])
    obtain ⟨hval, -⟩ := append_cancel_of_led (p := isSpace) (List.cons.inj hdrop).2
      (fun c hc => isSpace_of_isTagChar (isTagChar_of_isPlainTagChar ((hv v hmem).2 c hc)))
      (fun c hc => isSpace_of_isTagChar (hct.2.2.2 c hc)) (led_anyTags hz) (led_tagsText rest)
    refine ⟨v, hmem, ?_⟩
    rwa [show (kv.1, v) = t from Prod.ext (String.ext hkey) (String.ext hval)]
  · rintro ⟨v, hmem, ht⟩
    obtain ⟨pre, post, rfl⟩ := List.append_of_mem ht
    refine ⟨v, hmem, (lang_valueTerms _ _ _).2 ⟨tagsText pre, ' ', tagsText post, ?_,
      lang_anyTags_tagsText fun t ht => hts t (by simp [ht]), rfl,
      lang_anyTags_tagsText fun t ht => hts t (by simp [ht])⟩⟩
    simp [tagsText_append, tagsText_cons, tagText]

/-- Plain filters whose words follow one another match a tag text only if
each finds its tag. -/
theorem filtersLang_tagsText_mp : ∀ {filters : List (String × List String)}
    {ts : List (String × String)}, (∀ t ∈ ts, CanonicalTag t) →
    (∀ kv ∈ filters, PlainTag kv.1 ∧ ∀ v ∈ kv.2, PlainTag v) →
    FiltersLang filters (tagsText ts) → ∀ kv ∈ filters, ∃ v ∈ kv.2, (kv.1, v) ∈ ts
  | [], _, _, _, _ => by simp
  | kv :: rest, ts, hts, hplain, ⟨u, w, heq, hu, hw⟩ => by
    obtain ⟨hk, hv⟩ := hplain kv (List.mem_cons_self _ _)
    obtain ⟨i, rfl, rfl⟩ := anyTags_align (hu.anyTags hk hv) hts heq.symm hw.led
    intro kv' hkv'
    rcases List.mem_cons.mp hkv' with rfl | hkv'
    · obtain ⟨v, hmem, ht⟩ := (filterLang_tagsText_iff (fun t ht => hts t
        (List.mem_of_mem_take ht)) hk hv).1 hu
      exact ⟨v, hmem, List.mem_of_mem_take ht⟩
    · obtain ⟨v, hmem, ht⟩ := filtersLang_tagsText_mp (fun t ht => hts t (List.mem_of_mem_drop ht))
        (fun x hx => hplain x (List.mem_cons_of_mem _ hx)) hw kv' hkv'
      exact ⟨v, hmem, List.mem_of_mem_drop ht⟩

/-- Plain filters in strictly increasing key order, at least one, match
the text of sorted canonical tags when each finds its tag: each filter
takes the tags up to its own, and the last one the rest. -/
theorem filtersLang_tagsText_mpr : ∀ {filters : List (String × List String)}
    {ts : List (String × String)}, (∀ t ∈ ts, CanonicalTag t) →
    ts.Sorted (fun a b => strLE a.1 b.1) →
    (∀ kv ∈ filters, PlainTag kv.1 ∧ ∀ v ∈ kv.2, PlainTag v) →
    filters.Sorted (fun a b => strLT a.1 b.1) → filters ≠ [] →
    (∀ kv ∈ filters, ∃ v ∈ kv.2, (kv.1, v) ∈ ts) → FiltersLang filters (tagsText ts)
  | [], _, _, _, _, _, hne, _ => absurd rfl hne
  | [kv], ts, hts, _, hplain, _, _, hall => by
    obtain ⟨hk, hv⟩ := hplain kv (List.mem_singleton_self _)
    exact ⟨tagsText ts, [], by simp,
      (filterLang_tagsText_iff hts hk hv).2 (hall kv (List.mem_singleton_self _)), rfl⟩
  | kv :: kv' :: rest, ts, hts, hsorted, hplain, hfsorted, _, hall => by
    obtain ⟨hk, hv⟩ := hplain kv (List.mem_cons_self _ _)
    obtain ⟨v₀, hmem, ht⟩ := hall kv (List.mem_cons_self _ _)
    obtain ⟨pre, post, rfl⟩ := List.append_of_mem ht
    rw [List.Sorted, List.pairwise_append, List.pairwise_cons] at hsorted
    obtain ⟨-, ⟨hhead, hpost⟩, hcross⟩ := hsorted
    have hlt := List.rel_of_sorted_cons hfsorted
    refine ⟨tagsText (pre ++ [(kv.1, v₀)]), tagsText post, by rw [← tagsText_append]; simp,
      (filterLang_tagsText_iff (fun t ht => hts t (by simp at ht ⊢; tauto)) hk hv).2
        ⟨v₀, hmem, by simp⟩,
      filtersLang_tagsText_mpr (fun t ht => hts t (by simp [ht])) hpost
        (fun x hx => hplain x (List.mem_cons_of_mem _ hx)) (List.sorted_cons.mp hfsorted).2
        (List.cons_ne_nil _ _) fun kv'' hkv'' => ?_⟩
    obtain ⟨v, hv'', hin⟩ := hall kv'' (List.mem_cons_of_mem _ hkv'')
    refine ⟨v, hv'', ?_⟩
    have hbig := hlt kv'' hkv''
    rcases List.mem_append.mp hin with hpre | hin
    · exact absurd hbig (hcross _ hpre _ (List.mem_cons_self _ _))
    · rcases List.mem_cons.mp hin with heq | hpost'
      · rw [(Prod.mk.inj heq).1] at hbig
        exact absurd hbig (strLT_irrefl _)
      · exact hpost'

/-! ## Names -/

/-- The name of a series with a space-free metric `m`: it matches the
metric pattern of `m` exactly when its metric token is `m`. -/
theorem render_metricOnly_iff (n : SeriesName) {m : String} (hm : ∀ c ∈ m.data, isSpace c = false) :
    (∃ v, n.render.data = m.data ++ v ∧ anyTagsRE.Lang v) ↔ n.metric = m := by
  constructor
  · rintro ⟨v, heq, hv⟩
    exact String.ext (append_cancel_of_led heq n.metric_token hm (led_tagsText n.tags)
      (led_anyTags hv)).1
  · rintro rfl
    exact ⟨_, rfl, lang_anyTags_tagsText n.tags_canonical⟩

/-- The name matches the pattern of `m` with filters exactly when its metric
token is `m` and each filter finds its tag. -/
theorem render_metricTags_iff (n : SeriesName) {m : String} (hm : ∀ c ∈ m.data, isSpace c = false)
    {filters : List (String × List String)}
    (hplain : ∀ kv ∈ filters, PlainTag kv.1 ∧ ∀ v ∈ kv.2, PlainTag v)
    (hsorted : filters.Sorted fun a b => strLT a.1 b.1) (hne : filters ≠ []) :
    (∃ v, n.render.data = m.data ++ v ∧ FiltersLang filters v) ↔
      n.metric = m ∧ ∀ kv ∈ filters, ∃ v ∈ kv.2, (kv.1, v) ∈ n.tags := by
  constructor
  · rintro ⟨v, heq, hv⟩
    obtain ⟨hmetric, rfl⟩ := append_cancel_of_led heq n.metric_token hm (led_tagsText n.tags) hv.led
    exact ⟨String.ext hmetric, filtersLang_tagsText_mp n.tags_canonical hplain hv⟩
  · rintro ⟨rfl, hall⟩
    exact ⟨_, rfl, filtersLang_tagsText_mpr n.tags_canonical n.tags_sorted hplain hsorted hne hall⟩

end Akumuli.QP
