/-
Akumuli.Catalog — the string pool (`StringPool`) and the series matcher
(`SeriesMatcher`), modelled from the specification: their source is not
in the repository, only their callers.

The pool is an append-only list of interned series names, each stored
with its id (`StringTools::extract_id_from_pool` reads the id back).
`size()` counts the entries, so it strictly increases on every `add`, as
the specification's reader contract assumes.

`regex_match(pattern, &offset)` (§4.A) returns every entry in
`[offset, size)` whose name the pattern matches, and advances `offset` to
`size`. For the pool, which only the legacy `RegexFilter` scans, the regex
semantics is a parameter `sem : String → String → Bool` (pattern, name),
and what is proved of it holds for every semantics. The matcher's
`regex_match(pattern)` compiles the pattern under the ECMAScript model of
`Akumuli.Regex` and keeps the names it matches in full; it throws
`std::regex_error` (`none`) when the pattern does not compile.

The matcher is a pool read as a two-way map. `match` brings the name to
its canonical form (`toNormalForm`, the steps of `to_normal_form` in
§4.A) and looks that up; a name in canonical form is its own canonical
form (`toNormalForm_render`). `id2str` answers `none` for the `(nil, 0)`
of an unknown id.

`Test_seriesparser_1` has `to_normal_form` refuse the bare metric `cpu`,
while `Test_seriesmatcher_0` adds and matches the bare name `foobar`; the
model keeps the zero or more tags of §2, which the matcher test needs.
The length limit `AKU_LIMITS_MAX_SNAME`, whose value is not in the
repository, is left out: a canonical form is never longer than its name,
so it matters only for a name over the limit, held by the catalog in a
shorter canonical form.
-/
import Akumuli.Regex.Compile
import Mathlib.Data.List.Lex
import Mathlib.Data.Char
import Mathlib.Data.List.Sort

namespace Akumuli

/-- An interned series name with the id stored next to it. -/
structure PoolEntry where
  name : String
  id : Nat
  deriving DecidableEq, Repr

/-- `StringPool`: the interned names, oldest first. -/
structure StringPool where
  entries : List PoolEntry
  deriving DecidableEq, Repr

namespace StringPool

variable (sem : String → String → Bool)

/-- `size()`. -/
def size (p : StringPool) : Nat := p.entries.length

/-- `add(...)`: append one entry. -/
def add (p : StringPool) (e : PoolEntry) : StringPool := ⟨p.entries ++ [e]⟩

/-- `regex_match(pattern, &offset)`: the matching entries of
`[offset, size)`, and the new offset. -/
def regexMatch (p : StringPool) (pattern : String) (offset : Nat) : List PoolEntry × Nat :=
  ((p.entries.drop offset).filter fun e => sem pattern e.name, p.size)

@[simp] theorem size_add (p : StringPool) (e : PoolEntry) : (p.add e).size = p.size + 1 := by
  simp [size, add]

/-- Appending keeps every prefix the readers have scanned. -/
theorem take_add {p : StringPool} {k : Nat} (hk : k ≤ p.size) (e : PoolEntry) :
    (p.add e).entries.take k = p.entries.take k := by
  simp [add, List.take_append_of_le_length hk]

end StringPool

/-- `SeriesMatcher`: the interned names and their ids, in insertion order. -/
structure SeriesMatcher where
  pool : StringPool
  deriving DecidableEq, Repr

namespace SeriesMatcher

/-- A matcher with no names. -/
def empty : SeriesMatcher := ⟨⟨[]⟩⟩

/-- `get_all_ids()`, in insertion order. -/
def getAllIds (m : SeriesMatcher) : List Nat := m.pool.entries.map (·.id)

/-- `regex_match(pattern)`: every entry whose name the pattern matches in
full, in insertion order; `none` where the pattern does not compile. -/
def regexMatch (m : SeriesMatcher) (pattern : String) : Option (List PoolEntry) :=
  (Regex.regexMatch pattern).map fun test => m.pool.entries.filter fun e => test e.name

/-- `id2str(id)`; `none` is the `(nil, 0)` of an unknown id. -/
def id2str (m : SeriesMatcher) (id : Nat) : Option String :=
  (m.pool.entries.find? (·.id = id)).map (·.name)

/-- `_add(name, id)`: record a name under a given id. -/
def _add (m : SeriesMatcher) (name : String) (id : Nat) : SeriesMatcher := ⟨m.pool.add ⟨name, id⟩⟩

end SeriesMatcher

/-! ## The byte order of `std::string` -/

/-- `operator<` of `std::string`: lexicographic on the bytes. -/
def strLT (a b : String) : Prop := List.Lex (· < ·) a.data b.data

instance : DecidableRel strLT := fun a b =>
  inferInstanceAs (Decidable (List.Lex (· < ·) a.data b.data))

/-- `operator<=` of `std::string`. -/
def strLE (a b : String) : Prop := ¬ strLT b a

instance : DecidableRel strLE := fun a b => inferInstanceAs (Decidable (¬ strLT b a))

theorem strLT_irrefl (a : String) : ¬ strLT a a := irrefl_of (List.Lex (· < ·)) a.data

theorem strLT_trans {a b c : String} (h : strLT a b) (h' : strLT b c) : strLT a c :=
  trans_of (List.Lex (· < ·)) h h'

theorem strLT_trichotomous (a b : String) : strLT a b ∨ a.data = b.data ∨ strLT b a :=
  trichotomous_of (List.Lex (· < ·)) a.data b.data

theorem strLE_total (a b : String) : strLE a b ∨ strLE b a := by
  by_contra h
  simp only [strLE, not_or, not_not] at h
  exact strLT_irrefl a (strLT_trans h.2 h.1)

theorem strLE_trans {a b c : String} (h : strLE a b) (h' : strLE b c) : strLE a c := by
  intro hca
  rcases strLT_trichotomous a b with hab | hab | hab
  · exact h' (strLT_trans hca hab)
  · exact h' (by rwa [strLT, ← hab])
  · exact h hab

theorem strLT_of_strLE_of_ne {a b : String} (h : strLE a b) (hne : a ≠ b) : strLT a b := by
  rcases strLT_trichotomous a b with hab | hab | hab
  · exact hab
  · exact absurd (String.ext hab) hne
  · exact absurd hab h

/-! ## Canonical names -/

/-- The characters of a tag key or value in canonical form, `[A-Za-z0-9._-]`. -/
def isTagChar (c : Char) : Bool := c.isAlphanum || c = '_' || c = '.' || c = '-'

/-- The text of one tag, ` key=value`. -/
def tagText (t : String × String) : List Char := ' ' :: (t.1.data ++ '=' :: t.2.data)

/-- The text of a list of tags. -/
def tagsText (ts : List (String × String)) : List Char := (ts.map tagText).flatten

/-- A tag in canonical form: key and value non-empty, over the tag characters. -/
def CanonicalTag (t : String × String) : Prop :=
  t.1.data ≠ [] ∧ t.2.data ≠ [] ∧ (∀ c ∈ t.1.data, isTagChar c) ∧ ∀ c ∈ t.2.data, isTagChar c

instance : DecidablePred CanonicalTag := fun _ => inferInstanceAs (Decidable (_ ∧ _ ∧ _ ∧ _))

/-- A series name in canonical form (§2): a metric token, then its tags
sorted by key, bytewise. -/
structure SeriesName where
  metric : String
  tags : List (String × String)
  metric_ne : metric.data ≠ []
  metric_token : ∀ c ∈ metric.data, Regex.isSpace c = false
  tags_canonical : ∀ t ∈ tags, CanonicalTag t
  tags_sorted : tags.Sorted fun a b => strLE a.1 b.1

/-- The name as the pool stores it: the metric, then ` key=value` per tag. -/
def SeriesName.render (n : SeriesName) : String := ⟨n.metric.data ++ tagsText n.tags⟩

theorem isTagChar_of_isSpace {c : Char} (h : Regex.isSpace c = true) : isTagChar c = false := by
  simp only [Regex.isSpace, Bool.or_eq_true, decide_eq_true_eq, or_assoc] at h
  rcases h with h | h | h | h | h | h <;>
    first | (subst h; decide) | (rw [← Char.ofNat_toNat c, h]; decide)

theorem isSpace_of_isTagChar {c : Char} (h : isTagChar c = true) : Regex.isSpace c = false := by
  cases hs : Regex.isSpace c
  · rfl
  · simp [isTagChar_of_isSpace hs] at h

theorem ne_eq_of_isTagChar {c : Char} (h : isTagChar c = true) : (c == '=') = false := by
  cases he : c == '='
  · rfl
  · rw [beq_iff_eq.mp he] at h; exact absurd h (by decide)

/-! ## The canonical form of a name (§4.A) -/

/-- A tag token `key=value`, split at its first `=`; `none` for the
`AKU_EBAD_DATA` of a token without `=`, with an empty key or value, or with
a character outside `[A-Za-z0-9._-]`. -/
def splitTag (token : List Char) : Option (String × String) :=
  match token.dropWhile (· != '=') with
  | [] => none
  | _ :: value =>
    let tag : String × String := (⟨token.takeWhile (· != '=')⟩, ⟨value⟩)
    if CanonicalTag tag then some tag else none

/-- `SeriesParser::to_normal_form`: skip the whitespace, take the first
token as the metric and each further one as a tag, sort the tags by key
and write them after the metric, one space before each; `none` for the
`AKU_EBAD_DATA` of a name without a token or with a malformed tag. The
sort is stable: tags with one key keep their order. -/
def toNormalForm (name : String) : Option String :=
  match (name.data.splitOnP Regex.isSpace).filter (!·.isEmpty) with
  | [] => none
  | metric :: tokens => (tokens.mapM splitTag).map fun tags =>
      ⟨metric ++ tagsText (tags.insertionSort fun a b => strLE a.1 b.1)⟩

/-- The token of a tag, `key=value`. -/
theorem splitTag_token {t : String × String} (ht : CanonicalTag t) :
    splitTag (t.1.data ++ '=' :: t.2.data) = some t := by
  have hkey : ∀ c ∈ t.1.data, (c != '=') = true := fun c hc => by
    simp [bne, ne_eq_of_isTagChar (ht.2.2.1 c hc)]
  simp [splitTag, List.dropWhile_append_of_pos hkey, List.takeWhile_append_of_pos hkey, ht]

/-- Splitting a text of tags at its spaces gives back the tag tokens. -/
theorem splitOnP_tagsText {xs : List Char} (hxs : ∀ c ∈ xs, Regex.isSpace c = false) :
    ∀ {ts : List (String × String)}, (∀ t ∈ ts, CanonicalTag t) →
      (xs ++ tagsText ts).splitOnP Regex.isSpace = xs :: ts.map fun t => t.1.data ++ '=' :: t.2.data
  | [], _ => by simpa [tagsText] using List.splitOnP_eq_single _ _ (by simpa using hxs)
  | t :: ts, h => by
    have ht := h t (List.mem_cons_self _ _)
    have htoken : ∀ c ∈ t.1.data ++ '=' :: t.2.data, Regex.isSpace c = false := by
      simp only [List.mem_append, List.mem_cons]
      rintro c (hc | rfl | hc)
      exacts [isSpace_of_isTagChar (ht.2.2.1 c hc), rfl, isSpace_of_isTagChar (ht.2.2.2 c hc)]
    rw [show tagsText (t :: ts) = ' ' :: ((t.1.data ++ '=' :: t.2.data) ++ tagsText ts) by
        simp [tagsText, tagText],
      List.splitOnP_first _ _ (by simpa using hxs) _ rfl,
      splitOnP_tagsText htoken fun t' ht' => h t' (List.mem_cons_of_mem _ ht'), List.map_cons]

theorem mapM_splitTag (ts : List (String × String)) (h : ∀ t ∈ ts, CanonicalTag t) :
    (ts.map fun t => t.1.data ++ '=' :: t.2.data).mapM splitTag = some ts := by
  induction ts with
  | nil => rfl
  | cons t ts ih =>
    rw [List.map_cons, List.mapM_cons, splitTag_token (h t (List.mem_cons_self _ _)),
      ih fun t' ht' => h t' (List.mem_cons_of_mem _ ht')]
    rfl

/-- A name in canonical form is its own canonical form. -/
theorem toNormalForm_render (n : SeriesName) : toNormalForm n.render = some n.render := by
  have hne : ∀ tok ∈ n.metric.data :: n.tags.map (fun t => t.1.data ++ '=' :: t.2.data),
      (!tok.isEmpty) = true := by
    simp only [List.mem_cons, List.mem_map]
    rintro tok (rfl | ⟨t, -, rfl⟩) <;> simp [List.isEmpty_iff, n.metric_ne]
  rw [toNormalForm, SeriesName.render, splitOnP_tagsText n.metric_token n.tags_canonical,
    List.filter_eq_self.2 hne]
  simp only [mapM_splitTag _ n.tags_canonical, Option.map_some', n.tags_sorted.insertionSort_eq]

example : toNormalForm " cpu  region=europe   host=127.0.0.1 " =
    some "cpu host=127.0.0.1 region=europe" := by decide

example : toNormalForm "cpu region host=127.0.0.1 " = none := by decide

/-- A catalog: canonical names with their ids, in insertion order; no name
and no id twice. -/
structure Catalog where
  series : List (SeriesName × Nat)
  names_nodup : (series.map fun s => s.1.render).Nodup
  ids_nodup : (series.map (·.2)).Nodup

namespace Catalog

/-- The matcher holding the catalog. -/
def matcher (cat : Catalog) : SeriesMatcher := ⟨⟨cat.series.map fun s => ⟨s.1.render, s.2⟩⟩⟩

/-- The id of the series with the given name, `0` when there is none. -/
def idOf (cat : Catalog) (name : String) : Nat :=
  ((cat.series.find? fun s => s.1.render = name).map (·.2)).getD 0

/-- The id of the series a name stands for: that of its canonical form,
`0` when it has none or the catalog does not hold it. -/
def idOfName (cat : Catalog) (name : String) : Nat := ((toNormalForm name).map cat.idOf).getD 0

/-- The tag part of the series with the given id: its name without the
metric token. -/
def tagPartOf (cat : Catalog) (id : Nat) : String :=
  ((cat.series.find? fun s => s.2 = id).map fun s => (⟨tagsText s.1.tags⟩ : String)).getD ""

end Catalog

namespace SeriesMatcher

/-- `match(name)`: the id of the name's canonical form, `0` when it has
none or the matcher does not hold it. -/
def match' (m : SeriesMatcher) (name : String) : Nat :=
  ((toNormalForm name).bind fun canonical =>
    (m.pool.entries.find? (·.name = canonical)).map (·.id)).getD 0

end SeriesMatcher

end Akumuli
