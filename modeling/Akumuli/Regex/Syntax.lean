/-
Akumuli.Regex.Syntax — the regular expressions the where-clause patterns
compile to, and their language.

Modelled from the spec: `SeriesMatcher::regex_match` compiles its pattern
with `std::regex` (ECMAScript grammar) and keeps the names it matches in
full (`std::regex_match`); the library is not in the repository. A full
match exists or not whatever priority ECMAScript gives to alternatives, so
the language `Lang` is the set semantics of the expression.

Strings are byte strings, one `Char` per byte, as `std::string` holds
them. The class escapes follow the "C" locale: `\s` is a space, tab,
newline, vertical tab, form feed or carriage return, `\w` a letter, a digit
or `_`, `\d` a digit, and `.` anything but a newline or a carriage return.
-/
import Mathlib.Data.List.Basic

namespace Akumuli.Regex

/-- The class escapes `\s`, `\w` and `\d`. -/
inductive ClassEscape where
  | space
  | word
  | digit
  deriving DecidableEq, Repr

/-- `isspace` in the "C" locale. -/
def isSpace (c : Char) : Bool :=
  c = ' ' || c = '\t' || c = '\n' || c = '\r' || c.toNat = 11 || c.toNat = 12

/-- What a class escape accepts. -/
def ClassEscape.test : ClassEscape → Char → Bool
  | .space, c => isSpace c
  | .word, c => c.isAlphanum || c = '_'
  | .digit, c => c.isDigit

/-- An item of a bracket class: a character, a range, or a class escape
(`\S` is `\s` negated). -/
inductive Item where
  | single (c : Char)
  | range (lo hi : Char)
  | escape (e : ClassEscape) (neg : Bool)
  deriving DecidableEq, Repr

/-- What an item accepts. -/
def Item.test : Item → Char → Bool
  | .single d, c => c = d
  | .range lo hi, c => lo ≤ c && c ≤ hi
  | .escape e neg, c => e.test c != neg

/-- A one-character expression: a literal, `.`, or a (possibly negated)
bracket class; `\s` outside brackets is the class `[\s]`. -/
inductive Atom where
  | char (c : Char)
  | any
  | set (neg : Bool) (items : List Item)
  deriving DecidableEq, Repr

/-- What an atom accepts. -/
def Atom.test : Atom → Char → Bool
  | .char d, c => c = d
  | .any, c => c ≠ '\n' && c ≠ '\r'
  | .set neg items, c => items.any (·.test c) != neg

@[simp] theorem Atom.test_char (d c : Char) : (Atom.char d).test c = decide (c = d) := rfl

/-- Regular expressions. -/
inductive RE where
  | fail
  | eps
  | atom (a : Atom)
  | cat (r s : RE)
  | alt (r s : RE)
  | star (r : RE)
  deriving DecidableEq, Repr

namespace RE

/-- The language: the words the expression matches in full. -/
def Lang : RE → List Char → Prop
  | fail, _ => False
  | eps, w => w = []
  | atom a, w => ∃ c, w = [c] ∧ a.test c
  | cat r s, w => ∃ u v, w = u ++ v ∧ r.Lang u ∧ s.Lang v
  | alt r s, w => r.Lang w ∨ s.Lang w
  | star r, w => ∃ ws : List (List Char), w = ws.flatten ∧ ∀ x ∈ ws, r.Lang x

/-- A sequence of terms, read left to right. -/
def catList (rs : List RE) : RE := rs.foldr cat eps

/-- Alternatives, the first one first. -/
def altList (rs : List RE) : RE := rs.foldr alt fail

/-- The literal characters of a string. -/
def lits (s : List Char) : List RE := s.map fun c => atom (.char c)

@[simp] theorem lang_fail (w : List Char) : fail.Lang w ↔ False := Iff.rfl
@[simp] theorem lang_eps (w : List Char) : eps.Lang w ↔ w = [] := Iff.rfl
@[simp] theorem lang_atom (a : Atom) (w : List Char) :
    (atom a).Lang w ↔ ∃ c, w = [c] ∧ a.test c := Iff.rfl
@[simp] theorem lang_cat (r s : RE) (w : List Char) :
    (cat r s).Lang w ↔ ∃ u v, w = u ++ v ∧ r.Lang u ∧ s.Lang v := Iff.rfl
@[simp] theorem lang_alt (r s : RE) (w : List Char) :
    (alt r s).Lang w ↔ r.Lang w ∨ s.Lang w := Iff.rfl
theorem lang_star (r : RE) (w : List Char) :
    (star r).Lang w ↔ ∃ ws : List (List Char), w = ws.flatten ∧ ∀ x ∈ ws, r.Lang x := Iff.rfl

@[simp] theorem lang_cat_eps_left (s : RE) (w : List Char) : (cat eps s).Lang w ↔ s.Lang w :=
  ⟨fun ⟨_, _, h, hu, hv⟩ => by simpa [h, show _ = [] from hu] using hv, fun h => ⟨[], w, rfl, rfl, h⟩⟩

@[simp] theorem lang_cat_eps_right (r : RE) (w : List Char) : (cat r eps).Lang w ↔ r.Lang w :=
  ⟨fun ⟨_, _, h, hu, hv⟩ => by simpa [h, show _ = [] from hv] using hu,
    fun h => ⟨w, [], by simp, h, rfl⟩⟩

@[simp] theorem lang_catList_nil (w : List Char) : (catList []).Lang w ↔ w = [] := Iff.rfl

theorem lang_catList_cons (r : RE) (rs : List RE) (w : List Char) :
    (catList (r :: rs)).Lang w ↔ ∃ u v, w = u ++ v ∧ r.Lang u ∧ (catList rs).Lang v := Iff.rfl

/-- A sequence matches the concatenations of its two halves. -/
theorem lang_catList_append (rs ss : List RE) (w : List Char) :
    (catList (rs ++ ss)).Lang w ↔
      ∃ u v, w = u ++ v ∧ (catList rs).Lang u ∧ (catList ss).Lang v := by
  induction rs generalizing w with
  | nil => exact (lang_cat_eps_left _ w).symm
  | cons r rs ih =>
    simp only [List.cons_append, lang_catList_cons, ih]
    constructor
    · rintro ⟨u, _, rfl, hr, v, x, rfl, hv, hx⟩
      exact ⟨u ++ v, x, by simp, ⟨u, v, rfl, hr, hv⟩, hx⟩
    · rintro ⟨_, x, rfl, ⟨u, v, rfl, hr, hv⟩, hx⟩
      exact ⟨u, v ++ x, by simp, hr, v, x, rfl, hv, hx⟩

@[simp] theorem lang_altList (rs : List RE) (w : List Char) :
    (altList rs).Lang w ↔ ∃ r ∈ rs, r.Lang w := by
  induction rs with
  | nil => simp [altList]
  | cons r rs ih => simp [altList, ← ih]

/-- A string's literal characters match that string alone. -/
@[simp] theorem lang_lits (s w : List Char) : (catList (lits s)).Lang w ↔ w = s := by
  induction s generalizing w with
  | nil => simp [lits]
  | cons c s ih =>
    simp only [lits, List.map_cons, lang_catList_cons, lang_atom, Atom.test] at ih ⊢
    simp [ih]

/-- The star matches the empty word. -/
theorem lang_star_nil (r : RE) : (star r).Lang [] := ⟨[], rfl, by simp⟩

/-- The star matches a word of the expression followed by a word of the star. -/
theorem lang_star_append {r : RE} {u v : List Char} (hu : r.Lang u) (hv : (star r).Lang v) :
    (star r).Lang (u ++ v) := by
  obtain ⟨ws, rfl, hws⟩ := hv
  exact ⟨u :: ws, rfl, by simpa [hu] using hws⟩

/-- A non-empty word of the star starts with a non-empty word of the expression. -/
theorem lang_star_cons {r : RE} {c : Char} {w : List Char} :
    (star r).Lang (c :: w) ↔ ∃ u v, w = u ++ v ∧ r.Lang (c :: u) ∧ (star r).Lang v := by
  constructor
  · rintro ⟨ws, hw, hws⟩
    induction ws with
    | nil => simp at hw
    | cons x ws ih =>
      rcases x with _ | ⟨d, u⟩
      · exact ih hw (fun x hx => hws x (List.mem_cons_of_mem _ hx))
      · simp only [List.flatten_cons, List.cons_append, List.cons.injEq] at hw
        obtain ⟨rfl, rfl⟩ := hw
        exact ⟨u, ws.flatten, rfl, hws _ (List.mem_cons_self _ _),
          ws, rfl, fun x hx => hws x (List.mem_cons_of_mem _ hx)⟩
  · rintro ⟨u, v, rfl, hu, hv⟩
    exact lang_star_append hu hv

end RE

end Akumuli.Regex
