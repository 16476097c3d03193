/-
Akumuli.Regex.Match — a matcher for `RE` that computes, by Brzozowski
derivatives, and its agreement with the language (`fullMatch_iff`).

The smart constructors `mkCat` and `mkAlt` drop the expressions that
cannot match and the neutral `eps`, so that the derivatives of the
where-clause patterns stay small; each is proved to keep the language
once (`lang_mkCat`, `lang_mkAlt`), and `lang_deriv` never unfolds them.
-/
import Akumuli.Regex.Syntax

namespace Akumuli.Regex

namespace RE

/-! ## Nullability and the smart constructors -/

/-- Whether the expression matches the empty word. -/
def nullable : RE → Bool
  | fail => false
  | eps => true
  | atom _ => false
  | cat r s => r.nullable && s.nullable
  | alt r s => r.nullable || s.nullable
  | star _ => true

theorem nullable_iff (r : RE) : r.nullable = true ↔ r.Lang [] := by
  induction r with
  | fail => simp [nullable]
  | eps => simp [nullable]
  | atom a => simp [nullable]
  | cat r s ihr ihs =>
    simp only [nullable, Bool.and_eq_true, ihr, ihs, lang_cat, List.nil_eq_append_iff]
    exact ⟨fun ⟨hr, hs⟩ => ⟨[], [], ⟨rfl, rfl⟩, hr, hs⟩, fun ⟨_, _, ⟨rfl, rfl⟩, hr, hs⟩ => ⟨hr, hs⟩⟩
  | alt r s ihr ihs => simp [nullable, ihr, ihs]
  | star r => simp [nullable, lang_star_nil]

/-- `r = fail`, as a test. -/
def isFail : RE → Bool
  | fail => true
  | _ => false

/-- `r = eps`, as a test. -/
def isEps : RE → Bool
  | eps => true
  | _ => false

theorem eq_fail_of_isFail {r : RE} (h : r.isFail = true) : r = fail := by
  cases r <;> simp_all [isFail]

theorem eq_eps_of_isEps {r : RE} (h : r.isEps = true) : r = eps := by
  cases r <;> simp_all [isEps]

/-- `cat`, with `fail` absorbing and `eps` neutral. -/
def mkCat (r s : RE) : RE :=
  if r.isFail || s.isFail then fail else if r.isEps then s else if s.isEps then r else cat r s

/-- `alt`, with `fail` neutral and a repeated alternative dropped. -/
def mkAlt (r s : RE) : RE :=
  if r.isFail then s else if s.isFail then r else if r = s then r else alt r s

theorem lang_mkCat (r s : RE) (w : List Char) : (mkCat r s).Lang w ↔ (cat r s).Lang w := by
  unfold mkCat
  split_ifs with h he he'
  · rcases Bool.or_eq_true _ _ |>.mp h with h | h <;> simp [eq_fail_of_isFail h]
  · rw [eq_eps_of_isEps he, lang_cat_eps_left]
  · rw [eq_eps_of_isEps he', lang_cat_eps_right]
  · rfl

theorem lang_mkAlt (r s : RE) (w : List Char) : (mkAlt r s).Lang w ↔ (alt r s).Lang w := by
  unfold mkAlt
  split_ifs with h h' he
  · simp [eq_fail_of_isFail h]
  · simp [eq_fail_of_isFail h']
  · simp [he]
  · rfl

/-! ## Derivatives -/

/-- The derivative by `c`: the words `w` with `c :: w` in the language. -/
def deriv (c : Char) : RE → RE
  | fail => fail
  | eps => fail
  | atom a => if a.test c then eps else fail
  | cat r s =>
    if r.nullable then mkAlt (mkCat (deriv c r) s) (deriv c s) else mkCat (deriv c r) s
  | alt r s => mkAlt (deriv c r) (deriv c s)
  | star r => mkCat (deriv c r) (star r)

/-- A word of `r s` that starts with `c` starts inside `r`, or `r` takes
nothing and it starts inside `s`. -/
theorem lang_cat_cons (r s : RE) (c : Char) (w : List Char) :
    (cat r s).Lang (c :: w) ↔
      (∃ u v, w = u ++ v ∧ r.Lang (c :: u) ∧ s.Lang v) ∨ (r.Lang [] ∧ s.Lang (c :: w)) := by
  constructor
  · rintro ⟨_ | ⟨d, u⟩, v, h, hr, hs⟩
    · exact .inr ⟨hr, by simpa using h ▸ hs⟩
    · obtain ⟨rfl, rfl⟩ := List.cons.inj h
      exact .inl ⟨u, v, rfl, hr, hs⟩
  · rintro (⟨u, v, rfl, hr, hs⟩ | ⟨hr, hs⟩)
    exacts [⟨c :: u, v, rfl, hr, hs⟩, ⟨[], c :: w, rfl, hr, hs⟩]

theorem lang_deriv (c : Char) (r : RE) (w : List Char) : (deriv c r).Lang w ↔ r.Lang (c :: w) := by
  induction r generalizing w with
  | fail => simp [deriv]
  | eps => simp [deriv]
  | atom a => by_cases h : a.test c <;> simp [deriv, h, and_assoc]
  | cat r s ihr ihs =>
    rw [lang_cat_cons, deriv, ← nullable_iff]
    cases r.nullable <;> simp [lang_mkAlt, lang_mkCat, ihr, ihs]
  | alt r s ihr ihs => simp [deriv, lang_mkAlt, ihr, ihs]
  | star r ihr => simp [deriv, lang_mkCat, ihr, lang_star_cons]

/-- `std::regex_match`: whether the expression matches the whole word. -/
def fullMatch (r : RE) (w : List Char) : Bool := (w.foldl (fun r c => deriv c r) r).nullable

theorem fullMatch_iff (r : RE) (w : List Char) : r.fullMatch w = true ↔ r.Lang w := by
  induction w generalizing r with
  | nil => exact nullable_iff r
  | cons c w ih => exact (ih (deriv c r)).trans (lang_deriv c r w)

end RE

end Akumuli.Regex
