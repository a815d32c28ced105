import Mathlib.Data.List.Forall2
import Mathlib.Tactic.Common
import Recast.Scope.Mask

/-!
# What masking keeps

A masked text has the length of the text it comes from (`length_mask`), and shows each of its
characters as it is, as a blank or as a round bracket (`mask_shows`).
-/

namespace Recast

theorem length_maskFrom (region : Region) (outer : List Region) (pos hidden shown : Nat)
    (t : Text) : (maskFrom region outer pos hidden shown t).length = t.length := by
  fun_induction maskFrom region outer pos hidden shown t <;> simp_all

/-- A masked text is as long as the text it comes from. -/
theorem length_mask (t : Text) : (mask t).length = t.length :=
  length_maskFrom _ _ _ _ _ t

/-- A character as masking can show it. -/
def Shows (shown c : Char) : Prop :=
  shown = c ∨ shown ∈ [' ', '\n', '(', ')']

theorem shows_hide (c : Char) : Shows (hide c) c := by
  right
  rw [hide]
  split <;> decide

theorem maskFrom_shows (region : Region) (outer : List Region) (pos hidden shown : Nat) (t : Text) :
    List.Forall₂ Shows (maskFrom region outer pos hidden shown t) t := by
  have itself : ∀ c : Char, Shows c c := fun c => .inl rfl
  have opening : ∀ c : Char, Shows '(' c := fun c => .inr (by decide)
  have closing : ∀ c : Char, Shows ')' c := fun c => .inr (by decide)
  have blank : ∀ c : Char, Shows ' ' c := fun c => .inr (by decide)
  fun_induction maskFrom region outer pos hidden shown t <;> simp_all [shows_hide]

/-- Masking shows each character as it is, as a blank or as a round bracket. -/
theorem mask_shows (t : Text) : List.Forall₂ Shows (mask t) t :=
  maskFrom_shows _ _ _ _ _ t

end Recast
