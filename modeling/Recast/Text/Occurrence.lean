import Recast.Text.Basic

/-!
# Occurrences

`occurrences` finds the places of a text where a recogniser succeeds, from left to right and without
overlap. A recogniser looks at the text before a place (read backwards) and from it on, and gives a
value and the length it covers.
-/

namespace Recast

/-- A recogniser of pieces of text with a value of type `α`. -/
abbrev Recogniser (α : Type) := Text → Text → Option (α × Nat)

/-- A place where a recogniser succeeds. -/
structure Occurrence (α : Type) where
  start : Nat
  stop : Nat
  value : α

/-- The occurrences from `pos` on; no occurrence starts before `resume`. -/
def occurrencesFrom {α : Type} (recognise : Recogniser α) (behind : Text) (pos resume : Nat) :
    Text → List (Occurrence α)
  | [] =>
    match recognise behind [] with
    | some (value, size) => [⟨pos, pos + size, value⟩]
    | none => []
  | c :: cs =>
    if pos < resume then occurrencesFrom recognise (c :: behind) (pos + 1) resume cs
    else
      match recognise behind (c :: cs) with
      | some (value, size) =>
        ⟨pos, pos + size, value⟩
          :: occurrencesFrom recognise (c :: behind) (pos + 1) (pos + size) cs
      | none => occurrencesFrom recognise (c :: behind) (pos + 1) resume cs

/-- The occurrences in a text, from left to right and without overlap. -/
def occurrences {α : Type} (recognise : Recogniser α) (t : Text) : List (Occurrence α) :=
  occurrencesFrom recognise [] 0 0 t

/-- A recogniser's answer: the value, and what it covers of `ahead` when `rest` is left. -/
def covers {α : Type} (value : α) (ahead rest : Text) : α × Nat :=
  (value, ahead.length - rest.length)

end Recast
