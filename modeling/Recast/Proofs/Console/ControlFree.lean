import Recast.Console.Control
import Recast.Proofs.Text.WideText

/-!
# Texts without control sequences

Taking the control sequences out of a text leaves it as it is just if none stands in it
(`withoutControls_eq_self_iff`). A control sequence is made of characters, so what is left is a text
just if all of it was (`text?_withoutControls`).
-/

namespace Recast

/-- A control sequence stands somewhere in a text. -/
def HasControl (w : Wide) : Prop :=
  ∃ rest, rest <:+ w ∧ controlLength rest ≠ 0

theorem hasControl_cons {c : CodePoint} {w : Wide} :
    HasControl (c :: w) ↔ controlLength (c :: w) ≠ 0 ∨ HasControl w := by
  constructor
  · rintro ⟨rest, ends, control⟩
    obtain rfl | ends := List.suffix_cons_iff.1 ends
    · exact .inl control
    · exact .inr ⟨rest, ends, control⟩
  · rintro (control | ⟨rest, ends, control⟩)
    · exact ⟨_, List.suffix_refl _, control⟩
    · exact ⟨rest, ends.trans (List.suffix_cons c w), control⟩

theorem length_withoutControlsAfter_le : ∀ (skipped : Nat) (w : Wide),
    (withoutControlsAfter skipped w).length ≤ w.length
  | _, [] => by simp [withoutControlsAfter]
  | skipped + 1, _ :: rest => by
    rw [withoutControlsAfter]
    exact Nat.le_succ_of_le (length_withoutControlsAfter_le skipped rest)
  | 0, c :: rest => by
    rw [withoutControlsAfter]
    split
    · exact Nat.succ_le_succ (length_withoutControlsAfter_le 0 rest)
    · exact Nat.le_succ_of_le (length_withoutControlsAfter_le _ rest)

/-- Taking out control sequences changes a text just if there are any. -/
theorem withoutControls_eq_self_iff {w : Wide} : withoutControls w = w ↔ ¬ HasControl w := by
  induction w with
  | nil =>
    refine iff_of_true rfl ?_
    rintro ⟨rest, ends, control⟩
    rw [List.suffix_nil.1 ends] at control
    exact control rfl
  | cons c w ih =>
    rw [withoutControls] at ih ⊢
    rw [hasControl_cons, not_or, ← ih, withoutControlsAfter]
    split
    next none_ => simp [none_]
    next length some_ =>
      -- What is left of a text that starts with a control sequence is shorter.
      refine iff_of_false (fun same => ?_) (by simp [some_])
      have shorter := length_withoutControlsAfter_le length w
      rw [same, List.length_cons] at shorter
      exact absurd shorter (Nat.not_succ_le_self _)

/-! ## Halves -/

theorem isHalf_eq_false {point : CodePoint} {p : Char → Bool} (h : point.char?.any p) :
    point.isHalf = false := by
  cases point with
  | char c => rfl
  | half n => cases h

/-- A control sequence holds no halves. -/
theorem isHalf_of_mem_control (w : Wide) :
    ∀ point ∈ w.take (controlLength w), point.isHalf = false := by
  intro point member
  rw [controlLength.eq_def] at member
  split at member
  next first second rest =>
    dsimp only at member
    split at member
    next starts =>
      split at member
      next ends =>
        have parameters :=
          List.prefix_iff_eq_take.1 (List.takeWhile_prefix isControlParameter (l := rest))
        rw [List.take_succ_cons, List.take_succ_cons, List.take_add_one, ← parameters,
          List.mem_cons, List.mem_cons, List.mem_append] at member
        obtain rfl | rfl | parameter | last := member
        · rw [starts.1]
          rfl
        · rw [starts.2]
          rfl
        · exact isHalf_eq_false (List.all_eq_true.1 List.all_takeWhile point parameter)
        · rw [Option.mem_toList] at last
          rw [last] at ends
          exact isHalf_eq_false ends
      · simp at member
    · simp at member
  · simp at member

/-- The halves of a text stay when the control sequences go. -/
theorem filter_withoutControlsAfter :
    ∀ (skipped : Nat) (w : Wide), (∀ point ∈ w.take skipped, point.isHalf = false) →
    (withoutControlsAfter skipped w).filter CodePoint.isHalf = w.filter CodePoint.isHalf
  | _, [], _ => by simp [withoutControlsAfter]
  | skipped + 1, c :: rest, h => by
    rw [List.take_succ_cons, List.forall_mem_cons] at h
    rw [withoutControlsAfter, filter_withoutControlsAfter skipped rest h.2,
      List.filter_cons_of_neg (by simp [h.1])]
  | 0, c :: rest, _ => by
    have chars := isHalf_of_mem_control (c :: rest)
    rw [withoutControlsAfter]
    split
    · rw [List.filter_cons, List.filter_cons, filter_withoutControlsAfter 0 rest (by simp)]
    next length some_ =>
      rw [some_, List.take_succ_cons, List.forall_mem_cons] at chars
      rw [filter_withoutControlsAfter length rest chars.2,
        List.filter_cons_of_neg (by simp [chars.1])]

/-- What is left without control sequences is a text just if all of it was. -/
theorem text?_withoutControls (w : Wide) : (withoutControls w).text?.isSome ↔ w.text?.isSome := by
  rw [Wide.text?_isSome_iff, Wide.text?_isSome_iff, withoutControls,
    filter_withoutControlsAfter 0 w (by simp)]

end Recast
