import Mathlib.Tactic.Common
import Recast.Text.Occurrence

/-!
# Searching a text piece by piece

A text that is put together from pieces is searched one piece after the other: a piece in which the
recogniser is silent is passed over (`occurrencesFrom_silent`), and a piece that it covers from
start to end is one occurrence (`occurrencesFrom_found`). Where nothing goes past the end of a
piece, the search goes on there (`occurrencesFrom_within`).
-/

namespace Recast

variable {α : Type} {recognise : Recogniser α}

/-- The recogniser succeeds nowhere in the piece that stands between `behind` (read backwards) and
`rest`. -/
def SilentIn (recognise : Recogniser α) (behind piece rest : Text) : Prop :=
  ∀ passed ahead, piece = passed ++ ahead → ahead ≠ [] →
    recognise (passed.reverse ++ behind) (ahead ++ rest) = none

theorem SilentIn.tail {behind cs rest : Text} {c : Char}
    (h : SilentIn recognise behind (c :: cs) rest) : SilentIn recognise (c :: behind) cs rest := by
  intro passed ahead split nonempty
  simpa using h (c :: passed) ahead (by rw [split]; rfl) nonempty

theorem SilentIn.append {behind first second rest : Text}
    (hf : SilentIn recognise behind first (second ++ rest))
    (hs : SilentIn recognise (first.reverse ++ behind) second rest) :
    SilentIn recognise behind (first ++ second) rest := by
  intro passed ahead split nonempty
  rcases List.append_eq_append_iff.1 split with ⟨more, rfl, rfl⟩ | ⟨more, rfl, rfl⟩
  · simpa using hs more ahead rfl nonempty
  · cases more with
    | nil => simpa using hs [] second rfl (by simpa using nonempty)
    | cons c cs => simpa using hf passed (c :: cs) rfl (by simp)

/-- A recogniser that succeeds nowhere has no occurrence. -/
theorem occurrencesFrom_eq_nil (atEnd : ∀ behind, recognise behind [] = none) :
    ∀ (t behind : Text) (pos : Nat),
      (∀ passed more, t = passed ++ more → more ≠ [] →
        recognise (passed.reverse ++ behind) more = none) →
      occurrencesFrom recognise behind pos 0 t = []
  | [], behind, _, _ => by rw [occurrencesFrom, atEnd]
  | c :: cs, behind, pos, h => by
    have here : recognise behind (c :: cs) = none := h [] (c :: cs) rfl (by simp)
    have ih := occurrencesFrom_eq_nil atEnd cs (c :: behind) (pos + 1) fun passed more he hm => by
      simpa using h (c :: passed) more (by rw [he]; rfl) hm
    rw [occurrencesFrom, if_neg (Nat.not_lt_zero _), here]
    exact ih

/-- A `resume` that lies behind is the same as none. -/
theorem occurrencesFrom_of_le : ∀ (t behind : Text) {pos resume : Nat}, resume ≤ pos →
    occurrencesFrom recognise behind pos resume t = occurrencesFrom recognise behind pos 0 t
  | [], _, _, _, _ => rfl
  | c :: cs, behind, pos, resume, h => by
    rw [occurrencesFrom, occurrencesFrom, if_neg (Nat.not_lt.2 h), if_neg (Nat.not_lt_zero _),
      occurrencesFrom_of_le cs (c :: behind) (Nat.le_succ_of_le h)]

/-- The characters before `resume` are passed over. -/
theorem occurrencesFrom_skip (rest : Text) : ∀ (piece behind : Text) (pos : Nat),
    occurrencesFrom recognise behind pos (pos + piece.length) (piece ++ rest) =
      occurrencesFrom recognise (piece.reverse ++ behind) (pos + piece.length) 0 rest
  | [], behind, pos => occurrencesFrom_of_le rest behind (Nat.le_refl _)
  | c :: cs, behind, pos => by
    have ih := occurrencesFrom_skip rest cs (c :: behind) (pos + 1)
    rw [List.cons_append, occurrencesFrom, if_pos (by simp), List.length_cons, ← Nat.add_assoc,
      Nat.add_right_comm, ih]
    simp

/-- A silent piece is passed over. -/
theorem occurrencesFrom_silent (rest : Text) : ∀ {piece behind : Text} (pos : Nat),
    SilentIn recognise behind piece rest →
      occurrencesFrom recognise behind pos 0 (piece ++ rest) =
        occurrencesFrom recognise (piece.reverse ++ behind) (pos + piece.length) 0 rest
  | [], _, _, _ => rfl
  | c :: cs, behind, pos, h => by
    have here : recognise behind (c :: (cs ++ rest)) = none := h [] (c :: cs) rfl (by simp)
    have ih := occurrencesFrom_silent rest (pos + 1) h.tail
    rw [List.cons_append, occurrencesFrom, if_neg (Nat.not_lt_zero _), here, ih]
    simp [Nat.add_comm, Nat.add_left_comm]

/-- A piece that the recogniser covers is one occurrence. -/
theorem occurrencesFrom_found {behind piece rest : Text} {value : α} (pos : Nat)
    (nonempty : piece ≠ []) (h : recognise behind (piece ++ rest) = some (value, piece.length)) :
    occurrencesFrom recognise behind pos 0 (piece ++ rest) =
      ⟨pos, pos + piece.length, value⟩
        :: occurrencesFrom recognise (piece.reverse ++ behind) (pos + piece.length) 0 rest := by
  obtain ⟨c, cs, rfl⟩ := List.exists_cons_of_ne_nil nonempty
  have length : pos + (c :: cs).length = pos + 1 + cs.length := by
    rw [List.length_cons]
    omega
  have skip : occurrencesFrom recognise (c :: behind) (pos + 1) (pos + 1 + cs.length) (cs ++ rest) =
      _ :=
    occurrencesFrom_skip rest cs (c :: behind) (pos + 1)
  rw [List.cons_append] at h ⊢
  rw [occurrencesFrom, if_neg (Nat.not_lt_zero _), h]
  simp only [length, skip, List.reverse_cons, List.append_assoc, List.singleton_append]

/-- Where nothing that is found in a piece goes past its end, the search goes on behind the
piece. -/
theorem occurrencesFrom_within {P : Occurrence α → Prop} (rest : Text) :
    ∀ (piece behind : Text) (pos : Nat) {resume : Nat}, resume ≤ pos + piece.length →
    (∀ passed ahead, piece = passed ++ ahead → ahead ≠ [] → ∀ {value : α} {size : Nat},
      recognise (passed.reverse ++ behind) (ahead ++ rest) = some (value, size) →
        size ≤ ahead.length ∧ P ⟨pos + passed.length, pos + passed.length + size, value⟩) →
      ∃ before, (∀ found ∈ before, P found) ∧
        occurrencesFrom recognise behind pos resume (piece ++ rest) =
          before ++ occurrencesFrom recognise (piece.reverse ++ behind) (pos + piece.length) 0 rest
  | [], behind, pos, resume, le, _ => ⟨[], by simp, occurrencesFrom_of_le rest behind le⟩
  | c :: cs, behind, pos, resume, le, h => by
    have length : pos + 1 + cs.length = pos + (c :: cs).length := by
      rw [List.length_cons]
      omega
    have next : ∀ {resume : Nat}, resume ≤ pos + (c :: cs).length → ∃ before,
        (∀ found ∈ before, P found) ∧
        occurrencesFrom recognise (c :: behind) (pos + 1) resume (cs ++ rest) =
          before ++ occurrencesFrom recognise ((c :: cs).reverse ++ behind) (pos + (c :: cs).length)
            0 rest := by
      intro resume le
      have ih := occurrencesFrom_within (P := P) rest cs (c :: behind) (pos + 1) (length ▸ le)
        fun passed ahead split nonempty value size success => by
          have here := @h (c :: passed) ahead (by rw [split]; rfl) nonempty value size
            (by rwa [List.reverse_cons, List.append_assoc, List.singleton_append])
          rwa [List.length_cons, Nat.add_comm passed.length, ← Nat.add_assoc] at here
      rwa [length, ← List.singleton_append, ← List.append_assoc, ← List.reverse_cons] at ih
    rw [List.cons_append, occurrencesFrom]
    split
    · exact next le
    cases here : recognise behind (c :: (cs ++ rest)) with
    | none => exact next le
    | some found =>
      obtain ⟨value, size⟩ := found
      obtain ⟨within, first⟩ := h [] (c :: cs) rfl (by simp) here
      obtain ⟨before, all, rest⟩ := next (Nat.add_le_add_left within pos)
      exact ⟨_ :: before, List.forall_mem_cons.2 ⟨first, all⟩, congrArg _ rest⟩

/-- Of a recogniser that always covers some text, no occurrence starts before the end of an earlier
one. -/
theorem occurrencesFrom_pairwise (fits : ∀ behind ahead value size,
    recognise behind ahead = some (value, size) → 0 < size ∧ size ≤ ahead.length) (t behind : Text)
    (pos resume : Nat) :
    (∀ found ∈ occurrencesFrom recognise behind pos resume t, resume ≤ found.start) ∧
      (occurrencesFrom recognise behind pos resume t).Pairwise fun a b => a.stop ≤ b.start := by
  induction t generalizing behind pos resume with
  | nil =>
    rw [occurrencesFrom]
    cases here : recognise behind [] with
    | none => exact ⟨List.forall_mem_nil _, .nil⟩
    | some found =>
      have := fits behind [] found.1 found.2 here
      rw [List.length_nil] at this
      omega
  | cons c cs ih =>
    rw [occurrencesFrom]
    split
    · exact ih (c :: behind) (pos + 1) resume
    rename_i reached
    cases recognise behind (c :: cs) with
    | none => exact ih (c :: behind) (pos + 1) resume
    | some found =>
      obtain ⟨value, size⟩ := found
      obtain ⟨later, ordered⟩ := ih (c :: behind) (pos + 1) (pos + size)
      refine ⟨List.forall_mem_cons.2 ⟨Nat.le_of_not_lt reached, fun found hm => ?_⟩,
        List.pairwise_cons.2 ⟨later, ordered⟩⟩
      have := later found hm
      omega

end Recast
