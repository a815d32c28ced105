import Recast.Proofs.Text.Part
import Recast.Text.Lines

/-!
# Lines of a text

A text that is put together from lines has just these lines: joining with line ends keeps the lines
of every part (`lines_unlines`), and text without a line end only makes the first or the last line
longer (`splitOn_append_first`, `splitOn_append_last`). Where two texts meet, the last line of the
one and the first line of the other are one line (`lines_append`, `unlines_append`).
-/

namespace Recast

theorem splitOn_ne_nil (mark : Char) : ∀ t : Text, splitOn mark t ≠ []
  | [] => by simp [splitOn]
  | c :: cs => by
    rw [splitOn]
    split
    · simp
    · split <;> simp

/-- A text without the mark is one piece. -/
theorem splitOn_eq_singleton {mark : Char} : ∀ {t : Text}, mark ∉ t → splitOn mark t = [t]
  | [], _ => rfl
  | c :: cs, h => by
    simp only [List.mem_cons, not_or] at h
    rw [splitOn, if_neg (Ne.symm h.1), splitOn_eq_singleton h.2]

/-- A mark between two texts keeps their pieces apart. -/
theorem splitOn_append_cons (mark : Char) (b : Text) :
    ∀ a : Text, splitOn mark (a ++ mark :: b) = splitOn mark a ++ splitOn mark b
  | [] => by simp [splitOn]
  | c :: cs => by
    have ih := splitOn_append_cons mark b cs
    obtain ⟨piece, pieces, hp⟩ := List.exists_cons_of_ne_nil (splitOn_ne_nil mark cs)
    rw [List.cons_append, splitOn, splitOn, ih]
    split
    · rfl
    · simp [hp]

/-- Text without the mark makes the first piece longer. -/
theorem splitOn_append_first {mark : Char} {t first : Text} {rest : List Text}
    (h : splitOn mark t = first :: rest) :
    ∀ {front : Text}, mark ∉ front → splitOn mark (front ++ t) = (front ++ first) :: rest
  | [], _ => h
  | c :: cs, hf => by
    simp only [List.mem_cons, not_or] at hf
    rw [List.cons_append, splitOn, if_neg (Ne.symm hf.1), splitOn_append_first h hf.2]
    rfl

/-- Text without the mark makes the last piece longer. -/
theorem splitOn_append_last {mark : Char} {back : Text} (hb : mark ∉ back) :
    ∀ {t last : Text} {front : List Text}, splitOn mark t = front ++ [last] →
      splitOn mark (t ++ back) = front ++ [last ++ back]
  | [], last, front, h => by
    obtain ⟨rfl, rfl⟩ : front = [] ∧ last = [] := by
      cases front with
      | nil => simpa [splitOn] using h.symm
      | cons piece pieces => simp [splitOn] at h
    simpa using splitOn_eq_singleton hb
  | c :: cs, last, front, h => by
    obtain ⟨pieces, piece, hp⟩ :=
      (List.eq_nil_or_concat (splitOn mark cs)).resolve_left (splitOn_ne_nil mark cs)
    rw [List.concat_eq_append] at hp
    have ih := splitOn_append_last hb hp
    rw [splitOn] at h
    rw [List.cons_append, splitOn, ih]
    split at h
    · rename_i hc
      rw [if_pos hc]
      rw [hp, ← List.cons_append] at h
      obtain ⟨rfl, last_eq⟩ := List.append_inj' h rfl
      rw [← List.singleton_inj.1 last_eq, List.cons_append]
    · rename_i hc
      rw [if_neg hc]
      cases pieces with
      | nil =>
        rw [hp] at h
        have h : [] ++ [c :: piece] = front ++ [last] := h
        obtain ⟨rfl, last_eq⟩ := List.append_inj' h rfl
        rw [← List.singleton_inj.1 last_eq]
        rfl
      | cons first pieces =>
        rw [hp] at h
        have h : (c :: first) :: pieces ++ [piece] = front ++ [last] := h
        obtain ⟨front_eq, last_eq⟩ := List.append_inj' h rfl
        rw [← front_eq, ← List.singleton_inj.1 last_eq]
        rfl

/-- No piece holds the mark. -/
theorem not_mem_of_mem_splitOn {mark : Char} :
    ∀ {t piece : Text}, piece ∈ splitOn mark t → mark ∉ piece
  | [], piece, h => by
    obtain rfl : piece = [] := by simpa [splitOn] using h
    exact List.not_mem_nil
  | c :: cs, piece, h => by
    obtain ⟨first, rest, hp⟩ := List.exists_cons_of_ne_nil (splitOn_ne_nil mark cs)
    have inner : ∀ piece ∈ first :: rest, mark ∉ piece := fun piece hm =>
      not_mem_of_mem_splitOn (t := cs) (by rw [hp]; exact hm)
    rw [splitOn, hp] at h
    split at h
    · rcases List.mem_cons.1 h with rfl | h
      · exact List.not_mem_nil
      · exact inner piece h
    · rename_i hc
      rcases List.mem_cons.1 h with rfl | h
      · simp only [List.mem_cons, not_or]
        exact ⟨Ne.symm hc, inner first (by simp)⟩
      · exact inner piece (by simp [h])

/-- Joining the pieces gives the text back. -/
theorem joinWith_splitOn (mark : Char) : ∀ t : Text, joinWith [mark] (splitOn mark t) = t
  | [] => rfl
  | c :: cs => by
    have ih := joinWith_splitOn mark cs
    obtain ⟨piece, pieces, split⟩ := List.exists_cons_of_ne_nil (splitOn_ne_nil mark cs)
    rw [splitOn]
    split
    next here =>
      rw [split] at ih ⊢
      rw [joinWith, ih, here]
      · rfl
      · simp
    · rw [split] at ih ⊢
      cases pieces with
      | nil => exact congrArg (c :: ·) ih
      | cons next pieces => exact congrArg (c :: ·) ih

/-- Where two texts meet, two pieces become one. -/
theorem splitOn_append {mark : Char} {s t last first : Text} {front rest : List Text}
    (hs : splitOn mark s = front ++ [last]) (ht : splitOn mark t = first :: rest) :
    splitOn mark (s ++ t) = front ++ (last ++ first) :: rest := by
  have plain : mark ∉ first := not_mem_of_mem_splitOn (by rw [ht]; exact List.mem_cons_self)
  have whole : joinWith [mark] (first :: rest) = t := ht ▸ joinWith_splitOn mark t
  have longer := splitOn_append_last plain hs
  cases rest with
  | nil => rwa [← whole]
  | cons next rest =>
    have cut : t = first ++ mark :: joinWith [mark] (next :: rest) := by
      rw [← whole]
      simp [joinWith]
    have later : splitOn mark (joinWith [mark] (next :: rest)) = next :: rest := by
      rw [cut, splitOn_append_cons, splitOn_eq_singleton plain] at ht
      exact (List.cons.inj ht).2
    rw [cut, ← List.append_assoc, splitOn_append_cons, longer, later, List.append_assoc]
    rfl

theorem unlines_cons_cons (line next : Text) (rest : List Text) :
    unlines (line :: next :: rest) = line ++ '\n' :: unlines (next :: rest) := by
  simp [unlines, joinWith]

/-- Joining with line ends keeps the lines of every part. -/
theorem lines_unlines : ∀ {ls : List Text}, ls ≠ [] → lines (unlines ls) = ls.flatMap lines
  | [line], _ => by simp [unlines, joinWith]
  | line :: next :: rest, _ => by
    have ih : lines (unlines (next :: rest)) = (next :: rest).flatMap lines :=
      lines_unlines (by simp)
    rw [unlines_cons_cons, lines, splitOn_append_cons, List.flatMap_cons, ← ih]
    rfl

theorem flatMap_lines : ∀ {ls : List Text}, (∀ line ∈ ls, '\n' ∉ line) → ls.flatMap lines = ls
  | [], _ => rfl
  | line :: ls, h => by
    rw [List.flatMap_cons, lines, splitOn_eq_singleton (h line List.mem_cons_self),
      flatMap_lines fun line hl => h line (List.mem_cons_of_mem _ hl)]
    rfl

theorem unlines_lines (t : Text) : unlines (lines t) = t :=
  joinWith_splitOn '\n' t

theorem exists_lines_eq_cons (t : Text) : ∃ first rest, lines t = first :: rest :=
  List.exists_cons_of_ne_nil (splitOn_ne_nil '\n' t)

theorem exists_lines_eq_append (t : Text) : ∃ front last, lines t = front ++ [last] := by
  obtain ⟨front, last, h⟩ := (List.eq_nil_or_concat (lines t)).resolve_left (splitOn_ne_nil '\n' t)
  exact ⟨front, last, h.trans (List.concat_eq_append)⟩

theorem lines_append {s t last first : Text} {front rest : List Text}
    (hs : lines s = front ++ [last])
    (ht : lines t = first :: rest) : lines (s ++ t) = front ++ (last ++ first) :: rest :=
  splitOn_append hs ht

theorem unlines_append (last first : Text) (rest : List Text) :
    ∀ front : List Text, unlines (front ++ (last ++ first) :: rest) =
      unlines (front ++ [last]) ++ unlines (first :: rest)
  | [] => by cases rest <;> simp [unlines, joinWith]
  | [line] => by
    have ih := unlines_append last first rest []
    rw [List.nil_append, List.nil_append] at ih
    rw [List.singleton_append, List.singleton_append, unlines_cons_cons, unlines_cons_cons, ih]
    simp
  | line :: next :: front => by
    have ih := unlines_append last first rest (next :: front)
    rw [List.cons_append, List.cons_append] at ih
    rw [List.cons_append, List.cons_append, List.cons_append, List.cons_append, unlines_cons_cons,
      unlines_cons_cons, ih]
    simp

theorem unlines_isSuffix (ls : List Text) :
    ∀ front : List Text, unlines ls <:+ unlines (front ++ ls)
  | [] => List.suffix_rfl
  | line :: front => by
    have ih := unlines_isSuffix ls front
    cases h : front ++ ls with
    | nil => rw [(List.append_eq_nil_iff.1 h).2]; exact List.nil_suffix
    | cons next rest =>
      rw [h] at ih
      rw [List.cons_append, h, unlines_cons_cons]
      exact (ih.trans (List.suffix_cons _ _)).trans (List.suffix_append _ _)

theorem unlines_isPrefix (back : List Text) : ∀ ls : List Text, unlines ls <+: unlines (ls ++ back)
  | [] => List.nil_prefix
  | [line] => by
    cases back with
    | nil => exact List.prefix_rfl
    | cons next rest => exact ⟨_, (unlines_cons_cons line next rest).symm⟩
  | line :: next :: ls => by
    have ih := unlines_isPrefix back (next :: ls)
    rw [List.cons_append, List.cons_append, unlines_cons_cons, unlines_cons_cons]
    exact (List.prefix_append_right_inj line).2 (List.cons_prefix_cons.2 ⟨rfl, ih⟩)

/-- Lines among others are joined as they are alone. -/
theorem unlines_isInfix (front ls back : List Text) :
    unlines ls <:+: unlines (front ++ ls ++ back) :=
  ((unlines_isSuffix ls front).isInfix).trans (unlines_isPrefix back (front ++ ls)).isInfix

end Recast
