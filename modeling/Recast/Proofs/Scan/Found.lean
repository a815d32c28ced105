import Recast.Proofs.Text.Part
import Recast.Scan.TopLevel

/-!
# What scanners find

A scanner that finds an end has read the mark that ends the piece: a bracket ends behind its closing
character (`bracketEnd_found`), a tag and an element behind a `>` (`tagEnd_found`,
`elementEnd_found`). A match at the top level is one of the pattern at its place
(`mem_topLevelFrom`).

Each law gives the text that was passed over, so that offsets need not be compared.
-/

namespace Recast

/-- The text up to `stop`, which is counted from `pos`, ends with the character `last`. -/
def EndsBy (last : Char) (pos : Nat) (t : Text) (stop : Nat) : Prop :=
  ∃ inner rest, t = inner ++ last :: rest ∧ stop = pos + inner.length + 1

theorem EndsBy.head (last : Char) (pos : Nat) (cs : Text) :
    EndsBy last pos (last :: cs) (pos + 1) :=
  ⟨[], cs, rfl, rfl⟩

theorem EndsBy.cons {last : Char} {pos : Nat} {t : Text} {stop : Nat} (c : Char)
    (h : EndsBy last (pos + 1) t stop) : EndsBy last pos (c :: t) stop := by
  obtain ⟨inner, rest, rfl, rfl⟩ := h
  exact ⟨c :: inner, rest, rfl, by rw [List.length_cons]; omega⟩

theorem EndsBy.bounds {last : Char} {pos : Nat} {t : Text} {stop : Nat}
    (h : EndsBy last pos t stop) : pos < stop ∧ stop ≤ pos + t.length := by
  obtain ⟨inner, rest, rfl, rfl⟩ := h
  simp only [List.length_append, List.length_cons]
  omega

/-! ## Brackets, tags and elements -/

/-- A bracket ends behind its closing character. -/
theorem bracketEnd_found (kind : Bracket) :
    ∀ {t : Text} {depth : Nat} {behind : Text} {pos resume stop : Nat},
      bracketEnd kind depth behind pos resume t = some stop → EndsBy kind.closer pos t stop
  | [], _, _, _, _, _, h => by simp [bracketEnd] at h
  | c :: cs, depth, behind, pos, resume, stop, h => by
    rw [bracketEnd] at h
    split at h
    · exact (bracketEnd_found kind h).cons c
    · split at h
      · exact (bracketEnd_found kind h).cons c
      · split at h
        · exact (bracketEnd_found kind h).cons c
        · split at h
          · split at h
            · obtain rfl := Option.some.inj h
              rename_i closes _
              exact closes ▸ EndsBy.head c pos cs
            · exact (bracketEnd_found kind h).cons c
          · exact (bracketEnd_found kind h).cons c

/-- An opening tag ends behind a `>`. -/
theorem tagEnd_found {name : Text} {start : Nat} :
    ∀ {t : Text} {previous : Char} {pos resume : Nat} {tag : TagEnd},
      tagEnd name start previous pos resume t = .ok tag → EndsBy '>' pos t tag.stop
  | [], _, _, _, _, h => by simp [tagEnd] at h
  | c :: cs, previous, pos, resume, tag, h => by
    rw [tagEnd] at h
    split at h
    · exact (tagEnd_found h).cons c
    · split at h
      · exact (tagEnd_found h).cons c
      · split at h
        · split at h
          · exact (tagEnd_found h).cons c
          · simp at h
        · split at h
          · rename_i closes
            obtain rfl := Except.ok.inj h
            exact closes ▸ EndsBy.head c pos cs
          · exact (tagEnd_found h).cons c

/-- A tag, unlike an expression, is read up to a `>`. -/
theorem markAt_found {pos : Nat} {c : Char} {cs : Text} {token : Token}
    (h : markAt pos c cs = some (.ok token))
    (kind : token.kind ≠ .expression) : c = '<' ∧ EndsBy '>' (pos + 1) cs token.stop := by
  rw [markAt, markBy.eq_def] at h
  split at h
  · split at h
    · obtain rfl := Except.ok.inj (Option.some.inj h)
      exact absurd rfl kind
    · simp at h
  · split at h
    · rename_i opens
      simp only [Bool.and_eq_true, decide_eq_true_eq] at opens
      refine ⟨opens.1, ?_⟩
      split at h
      · rename_i rest _
        split at h
        · rename_i name after cut
          obtain rfl := Except.ok.inj (Option.some.inj h)
          refine ⟨'/' :: name, after, ?_, ?_⟩
          · rw [eq_append_of_cutAt? cut, List.cons_append]
          · simp only [List.length_cons]
            omega
        · simp at h
      · split at h
        · simp at h
        · rename_i found
          obtain rfl := Except.ok.inj (Option.some.inj h)
          exact tagEnd_found found
    · simp at h

/-- What follows an opening tag ends behind the `>` of its closing tag. -/
theorem childrenEnd_found {name : Text} :
    ∀ {t : Text} {depth pos resume stop : Nat},
      childrenEnd name depth pos resume t = .ok (some stop) → EndsBy '>' pos t stop
  | [], _, _, _, _, h => by simp [childrenEnd] at h
  | c :: cs, depth, pos, resume, stop, h => by
    rw [childrenEnd] at h
    split at h
    · exact (childrenEnd_found h).cons c
    · split at h
      · exact (childrenEnd_found h).cons c
      · simp at h
      · rename_i token mark
        split at h
        · exact (childrenEnd_found h).cons c
        · rename_i closing
          split at h
          · split at h
            · obtain rfl := Option.some.inj (Except.ok.inj h)
              exact (markAt_found mark (by simp [closing])).2.cons c
            · simp at h
          · exact (childrenEnd_found h).cons c
        · exact (childrenEnd_found h).cons c

/-- An element starts with `<` and ends behind a `>`. -/
theorem elementEnd_found {pos : Nat} {c : Char} {cs : Text} {stop : Nat}
    (h : elementEnd pos c cs = .ok (some stop)) : c = '<' ∧ EndsBy '>' (pos + 1) cs stop := by
  rw [elementEnd] at h
  split at h
  · simp at h
  · simp at h
  · rename_i token mark
    split at h
    · rename_i kind
      obtain rfl := Option.some.inj (Except.ok.inj h)
      exact markAt_found mark (by simp [kind])
    · rename_i kind
      exact ⟨(markAt_found mark (by simp [kind])).1, childrenEnd_found h⟩
    · simp at h

/-! ## Scans at an offset -/

theorem length_of_drop_eq_cons {t cs : Text} {pos : Nat} {c : Char} (h : t.drop pos = c :: cs) :
    pos + 1 + cs.length = t.length := by
  have := congrArg List.length h
  simp only [List.length_drop, List.length_cons] at this
  omega

/-- A bracket ends behind its opening character, inside the text. -/
theorem bracketEndAt?_bounds {t : Text} {pos stop : Nat} (h : bracketEndAt? t pos = some stop) :
    pos + 1 < stop ∧ stop ≤ t.length := by
  rw [bracketEndAt?] at h
  split at h
  · rename_i c cs here
    obtain ⟨kind, -, found⟩ := Option.bind_eq_some_iff.1 h
    have bounds := (bracketEnd_found kind found).bounds
    have := length_of_drop_eq_cons here
    omega
  · simp at h

/-- An element ends behind its opening character, inside the text. -/
theorem elementEndAt_bounds {t : Text} {pos stop : Nat} (h : elementEndAt t pos = .ok (some stop)) :
    pos + 1 < stop ∧ stop ≤ t.length := by
  rw [elementEndAt] at h
  split at h
  · rename_i c cs here
    have bounds := (elementEnd_found h).2.bounds
    have := length_of_drop_eq_cons here
    omega
  · simp at h

/-! ## The top level -/

/-- A match at the top level is a match of the pattern at its place. -/
theorem mem_topLevelFrom {pattern : Pattern} {span : Span} :
    ∀ {t behind : Text} {pos resume : Nat}, span ∈ topLevelFrom pattern behind pos resume t →
      ∃ passed ahead size, t = passed ++ ahead ∧
        pattern (passed.reverse ++ behind) ahead = some size ∧
        span = ⟨pos + passed.length, pos + passed.length + size⟩
  | [], _, _, _, h => by simp [topLevelFrom] at h
  | c :: cs, behind, pos, resume, h => by
    -- a match in the rest of the text has the character in what it passes over
    have tail : ∀ {resume}, span ∈ topLevelFrom pattern (c :: behind) (pos + 1) resume cs →
        ∃ passed ahead size, c :: cs = passed ++ ahead ∧
          pattern (passed.reverse ++ behind) ahead = some size ∧
          span = ⟨pos + passed.length, pos + passed.length + size⟩ := by
      intro resume h
      obtain ⟨passed, ahead, size, rfl, found, rfl⟩ := mem_topLevelFrom h
      refine ⟨c :: passed, ahead, size, rfl, by simpa using found, ?_⟩
      rw [List.length_cons, Nat.add_assoc pos 1, Nat.add_comm 1]
    rw [topLevelFrom] at h
    split at h
    · exact tail h
    · split at h
      · exact tail h
      · split at h
        · rename_i size found
          rcases List.mem_cons.1 h with rfl | h
          · exact ⟨[], c :: cs, size, rfl, found, rfl⟩
          · exact tail h
        · exact tail h

/-- Behind a unit that goes to the end of the text nothing is found. -/
theorem topLevelFrom_of_length_le {pattern : Pattern} :
    ∀ {t behind : Text} {pos resume : Nat}, pos + t.length ≤ resume →
      topLevelFrom pattern behind pos resume t = []
  | [], _, _, _, _ => rfl
  | c :: cs, behind, pos, resume, h => by
    rw [List.length_cons] at h
    rw [topLevelFrom, if_pos (by omega)]
    exact topLevelFrom_of_length_le (by omega)

/-- A bracket that is never closed takes the rest of the text. -/
theorem topLevelFrom_unclosed {pattern : Pattern} (kind : Bracket) {behind cs : Text} {pos : Nat}
    (h : bracketEnd kind 0 [kind.opener] (pos + 1) 0 cs = none) :
    topLevelFrom pattern behind pos 0 (kind.opener :: cs) = [] := by
  have kinds : Bracket.ofOpener? kind.opener = some kind := by cases kind <;> rfl
  have unit : unitEnd? pos behind kind.opener cs = some (pos + 1 + cs.length) := by
    simp [unitEnd?, nestedEnd?, kinds, h]
  rw [topLevelFrom, if_neg (Nat.not_lt_zero _), unit]
  exact topLevelFrom_of_length_le (Nat.le_refl _)

end Recast
