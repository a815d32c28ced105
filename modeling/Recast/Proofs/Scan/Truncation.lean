import Recast.Proofs.Markup.BracedValue
import Recast.Proofs.Scope.ClosedCode

/-!
# Scanning a cut text

A scanner that does not come to an end where its text is cut off goes to the cut, and one that ends
before it ends at the same place. So the end of a literal in the first part `w` of a text without
`<` is the end in the whole text, or the end of `w` if that comes first (`literalEnd_cut`), and a
bracket that is closed behind `w` is not closed in `w` (`bracketEnd_cut`).

Elements are what the laws leave out: a tag that is cut off is no tag, and its text is read as code.
A comment goes to the cut as a literal does, unless `w` ends with its first character: then it is no
comment in `w`, but nothing is left to read behind it.
-/

namespace Recast

/-! ## Comments -/

/-- A line comment that is cut off goes to the cut. -/
theorem lineEnd_cut (x : Text) : ∀ (w : Text) (pos : Nat),
    (offsetOf? (· == '\n') pos w).getD (pos + w.length) =
      min ((offsetOf? (· == '\n') pos (w ++ x)).getD (pos + (w ++ x).length)) (pos + w.length)
  | [], pos => (Nat.min_eq_right (le_lineEnd x pos).1).symm
  | c :: cs, pos => by
    have ih := lineEnd_cut x cs (pos + 1)
    rw [List.cons_append, offsetOf?, offsetOf?]
    split
    · exact (Nat.min_eq_left (Nat.le_add_right _ _)).symm
    · simp only [List.length_cons, Nat.add_comm _ 1, ← Nat.add_assoc] at ih ⊢
      exact ih

/-- A block comment goes on where no `*/` starts. -/
theorem blockCommentEnd_other {c : Char} {cs : Text} (open_ : ¬ (c = '*' ∧ cs.head? = some '/'))
    (pos : Nat) : blockCommentEnd pos (c :: cs) = blockCommentEnd (pos + 1) cs := by
  rw [blockCommentEnd]
  rintro rest rfl rfl
  exact open_ ⟨rfl, rfl⟩

/-- A block comment that is cut off goes to the cut. -/
theorem blockCommentEnd_cut (x : Text) : ∀ (w : Text) (pos : Nat),
    blockCommentEnd pos w = min (blockCommentEnd pos (w ++ x)) (pos + w.length)
  | [], pos => (Nat.min_eq_right (le_blockCommentEnd x pos).1).symm
  | c :: cs, pos => by
    have ih := blockCommentEnd_cut x cs (pos + 1)
    by_cases close : c = '*' ∧ (cs ++ x).head? = some '/'
    · obtain ⟨rfl, slash⟩ := close
      obtain ⟨rest, split⟩ := List.head?_eq_some_iff.1 slash
      cases cs with
      | nil =>
        rw [List.singleton_append, ← List.nil_append x, split, blockCommentEnd_other (by simp)]
        exact (Nat.min_eq_right (Nat.le_succ _)).symm
      | cons d ds =>
        obtain ⟨rfl, rfl⟩ := List.cons.inj split
        refine (Nat.min_eq_left ?_).symm
        rw [blockCommentEnd]
        simp
    · have here : ¬ (c = '*' ∧ cs.head? = some '/') :=
        fun h => close ⟨h.1, by simp [List.head?_append, h.2]⟩
      rw [List.cons_append, blockCommentEnd_other close, blockCommentEnd_other here, ih,
        List.length_cons, Nat.add_comm cs.length, Nat.add_assoc]

/-- A comment that is cut off behind its first characters goes to the cut. -/
theorem commentEnd?_cut (x : Text) (pos : Nat) (c : Char) {w : Text} (filled : w ≠ []) :
    commentEnd? pos c w = (commentEnd? pos c (w ++ x)).map (min · (pos + 1 + w.length)) := by
  obtain ⟨d, ds, rfl⟩ := List.exists_cons_of_ne_nil filled
  have size : pos + 1 + (d :: ds).length = pos + 2 + ds.length := by
    rw [List.length_cons]
    omega
  rw [size, List.cons_append]
  by_cases comment : c = '/' ∧ (d = '/' ∨ d = '*')
  · obtain ⟨rfl, rfl | rfl⟩ := comment
    · exact congrArg some (lineEnd_cut x ds (pos + 2))
    · exact congrArg some (blockCommentEnd_cut x ds (pos + 2))
  · have none : ∀ t : Text, commentEnd? pos c (d :: t) = none := by
      refine fun t => commentEnd?_eq_none (fun slash => ⟨d, t, rfl, ?_, ?_⟩) pos
      · rintro rfl
        exact comment ⟨slash, .inl rfl⟩
      · rintro rfl
        exact comment ⟨slash, .inr rfl⟩
    rw [none, none, Option.map_none]

/-! ## Where scanning resumes -/

/-- What is behind the end of the text is not passed over. -/
theorem bracketEnd_capped (kind : Bracket) (stop : Nat) :
    ∀ (t : Text) (depth : Nat) (behind : Text) (pos : Nat),
    bracketEnd kind depth behind pos (min stop (pos + t.length)) t =
      bracketEnd kind depth behind pos stop t
  | [], _, _, _ => rfl
  | c :: cs, depth, behind, pos => by
    by_cases passed : pos < stop
    · have ih := bracketEnd_capped kind stop cs depth (c :: behind) (pos + 1)
      rw [Nat.add_right_comm, Nat.add_assoc] at ih
      rw [bracketEnd, bracketEnd, if_pos passed, if_pos (by simp; omega)]
      exact ih
    · rw [Nat.min_eq_left (by omega)]

/-! ## Literals and brackets -/

/-- Whether a slash starts a comment or not, a bracket goes on behind it. -/
theorem bracketEnd_slash (kind : Bracket) (depth : Nat) (behind : Text) (pos resume : Nat)
    (cs : Text) :
    ∃ resume', bracketEnd kind depth behind pos resume ('/' :: cs) =
      bracketEnd kind depth ('/' :: behind) (pos + 1) resume' cs := by
  have opener : '/' ≠ kind.opener := by cases kind <;> decide
  have closer : '/' ≠ kind.closer := by cases kind <;> decide
  by_cases passed : pos < resume
  · exact ⟨resume, by rw [bracketEnd, if_pos passed]⟩
  · rw [bracketEnd_of_le kind _ (Nat.not_lt.1 passed)]
    cases comment : opaqueEnd? pos behind '/' cs with
    | some stop => exact ⟨stop, bracketEnd_covered comment⟩
    | none => exact ⟨0, by rw [bracketEnd_bare comment, if_neg opener, if_neg closer]⟩

theorem opaqueEnd?_of_ne {c : Char} (tag : c ≠ '<') (pos : Nat) (behind cs : Text) :
    opaqueEnd? pos behind c cs =
      if isQuote c then some (literalEnd c (pos + 1) 0 cs) else commentEnd? pos c cs := by
  rw [opaqueEnd?, opaqueEndBy]
  split
  · rfl
  · split
    · rfl
    · rename_i slash
      rw [if_neg (by simp [tag]), commentEnd?.eq_def, if_neg slash]

section Cut

variable (x : Text)

-- A template has code in it and code has templates: the two laws are proved together, by induction
-- on the length of `w`.
mutual

/-- A literal that is cut off goes to the cut. -/
theorem literalEnd_cut (quote : Char) : ∀ (w : Text) (pos resume : Nat), '<' ∉ w →
    literalEnd quote pos resume w = min (literalEnd quote pos resume (w ++ x)) (pos + w.length)
  | [], pos, resume, _ => (Nat.min_eq_right (literalEnd_bounds quote x pos resume).1).symm
  | c :: cs, pos, resume, code => by
    have next (resume : Nat) : literalEnd quote (pos + 1) resume cs =
        min (literalEnd quote (pos + 1) resume (cs ++ x)) (pos + (c :: cs).length) := by
      rw [literalEnd_cut quote cs (pos + 1) resume fun mem => code (List.mem_cons_of_mem _ mem),
        List.length_cons, Nat.add_comm cs.length, Nat.add_assoc]
    by_cases substitutes : resume ≤ pos ∧ quote = '`' ∧ c = '$' ∧ (cs ++ x).head? = some '{'
    · obtain ⟨le, rfl, rfl, brace⟩ := substitutes
      rw [literalEnd_of_le '`' _ le, literalEnd_of_le '`' _ le]
      cases cs with
      | nil =>
        have filled : x ≠ [] := by
          rintro rfl
          cases brace
        have later := lt_literalEnd_dollar filled pos
        rw [literalEnd_dollar (by simp), List.singleton_append, List.length_singleton,
          Nat.min_eq_right later.le]
        rfl
      | cons d ds =>
        obtain rfl : d = '{' := by simpa using brace
        have plain : '<' ∉ ds := fun mem => code (by simp [mem])
        have inner := bracketEnd_cut .curly ds 0 ['{'] (pos + 2) 0 plain
        have size : pos + ('$' :: '{' :: ds).length = pos + 2 + ds.length := by
          simp only [List.length_cons]
          omega
        rw [size, List.cons_append, List.cons_append]
        cases found : bracketEnd .curly 0 ['{'] (pos + 2) 0 (ds ++ x) with
        | none =>
          rw [found, Option.filter_none] at inner
          rw [literalEnd_unclosed found, literalEnd_unclosed inner, List.length_append]
          omega
        | some stop =>
          have bounds := (bracketEnd_found .curly found).bounds
          have after := resume_le_literalEnd '`' (ds ++ x) (pos + 2) stop bounds.2
          rw [found] at inner
          rw [literalEnd_substitution found]
          by_cases inside : stop ≤ pos + 2 + ds.length
          · rw [Option.filter_some_pos (by simpa using inside)] at inner
            rw [literalEnd_substitution inner]
            exact literalEnd_cut '`' ds (pos + 2) stop plain
          · rw [Option.filter_some_neg (by simpa using inside)] at inner
            rw [literalEnd_unclosed inner, Nat.min_eq_right (by omega)]
    · have static : ¬ (resume ≤ pos ∧ quote = '`' ∧ c = '$' ∧ cs.head? = some '{') := fun h =>
        substitutes ⟨h.1, h.2.1, h.2.2.1, by simp [List.head?_append, h.2.2.2]⟩
      rw [List.cons_append, literalEnd_cons static, literalEnd_cons substitutes]
      split
      · exact next resume
      · split
        · exact next (pos + 2)
        · split
          · exact (Nat.min_eq_left (by simp)).symm
          · exact next resume
termination_by w => w.length

/-- A bracket that is closed behind the cut is not closed before it. -/
theorem bracketEnd_cut (kind : Bracket) :
    ∀ (w : Text) (depth : Nat) (behind : Text) (pos resume : Nat), '<' ∉ w →
    bracketEnd kind depth behind pos resume w =
      (bracketEnd kind depth behind pos resume (w ++ x)).filter (· ≤ pos + w.length)
  | [], depth, behind, pos, resume, _ => by
    cases found : bracketEnd kind depth behind pos resume x with
    | none => simp [found, bracketEnd]
    | some stop =>
      have later := (bracketEnd_found kind found).bounds.1
      rw [List.nil_append, found, Option.filter_some_neg (by simpa using later)]
      rfl
  | c :: cs, depth, behind, pos, resume, code => by
    have next (depth resume : Nat) : bracketEnd kind depth (c :: behind) (pos + 1) resume cs =
        (bracketEnd kind depth (c :: behind) (pos + 1) resume (cs ++ x)).filter
          (· ≤ pos + (c :: cs).length) := by
      rw [bracketEnd_cut kind cs depth (c :: behind) (pos + 1) resume
        fun mem => code (List.mem_cons_of_mem _ mem), List.length_cons, Nat.add_comm cs.length,
        Nat.add_assoc]
    by_cases slash : c = '/' ∧ cs = []
    · -- the start of a comment may be cut off, and behind it nothing is left
      obtain ⟨rfl, rfl⟩ := slash
      obtain ⟨resume₁, cut⟩ := bracketEnd_slash kind depth behind pos resume []
      obtain ⟨resume₂, whole⟩ := bracketEnd_slash kind depth behind pos resume x
      rw [List.singleton_append, cut, whole]
      exact next depth resume₂
    have tag : c ≠ '<' := fun same => code (by simp [same])
    have covered : opaqueEnd? pos behind c cs =
        (opaqueEnd? pos behind c (cs ++ x)).map (min · (pos + 1 + cs.length)) := by
      rw [opaqueEnd?_of_ne tag, opaqueEnd?_of_ne tag]
      split
      · rw [literalEnd_cut c cs (pos + 1) 0 fun mem => code (List.mem_cons_of_mem _ mem),
          Option.map_some]
      · by_cases filled : cs = []
        · have other : c ≠ '/' := fun same => slash ⟨same, filled⟩
          rw [commentEnd?.eq_def, commentEnd?.eq_def, if_neg other, if_neg other, Option.map_none]
        · exact commentEnd?_cut x pos c filled
    by_cases passed : pos < resume
    · rw [List.cons_append, bracketEnd, bracketEnd, if_pos passed, if_pos passed]
      exact next depth resume
    rw [List.cons_append, bracketEnd_of_le kind _ (Nat.not_lt.1 passed),
      bracketEnd_of_le kind _ (Nat.not_lt.1 passed)]
    cases whole : opaqueEnd? pos behind c (cs ++ x) with
    | some stop =>
      rw [whole, Option.map_some] at covered
      rw [bracketEnd_covered covered, bracketEnd_covered whole, bracketEnd_capped]
      exact next depth stop
    | none =>
      rw [whole, Option.map_none] at covered
      rw [bracketEnd_bare covered, bracketEnd_bare whole]
      split
      · exact next (depth + 1) 0
      · split
        · split
          · rw [Option.filter_some_pos (by simp)]
          · exact next (depth - 1) 0
        · exact next depth 0
termination_by w => w.length

end

end Cut

end Recast
