import Mathlib.Data.List.Perm.Basic
import Recast.Text.Edit
import Recast.Text.Occurrence

/-!
# Edits place by place

A `Place` of a text is an offset with the text around it. A recogniser that never succeeds inside
what it covers (`Isolated`) is found at every place where it succeeds (`occurrences_eq_places`).
Edits that are proposed place by place are made in one walk over the text (`sweep`), whatever the
order in which they were collected (`applyEdits_eq_sweep`): at each place the first proposal is
made, and the places that it covers are passed over.
-/

namespace Recast

/-! ## Places -/

/-- An offset of a text, the text before it read backwards, and the text from it on. -/
structure Place where
  pos : Nat
  behind : Text
  ahead : Text

/-- The places from `pos` on. -/
def placesFrom (behind : Text) (pos : Nat) : Text → List Place
  | [] => []
  | c :: cs => ⟨pos, behind, c :: cs⟩ :: placesFrom (c :: behind) (pos + 1) cs

/-- The places of a text in order. -/
def places (t : Text) : List Place :=
  placesFrom [] 0 t

theorem le_pos_of_mem_placesFrom :
    ∀ (t behind : Text) (pos : Nat) {place : Place}, place ∈ placesFrom behind pos t →
      pos ≤ place.pos
  | c :: cs, behind, pos, place, h => by
    rcases List.mem_cons.1 h with rfl | h
    · exact Nat.le_refl _
    · exact Nat.le_of_succ_le (le_pos_of_mem_placesFrom cs (c :: behind) (pos + 1) h)

theorem eq_of_mem_placesFrom :
    ∀ {t behind : Text} {pos : Nat} {place : Place}, place ∈ placesFrom behind pos t →
      place.behind.reverse ++ place.ahead = behind.reverse ++ t ∧
        place.pos + behind.length = pos + place.behind.length
  | c :: cs, behind, pos, place, h => by
    rcases List.mem_cons.1 h with rfl | h
    · exact ⟨rfl, rfl⟩
    · obtain ⟨split, offset⟩ := eq_of_mem_placesFrom h
      rw [List.length_cons] at offset
      exact ⟨by rw [split, List.reverse_cons, List.append_assoc]; rfl, by omega⟩

/-- A place cuts the text in two at its offset. -/
theorem eq_of_mem_places {t : Text} {place : Place} (h : place ∈ places t) :
    t = place.behind.reverse ++ place.ahead ∧ place.pos = place.behind.length := by
  obtain ⟨split, offset⟩ := eq_of_mem_placesFrom h
  rw [List.length_nil] at offset
  exact ⟨split.symm, by omega⟩

theorem take_of_mem_places {t : Text} {place : Place} (h : place ∈ places t) :
    (t.take place.pos).reverse = place.behind := by
  obtain ⟨split, offset⟩ := eq_of_mem_places h
  rw [split, offset, ← List.length_reverse, List.take_left, List.reverse_reverse]

theorem drop_of_mem_places {t : Text} {place : Place} (h : place ∈ places t) :
    t.drop place.pos = place.ahead := by
  obtain ⟨split, offset⟩ := eq_of_mem_places h
  rw [split, offset, ← List.length_reverse, List.drop_left]

variable {α : Type} {recognise : Recogniser α}

/-- An occurrence is what the recogniser gives at its place. -/
theorem exists_of_mem_occurrencesFrom {found : Occurrence α} :
    ∀ {t behind : Text} {pos resume : Nat}, found ∈ occurrencesFrom recognise behind pos resume t →
      ∃ passed ahead size, t = passed ++ ahead ∧
        recognise (passed.reverse ++ behind) ahead = some (found.value, size) ∧
        found.start = pos + passed.length ∧ found.stop = pos + passed.length + size
  | [], behind, pos, resume, h => by
    rw [occurrencesFrom] at h
    split at h
    · rename_i value size here
      obtain rfl := List.mem_singleton.1 h
      exact ⟨[], [], size, rfl, here, rfl, rfl⟩
    · simp at h
  | c :: cs, behind, pos, resume, h => by
    have tail : ∀ {resume}, found ∈ occurrencesFrom recognise (c :: behind) (pos + 1) resume cs →
        ∃ passed ahead size, c :: cs = passed ++ ahead ∧
          recognise (passed.reverse ++ behind) ahead = some (found.value, size) ∧
          found.start = pos + passed.length ∧ found.stop = pos + passed.length + size := by
      intro resume h
      obtain ⟨passed, ahead, size, rfl, here, start, stop⟩ := exists_of_mem_occurrencesFrom h
      refine ⟨c :: passed, ahead, size, rfl, by simpa using here, ?_, ?_⟩ <;>
        rw [List.length_cons] <;> omega
    rw [occurrencesFrom] at h
    split at h
    · exact tail h
    · split at h
      · rename_i value size here
        rcases List.mem_cons.1 h with rfl | h
        · exact ⟨[], c :: cs, size, rfl, here, rfl, rfl⟩
        · exact tail h
      · exact tail h

/-- What a recogniser finds at a place. -/
def foundAt (recognise : Recogniser α) (place : Place) : Option (Occurrence α) :=
  (recognise place.behind place.ahead).map fun (value, size) => ⟨place.pos, place.pos + size, value⟩

/-- A recogniser that covers some text and does not succeed again inside it. -/
structure Isolated (recognise : Recogniser α) : Prop where
  atEnd : ∀ behind, recognise behind [] = none
  inside : ∀ {behind passed rest : Text} {value : α} {size : Nat},
    recognise behind (passed ++ rest) = some (value, size) → passed ≠ [] → passed.length < size →
      recognise (passed.reverse ++ behind) rest = none

theorem occurrencesFrom_eq_places (h : Isolated recognise) :
    ∀ (t behind : Text) (pos resume : Nat),
      (∀ passed rest, t = passed ++ rest → pos + passed.length < resume →
        recognise (passed.reverse ++ behind) rest = none) →
      occurrencesFrom recognise behind pos resume t =
        (placesFrom behind pos t).filterMap (foundAt recognise)
  | [], behind, pos, resume, _ => by simp [occurrencesFrom, placesFrom, h.atEnd]
  | c :: cs, behind, pos, resume, hskip => by
    have next : ∀ resume,
        (∀ passed rest, cs = passed ++ rest → pos + (passed.length + 1) < resume →
          recognise ((c :: passed).reverse ++ behind) rest = none) →
        occurrencesFrom recognise (c :: behind) (pos + 1) resume cs =
          (placesFrom (c :: behind) (pos + 1) cs).filterMap (foundAt recognise) := by
      intro resume hr
      refine occurrencesFrom_eq_places h cs (c :: behind) (pos + 1) resume fun passed rest he hl =>
        ?_
      simpa using hr passed rest he (by omega)
    rw [occurrencesFrom, placesFrom, List.filterMap_cons, foundAt]
    split
    · rename_i hp
      have fails : recognise behind (c :: cs) = none := hskip [] (c :: cs) rfl hp
      simp only [fails, Option.map_none]
      exact next resume fun passed rest he hl => hskip (c :: passed) rest (by rw [he]; rfl) hl
    · rename_i hp
      cases hf : recognise behind (c :: cs) with
      | none => exact next resume fun _ _ _ hl => absurd hl (by omega)
      | some found =>
        refine congrArg (_ :: ·) (next _ fun passed rest he hl => ?_)
        have here : recognise behind ((c :: passed) ++ rest) = some found := by
          rw [List.cons_append, ← he]
          exact hf
        exact h.inside here (by simp) (by simp only [List.length_cons]; omega)

/-- An isolated recogniser is found at every place where it succeeds. -/
theorem occurrences_eq_places (h : Isolated recognise) (t : Text) :
    occurrences recognise t = (places t).filterMap (foundAt recognise) :=
  occurrencesFrom_eq_places h t [] 0 0 fun _ _ _ hl => absurd hl (Nat.not_lt_zero _)

/-! ## The order of edits -/

theorem textLe_refl : ∀ t : Text, textLe t t
  | [] => rfl
  | c :: cs => by simp [textLe, textLe_refl cs]

theorem textLe_trans : ∀ {a b c : Text}, textLe a b → textLe b c → textLe a c
  | [], _, _, _, _ => by simp [textLe]
  | _ :: _, _ :: _, [], _, h => by simp [textLe] at h
  | a :: as, b :: bs, c :: cs, hab, hbc => by
    simp only [textLe, Bool.or_eq_true, decide_eq_true_eq, Bool.and_eq_true, beq_iff_eq]
      at hab hbc ⊢
    rcases hab with hab | ⟨rfl, hab⟩
    · rcases hbc with hbc | ⟨rfl, -⟩
      · exact .inl (Nat.lt_trans hab hbc)
      · exact .inl hab
    · rcases hbc with hbc | ⟨rfl, hbc⟩
      · exact .inl hbc
      · exact .inr ⟨rfl, textLe_trans hab hbc⟩

theorem textLe_total : ∀ a b : Text, textLe a b ∨ textLe b a
  | [], _ => .inl rfl
  | _ :: _, [] => .inr rfl
  | a :: as, b :: bs => by
    simp only [textLe, Bool.or_eq_true, decide_eq_true_eq, Bool.and_eq_true, beq_iff_eq]
    rcases Nat.lt_trichotomy a.toNat b.toNat with h | h | h
    · exact .inl (.inl h)
    · have same : a = b := Char.toNat_inj.1 h
      exact (textLe_total as bs).imp (fun h => .inr ⟨same, h⟩) fun h => .inr ⟨same.symm, h⟩
    · exact .inr (.inl h)

theorem textLe_antisymm : ∀ {a b : Text}, textLe a b → textLe b a → a = b
  | [], [], _, _ => rfl
  | [], _ :: _, _, h => by simp [textLe] at h
  | _ :: _, [], h, _ => by simp [textLe] at h
  | a :: as, b :: bs, hab, hba => by
    simp only [textLe, Bool.or_eq_true, decide_eq_true_eq, Bool.and_eq_true, beq_iff_eq] at hab hba
    rcases hab with hab | ⟨rfl, hab⟩
    · rcases hba with hba | ⟨rfl, -⟩
      · exact absurd hab (Nat.lt_asymm hba)
      · exact absurd hab (Nat.lt_irrefl _)
    · rcases hba with hba | ⟨-, hba⟩
      · exact absurd hba (Nat.lt_irrefl _)
      · rw [textLe_antisymm hab hba]

theorem textLe_append (front : Text) {a b : Text} (h : textLe a b) :
    textLe (front ++ a) (front ++ b) := by
  induction front with
  | nil => exact h
  | cons c front ih => simp [textLe, ih]

theorem Edit.le_iff {a b : Edit} :
    a.le b ↔ a.span.start < b.span.start ∨ a.span.start = b.span.start ∧
      (a.span.stop < b.span.stop ∨ a.span.stop = b.span.stop ∧ textLe a.text b.text) := by
  simp [Edit.le]

theorem Edit.le_trans {a b c : Edit} (hab : a.le b) (hbc : b.le c) : a.le c := by
  rw [Edit.le_iff] at *
  rcases hab with hab | ⟨hab, hab' | ⟨hab', ht⟩⟩ <;> rcases hbc with hbc | ⟨hbc, hbc' | ⟨hbc', hu⟩⟩
  all_goals first
    | exact .inl (by omega)
    | exact .inr ⟨by omega, .inl (by omega)⟩
    | exact .inr ⟨by omega, .inr ⟨by omega, textLe_trans ht hu⟩⟩

theorem Edit.le_total (a b : Edit) : a.le b || b.le a := by
  rw [Bool.or_eq_true, Edit.le_iff, Edit.le_iff]
  rcases Nat.lt_trichotomy a.span.start b.span.start with h | h | h
  · exact .inl (.inl h)
  · rcases Nat.lt_trichotomy a.span.stop b.span.stop with h' | h' | h'
    · exact .inl (.inr ⟨h, .inl h'⟩)
    · rcases textLe_total a.text b.text with ht | ht
      · exact .inl (.inr ⟨h, .inr ⟨h', ht⟩⟩)
      · exact .inr (.inr ⟨h.symm, .inr ⟨h'.symm, ht⟩⟩)
    · exact .inr (.inr ⟨h.symm, .inl h'⟩)
  · exact .inr (.inl h)

theorem Edit.le_antisymm {a b : Edit} (hab : a.le b) (hba : b.le a) : a = b := by
  rw [Edit.le_iff] at *
  obtain ⟨⟨start, stop⟩, text⟩ := a
  obtain ⟨⟨start', stop'⟩, text'⟩ := b
  dsimp only at hab hba
  rcases hab with hab | ⟨hab, hab' | ⟨hab', ht⟩⟩ <;>
    rcases hba with hba | ⟨hba, hba' | ⟨hba', hu⟩⟩ <;> try omega
  rw [hab, hab', textLe_antisymm ht hu]

/-- Sorted edits are what sorting gives from any order of them. -/
theorem mergeSort_eq_of_perm {edits sorted : List Edit} (hp : edits.Perm sorted)
    (hs : sorted.Pairwise fun a b => a.le b) : edits.mergeSort Edit.le = sorted := by
  have order : (edits.mergeSort Edit.le).Pairwise fun a b => a.le b := by
    apply List.pairwise_mergeSort
    · exact fun _ _ _ => Edit.le_trans
    · exact Edit.le_total
  exact List.Perm.eq_of_pairwise (fun _ _ _ _ => Edit.le_antisymm) order hs
    ((List.mergeSort_perm _ _).trans hp)

/-! ## One walk -/

/-- The text `body` with the chosen edits made, in one walk over `code`, which decides on them and
has the same length. No edit starts before `resume`. -/
def sweep (choose : Place → Option Edit) (behind : Text) (pos resume : Nat) : Text → Text → Text
  | c :: cs, b :: bs =>
    if pos < resume then sweep choose (c :: behind) (pos + 1) resume cs bs
    else
      match choose ⟨pos, behind, c :: cs⟩ with
      | some edit => edit.text ++ sweep choose (c :: behind) (pos + 1) edit.span.stop cs bs
      | none => b :: sweep choose (c :: behind) (pos + 1) resume cs bs
  | _, _ => []

theorem sweep_of_le (choose : Place → Option Edit) :
    ∀ (code body behind : Text) {pos resume : Nat}, resume ≤ pos →
      sweep choose behind pos resume code body = sweep choose behind pos 0 code body
  | [], _, _, _, _, _ => by rw [sweep, sweep] <;> simp
  | _ :: _, [], _, _, _, _ => by rw [sweep, sweep] <;> simp
  | c :: cs, b :: bs, behind, pos, resume, h => by
    have tail := sweep_of_le choose cs bs (c :: behind) (Nat.le_succ_of_le h)
    rw [sweep, sweep, tail, if_neg (Nat.not_lt.2 h), if_neg (Nat.not_lt_zero _)]

/-- What an edit covers is passed over. -/
theorem sweep_skip (choose : Place → Option Edit) (rest rest' : Text) :
    ∀ (code body behind : Text) (pos : Nat), code.length = body.length →
      sweep choose behind pos (pos + code.length) (code ++ rest) (body ++ rest') =
        sweep choose (code.reverse ++ behind) (pos + code.length) 0 rest rest'
  | [], [], behind, pos, _ => sweep_of_le choose rest rest' behind (Nat.le_refl _)
  | c :: cs, b :: bs, behind, pos, h => by
    have ih := sweep_skip choose rest rest' cs bs (c :: behind) (pos + 1) (Nat.succ.inj h)
    rw [List.cons_append, List.cons_append, sweep, if_pos (by simp), List.reverse_cons,
      List.append_assoc, List.singleton_append, List.length_cons]
    rwa [Nat.add_assoc, Nat.add_comm 1] at ih

/-- The chosen edit takes the place of what it covers. -/
theorem sweep_edit {choose : Place → Option Edit} {code body behind rest rest' text : Text}
    {pos : Nat} {start : Nat} (hc : code ≠ []) (hl : code.length = body.length)
    (h : choose ⟨pos, behind, code ++ rest⟩ = some ⟨⟨start, pos + code.length⟩, text⟩) :
    sweep choose behind pos 0 (code ++ rest) (body ++ rest') =
      text ++ sweep choose (code.reverse ++ behind) (pos + code.length) 0 rest rest' := by
  obtain ⟨c, cs, rfl⟩ := List.exists_cons_of_ne_nil hc
  obtain ⟨b, bs, rfl⟩ : ∃ b bs, body = b :: bs :=
    List.exists_cons_of_ne_nil (by rintro rfl; simp at hl)
  have skip := sweep_skip choose rest rest' cs bs (c :: behind) (pos + 1) (Nat.succ.inj hl)
  rw [List.cons_append] at h
  rw [List.cons_append, List.cons_append, sweep, if_neg (Nat.not_lt_zero _), h]
  dsimp only
  rw [List.length_cons, Nat.add_comm cs.length, ← Nat.add_assoc, skip, List.reverse_cons,
    List.append_assoc, List.singleton_append]

/-- Proposals of edits: at each place they are in order, and start there. -/
structure Proposes (propose : Place → List Edit) : Prop where
  sorted : ∀ place, (propose place).Pairwise fun a b => a.le b
  start : ∀ place, ∀ edit ∈ propose place, edit.span.start = place.pos
  stop : ∀ place, ∀ edit ∈ propose place, place.pos < edit.span.stop

variable {propose : Place → List Edit}

theorem Proposes.pairwise (h : Proposes propose) :
    ∀ (t behind : Text) (pos : Nat), ((placesFrom behind pos t).flatMap propose).Pairwise fun a b =>
      a.le b
  | [], _, _ => List.Pairwise.nil
  | c :: cs, behind, pos => by
    rw [placesFrom, List.flatMap_cons, List.pairwise_append]
    refine ⟨h.sorted _, h.pairwise cs _ _, fun a ha b hb => ?_⟩
    obtain ⟨place, hp, hb⟩ := List.mem_flatMap.1 hb
    have later := le_pos_of_mem_placesFrom _ _ _ hp
    rw [Edit.le_iff, h.start _ a ha, h.start _ b hb]
    exact .inl later

theorem dropOverlaps_append_of_lt {last : Nat} {first rest : List Edit}
    (h : ∀ edit ∈ first, edit.span.start < last) :
    dropOverlaps last (first ++ rest) = dropOverlaps last rest := by
  induction first with
  | nil => rfl
  | cons edit first ih =>
    rw [List.cons_append, dropOverlaps, if_pos (h edit (by simp)),
      ih fun e he => h e (by simp [he])]

theorem replaceFrom_eq_sweep (h : Proposes propose) (body : Text) :
    ∀ (t behind : Text) (pos resume : Nat), pos + t.length = body.length →
      replaceFrom body resume (dropOverlaps resume ((placesFrom behind pos t).flatMap propose)) =
        slice body resume pos ++ sweep (fun place => (propose place).head?) behind pos resume t
          (body.drop pos)
  | [], behind, pos, resume, hlen => by
    rw [List.length_nil, Nat.add_zero] at hlen
    simp [placesFrom, dropOverlaps, replaceFrom, slice, hlen, sweep]
  | c :: cs, behind, pos, resume, hlen => by
    rw [List.length_cons] at hlen
    have inside : pos < body.length := by omega
    have next := fun resume =>
      replaceFrom_eq_sweep h body cs (c :: behind) (pos + 1) resume (by omega)
    have none_before : ∀ stop, pos < stop → slice body stop (pos + 1) = [] := fun stop hs => by
      simp only [slice, List.drop_eq_nil_iff, List.length_take]
      omega
    rw [placesFrom, List.flatMap_cons, List.drop_eq_getElem_cons inside, sweep]
    split
    · rename_i hp
      rw [dropOverlaps_append_of_lt
        fun edit he => by rw [h.start _ edit he]; exact hp, next, none_before _ hp]
      simp only [slice, List.nil_append,
        List.drop_eq_nil_iff.2 (Nat.le_trans (List.length_take_le _ _) (Nat.le_of_lt hp))]
    · rename_i hp
      cases he : propose ⟨pos, behind, c :: cs⟩ with
      | nil =>
        have grown : slice body resume (pos + 1) = slice body resume pos ++ [body[pos]] := by
          rw [slice, slice, List.take_succ_eq_append_getElem inside, List.drop_append_of_le_length]
          simp only [List.length_take]
          omega
        rw [List.nil_append, next, grown, List.append_assoc]
        rfl
      | cons edit edits =>
        have start : ∀ e ∈ edit :: edits, e.span.start = pos := by
          rw [← he]
          exact h.start _
        have stop : pos < edit.span.stop := h.stop _ edit (by rw [he]; simp)
        have first : edit.span.start = pos := start edit (by simp)
        have covered : ∀ e ∈ edits, e.span.start < edit.span.stop := fun e hm => by
          rw [start e (by simp [hm])]
          exact stop
        rw [List.cons_append, dropOverlaps, if_neg (by rw [first]; exact hp), replaceFrom, first,
          dropOverlaps_append_of_lt covered, next, none_before _ stop, List.nil_append,
          List.append_assoc]
        rfl

/-- Edits that are proposed place by place are made in one walk. -/
theorem applyEdits_eq_sweep (h : Proposes propose) {body code : Text}
    (hlen : code.length = body.length)
    {edits : List Edit} (hp : edits.Perm ((places code).flatMap propose)) :
    applyEdits body edits = sweep (fun place => (propose place).head?) [] 0 0 code body := by
  have walk := replaceFrom_eq_sweep h body code [] 0 0 (by rw [Nat.zero_add, hlen])
  rw [applyEdits, mergeSort_eq_of_perm hp (h.pairwise code [] 0), replaceSpans, places, walk]
  simp [slice]

end Recast
