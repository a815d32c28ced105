import Recast.Proofs.Component.DefinitionShift
import Recast.Proofs.Component.HookScript
import Recast.Proofs.Text.Search

/-!
# Where the heads of components are found

The head of a component is looked for at the start of a line only, so the search does not depend on
other text in front (`occurrencesFrom_shift`). Up to its equals sign or bracket a head has only
words and blanks and, in an arrow component, an annotation without an equals sign
(`arrowComponent_needs`, `functionComponent_needs`).

So an arrow head goes up to the arrow function behind the first equals sign after it
(`initialiser?`), wherever the head starts, and all heads before that equals sign end at the same
place (`arrowComponent_reaches`).
-/

namespace Recast

/-! ## Words and blanks -/

/-- `rest` is what is left of `t` behind words and blanks. -/
def AfterWords (t rest : Text) : Prop :=
  ∃ front, t = front ++ rest ∧ ∀ c ∈ front, isNameChar c ∨ isBlank c

theorem AfterWords.refl (t : Text) : AfterWords t t :=
  ⟨[], rfl, by simp⟩

theorem AfterWords.trans {t middle rest : Text} (first : AfterWords t middle)
    (second : AfterWords middle rest) : AfterWords t rest := by
  obtain ⟨front, rfl, hf⟩ := first
  obtain ⟨more, rfl, hm⟩ := second
  refine ⟨front ++ more, (List.append_assoc _ _ _).symm, fun c hc => ?_⟩
  exact (List.mem_append.1 hc).elim (hf c) (hm c)

theorem afterWords_word {word rest : Text} (h : ∀ c ∈ word, isNameChar c) :
    AfterWords (word ++ rest) rest :=
  ⟨word, rfl, fun c hc => .inl (h c hc)⟩

theorem afterWords_blanks {blanks rest : Text} (h : isBlankText blanks) :
    AfterWords (blanks ++ rest) rest :=
  ⟨blanks, rfl, fun c hc => .inr (List.all_eq_true.1 h c hc)⟩

theorem afterWords_trimStart (t : Text) : AfterWords t (trimStart t) := by
  obtain ⟨blanks, hb, split⟩ := exists_append_trimStart t
  nth_rewrite 1 [split]
  exact afterWords_blanks hb

/-- A mark that is in no word and no blank is not passed over. -/
theorem AfterWords.not_mem {t rest : Text} (h : AfterWords t rest) (mark : Char)
    (hn : isNameChar mark = false)
    (hb : isBlank mark = false) : ∃ front, t = front ++ rest ∧ mark ∉ front := by
  obtain ⟨front, split, hf⟩ := h
  refine ⟨front, split, fun hm => ?_⟩
  rcases hf mark hm with h | h
  · simp [hn] at h
  · simp [hb] at h

theorem afterWord?_afterWords {word t rest : Text} (hw : ∀ c ∈ word, isNameChar c)
    (h : afterWord? word t = some rest) : AfterWords t rest := by
  obtain ⟨after, cut, blanks⟩ := Option.bind_eq_some_iff.1 h
  obtain ⟨-, same⟩ := Option.ite_none_right_eq_some.1 blanks
  rw [eq_append_of_dropHead? cut]
  exact (afterWords_word hw).trans (Option.some.inj same ▸ afterWords_trimStart after)

theorem afterExport_afterWords (t : Text) : AfterWords t (afterExport t) := by
  rw [afterExport]
  cases exported : afterWord? "export".toList t with
  | none => exact AfterWords.refl t
  | some rest =>
    have first : AfterWords t rest := afterWord?_afterWords (by decide) exported
    dsimp only
    cases default : afterWord? "default".toList rest with
    | none => exact first
    | some more => exact first.trans (afterWord?_afterWords (by decide) default)

theorem declarationKeyword?_afterWords {t rest : Text} (h : declarationKeyword? t = some rest) :
    AfterWords t rest := by
  obtain ⟨keyword, blanks, rfl, hk, hb⟩ := declarationKeyword?_needs h
  have word : ∀ keyword ∈ ["const".toList, "let".toList, "var".toList], ∀ c ∈ keyword,
      isNameChar c := by decide
  exact (afterWords_word (word keyword hk)).trans (afterWords_blanks hb)

theorem capitalName?_afterWords {t name rest : Text} (h : capitalName? t = some (name, rest)) :
    AfterWords t rest := by
  rw [capitalName?, Option.ite_none_right_eq_some] at h
  obtain ⟨-, same⟩ := h
  obtain ⟨rfl, rfl⟩ := Prod.mk.inj (Option.some.inj same)
  exact ⟨t.takeWhile isNameChar, List.takeWhile_append_dropWhile.symm,
    fun c hc => .inl (List.mem_takeWhile_imp hc)⟩

/-! ## The first equals sign -/

theorem cutAt?_append_of_not_mem {mark : Char} (t : Text) : ∀ {front : Text}, mark ∉ front →
    cutAt? mark (front ++ t) = (cutAt? mark t).map fun cut => (front ++ cut.1, cut.2)
  | [], _ => by simp
  | c :: front, h => by
    simp only [List.mem_cons, not_or] at h
    rw [List.cons_append, cutAt?, if_neg (Ne.symm h.1), cutAt?_append_of_not_mem t h.2,
      Option.map_map]
    rfl

theorem not_mem_of_cutAt? {mark : Char} :
    ∀ {t before after : Text}, cutAt? mark t = some (before, after) → mark ∉ before
  | [], _, _, h => by simp [cutAt?] at h
  | c :: cs, before, after, h => by
    rw [cutAt?] at h
    split at h
    · obtain ⟨rfl, -⟩ := Prod.mk.inj (Option.some.inj h)
      simp
    · rename_i other
      obtain ⟨cut, found, same⟩ := Option.map_eq_some_iff.1 h
      obtain ⟨rfl, -⟩ := Prod.mk.inj same
      have rest : mark ∉ cut.1 := not_mem_of_cutAt? found
      simp [rest, Ne.symm other]

/-- The text from the parameters of the arrow function on that stands behind the first equals
sign. -/
def initialiser? (t : Text) : Option Text :=
  (cutAt? '=' t).bind fun cut => arrowOpening? (trimStart cut.2)

/-- What comes before the first equals sign does not matter. -/
theorem initialiser?_append {front : Text} (h : '=' ∉ front) (t : Text) :
    initialiser? (front ++ t) = initialiser? t := by
  rw [initialiser?, initialiser?, cutAt?_append_of_not_mem t h]
  cases cutAt? '=' t <;> rfl

theorem annotatedEquals?_cut {t after : Text} {type? : Option Text}
    (h : annotatedEquals? t = some (type?, after)) :
    ∃ front, t = front ++ '=' :: after ∧ '=' ∉ front := by
  obtain ⟨blanks, split, hb⟩ := (afterWords_trimStart t).not_mem '=' (by decide) (by decide)
  rw [annotatedEquals?] at h
  split at h
  · rename_i rest equals
    obtain ⟨-, rfl⟩ := Prod.mk.inj (Option.some.inj h)
    exact ⟨blanks, by rw [split, equals], hb⟩
  · rename_i rest colon
    split at h
    · rename_i written after' cut
      obtain ⟨type, -, same⟩ := Option.map_eq_some_iff.1 h
      obtain ⟨-, rfl⟩ := Prod.mk.inj same
      refine ⟨blanks ++ ':' :: written, ?_, ?_⟩
      · rw [split, colon, eq_append_of_cutAt? cut]
        simp
      · simp [hb, not_mem_of_cutAt? cut]
    · simp at h
  · simp at h

/-! ## Heads -/

/-- The parts of an arrow head. -/
theorem arrowComponent_eq_some {behind ahead : Text} {found : DefinitionHead × Nat} :
    arrowComponent behind ahead = some found ↔
      startsLine behind ∧ ∃ declared name rest type? after opening,
        declarationKeyword? (afterExport ahead) = some declared ∧
          capitalName? declared = some (name, rest) ∧
        annotatedEquals? rest = some (type?, after) ∧
          arrowOpening? (trimStart after) = some opening ∧
        covers ⟨textBefore ahead (afterExport ahead), name, type?⟩ ahead opening = found := by
  simp only [arrowComponent]
  cases startsLine behind with
  | false => simp
  | true => simp [Option.bind_eq_some_iff]

/-- The parts of a function head. -/
theorem functionComponent_eq_some {behind ahead : Text} {found : DefinitionHead × Nat} :
    functionComponent behind ahead = some found ↔
      startsLine behind ∧ ∃ declared name rest,
        afterWord? "function".toList (afterExport ahead) = some declared ∧
          capitalName? declared = some (name, rest) ∧
        (trimStart rest).head? = some '(' ∧
        covers ⟨textBefore ahead (afterExport ahead), name, none⟩ ahead (trimStart rest) =
          found := by
  simp only [functionComponent]
  cases startsLine behind with
  | false => simp
  | true => simp [Option.bind_eq_some_iff]

/-- An arrow head goes up to the arrow function behind the first equals sign. -/
theorem arrowComponent_needs {behind ahead : Text} {head : DefinitionHead} {size : Nat}
    (h : arrowComponent behind ahead = some (head, size)) :
    ∃ rest, initialiser? ahead = some rest ∧ size = ahead.length - rest.length := by
  obtain ⟨-, declared, name, rest, type?, after, opening, keyword, capital, equals, arrow, same⟩ :=
    arrowComponent_eq_some.1 h
  have words : AfterWords ahead rest :=
    ((afterExport_afterWords ahead).trans (declarationKeyword?_afterWords keyword)).trans
      (capitalName?_afterWords capital)
  obtain ⟨front, rfl, hf⟩ := words.not_mem '=' (by decide) (by decide)
  obtain ⟨type, rfl, ht⟩ := annotatedEquals?_cut equals
  refine ⟨opening, ?_, (Prod.mk.inj same).2.symm⟩
  rw [initialiser?_append hf, initialiser?_append ht]
  simpa [initialiser?, cutAt?] using arrow

/-- A function head has only words and blanks before its bracket, and goes up to it. -/
theorem functionComponent_needs {behind ahead : Text} {head : DefinitionHead} {size : Nat}
    (h : functionComponent behind ahead = some (head, size)) :
    ∃ rest, AfterWords ahead ('(' :: rest) ∧ size = ahead.length - ('(' :: rest).length := by
  obtain ⟨-, declared, name, rest, keyword, capital, bracket, same⟩ := functionComponent_eq_some.1 h
  obtain ⟨params, split⟩ := List.head?_eq_some_iff.1 bracket
  have word : AfterWords (afterExport ahead) declared := afterWord?_afterWords (by decide) keyword
  refine ⟨params, ?_, ?_⟩
  · rw [← split]
    exact (((afterExport_afterWords ahead).trans word).trans
      (capitalName?_afterWords capital)).trans (afterWords_trimStart rest)
  · rw [← split]
    exact (Prod.mk.inj same).2.symm

theorem afterExport_cons (c : Char) (cs : Text) : c = 'e' ∨ afterExport (c :: cs) = c :: cs := by
  rw [afterExport]
  cases exported : afterWord? "export".toList (c :: cs) with
  | none => exact .inr rfl
  | some rest =>
    obtain ⟨after, cut, -⟩ := Option.bind_eq_some_iff.1 exported
    exact .inl (List.cons.inj (eq_append_of_dropHead? cut)).1

/-- An arrow head starts with a letter of a keyword. -/
theorem arrowComponent_head {behind cs : Text} {c : Char} {found : DefinitionHead × Nat}
    (h : arrowComponent behind (c :: cs) = some found) : c ∈ ['e', 'c', 'l', 'v'] := by
  obtain ⟨-, declared, -, -, -, -, -, keyword, -⟩ := arrowComponent_eq_some.1 h
  rcases afterExport_cons c cs with rfl | same
  · decide
  · obtain ⟨word, blanks, split, hw, -⟩ := declarationKeyword?_needs (same ▸ keyword)
    simp only [List.mem_cons, List.not_mem_nil, or_false] at hw
    rcases hw with rfl | rfl | rfl
    · obtain ⟨rfl, -⟩ := List.cons.inj split
      decide
    · obtain ⟨rfl, -⟩ := List.cons.inj split
      decide
    · obtain ⟨rfl, -⟩ := List.cons.inj split
      decide

/-- A function head starts with a letter of a keyword. -/
theorem functionComponent_head {behind cs : Text} {c : Char} {found : DefinitionHead × Nat}
    (h : functionComponent behind (c :: cs) = some found) : c ∈ ['e', 'f'] := by
  obtain ⟨-, declared, -, -, keyword, -⟩ := functionComponent_eq_some.1 h
  rcases afterExport_cons c cs with rfl | same
  · decide
  · obtain ⟨after, cut, -⟩ := Option.bind_eq_some_iff.1 (same ▸ keyword)
    obtain ⟨rfl, -⟩ := List.cons.inj (eq_append_of_dropHead? cut)
    decide

/-! ## Other text in front -/

/-- The recogniser looks at the text before a place only to see whether a line starts there. -/
def LooksBehindForLine {α : Type} (recognise : Recogniser α) : Prop :=
  ∀ {behind behind' : Text} (ahead : Text), startsLine behind = startsLine behind' →
    recognise behind ahead = recognise behind' ahead

theorem arrowComponent_looksBehind : LooksBehindForLine arrowComponent := by
  intro behind behind' ahead h
  rw [arrowComponent, arrowComponent, h]

theorem functionComponent_looksBehind : LooksBehindForLine functionComponent := by
  intro behind behind' ahead h
  rw [functionComponent, functionComponent, h]

/-- With other text in front, that ends a line if a line starts there, the same is found further
on. -/
theorem occurrencesFrom_shift {α : Type} {recognise : Recogniser α}
    (looks : LooksBehindForLine recognise) (n : Nat) :
    ∀ (t : Text) {behind behind' : Text} {pos resume resume' : Nat},
      startsLine behind = startsLine behind' →
      Aligned n pos resume resume' →
      occurrencesFrom recognise behind' (pos + n) resume' t =
        (occurrencesFrom recognise behind pos resume t).map (Occurrence.shift n)
  | [], behind, behind', pos, resume, resume', hl, _ => by
    rw [occurrencesFrom, occurrencesFrom, looks [] hl]
    cases recognise behind' [] with
    | none => rfl
    | some found => simp [Occurrence.shift, Nat.add_right_comm]
  | c :: cs, behind, behind', pos, resume, resume', hl, ha => by
    have next : ∀ {resume resume'}, Aligned n (pos + 1) resume resume' →
        occurrencesFrom recognise (c :: behind') (pos + n + 1) resume' cs =
          (occurrencesFrom recognise (c :: behind) (pos + 1) resume cs).map
            (Occurrence.shift n) := by
      intro resume resume' ha
      rw [Nat.add_right_comm]
      exact occurrencesFrom_shift looks n cs rfl ha
    rw [occurrencesFrom, occurrencesFrom, looks (c :: cs) hl]
    simp only [ha.lt_iff, next ha.succ]
    split
    · rfl
    cases recognise behind' (c :: cs) with
    | none => rfl
    | some found =>
      dsimp only
      rw [Nat.add_right_comm pos n found.2, next (Aligned.shift n _ _)]
      rfl

/-! ## Up to the first equals sign -/

theorem silentIn_of_forall_not_mem {piece : Text} (h : ∀ c ∈ piece, c ∉ ['e', 'c', 'l', 'v'])
    (behind rest : Text) : SilentIn arrowComponent behind piece rest := by
  intro passed ahead split nonempty
  obtain ⟨c, cs, rfl⟩ := List.exists_cons_of_ne_nil nonempty
  rw [Option.eq_none_iff_forall_ne_some]
  intro found success
  exact h c (by simp [split]) (arrowComponent_head success)

theorem silentIn_blanks {blanks : Text} (h : isBlankText blanks) (behind rest : Text) :
    SilentIn arrowComponent behind blanks rest := by
  refine silentIn_of_forall_not_mem (fun c hc hm => ?_) behind rest
  have letters : ∀ c ∈ ['e', 'c', 'l', 'v'], isBlank c = false := by decide
  simpa [letters c hm] using List.all_eq_true.1 h c hc

/-- In the word `async` no head starts: its first letters start none, and its last one starts no
line. -/
theorem silentIn_async (behind rest : Text) :
    SilentIn arrowComponent behind "async".toList rest := by
  have last : SilentIn arrowComponent ("asyn".toList.reverse ++ behind) ['c'] rest := by
    intro passed ahead split nonempty
    obtain ⟨rfl, rfl⟩ : passed = [] ∧ ahead = ['c'] := by
      cases passed with
      | nil => exact ⟨rfl, split.symm⟩
      | cons d ds => simp_all
    rfl
  exact (silentIn_of_forall_not_mem (by decide) behind (['c'] ++ rest)).append last

theorem arrowOpening?_needs {t opening : Text} (h : arrowOpening? t = some opening) :
    t = opening ∨ ∃ blanks, isBlankText blanks ∧ t = "async".toList ++ (blanks ++ opening) := by
  rw [arrowOpening?] at h
  split at h
  · rename_i rest found
    obtain rfl := Option.some.inj h
    obtain ⟨word, -⟩ := Option.filter_eq_some_iff.1 found
    obtain ⟨after, cut, blanks⟩ := Option.bind_eq_some_iff.1 word
    obtain ⟨-, same⟩ := Option.ite_none_right_eq_some.1 blanks
    obtain ⟨blanks, hb, split⟩ := exists_append_trimStart after
    rw [Option.some.inj same] at split
    exact .inr ⟨blanks, hb, by rw [eq_append_of_dropHead? cut, ← split]⟩
  · exact .inl (Option.some.inj (Option.ite_none_right_eq_some.1 h).2)

/-- Between the equals sign and the arrow function no head starts. -/
theorem exists_of_initialiser? {t opening : Text} (h : initialiser? t = some opening) :
    ∃ front gap, t = front ++ ('=' :: gap ++ opening) ∧ '=' ∉ front ∧
      ∀ behind, SilentIn arrowComponent behind ('=' :: gap) opening := by
  obtain ⟨⟨front, after⟩, cut, arrow⟩ := Option.bind_eq_some_iff.1 h
  obtain ⟨blanks, hb, split⟩ := exists_append_trimStart after
  have equals : ∀ behind rest, SilentIn arrowComponent behind ['='] rest :=
    silentIn_of_forall_not_mem (by decide)
  rcases arrowOpening?_needs arrow with same | ⟨more, hm, same⟩
  · rw [same] at split
    refine ⟨front, blanks, ?_, not_mem_of_cutAt? cut, fun behind => ?_⟩
    · rw [eq_append_of_cutAt? cut, split, List.cons_append]
    · exact (equals _ _).append (silentIn_blanks hb _ _)
  · rw [same] at split
    refine ⟨front, blanks ++ ("async".toList ++ more), ?_, not_mem_of_cutAt? cut, fun behind => ?_⟩
    · rw [eq_append_of_cutAt? cut, split]
      simp only [List.cons_append, List.append_assoc]
    · exact (equals _ _).append
        ((silentIn_blanks hb _ _).append ((silentIn_async _ _).append (silentIn_blanks hm _ _)))

theorem exists_append_of_initialiser? {t opening : Text} (h : initialiser? t = some opening) :
    ∃ mid, mid ≠ [] ∧ t = mid ++ opening := by
  obtain ⟨front, gap, split, -⟩ := exists_of_initialiser? h
  exact ⟨front ++ '=' :: gap, by simp, by rw [split, List.append_assoc]⟩

/-- All heads that start before the first equals sign end at the arrow function behind it. -/
theorem arrowComponent_reaches {mid opening : Text}
    (h : initialiser? (mid ++ opening) = some opening) (behind : Text) (pos : Nat) :
    ∃ before, (∀ found ∈ before, found.stop = pos + mid.length) ∧
      occurrencesFrom arrowComponent behind pos 0 (mid ++ opening) =
        before ++ occurrencesFrom arrowComponent (mid.reverse ++ behind) (pos + mid.length) 0
          opening := by
  obtain ⟨front, gap, split, hf, quiet⟩ := exists_of_initialiser? h
  rw [← List.append_assoc, List.append_left_inj] at split
  subst split
  refine occurrencesFrom_within opening _ behind pos (Nat.zero_le _)
    fun passed ahead split nonempty value size success => ?_
  suffices size = ahead.length by
    refine ⟨Nat.le_of_eq this, ?_⟩
    rw [this, split, List.length_append, Nat.add_assoc]
  rcases List.append_eq_append_iff.1 split with ⟨more, rfl, same⟩ | ⟨more, rfl, rfl⟩
  · -- behind the equals sign nothing is found
    have none := quiet (front.reverse ++ behind) more ahead same nonempty
    rw [List.reverse_append, List.append_assoc, none] at success
    simp at success
  · obtain ⟨rest, found, rfl⟩ := arrowComponent_needs success
    rw [List.append_assoc, List.append_assoc,
      initialiser?_append (fun hm => hf (List.mem_append_left _ hm))] at h
    rw [List.append_assoc, h] at found
    rw [← Option.some.inj found, List.length_append, Nat.add_sub_cancel]

end Recast
