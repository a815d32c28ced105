import Recast.Proofs.Text.Part
import Recast.Proofs.Text.Sweep
import Recast.Scope.Qualify

/-!
# Whole words

A word is a run of name characters that no name character precedes. The searches of `qualify` are
all about whole words: a referenced name (`nameAmong_eq`), the props object before a dot
(`propsRoot_eq`) and the name of a setter before a bracket (`setterCall_eq`) are found just where
the word at a place is the one that is looked for. So none of them is found twice in one word, and
each is isolated.
-/

namespace Recast

/-! ## Words -/

/-- Whether the text is a run of name characters. -/
def isWord (t : Text) : Bool :=
  !t.isEmpty && t.all isNameChar

/-- The word at the start of a text; empty if there is none. -/
def wordAhead (t : Text) : Text :=
  t.takeWhile isNameChar

/-- What follows the word at the start of a text. -/
def afterWord (t : Text) : Text :=
  t.dropWhile isNameChar

/-- Whether no name character comes first. -/
def PastWord (t : Text) : Prop :=
  ∀ c, t.head? = some c → isNameChar c = false

theorem isNameChar_of_isWord {w : Text} (h : isWord w) : ∀ c ∈ w, isNameChar c := by
  rw [isWord, Bool.and_eq_true, List.all_eq_true] at h
  exact h.2

theorem ne_nil_of_isWord {w : Text} (h : isWord w) : w ≠ [] := by
  rintro rfl
  exact Bool.noConfusion h

theorem isNameChar_of_isIdentifier {t : Text} (h : isIdentifier t) : ∀ c ∈ t, isNameChar c := by
  cases t with
  | nil => simp
  | cons d ds =>
    rw [isIdentifier, Bool.and_eq_true, List.all_eq_true] at h
    intro c hc
    rcases List.mem_cons.1 hc with rfl | hc
    · exact isNameChar_of_isNameStart h.1
    · exact h.2 c hc

theorem isWord_of_isIdentifier {w : Text} (h : isIdentifier w) : isWord w := by
  have chars := isNameChar_of_isIdentifier h
  cases w with
  | nil => exact Bool.noConfusion h
  | cons c cs =>
    rw [isWord, Bool.and_eq_true, List.all_eq_true]
    exact ⟨rfl, chars⟩

theorem isWord_reverse {w : Text} (h : isWord w) : isWord w.reverse := by
  rw [isWord, List.isEmpty_reverse, List.all_reverse]
  exact h

theorem wordAhead_append_afterWord (t : Text) : wordAhead t ++ afterWord t = t :=
  List.takeWhile_append_dropWhile

theorem pastWord_afterWord (t : Text) : PastWord (afterWord t) := by
  intro c hc
  have kept : afterWord t ≠ [] := by
    intro h
    simp [h] at hc
  have first := List.head_dropWhile_not isNameChar kept
  rw [List.head?_eq_some_head kept] at hc
  simpa [← Option.some.inj hc, afterWord] using first

theorem wordAhead_append {w rest : Text} (hw : ∀ c ∈ w, isNameChar c) (hr : PastWord rest) :
    wordAhead (w ++ rest) = w := by
  rw [wordAhead, List.takeWhile_append_of_pos hw]
  cases rest with
  | nil => simp
  | cons c cs => simp [hr c rfl]

theorem afterWord_append {w rest : Text} (hw : ∀ c ∈ w, isNameChar c) (hr : PastWord rest) :
    afterWord (w ++ rest) = rest := by
  rw [afterWord, List.dropWhile_append_of_pos hw]
  exact dropWhile_eq_self hr

/-- A word stands at the start of a text just if it is the word there. -/
theorem dropHead?_word {w t rest : Text} (hw : ∀ c ∈ w, isNameChar c) :
    dropHead? w t = some rest ∧ PastWord rest ↔ wordAhead t = w ∧ afterWord t = rest := by
  rw [dropHead?_eq_some]
  constructor
  · rintro ⟨rfl, hr⟩
    exact ⟨wordAhead_append hw hr, afterWord_append hw hr⟩
  · rintro ⟨rfl, rfl⟩
    exact ⟨(wordAhead_append_afterWord t).symm, pastWord_afterWord t⟩

theorem startsFree_eq_false {c : Char} (h : isNameChar c) (behind : Text) :
    startsFree (c :: behind) = false := by
  simp [startsFree, h]

theorem length_reverse_append (t behind : Text) :
    (t.reverse ++ behind).length = behind.length + t.length := by
  rw [List.length_append, List.length_reverse, Nat.add_comm]

/-! ## Recognisers of words -/

variable {α : Type} {recognise : Recogniser α}

/-- A recogniser of free words is isolated: a place inside a word is not free. -/
theorem isolated_of_word
    (h : ∀ {behind ahead value size}, recognise behind ahead = some (value, size) →
    startsFree behind ∧ wordAhead ahead ≠ [] ∧ size ≤ (wordAhead ahead).length + 1) :
    Isolated recognise where
  atEnd behind := by
    cases hf : recognise behind [] with
    | none => rfl
    | some found => exact absurd rfl (h hf).2.1
  inside := by
    intro behind passed rest value size hf hp hl
    obtain ⟨front, last, rfl⟩ := (List.eq_nil_or_concat passed).resolve_left hp
    have first : front.concat last <+: wordAhead (front.concat last ++ rest) := by
      refine List.prefix_of_prefix_length_le ⟨rest, rfl⟩ (List.takeWhile_prefix _) ?_
      have := (h hf).2.2
      omega
    have inside : isNameChar last := by
      have hm : last ∈ wordAhead (front.concat last ++ rest) := first.subset (by simp)
      exact List.mem_takeWhile_imp hm
    cases hn : recognise ((front.concat last).reverse ++ behind) rest with
    | none => rfl
    | some found =>
      have free := (h hn).1
      simp [startsFree, inside] at free

theorem any_head?_isNameChar {t : Text} : t.head?.any isNameChar = false ↔ PastWord t := by
  cases t with
  | nil => simp [PastWord]
  | cons c cs => simp [PastWord]

theorem startsFree_of_pastWord {behind : Text} (h : PastWord behind) : startsFree behind := by
  rw [startsFree, any_head?_isNameChar.2 h]
  rfl

/-- A name stands here in full just if it is the word here. -/
theorem nameAmong_name {name : Text} (hw : isWord name) (behind ahead : Text) :
    (do
      let rest ← dropHead? name ahead
      if rest.head?.any isNameChar then none
      else some ((⟨name, behind, rest⟩ : Mention), name.length)) =
      if wordAhead ahead = name then some (⟨name, behind, afterWord ahead⟩, name.length)
      else none := by
  have hc := isNameChar_of_isWord hw
  split
  · rename_i hn
    obtain ⟨hd, hr⟩ := (dropHead?_word hc).2 ⟨hn, rfl⟩
    simp [hd, any_head?_isNameChar.2 hr]
  · rename_i hn
    cases hd : dropHead? name ahead with
    | none => rfl
    | some rest =>
      cases hr : rest.head?.any isNameChar with
      | true => simp [hr]
      | false => exact absurd ((dropHead?_word hc).1 ⟨hd, any_head?_isNameChar.1 hr⟩).1 hn

/-- One of the names stands here just if the word here is one of them. -/
theorem nameAmong_eq {names : List Text} (hn : ∀ name ∈ names, isWord name) (behind ahead : Text) :
    nameAmong names behind ahead =
      if startsFree behind ∧ wordAhead ahead ∈ names then
        some (⟨wordAhead ahead, behind, afterWord ahead⟩, (wordAhead ahead).length)
      else none := by
  have search : ∀ names : List Text, (∀ name ∈ names, isWord name) →
      (names.findSome? fun name => do
        let rest ← dropHead? name ahead
        if rest.head?.any isNameChar then none
        else some ((⟨name, behind, rest⟩ : Mention), name.length)) =
      if wordAhead ahead ∈
        names then some (⟨wordAhead ahead, behind, afterWord ahead⟩, (wordAhead ahead).length)
      else none := by
    intro names hn
    induction names with
    | nil => simp
    | cons name names ih =>
      rw [List.findSome?_cons, nameAmong_name (hn name (by simp)),
        ih fun n hm => hn n (by simp [hm])]
      by_cases h : wordAhead ahead = name
      · simp [h]
      · simp [h]
  rw [nameAmong, search names hn]
  by_cases hf : startsFree behind
  · simp [hf]
  · simp [hf]

theorem isolated_nameAmong {names : List Text} (hn : ∀ name ∈ names, isWord name) :
    Isolated (nameAmong names) := by
  refine isolated_of_word fun {behind ahead value size} h => ?_
  rw [nameAmong_eq hn] at h
  split at h
  · rename_i hf
    simp only [Option.some.injEq, Prod.mk.injEq] at h
    exact ⟨hf.1, ne_nil_of_isWord (hn _ hf.2), by omega⟩
  · simp at h

/-- The props object stands here just if it is the word here and a dot follows it. -/
theorem propsRoot_eq (behind ahead : Text) :
    propsRoot behind ahead =
      if startsFree behind ∧ wordAhead ahead = "props".toList ∧
        (afterWord ahead).head? = some '.' then
        some (⟨"props".toList, behind, (afterWord ahead).tail⟩, 6)
      else none := by
  have word : ∀ c ∈ "props".toList, isNameChar c := by decide
  rw [propsRoot]
  by_cases hf : startsFree behind
  · simp only [hf, Bool.not_true, Bool.false_eq_true, if_false, true_and]
    cases hd : dropHead? "props.".toList ahead with
    | some rest =>
      have he : ahead = "props.".toList ++ rest := eq_append_of_dropHead? hd
      rw [show "props.".toList = "props".toList ++ ['.'] from rfl, List.append_assoc,
        List.singleton_append] at he
      have past : PastWord ('.' :: rest) := by
        rintro c ⟨⟩
        decide
      rw [if_pos
        (by rw [he, wordAhead_append word past, afterWord_append word past]; exact ⟨rfl, rfl⟩), he,
        afterWord_append word past]
      simp only [covers, List.length_append, List.length_cons, List.tail_cons, Option.bind_eq_bind,
        Option.bind_some]
      rw [show "props".toList.length + (rest.length + 1) - rest.length = 6 by
        rw [show "props".toList.length = 5 from rfl]; omega]
    | none =>
      rw [if_neg]
      · rfl
      · rintro ⟨hw, hh⟩
        obtain ⟨rest, hr⟩ := List.head?_eq_some_iff.1 hh
        have he := wordAhead_append_afterWord ahead
        rw [hw, hr] at he
        have : dropHead? "props.".toList ahead = some rest := dropHead?_eq_some.2 he.symm
        rw [hd] at this
        cases this
  · simp [hf]

theorem isolated_propsRoot : Isolated propsRoot := by
  refine isolated_of_word fun {behind ahead value size} h => ?_
  rw [propsRoot_eq] at h
  split at h
  · rename_i hf
    simp only [Option.some.injEq, Prod.mk.injEq] at h
    rw [hf.2.1, ← h.2]
    exact ⟨hf.1, by decide, by decide⟩
  · simp at h

/-- Whether a word is the name of a setter. -/
def isSetterName (w : Text) : Bool :=
  match dropHead? "set".toList w with
  | some rest => rest.head?.any isCapital
  | none => false

theorem isNameChar_of_isCapital {c : Char} (h : isCapital c) : isNameChar c := by
  simp only [isCapital, Bool.and_eq_true, decide_eq_true_eq] at h
  simp [isNameChar, isWordChar, isAsciiLetter, h]

theorem wordAhead_of_cover {head rest : Text} (h : ∀ c ∈ head, isNameChar c) :
    wordAhead (head ++ rest) = head ++ wordAhead rest := by
  rw [wordAhead, List.takeWhile_append_of_pos h, wordAhead]

theorem isSetterName_wordAhead {ahead : Text} :
    isSetterName (wordAhead ahead) ↔ ∃ rest, dropHead? "set".toList ahead = some rest ∧
      rest.head?.any isCapital := by
  have word : ∀ c ∈ "set".toList, isNameChar c := by decide
  rw [isSetterName]
  constructor
  · intro h
    split at h
    · rename_i rest hd
      refine ⟨rest ++ afterWord ahead, ?_, ?_⟩
      · rw [dropHead?_eq_some, ← List.append_assoc, ← eq_append_of_dropHead? hd,
          wordAhead_append_afterWord]
      · cases rest with
        | nil => simp at h
        | cons c cs => simpa using h
    · simp at h
  · rintro ⟨rest, hd, hc⟩
    rw [eq_append_of_dropHead? hd, wordAhead_of_cover word, dropHead?_append]
    cases rest with
    | nil => simp at hc
    | cons c cs =>
      have hc : isCapital c := by simpa using hc
      simp [wordAhead, isNameChar_of_isCapital hc, hc]

/-- A setter call stands here just if the word here is the name of a setter and a bracket follows
it. -/
theorem setterCall_eq (behind ahead : Text) :
    setterCall behind ahead =
      if startsFree behind ∧ isSetterName (wordAhead ahead) ∧
        (trimStart (afterWord ahead)).head? = some '(' then
        some (⟨wordAhead ahead, behind, afterWord ahead⟩, (wordAhead ahead).length)
      else none := by
  have word : ∀ c ∈ "set".toList, isNameChar c := by decide
  have size : ahead.length - (afterWord ahead).length = (wordAhead ahead).length := by
    have := congrArg List.length (wordAhead_append_afterWord ahead)
    rw [List.length_append] at this
    omega
  rw [setterCall]
  by_cases hf : startsFree behind
  · simp only [hf, Bool.not_true, Bool.false_eq_true, if_false, true_and, isSetterName_wordAhead]
    cases hd : dropHead? "set".toList ahead with
    | none => simp
    | some rest =>
      have past : afterWord ahead = rest.dropWhile isNameChar := by
        rw [eq_append_of_dropHead? hd, afterWord, List.dropWhile_append_of_pos word]
      cases hc : rest.head?.any isCapital with
      | false => simp [hc]
      | true =>
        simp only [Option.bind_eq_bind, Option.bind_some, hc, Bool.not_true, Bool.false_eq_true,
          if_false, ← past, covers, size, Option.some.injEq, exists_eq_left', true_and]
        rfl
  · simp [hf]

theorem isolated_setterCall : Isolated setterCall := by
  refine isolated_of_word fun {behind ahead value size} h => ?_
  rw [setterCall_eq] at h
  split at h
  · rename_i hf
    simp only [Option.some.injEq, Prod.mk.injEq] at h
    refine ⟨hf.1, fun he => ?_, by omega⟩
    rw [he] at hf
    exact Bool.noConfusion hf.2.1
  · simp at h

end Recast
