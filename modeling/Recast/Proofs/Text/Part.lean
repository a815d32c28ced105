import Mathlib.Data.List.TakeWhile
import Mathlib.Tactic.Common
import Recast.Scan.Lexeme

/-!
# Parts of a text

What trimming and cutting keep: `trim` of a text whose ends are not blank is the text
(`trim_eq_self`), a text is blank just if nothing is left of it (`trim_eq_nil`), and every character
of a part is one of the text (`mem_of_mem_trim`, `mem_of_mem_slice`). `slice_append` and its
siblings cut a piece out of a text that is put together from pieces.

No character of a name is blank (`not_isBlank_of_isNameChar`).
-/

namespace Recast

/-- A property of all characters of a text is decided on one after the other. -/
instance (priority := high) decidableForallMem (t : Text) (p : Char → Prop) [DecidablePred p] :
    Decidable (∀ c ∈ t, p c) :=
  List.decidableBAll p t

instance lawfulBEqText : LawfulBEq Text :=
  inferInstanceAs (LawfulBEq (List Char))

/-! ## Trimming -/

theorem dropWhile_eq_self {α : Type} {p : α → Bool} {l : List α}
    (h : ∀ a, l.head? = some a → p a = false) : l.dropWhile p = l := by
  cases l with
  | nil => rfl
  | cons a l => rw [List.dropWhile_cons_of_neg (by simp [h a rfl])]

theorem trimStart_eq_self {t : Text} (h : ∀ c, t.head? = some c → isBlank c = false) :
    trimStart t = t :=
  dropWhile_eq_self h

/-- A text whose first and last characters are not blank has nothing to trim. -/
theorem trim_eq_self {t : Text} (first : ∀ c, t.head? = some c → isBlank c = false)
    (last : ∀ c, t.getLast? = some c → isBlank c = false) : trim t = t := by
  rw [trim, trimStart_eq_self first, trimEnd, dropEndWhile, dropWhile_eq_self, List.reverse_reverse]
  intro c hc
  exact last c (by rwa [List.head?_reverse] at hc)

theorem mem_of_mem_dropWhile {α : Type} {p : α → Bool} {l : List α} {a : α}
    (h : a ∈ l.dropWhile p) : a ∈ l :=
  (List.dropWhile_sublist p).mem h

theorem mem_of_mem_trimStart {t : Text} {c : Char} (h : c ∈ trimStart t) : c ∈ t :=
  mem_of_mem_dropWhile h

theorem mem_of_mem_trimEnd {t : Text} {c : Char} (h : c ∈ trimEnd t) : c ∈ t := by
  rw [trimEnd, dropEndWhile, List.mem_reverse] at h
  exact List.mem_reverse.1 (mem_of_mem_dropWhile h)

theorem mem_of_mem_trim {t : Text} {c : Char} (h : c ∈ trim t) : c ∈ t :=
  mem_of_mem_trimStart (mem_of_mem_trimEnd h)

theorem dropWhile_append_of_head {α : Type} {p : α → Bool} {s t : List α}
    (h : ∀ a, t.head? = some a → p a = false) : (s ++ t).dropWhile p = s.dropWhile p ++ t := by
  rw [List.dropWhile_append, dropWhile_eq_self h]
  split
  · rename_i empty
    rw [List.isEmpty_iff.1 empty, List.nil_append]
  · rfl

/-- Behind blanks the start of the next piece is kept. -/
theorem trimStart_append {s t : Text} (h : ∀ c, t.head? = some c → isBlank c = false) :
    trimStart (s ++ t) = trimStart s ++ t :=
  dropWhile_append_of_head h

/-- Before blanks the end of the last piece is kept. -/
theorem trimEnd_append {s : Text} (h : ∀ c, s.getLast? = some c → isBlank c = false) (t : Text) :
    trimEnd (s ++ t) = s ++ trimEnd t := by
  have first : ∀ c, s.reverse.head? = some c → isBlank c = false :=
    fun c hc => h c (by rwa [List.head?_reverse] at hc)
  rw [trimEnd, dropEndWhile, List.reverse_append, dropWhile_append_of_head first,
    List.reverse_append, List.reverse_reverse]
  rfl

/-- Nothing is left of a text just if it is blank. -/
theorem trim_eq_nil {t : Text} : trim t = [] ↔ isBlankText t := by
  constructor
  · intro h
    rw [trim, trimEnd, dropEndWhile, List.reverse_eq_nil_iff, List.dropWhile_eq_nil_iff] at h
    rw [isBlankText, List.all_eq_true]
    intro c hc
    by_contra hb
    have kept : trimStart t ≠ [] := fun h' => hb (List.dropWhile_eq_nil_iff.1 h' c hc)
    have first : isBlank ((trimStart t).head kept) = false := by
      simpa [trimStart] using List.head_dropWhile_not isBlank kept
    have := h _ (List.mem_reverse.2 (List.head_mem kept))
    simp [first] at this
  · intro h
    have : trimStart t = [] := List.dropWhile_eq_nil_iff.2 (List.all_eq_true.1 h)
    rw [trim, this]
    rfl

theorem isEmpty_trim (t : Text) : (trim t).isEmpty = isBlankText t := by
  rw [Bool.eq_iff_iff, List.isEmpty_iff, trim_eq_nil]

/-- The first character that trimming leaves is not blank. -/
theorem not_isBlank_of_head?_trimStart {t : Text} {c : Char} (h : (trimStart t).head? = some c) :
    isBlank c = false := by
  have kept : trimStart t ≠ [] := by
    intro h'
    simp [h'] at h
  have first := List.head_dropWhile_not isBlank kept
  rw [List.head?_eq_some_head kept] at h
  simpa [← Option.some.inj h, trimStart] using first

theorem trimEnd_trimEnd (t : Text) : trimEnd (trimEnd t) = trimEnd t := by
  have first : ∀ c, (trimStart t.reverse).head? = some c → isBlank c = false :=
    fun _ => not_isBlank_of_head?_trimStart
  rw [trimEnd, trimEnd, dropEndWhile, dropEndWhile, List.reverse_reverse]
  exact congrArg List.reverse (trimStart_eq_self first)

theorem trimEnd_blank {t : Text} (blank : isBlankText t) : trimEnd t = [] := by
  rw [trimEnd, dropEndWhile, List.reverse_eq_nil_iff, List.dropWhile_eq_nil_iff]
  exact fun c hc => List.all_eq_true.1 blank c (List.mem_reverse.1 hc)

/-- Trimming takes blanks off the end. -/
theorem exists_trimEnd_append (t : Text) :
    ∃ blanks, isBlankText blanks ∧ t = trimEnd t ++ blanks := by
  refine ⟨(t.reverse.takeWhile isBlank).reverse, ?_, ?_⟩
  · rw [isBlankText, List.all_reverse, List.all_takeWhile]
  · rw [trimEnd, dropEndWhile, ← List.reverse_append, List.takeWhile_append_dropWhile,
      List.reverse_reverse]

theorem exists_append_trimStart (t : Text) :
    ∃ blanks, isBlankText blanks ∧ t = blanks ++ trimStart t :=
  ⟨t.takeWhile isBlank, List.all_takeWhile, List.takeWhile_append_dropWhile.symm⟩

theorem exists_append_trim (t : Text) :
    ∃ before after, isBlankText before ∧ isBlankText after ∧ t = before ++ trim t ++ after := by
  obtain ⟨before, hb, left⟩ := exists_append_trimStart t
  obtain ⟨after, ha, right⟩ := exists_trimEnd_append (trimStart t)
  refine ⟨before, after, hb, ha, ?_⟩
  rw [trim, List.append_assoc, ← right, ← left]

/-! ## Slices -/

theorem mem_of_mem_slice {t : Text} {start stop : Nat} {c : Char} (h : c ∈ slice t start stop) :
    c ∈ t :=
  List.mem_of_mem_take (List.mem_of_mem_drop h)

/-- A slice of a text in three parts that leaves out the first and the last. -/
theorem slice_append (before piece after : Text) :
    slice (before ++ (piece ++ after)) before.length (before.length + piece.length) = piece := by
  rw [slice, ← List.append_assoc, ← List.length_append, List.take_left, List.drop_left]

theorem slice_eq {t piece : Text} {start stop : Nat} (before after : Text)
    (h : t = before ++ (piece ++ after))
    (hstart : start = before.length) (hstop : stop = before.length + piece.length) :
    slice t start stop = piece := by
  rw [h, hstart, hstop, slice_append]

/-- What stands between two marks. -/
theorem slice_bracketed (front inner rest : Text) (first last : Char) :
    slice (front ++ first :: (inner ++ last :: rest)) (front.length + 1)
      (front.length + inner.length + 2 - 1) = inner :=
  slice_eq (front ++ [first]) (last :: rest) (by simp) (by simp)
    (by simp only [List.length_append, List.length_singleton]; omega)

/-- A cut at the first occurrence of a mark. -/
theorem cutAt?_append {mark : Char} (after : Text) :
    ∀ {before : Text}, mark ∉ before → cutAt? mark (before ++ mark :: after) = some (before, after)
  | [], _ => by simp [cutAt?]
  | c :: before, h => by
    simp only [List.mem_cons, not_or] at h
    rw [List.cons_append, cutAt?, if_neg (Ne.symm h.1), cutAt?_append after h.2]
    rfl

theorem eq_append_of_cutAt? {mark : Char} {t before after : Text}
    (h : cutAt? mark t = some (before, after)) : t = before ++ mark :: after := by
  fun_induction cutAt? mark t generalizing before with
  | case1 => simp at h
  | case2 cs => simp_all
  | case3 c cs hc ih =>
    obtain ⟨⟨b, a⟩, hb, he⟩ := Option.map_eq_some_iff.1 h
    obtain ⟨rfl, rfl⟩ := Prod.mk.inj he
    rw [List.cons_append, ← ih hb]

theorem dropHead?_append (head rest : Text) : dropHead? head (head ++ rest) = some rest := by
  induction head with
  | nil => rfl
  | cons c head ih => rw [List.cons_append, dropHead?, if_pos rfl, ih]

/-- What a text starts with is what is taken off it, followed by what is left. -/
theorem eq_append_of_dropHead? {head t rest : Text} (h : dropHead? head t = some rest) :
    t = head ++ rest := by
  fun_induction dropHead? head t with
  | case1 => simpa using h
  | case2 => simp at h
  | case3 _ _ _ ih => rw [List.cons_append, ih h]
  | case4 => simp at h

theorem dropHead?_eq_some {head t rest : Text} : dropHead? head t = some rest ↔ t = head ++ rest :=
  ⟨eq_append_of_dropHead?, fun h => h ▸ dropHead?_append head rest⟩

/-! ## Blanks and names -/

/-- The code points of the blanks. -/
def blankCodes : List Nat :=
  [9, 10, 11, 12, 13, 0x1C, 0x1D, 0x1E, 0x1F, 0x20, 0x85, 0xA0, 0x1680, 0x2000, 0x2001, 0x2002,
    0x2003, 0x2004,
   0x2005, 0x2006, 0x2007, 0x2008, 0x2009, 0x200A, 0x2028, 0x2029, 0x202F, 0x205F, 0x3000]

theorem mem_blankCodes {c : Char} (h : isBlank c) : c.toNat ∈ blankCodes := by
  have table : ∀ n ∈ List.range' 9 5 ++ List.range' 0x1C 5 ++ [0x85, 0xA0, 0x1680] ++
      List.range' 0x2000 11 ++ [0x2028, 0x2029, 0x202F, 0x205F, 0x3000], n ∈ blankCodes := by
    decide
  apply table
  simp only [isBlank, Bool.or_eq_true, Bool.and_eq_true, decide_eq_true_eq, beq_iff_eq] at h
  simp only [List.mem_append, List.mem_range'_1, List.mem_cons, List.not_mem_nil, or_false]
  omega

/-- What no code point of a blank has, no blank has. -/
theorem eq_false_of_isBlank {p : Char → Bool} (table : ∀ n ∈ blankCodes, p (Char.ofNat n) = false)
    {c : Char} (h : isBlank c) : p c = false := by
  have here := table _ (mem_blankCodes h)
  rwa [Char.ofNat_toNat] at here

theorem not_isNameChar_of_isBlank {c : Char} : isBlank c → isNameChar c = false :=
  eq_false_of_isBlank (by decide +kernel)

theorem not_isBlank_of_isNameChar {c : Char} (h : isNameChar c) : isBlank c = false := by
  by_contra hb
  rw [not_isNameChar_of_isBlank (by simpa using hb)] at h
  exact Bool.noConfusion h

theorem not_isBlank_of_isTagNameChar {c : Char} (h : isTagNameChar c) : isBlank c = false := by
  simp only [isTagNameChar, Bool.or_eq_true, beq_iff_eq] at h
  rcases h with ((h | rfl) | rfl) | rfl
  · exact not_isBlank_of_isNameChar h
  all_goals decide

theorem isNameChar_of_isNameStart {c : Char} (h : isNameStart c) : isNameChar c := by
  simp only [isNameStart, Bool.or_eq_true] at h
  simp only [isNameChar, isWordChar, Bool.or_eq_true]
  tauto

theorem isTagNameChar_of_isNameStart {c : Char} (h : isNameStart c) : isTagNameChar c := by
  simp [isTagNameChar, isNameChar_of_isNameStart h]

theorem isTagNameChar_of_mem_tagName {t : Text} {c : Char} (h : c ∈ tagName t) :
    isTagNameChar c := by
  cases t with
  | nil => simp [tagName] at h
  | cons d ds =>
    rw [tagName] at h
    split at h
    · rename_i start
      rcases List.mem_cons.1 h with rfl | h
      · exact isTagNameChar_of_isNameStart start
      · exact List.mem_takeWhile_imp h
    · simp at h

end Recast
