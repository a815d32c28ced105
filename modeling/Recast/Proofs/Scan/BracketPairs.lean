import Recast.Proofs.Markup.ChainText

/-!
# Pairs of brackets

Three readings of the brackets of a text say which two belong together. A stack of the open ones
pairs each closing bracket with the bracket on top (`bracketPairs`). `bracketEndAt?` looks forwards
and counts the brackets of one kind, and `openerAt?` looks backwards and counts those of all kinds
together. In properly nested text of plain characters the three agree (`bracketPairs_agree`).

What they agree on are the groups of the text (`IsGroupAt`): two brackets of one kind around nested
text. Nested text is `Balanced`, and the laws of the stack are inductions over that.
-/

namespace Recast

/-! ## The stack -/

/-- The pairs of brackets from `pos` on, with the offsets of the brackets that are open. -/
def pairsFrom (stack : List Nat) (pos : Nat) : Text → List (Nat × Nat)
  | [] => []
  | c :: cs =>
    if isOpener c then pairsFrom (pos :: stack) (pos + 1) cs
    else if isCloser c then (stack.head?.map (·, pos)).toList ++ pairsFrom stack.tail (pos + 1) cs
    else pairsFrom stack (pos + 1) cs

/-- The offsets of the opening and the closing bracket of each pair. -/
def bracketPairs (t : Text) : List (Nat × Nat) :=
  pairsFrom [] 0 t

section Steps

variable (stack : List Nat) (pos : Nat)

theorem pairsFrom_other {c : Char} (opener : isOpener c = false) (closer : isCloser c = false)
    (cs : Text) : pairsFrom stack pos (c :: cs) = pairsFrom stack (pos + 1) cs := by
  rw [pairsFrom, opener, closer]
  rfl

theorem pairsFrom_opener (kind : Bracket) (cs : Text) :
    pairsFrom stack pos (kind.opener :: cs) = pairsFrom (pos :: stack) (pos + 1) cs := by
  rw [pairsFrom, if_pos (isOpener_opener kind)]

theorem pairsFrom_closer (kind : Bracket) (opening : Nat) (cs : Text) :
    pairsFrom (opening :: stack) pos (kind.closer :: cs) =
      (opening, pos) :: pairsFrom stack (pos + 1) cs := by
  rw [pairsFrom, isOpener_closer, isCloser_closer]
  rfl

end Steps

/-! ## Nested text -/

theorem Nested.balanced : ∀ {t : Text}, Nested t → Balanced t
  | [], _ => .nil
  | c :: cs, nested => by
    obtain ⟨next, step, rest⟩ := Option.bind_eq_some_iff.1 nested
    rcases bracketStep_cases step with ⟨kind, rfl, rfl⟩ | ⟨kind, -, same⟩ | ⟨opener, closer, rfl⟩
    · obtain ⟨inner, behind, rfl, inside, after⟩ := exists_closer_of_openAfter rest
      have shorter : inner.length < (kind.opener :: (inner ++ kind.closer :: behind)).length ∧
          behind.length < (kind.opener :: (inner ++ kind.closer :: behind)).length := by
        simp only [List.length_cons, List.length_append]
        omega
      exact .group kind inside.balanced (Nested.balanced after)
    · cases same
    · exact .plain opener closer (Nested.balanced rest)
termination_by t => t.length

theorem Balanced.nested {t : Text} (balanced : Balanced t) : Nested t := by
  induction balanced with
  | nil => rfl
  | plain opens closes _ ih =>
    unfold Nested
    rwa [openAfter, bracketStep_other opens closes]
  | group kind _ _ ihInside ih =>
    unfold Nested
    rwa [openAfter, bracketStep_opener, Option.bind_some, ihInside.openAfter_append, openAfter,
      bracketStep_closer]

/-- Nested text has its own pairs, whatever is open before it and stands behind it. -/
theorem Balanced.pairsFrom_append {t : Text} (balanced : Balanced t) (stack : List Nat) (pos : Nat)
    (rest : Text) :
    pairsFrom stack pos (t ++ rest) =
      pairsFrom [] pos t ++ pairsFrom stack (pos + t.length) rest := by
  induction balanced generalizing stack pos rest with
  | nil => rfl
  | plain opens closes _ ih =>
    rw [List.cons_append, pairsFrom_other stack pos opens closes,
      pairsFrom_other [] pos opens closes, ih, List.length_cons, Nat.add_assoc, Nat.add_comm 1]
  | @group kind inner behind _ _ ihInside ih =>
    rw [List.cons_append, List.append_assoc, List.cons_append, pairsFrom_opener, pairsFrom_opener,
      ihInside, ihInside, pairsFrom_closer, pairsFrom_closer, ih]
    simp only [List.append_assoc, List.cons_append, List.length_cons, List.length_append]
    rw [show pos + (inner.length + (behind.length + 1) + 1) =
      pos + 1 + inner.length + 1 + behind.length by omega]

/-- A group has its own pair between those of the text inside and of the text behind it. -/
theorem Balanced.pairsFrom_group {inner : Text} (inside : Balanced inner) (kind : Bracket)
    (pos : Nat) (rest : Text) :
    pairsFrom [] pos (kind.opener :: (inner ++ kind.closer :: rest)) =
      pairsFrom [] (pos + 1) inner ++
        (pos, pos + 1 + inner.length) :: pairsFrom [] (pos + 1 + inner.length + 1) rest := by
  rw [pairsFrom_opener, inside.pairsFrom_append, pairsFrom_closer]

/-! ## Groups -/

/-- The brackets at `opening` and `closing`, counted from `pos`, are of one kind and around nested
text. -/
def IsGroupAt (t : Text) (pos opening closing : Nat) : Prop :=
  ∃ (kind : Bracket) (front inner rest : Text),
    t = front ++ kind.opener :: (inner ++ kind.closer :: rest) ∧
    Balanced inner ∧ opening = pos + front.length ∧ closing = opening + inner.length + 1

theorem IsGroupAt.append {t : Text} {pos opening closing : Nat} (before after : Text)
    (h : IsGroupAt t (pos + before.length) opening closing) :
    IsGroupAt (before ++ (t ++ after)) pos opening closing := by
  obtain ⟨kind, front, inner, rest, rfl, inside, rfl, rfl⟩ := h
  exact ⟨kind, before ++ front, inner, rest ++ after, by simp, inside, by simp [Nat.add_assoc], rfl⟩

theorem IsGroupAt.inside {kind : Bracket} {inner rest : Text} {pos opening closing : Nat}
    (h : IsGroupAt inner (pos + 1) opening closing) :
    IsGroupAt (kind.opener :: (inner ++ kind.closer :: rest)) pos opening closing :=
  h.append [kind.opener] (kind.closer :: rest)

theorem IsGroupAt.behind {kind : Bracket} {inner rest : Text} {pos opening closing : Nat}
    (h : IsGroupAt rest (pos + 1 + inner.length + 1) opening closing) :
    IsGroupAt (kind.opener :: (inner ++ kind.closer :: rest)) pos opening closing := by
  have place : pos + 1 + inner.length + 1 =
      pos + (kind.opener :: (inner ++ [kind.closer])).length := by
    simp only [List.length_cons, List.length_append, List.length_nil]
    omega
  rw [place] at h
  simpa using h.append (kind.opener :: (inner ++ [kind.closer])) []

/-- The stack pairs the brackets of the groups. -/
theorem Balanced.isGroupAt {t : Text} (balanced : Balanced t) {pos opening closing : Nat}
    (mem : (opening, closing) ∈ pairsFrom [] pos t) : IsGroupAt t pos opening closing := by
  induction balanced generalizing pos with
  | nil => cases mem
  | @plain c _ opens closes _ ih =>
    rw [pairsFrom_other [] pos opens closes] at mem
    simpa using (ih mem).append [c] []
  | @group kind inner rest inside _ ihInside ih =>
    rw [inside.pairsFrom_group, List.mem_append, List.mem_cons] at mem
    rcases mem with mem | same | mem
    · exact (ihInside mem).inside
    · obtain ⟨rfl, rfl⟩ := Prod.mk.inj same
      exact ⟨kind, [], inner, rest, rfl, inside, rfl, by omega⟩
    · exact (ih mem).behind

/-- Where a character of a group and what follows it stands. -/
theorem getElem?_group {kind : Bracket} {inner rest : Text} {i : Nat} {c : Char}
    (here : (kind.opener :: (inner ++ kind.closer :: rest))[i]? = some c) :
    i = 0 ∧ c = kind.opener ∨ (∃ j, i = 1 + j ∧ inner[j]? = some c) ∨ i = 1 + inner.length ∧
      c = kind.closer ∨
      ∃ j, i = 1 + inner.length + 1 + j ∧ rest[j]? = some c := by
  rcases Nat.eq_zero_or_pos i with rfl | pos
  · exact .inl ⟨rfl, by simpa using here.symm⟩
  · obtain ⟨j, rfl⟩ := Nat.exists_eq_add_of_le pos
    rw [Nat.add_comm, List.getElem?_cons_succ] at here
    rcases Nat.lt_trichotomy j inner.length with less | rfl | more
    · rw [List.getElem?_append_left less] at here
      exact .inr (.inl ⟨j, rfl, here⟩)
    · exact .inr (.inr (.inl ⟨rfl, by simpa using here.symm⟩))
    · obtain ⟨k, rfl⟩ := Nat.exists_eq_add_of_le more
      rw [List.getElem?_append_right (by omega),
        show inner.length.succ + k - inner.length = k + 1 by omega] at here
      exact .inr (.inr (.inr ⟨k, by omega, here⟩))

/-- Every bracket of nested text is in a pair. -/
theorem Balanced.exists_pair {t : Text} (balanced : Balanced t) (pos : Nat) {i : Nat} {c : Char}
    (here : t[i]? = some c) :
    (isOpener c → ∃ closing, (pos + i, closing) ∈ pairsFrom [] pos t) ∧
      (isCloser c → ∃ opening, (opening, pos + i) ∈ pairsFrom [] pos t) := by
  induction balanced generalizing pos i with
  | nil => simp at here
  | @plain d cs opens closes _ ih =>
    rw [pairsFrom_other [] pos opens closes]
    cases i with
    | zero =>
      obtain rfl : d = c := by simpa using here
      simp [opens, closes]
    | succ i => simpa [Nat.add_assoc, Nat.add_comm 1] using ih (pos + 1) here
  | @group kind inner rest inside _ ihInside ih =>
    rw [inside.pairsFrom_group]
    rcases getElem?_group here with ⟨rfl, rfl⟩ | ⟨j, rfl, deeper⟩ | ⟨rfl, rfl⟩ | ⟨j, rfl, further⟩
    · exact ⟨fun _ => ⟨pos + 1 + inner.length, by simp⟩,
        fun closer => by simp [isCloser_opener] at closer⟩
    · obtain ⟨forth, back⟩ := ihInside (pos + 1) deeper
      rw [Nat.add_assoc] at forth back
      exact ⟨fun opener => (forth opener).imp fun _ mem => List.mem_append_left _ mem,
        fun closer => (back closer).imp fun _ mem => List.mem_append_left _ mem⟩
    · exact ⟨fun opener => by simp [isOpener_closer] at opener,
        fun _ => ⟨pos, by simp [Nat.add_assoc]⟩⟩
    · obtain ⟨forth, back⟩ := ih (pos + 1 + inner.length + 1) further
      rw [show pos + 1 + inner.length + 1 + j = pos + (1 + inner.length + 1 + j) by omega]
        at forth back
      exact ⟨fun opener => (forth opener).imp
        fun _ mem => List.mem_append_right _ (List.mem_cons_of_mem _ mem),
        fun closer => (back closer).imp fun _ mem =>
          List.mem_append_right _ (List.mem_cons_of_mem _ mem)⟩

/-! ## Agreement -/

section Agreement

variable {t : Text} {p q : Nat}

theorem IsGroupAt.bracketEndAt? (plain : ∀ c ∈ t, isPlainCode c) (h : IsGroupAt t 0 p q) :
    Recast.bracketEndAt? t p = some (q + 1) := by
  obtain ⟨kind, front, inner, rest, rfl, inside, rfl, rfl⟩ := h
  rw [Nat.zero_add, bracketEndAt?_nested inside.nested fun c mem => plain c (by simp [mem])]

theorem IsGroupAt.closes (h : IsGroupAt t 0 p q) : ∃ c, t[q]? = some c ∧ isCloser c := by
  obtain ⟨kind, front, inner, rest, rfl, -, rfl, rfl⟩ := h
  have whole : front ++ kind.opener :: (inner ++ kind.closer :: rest) =
      (front ++ kind.opener :: inner) ++ kind.closer :: rest := by
    simp
  refine ⟨kind.closer, ?_, isCloser_closer kind⟩
  rw [whole, List.getElem?_append_right (by simp; omega)]
  simp [Nat.add_assoc]

theorem IsGroupAt.openerAt? (h : IsGroupAt t 0 p q) : Recast.openerAt? t q = some p := by
  obtain ⟨kind, front, inner, rest, rfl, inside, rfl, rfl⟩ := h
  have cut : (front ++ kind.opener :: (inner ++ kind.closer :: rest)).take
      (0 + front.length + inner.length + 1 + 1) =
      (front ++ kind.opener :: inner) ++ [kind.closer] := by
    have whole : front ++ kind.opener :: (inner ++ kind.closer :: rest) =
        ((front ++ kind.opener :: inner) ++ [kind.closer]) ++ rest := by simp
    rw [whole, List.take_left' (by simp; omega)]
  rw [Recast.openerAt?, cut, List.reverse_append, List.reverse_singleton, List.singleton_append,
    Nat.zero_add]
  exact openerBehind?_group (isCloser_closer kind) (isOpener_opener kind)
    (isLevel_of_nested inside.nested) front

/-- Only an opening bracket is matched forwards. -/
theorem exists_opener_of_bracketEndAt? {stop : Nat} (found : bracketEndAt? t p = some stop) :
    ∃ c, t[p]? = some c ∧ isOpener c := by
  rw [Recast.bracketEndAt?] at found
  split at found
  · rename_i c cs here
    refine ⟨c, by rw [← List.head?_drop, here, List.head?_cons], ?_⟩
    by_contra other
    rw [ofOpener?_eq_none (by simpa using other)] at found
    cases found
  · cases found

/-- In nested text without quotes, slashes and `<`, the brackets that the stack pairs are those that
are matched forwards, and those that are matched backwards from a closing bracket; every opening
bracket is in a pair. -/
theorem bracketPairs_agree (nested : Nested t) (plain : ∀ c ∈ t, isPlainCode c) :
    (∀ p q, (p, q) ∈ bracketPairs t ↔ bracketEndAt? t p = some (q + 1)) ∧
      (∀ p q, (p, q) ∈ bracketPairs t ↔ (∃ c, t[q]? = some c ∧ isCloser c) ∧
        openerAt? t q = some p) ∧
      ∀ p c, t[p]? = some c → isOpener c → ∃ q, (p, q) ∈ bracketPairs t := by
  have balanced := nested.balanced
  have pair {i : Nat} {c : Char} (here : t[i]? = some c) := balanced.exists_pair 0 here
  simp only [Nat.zero_add] at pair
  refine ⟨fun p q => ⟨fun mem => (balanced.isGroupAt mem).bracketEndAt? plain, fun found => ?_⟩,
    fun p q => ⟨fun mem => ⟨?_, (balanced.isGroupAt mem).openerAt?⟩, ?_⟩,
    fun p c here opener => (pair here).1 opener⟩
  · obtain ⟨c, here, opener⟩ := exists_opener_of_bracketEndAt? found
    obtain ⟨closing, mem⟩ := (pair here).1 opener
    have same := (balanced.isGroupAt mem).bracketEndAt? plain
    rw [found, Option.some.injEq, Nat.add_right_cancel_iff] at same
    rwa [same]
  · exact (balanced.isGroupAt mem).closes
  · rintro ⟨⟨c, here, closer⟩, found⟩
    obtain ⟨opening, mem⟩ := (pair here).2 closer
    have same := (balanced.isGroupAt mem).openerAt?
    rw [found, Option.some.injEq] at same
    rwa [same]

theorem bracketPairs_agree_call :
    bracketPairs "f(a[0], \x7bb\x7d)".toList = [(3, 5), (8, 10), (1, 11)] ∧
    bracketEndAt? "f(a[0], \x7bb\x7d)".toList 1 = some 12 ∧
      openerAt? "f(a[0], \x7bb\x7d)".toList 11 = some 1 := by
  have pairs : bracketPairs "f(a[0], \x7bb\x7d)".toList = [(3, 5), (8, 10), (1, 11)] := by decide
  obtain ⟨forwards, backwards, -⟩ :=
    bracketPairs_agree (t := "f(a[0], \x7bb\x7d)".toList) (by decide) (by decide)
  exact ⟨pairs, (forwards 1 11).1 (by rw [pairs]; decide),
    ((backwards 1 11).1 (by rw [pairs]; decide)).2⟩

end Agreement

end Recast
