import Recast.Proofs.Scan.Passage
import Recast.Scan.TopLevel

/-!
# Properly nested brackets

`openAfter` reads a text with a stack of open brackets: an opening bracket goes on the stack, and a
closing one has to be of the kind on top. A text is `Nested` if it closes every bracket that it
opens, and no other. In nested text of plain characters every bracket ends where its own closing one
stands (`bracketEndAt?_nested`), and no piece is cut inside one (`pieceSpans_nested`).
-/

namespace Recast

/-- The open brackets after a character; there are none to speak of if a closing bracket does not
fit. -/
def bracketStep (c : Char) (stack : List Bracket) : Option (List Bracket) :=
  match Bracket.ofOpener? c, stack with
  | some kind, stack => some (kind :: stack)
  | none, kind :: below =>
    if c = kind.closer then some below else if isCloser c then none else some (kind :: below)
  | none, [] => if isCloser c then none else some []

/-- The open brackets after a text. -/
def openAfter : List Bracket → Text → Option (List Bracket)
  | stack, [] => some stack
  | stack, c :: cs => (bracketStep c stack).bind fun next => openAfter next cs

/-- The brackets of the text are properly nested. -/
def Nested (t : Text) : Prop :=
  openAfter [] t = some []

instance (t : Text) : Decidable (Nested t) :=
  inferInstanceAs (Decidable (openAfter [] t = some []))

theorem openAfter_append (a b : Text) (stack : List Bracket) :
    openAfter stack (a ++ b) = (openAfter stack a).bind fun next => openAfter next b := by
  induction a generalizing stack with
  | nil => rfl
  | cons c cs ih =>
    rw [List.cons_append, openAfter, openAfter, Option.bind_assoc]
    exact congrArg _ (funext fun next => ih next)

theorem bracketStep_opener (kind : Bracket) (stack : List Bracket) :
    bracketStep kind.opener stack = some (kind :: stack) := by
  cases kind <;> rfl

theorem bracketStep_closer (kind : Bracket) (below : List Bracket) :
    bracketStep kind.closer (kind :: below) = some below := by
  cases kind <;> rfl

theorem ofOpener?_eq_none {c : Char} (h : isOpener c = false) : Bracket.ofOpener? c = none := by
  simp only [isOpener, Bool.or_eq_false_iff, beq_eq_false_iff_ne] at h
  rw [Bracket.ofOpener?, if_neg h.2, if_neg h.1.1, if_neg h.1.2]

theorem bracketStep_other {c : Char} (opener : isOpener c = false) (closer : isCloser c = false)
    (stack : List Bracket) : bracketStep c stack = some stack := by
  have other : ∀ kind : Bracket, c ≠ kind.closer := by
    rintro kind rfl
    cases kind <;> cases closer
  cases stack with
  | nil => simp [bracketStep, ofOpener?_eq_none opener, closer]
  | cons kind below => simp [bracketStep, ofOpener?_eq_none opener, closer, other]

/-- A character opens a bracket, closes the one on top, or is no bracket. -/
theorem bracketStep_cases {c : Char} {stack next : List Bracket}
    (h : bracketStep c stack = some next) :
    (∃ kind : Bracket, c = kind.opener ∧ next = kind :: stack) ∨
      (∃ kind : Bracket, c = kind.closer ∧ stack = kind :: next) ∨
      (isOpener c = false ∧ isCloser c = false ∧ next = stack) := by
  cases opener : isOpener c with
  | true =>
    have kinds : ∃ kind : Bracket, c = kind.opener := by
      simp only [isOpener, Bool.or_eq_true, beq_iff_eq] at opener
      rcases opener with (rfl | rfl) | rfl
      · exact ⟨.round, rfl⟩
      · exact ⟨.square, rfl⟩
      · exact ⟨.curly, rfl⟩
    obtain ⟨kind, rfl⟩ := kinds
    rw [bracketStep_opener] at h
    exact .inl ⟨kind, rfl, (Option.some.inj h).symm⟩
  | false =>
    cases closer : isCloser c with
    | false =>
      rw [bracketStep_other opener closer] at h
      exact .inr (.inr ⟨rfl, rfl, (Option.some.inj h).symm⟩)
    | true =>
      cases stack with
      | nil => simp [bracketStep, ofOpener?_eq_none opener, closer] at h
      | cons kind below =>
        simp only [bracketStep, ofOpener?_eq_none opener, closer, if_true] at h
        obtain ⟨same, rest⟩ := Option.ite_none_right_eq_some.1 h
        obtain rfl := Option.some.inj rest
        exact .inr (.inl ⟨kind, same, rfl⟩)

/-- Brackets further down the stack do not matter. -/
theorem bracketStep_below {c : Char} {stack next : List Bracket}
    (h : bracketStep c stack = some next)
    (below : List Bracket) : bracketStep c (stack ++ below) = some (next ++ below) := by
  rcases bracketStep_cases h with ⟨kind, rfl, rfl⟩ | ⟨kind, rfl, rfl⟩ | ⟨opener, closer, rfl⟩
  · exact bracketStep_opener kind _
  · exact bracketStep_closer kind _
  · exact bracketStep_other opener closer _

theorem openAfter_below {t : Text} (below : List Bracket) : ∀ {stack next : List Bracket},
    openAfter stack t = some next → openAfter (stack ++ below) t = some (next ++ below) := by
  induction t with
  | nil =>
    intro stack next h
    rw [openAfter, Option.some.inj h]
  | cons c cs ih =>
    intro stack next h
    obtain ⟨middle, step, rest⟩ := Option.bind_eq_some_iff.1 h
    rw [openAfter, bracketStep_below step below]
    exact ih rest

/-- Nested text leaves the open brackets as they are. -/
theorem Nested.openAfter_eq {t : Text} (h : Nested t) (stack : List Bracket) :
    openAfter stack t = some stack :=
  openAfter_below stack h

theorem Nested.openAfter_append {t : Text} (h : Nested t) (stack : List Bracket) (rest : Text) :
    openAfter stack (t ++ rest) = openAfter stack rest := by
  rw [Recast.openAfter_append, h.openAfter_eq, Option.bind_some]

/-- One kind of brackets is counted right if all kinds are nested. -/
theorem closesFrom_of_openAfter (kind : Bracket) :
    ∀ {t : Text} {stack : List Bracket}, openAfter stack t = some [] →
    closesFrom kind (stack.count kind) t
  | [], stack, h => by
    rw [openAfter] at h
    obtain rfl := Option.some.inj h
    rfl
  | c :: cs, stack, h => by
    obtain ⟨next, step, rest⟩ := Option.bind_eq_some_iff.1 h
    have ih := closesFrom_of_openAfter kind rest
    rw [closesFrom]
    rcases bracketStep_cases step with ⟨other, rfl, rfl⟩ | ⟨other, rfl, rfl⟩ | ⟨opener, closer, rfl⟩
    · by_cases same : other = kind
      · subst same
        rw [List.count_cons_self] at ih
        rwa [if_pos rfl]
      · rw [List.count_cons_of_ne same] at ih
        rwa [if_neg (by cases kind <;> cases other <;> simp_all [Bracket.opener]),
          if_neg (by cases kind <;> cases other <;> decide)]
    · rw [if_neg (by cases kind <;> cases other <;> decide)]
      by_cases same : other = kind
      · subst same
        rw [if_pos rfl, List.count_cons_self]
        simpa using ih
      · rw [List.count_cons_of_ne same]
        rwa [if_neg (by cases kind <;> cases other <;> simp_all [Bracket.closer])]
    · rwa [if_neg (by rintro rfl; cases kind <;> cases opener),
        if_neg (by rintro rfl; cases kind <;> cases closer)]

theorem Nested.closes {t : Text} (h : Nested t) (kind : Bracket) : closesFrom kind 0 t := by
  simpa using closesFrom_of_openAfter kind h

/-! ## Pieces -/

theorem pieceSpans_of_le {f : Char → Bool} (start : Nat) :
    ∀ (t : Text) {pos resume : Nat}, resume ≤ pos →
    pieceSpans f start pos resume t = pieceSpans f start pos 0 t
  | [], _, _, _ => rfl
  | c :: cs, pos, resume, h => by
    have tail : ∀ start, pieceSpans f start (pos + 1) resume cs =
        pieceSpans f start (pos + 1) 0 cs := fun start =>
      pieceSpans_of_le start cs (Nat.le_succ_of_le h)
    rw [pieceSpans, pieceSpans]
    simp only [Nat.not_lt.2 h, Nat.not_lt_zero, if_false, tail]

theorem pieceSpans_skip (f : Char → Bool) (start : Nat) (rest : Text) : ∀ (t : Text) (pos : Nat),
    pieceSpans f start pos (pos + t.length) (t ++ rest) = pieceSpans f start (pos + t.length) 0 rest
  | [], pos => pieceSpans_of_le start rest (Nat.le_refl _)
  | c :: cs, pos => by
    have h := pieceSpans_skip f start rest cs (pos + 1)
    rw [List.cons_append, pieceSpans, if_pos (by simp)]
    rwa [List.length_cons, ← Nat.add_assoc, Nat.add_right_comm]

/-! ## Brackets around nested text -/

variable {t : Text}

/-- A bracket around nested text ends right behind it. -/
theorem bracketEnd_nested (nested : Nested t) (plain : ∀ c ∈ t, isPlainCode c) (kind : Bracket)
    (behind rest : Text)
    (pos : Nat) :
    bracketEnd kind 0 behind pos 0 (t ++ kind.closer :: rest) = some (pos + t.length + 1) :=
  bracketEnd_plain kind rest t behind pos plain (nested.closes kind)

theorem ofOpener?_opener (kind : Bracket) : Bracket.ofOpener? kind.opener = some kind := by
  cases kind <;> rfl

theorem bracketEndAt?_nested (nested : Nested t) (plain : ∀ c ∈ t, isPlainCode c) (kind : Bracket)
    (front rest : Text) :
    bracketEndAt? (front ++ kind.opener :: (t ++ kind.closer :: rest)) front.length =
      some (front.length + t.length + 2) := by
  rw [bracketEndAt?, List.drop_left]
  dsimp only
  rw [ofOpener?_opener, Option.bind_some, bracketEnd_nested nested plain]
  exact congrArg some (by omega)

/-- Pieces are not looked for in a bracket around nested text. -/
theorem pieceSpans_nested {isSeparator : Char → Bool} (nested : Nested t)
    (plain : ∀ c ∈ t, isPlainCode c) (kind : Bracket) (start pos : Nat) (rest : Text) :
    pieceSpans isSeparator start pos 0 (kind.opener :: (t ++ kind.closer :: rest)) =
      pieceSpans isSeparator start (pos + t.length + 2) 0 rest := by
  have quote : isQuote kind.opener = false := by cases kind <;> rfl
  have ends : nestedEnd? pos kind.opener (t ++ kind.closer :: rest) =
      some (pos + 1 + (t ++ [kind.closer]).length) := by
    rw [nestedEnd?, ofOpener?_opener, Option.map_some, bracketEnd_nested nested plain]
    simp [Nat.add_assoc]
  have skip := pieceSpans_skip isSeparator start rest (t ++ [kind.closer]) (pos + 1)
  rw [List.append_assoc, List.singleton_append] at skip
  rw [pieceSpans, if_neg (Nat.not_lt_zero _), quote, if_neg Bool.false_ne_true, ends]
  dsimp only
  rw [skip, List.length_append, List.length_singleton,
    show pos + 1 + (t.length + 1) = pos + t.length + 2 by omega]

end Recast
