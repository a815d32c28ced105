import Recast.Markup.ListCall
import Recast.Proofs.Scope.ClosedCode

/-!
# Member chains read backwards

The collection of a rendered list is the member chain before `.map`, and it is found by walking back
over names, dots and groups in brackets. The walk counts brackets and looks at nothing else: a group
is what stands between two brackets that the count pairs, whether they are code or stand in a
string. `IsChainText` says which texts are walked over to their start (`chainStart_eq_zero_iff`).
-/

namespace Recast

/-! ## The opening bracket -/

/-- The bracket that is found backwards opens a group: what is passed over brings the count back. -/
theorem eq_append_of_openerBehind? :
    ∀ {behind : Text} {depth start : Nat}, openerBehind? (1 + depth) behind = some start →
    ∃ inner first front, behind = inner.reverse ++ first :: front ∧ front.length = start ∧
      isOpener first ∧
      depthAfter (fun _ => false) 0 inner = some depth
  | [], _, _, found => by simp [openerBehind?] at found
  | c :: before, depth, start, found => by
    -- what the rest passes over is followed by `c`
    have step : ∀ {deep : Nat}, openerBehind? (1 + deep) before = some start →
        depthAfter (fun _ => false) deep [c] = some depth → ∃ inner first front,
          c :: before = inner.reverse ++ first :: front ∧ front.length = start ∧ isOpener first ∧
            depthAfter (fun _ => false) 0 inner = some depth := by
      intro deep found last
      obtain ⟨inner, first, front, rfl, size, opener, level⟩ := eq_append_of_openerBehind? found
      refine ⟨inner ++ [c], first, front, by simp, size, opener, ?_⟩
      rw [depthAfter_append, level]
      exact last
    rw [openerBehind?] at found
    split at found
    · rename_i closer
      have opener : isOpener c = false := by
        simp only [isCloser, Bool.or_eq_true, beq_iff_eq] at closer
        rcases closer with (rfl | rfl) | rfl <;> rfl
      have deeper : openerBehind? (1 + (depth + 1 : Nat)) before = some start := by
        rw [← found]
        congr 1
      exact step deeper (by simp [depthAfter, opener, closer])
    · rename_i closer
      split at found
      · rename_i opener
        split at found
        · rename_i first
          obtain rfl : depth = 0 := by omega
          exact ⟨[], c, before, rfl, Option.some.inj found, opener, rfl⟩
        · obtain ⟨deep, rfl⟩ : ∃ deep, depth = deep + 1 := ⟨depth - 1, by omega⟩
          have higher : openerBehind? (1 + deep) before = some start := by
            rw [← found]
            congr 1
            omega
          exact step higher (by simp [depthAfter, opener])
      · rename_i opener
        exact step found (depthAfter_other (by simpa using opener) (by simpa using closer) rfl _ _)

/-! ## Chains -/

/-- Text that is walked over backwards: names, dots, `?` before a dot, and groups in which every
bracket that counts is paired. -/
inductive IsChainText : Text → Prop where
  | nil : IsChainText []
  | char {t : Text} {c : Char} (chain : IsChainText t) (valid : isNameChar c ∨ c = '.') :
    IsChainText (t ++ [c])
  | optional {t : Text} (chain : IsChainText t) : IsChainText (t ++ ['?', '.'])
  | group {t inner : Text} {first last : Char} (chain : IsChainText t) (opener : isOpener first)
    (level : IsLevel (fun _ => false) inner) (closer : last = ')' ∨ last = ']') :
    IsChainText (t ++ first :: (inner ++ [last]))

/-- Text that is walked over backwards from a character: a chain, or one with `?` behind it if the
character is a dot. -/
def ChainsTo (next : Option Char) (t : Text) : Prop :=
  IsChainText t ∨ next = some '.' ∧ ∃ u, t = u ++ ['?'] ∧ IsChainText u

/-- A group at the end of a chain, without its closing bracket. -/
def OpensGroup (t : Text) : Prop :=
  ∃ u first inner, t = u ++ first :: inner ∧ isOpener first ∧ IsLevel (fun _ => false) inner ∧
    IsChainText u

/-- The last step of a chain. -/
theorem isChainText_snoc {t : Text} {c : Char} : IsChainText (t ++ [c]) ↔
    (isNameChar c ∨ c = '.') ∧ ChainsTo (some c) t ∨ (c = ')' ∨ c = ']') ∧ OpensGroup t := by
  constructor
  · intro chain
    generalize whole : t ++ [c] = s at chain
    cases chain with
    | nil => simp at whole
    | char chain valid =>
      obtain ⟨rfl, last⟩ := List.append_inj' whole rfl
      obtain rfl := List.singleton_inj.1 last
      exact .inl ⟨valid, .inl chain⟩
    | @optional u chain =>
      have split : t ++ [c] = (u ++ ['?']) ++ ['.'] := by rw [whole]; simp
      obtain ⟨rfl, last⟩ := List.append_inj' split rfl
      obtain rfl := List.singleton_inj.1 last
      exact .inl ⟨.inr rfl, .inr ⟨rfl, u, rfl, chain⟩⟩
    | @group u inner first last chain opener level closer =>
      have split : t ++ [c] = (u ++ first :: inner) ++ [last] := by rw [whole]; simp
      obtain ⟨rfl, last⟩ := List.append_inj' split rfl
      obtain rfl := List.singleton_inj.1 last
      exact .inr ⟨closer, u, first, inner, rfl, opener, level, chain⟩
  · rintro (⟨valid, chain | ⟨same, u, rfl, chain⟩⟩ | ⟨closer, u, first, inner, rfl, opener, level,
      chain⟩)
    · exact .char chain valid
    · obtain rfl := Option.some.inj same
      simpa using IsChainText.optional chain
    · simpa using IsChainText.group chain opener level closer

theorem chainsTo_snoc {next : Option Char} {t : Text} {c : Char} : ChainsTo next (t ++ [c]) ↔
    (isNameChar c ∨ c = '.') ∧ ChainsTo (some c) t ∨ (c = ')' ∨ c = ']') ∧ OpensGroup t ∨
      (c = '?' ∧ next = some '.') ∧ IsChainText t := by
  have mark : (next = some '.' ∧ ∃ u, t ++ [c] = u ++ ['?'] ∧ IsChainText u) ↔
      (c = '?' ∧ next = some '.') ∧ IsChainText t := by
    constructor
    · rintro ⟨dot, u, split, chain⟩
      obtain ⟨rfl, last⟩ := List.append_inj' split rfl
      exact ⟨⟨List.singleton_inj.1 last, dot⟩, chain⟩
    · rintro ⟨⟨rfl, dot⟩, chain⟩
      exact ⟨dot, t, rfl, chain⟩
  rw [ChainsTo, isChainText_snoc, mark, or_assoc]

theorem chainStart_le : ∀ (behind : Text) (next : Option Char) (resume : Nat),
    chainStart next resume behind ≤ behind.length
  | [], _, _ => Nat.le_refl _
  | c :: before, next, resume => by
    have walk := fun resume => chainStart_le before (some c) resume
    rw [chainStart, List.length_cons]
    split
    · exact Nat.le_succ_of_le (walk _)
    · split
      · exact Nat.le_succ_of_le (walk _)
      · split
        · exact Nat.le_succ_of_le (walk _)
        · split
          · split
            · exact Nat.le_succ_of_le (walk _)
            · exact Nat.le_refl _
          · exact Nat.le_refl _

/-- What is before the start of a group is passed by. -/
theorem chainStart_skip (front : Text) (c : Char) : ∀ (passed : Text) (next : Option Char),
    chainStart next front.length (passed ++ c :: front) = chainStart (some c) front.length front
  | [], next => by rw [List.nil_append, chainStart, if_pos (Nat.lt_succ_self _)]
  | d :: passed, next => by
    rw [List.cons_append, chainStart, if_pos (by simp; omega)]
    exact chainStart_skip front c passed _

/-- A group is found from its closing bracket. -/
theorem openerBehind?_group {c : Char} (closer : isCloser c) {first : Char}
    (opener : isOpener first) {inner : Text} (level : IsLevel (fun _ => false) inner) (u : Text) :
    openerBehind? 0 (c :: (u ++ first :: inner).reverse) = some u.length := by
  have other : isCloser first = false := by
    simp only [isOpener, Bool.or_eq_true, beq_iff_eq] at opener
    rcases opener with (rfl | rfl) | rfl <;> rfl
  have passed := openerBehind?_append (first :: u.reverse) inner level
  rw [openerBehind?, if_pos closer]
  simpa [openerBehind?, other, opener] using passed

/-- What is found from a closing bracket is the start of a group. -/
theorem exists_group {c : Char} (closer : isCloser c) {t : Text} {opening : Nat}
    (found : openerBehind? 0 (c :: t.reverse) = some opening) :
    ∃ u first inner, t = u ++ first :: inner ∧ u.length = opening ∧ isOpener first ∧
      IsLevel (fun _ => false) inner := by
  rw [openerBehind?, if_pos closer] at found
  have inside : openerBehind? (1 + (0 : Nat)) t.reverse = some opening := found
  obtain ⟨inner, first, front, split, size, opener, level⟩ := eq_append_of_openerBehind? inside
  refine ⟨front.reverse, first, inner, ?_, by simpa using size, opener, level⟩
  have whole := congrArg List.reverse split
  simpa using whole

/-- A group is walked over at once. -/
theorem chainStart_group {c : Char} (closer : isCloser c) {t : Text} {opening : Nat}
    (found : openerBehind? 0 (c :: t.reverse) = some opening)
    (walk : ∀ u next, u.length < t.length →
      (chainStart next u.length u.reverse = 0 ↔ ChainsTo next u)) :
    chainStart (some c) opening t.reverse = 0 ↔ OpensGroup t := by
  obtain ⟨u, first, inner, rfl, rfl, opener, level⟩ := exists_group closer found
  have skip := chainStart_skip u.reverse first inner.reverse (some c)
  have other : first ≠ '.' := by
    rintro rfl
    cases opener
  rw [List.length_reverse] at skip
  rw [List.reverse_append, List.reverse_cons, List.append_assoc, List.singleton_append, skip,
    walk u _ (by simp)]
  constructor
  · rintro (chain | ⟨dot, -⟩)
    · exact ⟨u, first, inner, rfl, opener, level, chain⟩
    · exact absurd (Option.some.inj dot) other
  · rintro ⟨u', first', inner', split, opener', level', chain⟩
    -- the count pairs the closing bracket with one opening bracket only
    rw [split, openerBehind?_group closer opener' level'] at found
    obtain ⟨rfl, -⟩ := List.append_inj split (Option.some.inj found).symm
    exact .inl chain

/-- A text is walked over to its start exactly if it is a chain up to what follows it. -/
theorem chainStart_eq_zero_iff (t : Text) (next : Option Char) {resume : Nat}
    (past : t.length ≤ resume) : chainStart next resume t.reverse = 0 ↔ ChainsTo next t := by
  induction size : t.length using Nat.strongRecOn generalizing t next resume with
  | ind n ih =>
    subst size
    rcases List.eq_nil_or_concat t with rfl | ⟨front, c, whole⟩
    · simp [chainStart, ChainsTo, IsChainText.nil]
    · rw [List.concat_eq_append] at whole
      subst whole
      have shorter : front.length < (front ++ [c]).length := by simp
      have here (next : Option Char) : chainStart next resume front.reverse = 0 ↔
          ChainsTo next front :=
        ih front.length shorter front next (by omega) rfl
      rw [List.reverse_append, List.reverse_singleton, List.singleton_append, chainStart,
        if_neg (by rw [List.length_reverse]; omega), chainsTo_snoc]
      by_cases name : isNameChar c ∨ c = '.'
      · -- a name goes on before the character
        have closer : ¬ (c = ')' ∨ c = ']') := by
          rintro (rfl | rfl) <;> revert name <;> decide
        have mark : c ≠ '?' := by
          rintro rfl
          revert name
          decide
        rw [if_pos (by simpa using name), here]
        simp [name, closer, mark]
      · rw [if_neg (by simpa using name)]
        by_cases optional : c = '?' ∧ next = some '.'
        · obtain ⟨rfl, rfl⟩ := optional
          rw [if_pos (by simp), here, ChainsTo]
          simp
        · rw [if_neg (by simpa using optional)]
          by_cases closer : c = ')' ∨ c = ']'
          · have bracket : isCloser c := by rcases closer with rfl | rfl <;> rfl
            simp only [name, optional, closer, false_and, true_and, false_or, or_false]
            rw [if_pos (by simpa using closer)]
            cases found : openerBehind? 0 (c :: front.reverse) with
            | none =>
              refine iff_of_false (Nat.succ_ne_zero _) ?_
              rintro ⟨u, first, inner, rfl, opener, level, -⟩
              rw [openerBehind?_group bracket opener level] at found
              cases found
            | some opening =>
              exact chainStart_group bracket found fun u next less =>
                ih u.length (by omega) u next (Nat.le_refl _) rfl
          · rw [if_neg (by simpa using closer)]
            simp [name, optional, closer]

end Recast
