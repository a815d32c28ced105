import Recast.Proofs.Markup.LeftMarkup
import Recast.Proofs.Scan.Found
import Recast.Proofs.Scan.Nesting
import Recast.Proofs.Scan.Shift

/-!
# Elements among other text

The end of an element does not depend on what stands before or behind it (`elementEndAt_within`): it
is one element, whatever follows (`IsWhole`). A scanner of code that meets such an element where a
value is expected goes on behind it (`IsWhole.bracketEnd_eq`), so the quotes, slashes and brackets
in the text of an element do not count for the brackets around it (`bracketEndAt?_element`).
-/

namespace Recast

/-- Inside code an element is read from its tag and its children; this is the end of the element. -/
theorem elementEndBy_eq (pos : Nat) {cs : Text} (opens : opensTag cs) (name : cs.head? ≠ some '/') :
    elementEndBy (tagEnd (tagName cs) pos '<' (pos + 1) (pos + 1 + (tagName cs).length) cs)
        (fun stop => childrenEnd (tagName cs) 0 (pos + 1) stop cs) = elementEnd pos '<' cs := by
  cases tag : tagEnd (tagName cs) pos '<' (pos + 1) (pos + 1 + (tagName cs).length) cs with
  | error fault =>
    have mark : markAt pos '<' cs = some (.error fault) := by
      rw [markAt, markBy.eq_def, if_neg (by decide), if_pos (by simp [opens])]
      split
      · simp at name
      · simp only [tag]
    rw [elementEnd, mark, elementEndBy]
  | ok found =>
    obtain ⟨stop, selfClosing⟩ := found
    rw [elementEnd, markAt_tag opens name tag, elementEndBy]
    cases selfClosing <;> rfl

/-- The text is one element, whatever follows it. -/
def IsWhole (t : Text) : Prop :=
  ∀ rest, elementEndAt (t ++ rest) 0 = .ok (some t.length)

theorem IsWhole.eq_cons {t : Text} (h : IsWhole t) : ∃ cs, t = '<' :: cs := by
  cases t with
  | nil => cases h []
  | cons c cs =>
    obtain ⟨rfl, -⟩ := elementEnd_found (h [])
    exact ⟨cs, rfl⟩

/-- An element ends where its text does, at any offset. -/
theorem IsWhole.elementEnd_eq {cs : Text} (h : IsWhole ('<' :: cs)) (rest : Text) (pos : Nat) :
    elementEnd pos '<' (cs ++ rest) = .ok (some (pos + ('<' :: cs).length)) := by
  have moved := elementEnd_shift pos 0 '<' (cs ++ rest)
  rw [Nat.zero_add, show elementEnd 0 '<' (cs ++ rest) = .ok (some ('<' :: cs).length) from h rest]
    at moved
  rw [moved, Nat.add_comm]
  rfl

/-- An element starts with an opening tag. -/
theorem IsWhole.opensTag_eq {cs : Text} (h : IsWhole ('<' :: cs)) (rest : Text) :
    opensTag (cs ++ rest) ∧ (cs ++ rest).head? ≠ some '/' := by
  have ends : elementEnd 0 '<' (cs ++ rest) = .ok (some ('<' :: cs).length) := h rest
  rw [elementEnd, markAt, markBy.eq_def, if_neg (by decide)] at ends
  by_cases opens : opensTag (cs ++ rest)
  · refine ⟨opens, fun slash => ?_⟩
    obtain ⟨name, same⟩ := List.head?_eq_some_iff.1 slash
    rw [if_pos (by simp [opens]), same] at ends
    -- A closing tag starts no element.
    cases cut : cutAt? '>' name with
    | none => simp [cut] at ends
    | some found => simp [cut] at ends
  · rw [if_neg (by simp [opens])] at ends
    cases ends

/-- An element opens as markup where a value is expected. -/
theorem IsWhole.opensMarkup_eq {t : Text} (h : IsWhole t) {behind : Text}
    (value : opensValue behind) (rest : Text) : opensMarkup behind (t.tail ++ rest) := by
  obtain ⟨cs, rfl⟩ := h.eq_cons
  obtain ⟨opens, slash⟩ := h.opensTag_eq rest
  rw [List.tail_cons]
  cases ahead : cs ++ rest with
  | nil => simp [ahead, opensTag] at opens
  | cons c ds =>
    rw [ahead] at opens slash
    have other : c ≠ '/' := fun same => slash (by rw [same]; rfl)
    refine opensMarkup_cons value ?_ ds
    simp only [opensTag, Bool.or_eq_true, beq_iff_eq] at opens
    simp only [Bool.or_eq_true, beq_iff_eq]
    tauto

/-- A bracket that is looked for goes on behind an element that opens as markup. -/
theorem IsWhole.bracketEnd_eq {t : Text} (h : IsWhole t) (kind : Bracket) (depth : Nat)
    {behind rest : Text} (opens : opensMarkup behind (t.tail ++ rest)) (pos : Nat) :
    bracketEnd kind depth behind pos 0 (t ++ rest) =
      bracketEnd kind depth (t.reverse ++ behind) (pos + t.length) 0 rest := by
  obtain ⟨cs, rfl⟩ := h.eq_cons
  obtain ⟨tag, slash⟩ := h.opensTag_eq rest
  rw [List.tail_cons] at opens
  have stop := elementEndBy_eq pos tag slash
  rw [h.elementEnd_eq] at stop
  have skip := bracketEnd_skip kind depth rest cs ('<' :: behind) (pos + 1)
  have length : pos + 1 + cs.length = pos + ('<' :: cs).length := by
    rw [List.length_cons]
    omega
  rw [length] at skip
  rw [List.cons_append, bracketEnd, if_neg (Nat.not_lt_zero _), stop]
  simp only [opaqueEndBy, opens, isQuote, Char.reduceBEq, Bool.or_self, Bool.false_eq_true,
    if_false, Char.reduceEq, decide_true, Bool.and_self, if_true, skip]
  simp

/-- A bracket around an element ends right behind it. -/
theorem IsWhole.bracketEndAt?_eq {t : Text} (h : IsWhole t) (kind : Bracket) (after : Text) :
    bracketEndAt? (kind.opener :: (t ++ kind.closer :: after)) 0 = some (t.length + 2) := by
  have value : opensValue [kind.opener] := by cases kind <;> decide
  have nothing : Nested [] := rfl
  have close := bracketEnd_nested nothing (by simp) kind (t.reverse ++ [kind.opener]) after
    (1 + t.length)
  rw [bracketEndAt?, List.drop_zero]
  dsimp only
  rw [ofOpener?_opener, Option.bind_some, h.bracketEnd_eq kind 0 (h.opensMarkup_eq value _),
    Nat.zero_add]
  refine close.trans (congrArg some ?_)
  rw [List.length_nil]
  omega

theorem Element.isWhole (t : Element) : IsWhole t.print := by
  intro rest
  rw [t.print_eq]
  have ends := elementEnd_print t rest 0
  rwa [t.print_eq, Nat.zero_add] at ends

/-- An element ends where its text does, at any place of a text. -/
theorem elementEndAt_within (t : Element) (before after : Text) :
    elementEndAt (before ++ t.print ++ after) before.length =
      .ok (some (before.length + t.print.length)) := by
  have here : (before ++ t.print ++ after).drop before.length = '<' :: (t.inside ++ after) := by
    rw [List.append_assoc, List.drop_left, t.print_eq, List.cons_append]
  rw [elementEndAt, here]
  exact elementEnd_print t after before.length

/-- A bracket around a printed element ends right behind it. -/
theorem bracketEndAt?_element (kind : Bracket) (t : Element) (after : Text) :
    bracketEndAt? (kind.opener :: t.print ++ kind.closer :: after) 0 = some (t.print.length + 2) :=
  t.isWhole.bracketEndAt?_eq kind after

/-- Every element is read to its end in any surroundings: by the scanner of markup wherever it
stands, and by the scanner of code in brackets of each kind. -/
theorem element_extent (t : Element) (before after : Text) :
    elementEndAt (before ++ t.print ++ after) before.length =
      .ok (some (before.length + t.print.length)) ∧
      ∀ kind : Bracket, bracketEndAt? (kind.opener :: t.print ++ kind.closer :: after) 0 =
        some (t.print.length + 2) :=
  ⟨elementEndAt_within t before after, fun kind => bracketEndAt?_element kind t after⟩

end Recast
