import Recast.Proofs.Scan.Progress

/-!
# Scanning a text behind another one

A `<` in code is markup or a comparison by what stands before it, so the loops of the scanners look
back over the whole text. `Scanners.turn` has this look in it: it reads all of `t.take pos`. Answers
that one turn leaves as they are belong to these loops, and the scanners have the only ones
(`turn_eq_self_iff`).

Behind an opening bracket a value is expected, so the look never gets past the bracket. What is
found from an offset of a text is therefore found behind any other text as well, further on by the
length of that text (`scans_relocated`).
-/

namespace Recast

/-! ## Answers of the loops -/

theorem turn_scanners (t : Text) : (scanners t).turn t = scanners t := by
  ext1
  · exact funext fun quote => funext fun pos => literal_turn t quote pos
  · exact funext fun kind => funext fun depth => funext fun pos => bracket_turn t kind depth pos
  · exact funext fun name => funext fun start => funext fun pos => tag_turn t name start pos
  · exact funext fun textStart => funext fun pos => tokens_turn t textStart pos
  · exact funext fun name => funext fun depth => funext fun pos => children_turn t name depth pos
  · exact funext fun pos => element_turn t pos

/-- Only the answers of the scanners are left as they are by a turn of the loops over the text. -/
theorem turn_eq_self_iff {t : Text} {answers : Scanners} :
    answers.turn t = answers ↔ answers = scanners t := by
  constructor
  · intro settled
    have rests : (Scanners.turn t)^[2 * t.length + 2] answers = answers :=
      Function.iterate_fixed settled _
    rw [← rests]
    exact turn_iterate t answers
  · rintro rfl
    exact turn_scanners t

/-! ## A text behind another one -/

/-- What is found from an offset of `front ++ t` is what is found from `pos` in `t`, further on by
the length of the front: the end of a literal, the end of a bracket if one opens there, the tokens
and the end of an element, or their faults. -/
structure Relocated (front t : Text) (pos : Nat) (literal : Char → Nat)
    (bracket : Bracket → Option Nat)
    (read : Except MarkupFault (List Token)) (element : Except MarkupFault (Option Nat)) :
    Prop where
  literal : ∀ c, t[pos]? = some c → literal c = literalEndAt t pos + front.length
  bracket : ∀ kind : Bracket, t[pos]? = some kind.opener →
    bracket kind = (bracketEndAt? t pos).map (· + front.length)
  read : read = shiftResult front.length (List.map (Token.shift front.length)) (tokens t pos)
  element : element = shiftResult front.length (Option.map (· + front.length)) (elementEndAt t pos)

/-- A text with another one in front of it is scanned as it is alone, from every offset: by the
scanners, and by any answers of the loops that look back over the front. -/
theorem scans_relocated (front t : Text) (pos : Nat) :
    Relocated front t pos (fun _ => literalEndAt (front ++ t) (pos + front.length))
      (fun _ => bracketEndAt? (front ++ t) (pos + front.length))
        (tokens (front ++ t) (pos + front.length))
      (elementEndAt (front ++ t) (pos + front.length)) ∧
    ∀ answers : Scanners, answers.turn (front ++ t) = answers →
      Relocated front t pos (answers.literal · (pos + front.length + 1))
        (answers.bracket · 0 (pos + front.length + 1))
        (answers.tokens (pos + front.length) (pos + front.length))
          (answers.element (pos + front.length)) := by
  have alone : Relocated front t pos (fun _ => literalEndAt (front ++ t) (pos + front.length))
      (fun _ => bracketEndAt? (front ++ t) (pos + front.length))
        (tokens (front ++ t) (pos + front.length))
      (elementEndAt (front ++ t) (pos + front.length)) :=
    ⟨fun _ _ => literalEndAt_append front t pos, fun _ _ => bracketEndAt?_append front t pos,
      tokens_append front t pos,
      elementEndAt_append front t pos⟩
  have here : ∀ {c}, t[pos]? = some c → (front ++ t)[pos + front.length]? = some c := by
    intro c h
    rw [List.getElem?_append_right (Nat.le_add_left _ _), Nat.add_sub_cancel, h]
  refine ⟨alone, fun answers settled => ?_⟩
  obtain rfl := turn_eq_self_iff.1 settled
  exact {
    literal := fun c char => (literalEndAt_eq (here char)).symm.trans (alone.literal c char)
    bracket := fun kind opens =>
      (bracketEndAt?_eq (here opens)).symm.trans (alone.bracket kind opens)
    read := (tokens_eq _ _).symm.trans alone.read
    element := alone.element }

/-- An array with an element in it, behind a name. -/
theorem scans_relocated_indexed :
    (scanners ("rows".toList ++ "[<p>]</p>]".toList)).bracket .square 0 5 = some 14 ∧
      bracketEndAt? ("rows".toList ++ "[<p>]</p>]".toList) 4 = some 14 := by
  have alone : bracketEndAt? "[<p>]</p>]".toList 0 = some 10 := by decide +kernel
  have moved := scans_relocated "rows".toList "[<p>]</p>]".toList 0
  have found := (moved.2 _ (turn_scanners _)).bracket .square rfl
  have found' := moved.1.bracket .square rfl
  rw [alone] at found found'
  exact ⟨found, found'⟩

-- Without a bracket before it, the text in front decides what a `<` is.
example : opensMarkupAt "<p>".toList 0 = true ∧
    opensMarkupAt ("rows".toList ++ "<p>".toList) 4 = false := by
  decide +kernel

end Recast
