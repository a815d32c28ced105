import Recast.Text.Wide

/-!
# Wide texts that are texts

`Wide.toText` succeeds just on the wide texts that come from a text (`Wide.toText_eq_ok`), which are
those without halves (`Wide.text?_isSome_iff`). A wide text put together from pieces is a text just
if all pieces are (`Wide.text?_append_isSome`).
-/

namespace Recast.Wide

theorem ofText_append (s t : Text) : ofText (s ++ t) = ofText s ++ ofText t :=
  List.map_append

theorem toTextFrom_ofText : ∀ (t : Text) (pos : Nat), toTextFrom pos (ofText t) = .ok t
  | [], _ => rfl
  | c :: cs, pos => by
    rw [ofText, List.map_cons, toTextFrom, ← ofText, toTextFrom_ofText cs]
    rfl

theorem eq_ofText_of_toTextFrom :
    ∀ {w : Wide} {pos : Nat} {t : Text}, toTextFrom pos w = .ok t → w = ofText t
  | [], _, t, h => by
    obtain rfl : [] = t := Except.ok.inj h
    rfl
  | .char c :: rest, pos, t, h => by
    rw [toTextFrom] at h
    cases found : toTextFrom (pos + 1) rest with
    | error fault =>
      rw [found] at h
      cases h
    | ok text =>
      rw [found] at h
      obtain rfl : c :: text = t := Except.ok.inj h
      rw [eq_ofText_of_toTextFrom found]
      rfl

theorem toText_eq_ok {w : Wide} {t : Text} : w.toText = .ok t ↔ w = ofText t :=
  ⟨eq_ofText_of_toTextFrom, fun h => h ▸ toTextFrom_ofText t 0⟩

theorem text?_eq_some {w : Wide} {t : Text} : w.text? = some t ↔ w = ofText t := by
  rw [← toText_eq_ok, text?]
  cases w.toText <;> simp [Except.toOption]

theorem text?_ofText (t : Text) : (ofText t).text? = some t :=
  text?_eq_some.2 rfl

theorem ofText_injective {s t : Text} (h : ofText s = ofText t) : s = t :=
  Option.some.inj ((text?_ofText s).symm.trans (h ▸ text?_ofText t))

/-- Pieces make a text together just if each is a text. -/
theorem text?_append_isSome (v w : Wide) :
    (v ++ w).text?.isSome ↔ v.text?.isSome ∧ w.text?.isSome := by
  simp only [Option.isSome_iff_exists, text?_eq_some]
  constructor
  · rintro ⟨t, h⟩
    obtain ⟨s, r, -, rfl, rfl⟩ := List.map_eq_append_iff.1 h.symm
    exact ⟨⟨s, rfl⟩, ⟨r, rfl⟩⟩
  · rintro ⟨⟨s, rfl⟩, ⟨r, rfl⟩⟩
    exact ⟨s ++ r, (ofText_append s r).symm⟩

/-- A wide text is a text just if there are no halves in it. -/
theorem text?_isSome_iff (w : Wide) : w.text?.isSome ↔ w.filter CodePoint.isHalf = [] := by
  simp only [Option.isSome_iff_exists, text?_eq_some, List.filter_eq_nil_iff]
  induction w with
  | nil => exact iff_of_true ⟨[], rfl⟩ (by simp)
  | cons point w ih =>
    rw [List.forall_mem_cons, ← ih]
    cases point with
    | half n => exact iff_of_false (fun ⟨t, h⟩ => by cases t <;> cases h) (fun h => h.1 rfl)
    | char c =>
      have whole : ¬ (CodePoint.char c).isHalf := by simp [CodePoint.isHalf, CodePoint.char?]
      refine ⟨fun ⟨t, h⟩ => ⟨whole, ?_⟩,
        fun ⟨_, t, h⟩ => ⟨c :: t, congrArg (CodePoint.char c :: ·) h⟩⟩
      cases t with
      | nil => cases h
      | cons d t => exact ⟨t, (List.cons.inj h).2⟩

theorem splitOn_ofText (separator : Char) :
    ∀ t : Text, splitOn separator (ofText t) = (Recast.splitOn separator t).map ofText
  | [] => rfl
  | c :: cs => by
    rw [ofText, List.map_cons, ← ofText, splitOn, Recast.splitOn, splitOn_ofText separator cs]
    by_cases here : c = separator
    · simp [here, ofText]
    · cases Recast.splitOn separator cs <;> simp [here, ofText]

end Recast.Wide
