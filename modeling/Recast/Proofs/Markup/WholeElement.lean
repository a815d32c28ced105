import Recast.Proofs.Markup.TreeRecast
import Recast.Proofs.Scan.Tiling

/-!
# Whole elements

A text that is one element from its first character to its last (`IsElement`) is one unit of its own
children, however its tags nest (`IsElement.childSpans_eq`): the scanner of children and the
grouping of tokens count the same tags. So an element of an unknown tag is left as written, whatever
its attributes and children are (`recastMarkup_unknown`).
-/

namespace Recast

/-- The text is one element. -/
def IsElement (t : Text) : Prop :=
  elementEndAt t 0 = .ok (some t.length)

instance (t : Text) : Decidable (IsElement t) :=
  inferInstanceAs (Decidable (elementEndAt t 0 = .ok (some t.length)))

theorem tokensFrom_passed (textStart pos : Nat) (t : Text) :
    tokensFrom textStart pos (pos + t.length) t = .ok (textToken textStart (pos + t.length)) := by
  have skip := tokensFrom_skip textStart [] t pos
  rwa [List.append_nil] at skip

/-- A tag or expression is a token behind the text before it. -/
theorem tokensFrom_of_mark {textStart pos resume : Nat} {c : Char} {cs : Text} {token : Token}
    (here : ¬pos < resume) (mark : markAt pos c cs = some (.ok token)) {found : List Token}
    (rest : tokensFrom token.stop (pos + 1) token.stop cs = .ok found) :
    tokensFrom textStart pos resume (c :: cs) =
      .ok (textToken textStart pos ++ token :: found) := by
  rw [tokensFrom, if_neg here, mark]
  dsimp only
  rw [rest]

/-- Where the children of an element end with the text, its tokens close the unit that it is. -/
theorem childSpans_of_childrenEnd {name : Text} {unitStart size : Nat} :
    ∀ {t : Text} {depth textStart pos resume : Nat}, pos + t.length = size →
      childrenEnd name depth pos resume t = .ok (some size) →
      ∃ found, tokensFrom textStart pos resume t = .ok found ∧
        childSpans size (depth + 1) unitStart found = [⟨unitStart, size⟩]
  | [], _, _, _, _, _, h => by simp [childrenEnd] at h
  | c :: cs, depth, textStart, pos, resume, length, h => by
    have shorter : pos + 1 + cs.length = size := by
      rw [List.length_cons] at length
      omega
    rw [childrenEnd] at h
    split at h
    · rename_i passed
      rw [tokensFrom, if_pos passed]
      exact childSpans_of_childrenEnd shorter h
    · rename_i here
      split at h
      · rename_i mark
        rw [tokensFrom, if_neg here, show markAt pos c cs = none from mark]
        exact childSpans_of_childrenEnd shorter h
      · cases h
      · rename_i token mark
        -- behind the token both go on at its end
        have next : ∀ {inner}, childrenEnd name inner (pos + 1) token.stop cs = .ok (some size) →
            (∀ found, childSpans size (depth + 1) unitStart (token :: found) =
              childSpans size (inner + 1) unitStart found) →
            ∃ found, tokensFrom textStart pos resume (c :: cs) = .ok found ∧
              childSpans size (depth + 1) unitStart found = [⟨unitStart, size⟩] := by
          intro inner closes step
          obtain ⟨found, rest, spans⟩ := childSpans_of_childrenEnd shorter closes
          refine ⟨_, tokensFrom_of_mark here mark rest, ?_⟩
          rw [childSpans_textToken_inside, step, spans]
        split at h
        · rename_i opening
          exact next h fun found => by rw [childSpans, if_neg (Nat.succ_ne_zero _), if_pos opening]
        · rename_i closing
          have other : token.kind ≠ .opening := by rw [closing]; decide
          split at h
          · rename_i outermost
            split at h
            · have stop := Option.some.inj (Except.ok.inj h)
              obtain rfl := outermost
              have passed := tokensFrom_passed token.stop (pos + 1) cs
              rw [shorter] at passed
              refine ⟨_, tokensFrom_of_mark here mark (by rw [stop] at passed ⊢; exact passed), ?_⟩
              rw [childSpans_textToken_inside, childSpans, if_neg Nat.one_ne_zero, if_neg other,
                if_pos closing, if_pos rfl, stop, textToken_self]
              rfl
            · cases h
          · rename_i inside
            refine next h fun found => ?_
            rw [childSpans, if_neg (Nat.succ_ne_zero _), if_neg other, if_pos closing,
              if_neg (by omega)]
            congr 1
            omega
        · rename_i notOpening notClosing
          exact next h fun found => by
            rw [childSpans, if_neg (Nat.succ_ne_zero _), if_neg notOpening, if_neg notClosing]

namespace IsElement

variable {t rest : Text}

theorem eq_cons (h : IsElement t) : ∃ rest, t = '<' :: rest ∧ EndsBy '>' 1 rest t.length := by
  cases t with
  | nil => cases h
  | cons c cs =>
    obtain ⟨rfl, ends⟩ := elementEnd_found h
    exact ⟨cs, rfl, ends⟩

/-- An element has no blanks around it. -/
theorem trim_eq (h : IsElement t) : trim t = t := by
  obtain ⟨rest, rfl, inner, after, rfl, length⟩ := h.eq_cons
  obtain rfl : after = [] := by
    rw [List.length_cons, List.length_append, List.length_cons] at length
    exact List.eq_nil_of_length_eq_zero (by omega)
  refine trim_eq_self (by rintro c ⟨⟩; decide) fun c last => ?_
  rw [← List.cons_append, List.getLast?_concat] at last
  cases last
  decide

/-- An element is a tag that closes itself, or an opening tag with what follows it up to the closing
one. -/
theorem exists_mark (h : IsElement ('<' :: rest)) :
    ∃ token, markAt 0 '<' rest = some (.ok token) ∧
      (token.kind = .selfClosing ∧ token.stop = ('<' :: rest).length ∨
        token.kind = .opening ∧
          childrenEnd token.name 0 (0 + 1) token.stop rest = .ok (some ('<' :: rest).length)) := by
  have ends : elementEnd 0 '<' rest = .ok (some ('<' :: rest).length) := h
  rw [elementEnd] at ends
  split at ends
  · cases ends
  · cases ends
  · rename_i token mark
    refine ⟨token, mark, ?_⟩
    split at ends
    · rename_i selfClosing
      exact .inl ⟨selfClosing, Option.some.inj (Except.ok.inj ends)⟩
    · rename_i opening
      exact .inr ⟨opening, ends⟩
    · cases ends

/-- An element is one unit of its own text. -/
theorem childSpans_eq (h : IsElement t) :
    ∃ found, tokens t 0 = .ok found ∧ childSpans t.length 0 0 found = [⟨0, t.length⟩] := by
  obtain ⟨rest, rfl, -⟩ := h.eq_cons
  have length : 0 + 1 + rest.length = ('<' :: rest).length := by
    rw [List.length_cons]
    omega
  obtain ⟨token, mark, ends⟩ := h.exists_mark
  have start : token.start = 0 := (markAt_bounds mark).1
  rcases ends with ⟨selfClosing, stop⟩ | ⟨opening, ends⟩
  · have other : token.kind ≠ .opening := by rw [selfClosing]; decide
    have passed : tokensFrom token.stop (0 + 1) token.stop rest = .ok [] := by
      rw [stop, ← length, tokensFrom_passed, textToken_self]
    refine ⟨[token], tokensFrom_of_mark (Nat.lt_irrefl 0) mark passed, ?_⟩
    rw [childSpans, if_pos rfl, if_neg other, start, stop]
    rfl
  · obtain ⟨found, passed, spans⟩ := childSpans_of_childrenEnd length ends
    refine ⟨token :: found, tokensFrom_of_mark (Nat.lt_irrefl 0) mark passed, ?_⟩
    rw [childSpans, if_pos rfl, if_pos opening, start, spans]

/-- The opening tag of an element has an end. -/
theorem tagEndAt_eq (h : IsElement ('<' :: rest)) : ∃ tag, tagEndAt ('<' :: rest) 0 = .ok tag := by
  obtain ⟨token, mark, ends⟩ := h.exists_mark
  rw [markAt, markBy.eq_def, if_neg (by decide)] at mark
  split at mark
  · split at mark
    · -- a closing tag starts no element
      split at mark
      · obtain rfl := Except.ok.inj (Option.some.inj mark)
        rcases ends with ⟨kind, -⟩ | ⟨kind, -⟩ <;> cases kind
      · cases mark
    · split at mark
      · cases mark
      · rename_i found
        exact ⟨_, found⟩
  · cases mark

/-- The parts of an element are its name, its attributes and the text between its tags. -/
theorem elementParts_eq (h : IsElement ('<' :: rest)) :
    ∃ attributes children, elementParts rest = .ok ⟨tagName rest, attributes, some children⟩ := by
  obtain ⟨⟨stop, selfClosing⟩, tag⟩ := h.tagEndAt_eq
  have ends : elementEndAt ('<' :: rest) 0 = .ok (some ('<' :: rest).length) := h
  rw [elementParts]
  dsimp only
  rw [tag, ends]
  cases selfClosing with
  | true => exact ⟨_, _, rfl⟩
  | false => exact ⟨_, _, rfl⟩

end IsElement

/-- An element of an unknown tag stays as written. -/
theorem recastMarkup_unknown {t : Text} (h : IsElement t)
    (unknown : tagRule? (tagNameAt t 0) = none) :
    recastMarkup t = (do
      Outcome.warn (.unsupportedElement (tagNameAt t 0))
      return t) := by
  obtain ⟨rest, rfl, -⟩ := h.eq_cons
  obtain ⟨found, tokened, unit⟩ := h.childSpans_eq
  obtain ⟨attributes, children, parts⟩ := h.elementParts_eq
  have name : tagNameAt ('<' :: rest) 0 = tagName rest := rfl
  have whole : Span.of ⟨0, ('<' :: rest).length⟩ ('<' :: rest) = '<' :: rest := by
    rw [Span.of, slice, List.take_length, List.drop_zero]
  rw [name] at unknown
  have element : recastElement rest = (do
      Outcome.warn (.unsupportedElement (tagName rest))
      return '<' :: rest) := by
    rw [recastElement, parts]
    dsimp only
    rw [unknown]
  rw [recastMarkup, h.trim_eq, recastChildren, tokened]
  simp only [unit, List.map_cons, List.map_nil, whole, h.trim_eq]
  rw [recastUnit, if_pos rfl, element]
  rfl

end Recast
