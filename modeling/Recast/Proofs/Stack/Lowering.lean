import Recast.Proofs.Stack.Settling
import Recast.Stack.Recasting

/-!
# Markup on a limited stack

Making calls of markup with a limit settles to the outcome without one, for whole texts
(`settles_markup`), expressions (`settles_expression`) and code (`settles_embedded`). The proofs go
along the recursion of the steps without a limit, which ends because the text gets shorter.
-/

namespace Recast

open Attempt

theorem allDefined_tokens (t : Text) (pos : Nat) (level : Option Nat) :
    AllDefined [.tokens t pos level] :=
  .one trivial

/-- The call of a container, once its children settle. -/
theorem settles_container {children : Text} (tag properties : Text)
    (h : Settles (recastChildrenWithin · children) (recastChildren children)) :
    Settles (recastCallWithin · tag .container properties children) (do
      let inner ← recastChildren children
      return constructorCall TagKind.container.constructor [properties, childrenPart inner]) :=
  .call rfl (h.bind fun _ _ => settles_pure _)

/-- The dynamic list that an expression becomes, if it is a rendered list. -/
def listOutcome (expression : Text) : Outcome (Option Text) := do
  match ← Outcome.ofExcept (listCall? expression) with
  | none => return none
  | some call => do
    Outcome.warn .mappedArray
    let rendered ← recastMarkup call.item
    let before ← recastEmbedded call.before
    let after ← recastEmbedded call.after
    return some (before ++ dynamicList call rendered ++ after)

/-- An expression is a rendered list or code. -/
theorem recastExpression_eq (expression : Text) : recastExpression expression = (do
    match ← listOutcome expression with
    | some list => return list
    | none => recastEmbedded expression) := by
  rw [recastExpression, listOutcome]
  split
  next failed =>
    rw [failed]
    rfl
  next none =>
    rw [none]
    rfl
  next call found =>
    rw [found]
    simp only [Outcome.ofExcept_ok, pure_bind, bind_assoc]

mutual

theorem settles_markup (markup : Text) :
    Settles (recastMarkupWithin · markup) (recastMarkup markup) := by
  have shorter := length_trim_le markup
  refine .call rfl ?_
  rw [recastMarkup]
  simp only [recastMarkupWithin]
  split
  · exact settles_pure _
  · split
    · exact settles_ask (allDefined_tokens _ _ _) _
    · exact (settles_children (trim markup)).bind fun _ _ => settles_pure _
termination_by 6 * markup.length + 2

theorem settles_children (children : Text) :
    Settles (recastChildrenWithin · children) (recastChildren children) := by
  have scans : AllDefined (if isBlankText children then [] else [.tokens children 0 none]) :=
    .ite (fun _ => .nil) fun _ => allDefined_tokens children 0 none
  refine .call rfl (.ask scans (fun fault failed => ?_) fun found read => ?_)
  · rw [recastChildren, failed]
  · rw [recastChildren, read]
    refine .bind (.collect fun span _ => ?_) fun units _ => settles_pure _
    have shorter := (length_trim_le (span.of children)).trans
      (length_slice_le children span.start span.stop)
    exact settles_unit (trim (span.of children))
termination_by 6 * children.length + 1

theorem settles_unit : ∀ unit : Text, Settles (recastUnitWithin · unit) (recastUnit unit)
  | [] => by
    rw [recastUnit]
    simp only [recastUnitWithin]
    exact settles_pure none
  | c :: rest => by
    have shorter := (length_trim_le rest.dropLast).trans (List.dropLast_sublist rest).length_le
    refine .call rfl ?_
    rw [recastUnit]
    simp only [recastUnitWithin]
    split
    · exact (settles_element rest).map some
    · split
      · split
        · exact settles_pure none
        · exact (settles_expression (trim rest.dropLast)).map some
      · exact settles_pure _
termination_by unit => 6 * unit.length
decreasing_by all_goals (rw [List.length_cons]; omega)

theorem settles_call (tag : Text) (kind : TagKind) (properties children : Text) :
    Settles (recastCallWithin · tag kind properties children)
      (recastCall tag kind properties children) := by
  have inner := settles_children children
  have scans := allDefined_tokens children 0 none
  have label : ∀ written : Text → Text, Settles
      (fun limit => do
        let value ← ask limit [.tokens children 0 none] fun _ => textValue children
        return written value)
      (do
        let value ← Outcome.ofExcept (textValue children)
        return written value) := fun written =>
    (settles_ask scans _).bind fun value _ => settles_pure (written value)
  rw [recastCall.eq_def]
  cases kind with
  | image => exact .call rfl (settles_pure _)
  | container => exact settles_container tag properties inner
  | text =>
    refine .call rfl (.ask scans (fun fault failed => by simp only [failed]) fun units read => ?_)
    simp only [read]
    refine (settles_scans (allDefined_unitScans units) ()).andThen ?_
    split
    · exact (settles_ofOutcome _).bind fun _ _ => settles_container tag properties inner
    · exact label _
  | pressable =>
    refine .call rfl (.ask scans (fun fault failed => by simp only [failed]) fun units read => ?_)
    simp only [read]
    refine (settles_scans (allDefined_unitScans units) ()).andThen ?_
    split
    · exact inner.bind fun _ _ => settles_pure _
    · split
      · exact settles_pure _
      · exact label _
termination_by 6 * children.length + 2

theorem settles_element (rest : Text) :
    Settles (recastElementWithin · rest) (recastElement rest) := by
  rw [recastElement]
  refine .call rfl (.ask (allDefined_partScans rest) (fun fault failed => by rw [failed])
    fun parts read => ?_)
  cases children : parts.children? with
  | none =>
    simp only [read, children]
    exact (settles_ofOutcome _).bind fun _ _ => settles_pure _
  | some span =>
    cases known : tagRule? parts.name with
    | none =>
      simp only [read, children, known]
      exact (settles_ofOutcome _).bind fun _ _ => settles_pure _
    | some rule =>
      have shorter := length_slice_le rest span.start span.stop
      have attributes := sound_attributeScans (t := parts.attributes) (Nat.le_refl _)
      simp only [read, children, known]
      refine (settles_ofOutcome _).bind fun _ _ =>
        (settles_scans attributes.allDefined ()).andThen ?_
      refine (settles_ofOutcome _).bind fun properties _ => (settles_ofOutcome _).bind fun _ _ => ?_
      refine (settles_call parts.name rule.kind properties (span.of rest)).bind fun call _ => ?_
      exact settles_pure _
termination_by 6 * rest.length + 3
decreasing_by
  simp only [Span.of]
  omega

theorem settles_expression (expression : Text) :
    Settles (recastExpressionWithin · expression) (recastExpression expression) := by
  have list : Settles (recastListWithin · expression) (listOutcome expression) := by
    refine .call rfl ((settles_ask (allDefined_listScans expression) _).bind fun call? found => ?_)
    cases call? with
    | none => exact settles_pure none
    | some call =>
      have shorter := listCall?_bounds found
      refine (settles_ofOutcome _).bind fun _ _ => (settles_markup call.item).bind fun _ _ => ?_
      refine (settles_embedded call.before).bind fun _ _ => ?_
      exact (settles_embedded call.after).bind fun _ _ => settles_pure _
  rw [recastExpression_eq]
  refine .call rfl (list.bind fun list? _ => ?_)
  cases list? with
  | none => exact settles_embedded expression
  | some list => exact settles_pure list
termination_by 6 * expression.length + 5

theorem settles_embedded (code : Text) :
    Settles (recastEmbeddedWithin · code) (recastEmbedded code) := by
  have elements := map_embeddedScans code code [] 0 0 []
  obtain ⟨before, behind⟩ := allDefined_embeddedScans code code [] 0 0 [] rfl .nil
  rw [recastEmbedded, ← elements, List.map_map]
  refine .call rfl (.bind (.collect fun found mem => ?_) fun edits _ => settles_ask behind _)
  obtain ⟨scans, element⟩ := found
  refine .ask (before _ mem) (fun fault failed => ?_) fun span read => ?_
  · simp only [Function.comp_apply, failed]
  · simp only [Function.comp_apply, read]
    have shorter : (span.of code).length ≤ code.length :=
      length_slice_le code span.start span.stop
    exact (settles_element ((span.of code).drop 1)).bind fun call _ => settles_pure _
termination_by 6 * code.length + 4

end

end Recast
