import Recast.Component.ClassComponent
import Recast.Component.Functional
import Recast.Proofs.Journal.Laws

/-!
# What a conversion records

Only the conversion of a component records one: markup is made calls without a record
(`recastMarkup_quiet` and its siblings), and so are hooks taken out (`extractHooks_quiet`). So a
component that is converted has one record, under its own name (`convertFunctional_recordsOnce`,
`convertClass_recordsOnce`).
-/

namespace Recast

open Outcome

/-! ## Markup -/

theorem recastNamed_quiet (name : Text) (given : Attribute) : (recastNamed name given).Quiet := by
  rw [recastNamed]
  split <;> rfl

theorem recastAttributes_quiet (t : Text) : (recastAttributes t).Quiet := by
  refine (quiet_collect fun x hx => ?_).bind fun properties => quiet_pure _
  obtain ⟨given, -, rfl⟩ := List.mem_map.1 hx
  cases given with
  | spread value => rfl
  | string name css => exact recastNamed_quiet name _
  | expression name code => exact recastNamed_quiet name _
  | boolean name => exact recastNamed_quiet name _

mutual

theorem recastMarkup_quiet (markup : Text) : (recastMarkup markup).Quiet := by
  have shorter := length_trim_le markup
  rw [recastMarkup]
  split
  · exact quiet_pure _
  · split
    · exact quiet_ofExcept _
    · exact (recastChildren_quiet (trim markup)).bind fun children => quiet_pure _
termination_by 6 * markup.length + 2

theorem recastChildren_quiet (children : Text) : (recastChildren children).Quiet := by
  rw [recastChildren]
  split
  · exact quiet_fail _
  · refine (quiet_collect fun x hx => ?_).bind fun units => quiet_pure _
    obtain ⟨span, -, rfl⟩ := List.mem_map.1 hx
    have shorter := Nat.le_trans (length_trim_le (span.of children))
      (length_slice_le children span.start span.stop)
    exact recastUnit_quiet (trim (span.of children))
termination_by 6 * children.length + 1

theorem recastUnit_quiet : ∀ unit : Text, (recastUnit unit).Quiet
  | [] => by
    rw [recastUnit]
    exact quiet_pure _
  | c :: rest => by
    have shorter :=
      Nat.le_trans (length_trim_le rest.dropLast) (List.dropLast_sublist rest).length_le
    rw [recastUnit]
    split
    · exact (recastElement_quiet rest).map _
    · split
      · dsimp only
        split
        · exact quiet_pure _
        · exact (recastExpression_quiet (trim rest.dropLast)).map _
      · exact quiet_pure _
termination_by unit => 6 * unit.length
decreasing_by all_goals (rw [List.length_cons]; omega)

theorem recastCall_quiet (tag : Text) (kind : TagKind) (properties children : Text) :
    (recastCall tag kind properties children).Quiet := by
  have inner := recastChildren_quiet children
  rw [recastCall.eq_def]
  split
  · exact quiet_pure _
  · exact inner.bind fun _ => quiet_pure _
  · split
    · exact quiet_fail _
    · split
      · exact (quiet_warn _).bind fun _ => inner.bind fun _ => quiet_pure _
      · exact (quiet_ofExcept _).bind fun _ => quiet_pure _
  · split
    · exact quiet_fail _
    · split
      · exact inner.bind fun _ => quiet_pure _
      · split
        · exact quiet_pure _
        · exact (quiet_ofExcept _).bind fun _ => quiet_pure _
termination_by 6 * children.length + 2

theorem recastElement_quiet (rest : Text) : (recastElement rest).Quiet := by
  rw [recastElement]
  split
  · exact quiet_fail _
  · rename_i parts _
    split
    · exact (quiet_warn _).bind fun _ => quiet_pure _
    · exact (quiet_warn _).bind fun _ => quiet_pure _
    · rename_i span rule _ _
      have shorter := length_slice_le rest span.start span.stop
      refine (quiet_warn? rule.warning?).bind fun _ =>
        (recastAttributes_quiet parts.attributes).bind fun properties => ?_
      refine Quiet.bind (x := note _) rfl fun _ => ?_
      exact (recastCall_quiet parts.name rule.kind properties (span.of rest)).bind fun _ =>
        quiet_pure _
termination_by 6 * rest.length + 3
decreasing_by
  simp only [Span.of]
  omega

theorem recastExpression_quiet (expression : Text) : (recastExpression expression).Quiet := by
  rw [recastExpression]
  split
  · exact quiet_fail _
  · exact recastEmbedded_quiet expression
  · rename_i call found
    have shorter := listCall?_bounds found
    refine (quiet_warn _).bind fun _ => (recastMarkup_quiet call.item).bind fun _ => ?_
    refine (recastEmbedded_quiet call.before).bind fun _ => (recastEmbedded_quiet call.after).bind
      fun _ => ?_
    exact quiet_pure _
termination_by 6 * expression.length + 5

theorem recastEmbedded_quiet (code : Text) : (recastEmbedded code).Quiet := by
  rw [recastEmbedded]
  refine (quiet_collect fun x hx => ?_).bind fun edits => quiet_pure _
  obtain ⟨found, -, rfl⟩ := List.mem_map.1 hx
  cases found with
  | error fault => exact quiet_fail fault
  | ok span =>
    have shorter : (span.of code).length ≤ code.length := length_slice_le code span.start span.stop
    exact (recastElement_quiet ((span.of code).drop 1)).bind fun call => quiet_pure _
termination_by 6 * code.length + 4

end

/-! ## Hooks -/

theorem replaceHook_quiet (hook : OtherHook) (arguments : List Text) (preceding : Text) :
    (replaceHook hook arguments preceding).Quiet := by
  cases hook with
  | ref => rfl
  | callback => cases arguments <;> rfl
  | memo => cases arguments <;> rfl

theorem replaceHooks_quiet :
    ∀ (found : List (Occurrence OtherHook)) (body : Text), (replaceHooks found body).Quiet
  | [], body => quiet_pure body
  | occurrence :: found, body => by
    rw [replaceHooks]
    split
    · exact replaceHooks_quiet found body
    · refine (replaceHook_quiet occurrence.value _ _).bind fun code? => ?_
      cases code? with
      | none => exact replaceHooks_quiet found body
      | some code => exact replaceHooks_quiet found _

theorem extractHooks_quiet (options : Options) (body : Text) :
    (extractHooks options body).Quiet := by
  rw [extractHooks]
  refine (quiet_collect fun x hx => ?_).bind fun _ => (quiet_collect fun x hx => ?_).bind
    fun _ => ?_
  · obtain ⟨found, -, rfl⟩ := List.mem_map.1 hx
    rfl
  · obtain ⟨found, -, rfl⟩ := List.mem_map.1 hx
    rfl
  · exact (replaceHooks_quiet _ _).bind fun _ => quiet_pure _

/-! ## The record of a component -/

theorem openBody_quiet (options : Options) (concise : Bool) (body : Text) :
    (openBody options concise body).Quiet := by
  rw [openBody]
  split
  · exact quiet_pure _
  · exact (extractHooks_quiet options body).bind fun _ => (quiet_ofExcept _).bind fun _ =>
      quiet_pure _

theorem recastReturn_quiet (name : Text) (returned? : Option Text) :
    (recastReturn name returned?).Quiet := by
  cases returned? with
  | none => exact (quiet_warn _).bind fun _ => quiet_pure _
  | some returned =>
    rw [recastReturn]
    split
    · exact recastMarkup_quiet returned
    · refine (recastExpression_quiet returned).bind fun value => ?_
      split
      · exact (quiet_warn _).bind fun _ => quiet_pure _
      · exact quiet_pure _

/-- A functional component that is converted has one record, under its own name. -/
theorem convertFunctional_recordsOnce (options : Options) (definition : Definition) :
    (convertFunctional options definition).RecordsOnce definition.name false := by
  rw [convertFunctional]
  refine RecordsOnce.bind (x := note _) rfl fun _ => RecordsOnce.bind (quiet_warn _) fun _ => ?_
  refine RecordsOnce.bind (openBody_quiet options _ _) fun _ => ?_
  refine RecordsOnce.bind (recastReturn_quiet definition.name _) fun _ => ?_
  exact RecordsOnce.bind (recastEmbedded_quiet _) fun _ => rfl

/-- A class component has one record, under its own name. -/
theorem convertClass_recordsOnce (options : Options) (head : DefinitionHead)
    (arguments body : Text) :
    (convertClass options head arguments body).RecordsOnce head.name true := by
  rw [convertClass]
  refine RecordsOnce.bind (x := note _) rfl fun _ => RecordsOnce.bind (quiet_warn _) fun _ => ?_
  refine RecordsOnce.bind (quiet_collect fun x hx => ?_) fun _ => rfl
  obtain ⟨method, -, rfl⟩ := List.mem_map.1 hx
  exact quiet_warn _

end Recast
