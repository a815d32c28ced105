import Recast.Component.Hook
import Recast.Proofs.Journal.Laws
import Recast.Proofs.Text.Part

/-!
# What extraction finds

`extractHooks` ends with a value for every body (`extractHooks_result`): the state variables and the
effects of the body in order, each with its text for the class.
-/

namespace Recast

theorem collect_result {α : Type} {xs : List (Outcome α)} (h : ∀ x ∈ xs, ∃ a, x.result = .ok a) :
    ∃ as, (Outcome.collect xs).result = .ok as := by
  induction xs with
  | nil => exact ⟨[], rfl⟩
  | cons x xs ih =>
    obtain ⟨a, ha⟩ := h x (by simp)
    obtain ⟨as, has⟩ := ih fun y hy => h y (by simp [hy])
    refine ⟨a :: as, ?_⟩
    rw [Outcome.collect_cons, Outcome.bind_result_eq_ok]
    refine ⟨a, ha, ?_⟩
    rw [Outcome.bind_result_eq_ok]
    exact ⟨as, has, rfl⟩

/-- Replacing the call of a hook never fails. -/
theorem replaceHook_result (hook : OtherHook) (arguments : List Text) (preceding : Text) :
    ∃ code?, (replaceHook hook arguments preceding).result = .ok code? := by
  cases hook with
  | ref => exact ⟨_, rfl⟩
  | callback => cases arguments <;> exact ⟨_, rfl⟩
  | memo => cases arguments <;> exact ⟨_, rfl⟩

/-- Replacing the calls of hooks never fails. -/
theorem replaceHooks_result : ∀ (found : List (Occurrence OtherHook)) (body : Text),
    ∃ replaced, (replaceHooks found body).result = .ok replaced
  | [], body => ⟨body, rfl⟩
  | occurrence :: found, body => by
    rw [replaceHooks]
    split
    · exact replaceHooks_result found body
    · rename_i arguments stop _
      obtain ⟨code?, hc⟩ :=
        replaceHook_result occurrence.value arguments (body.take occurrence.start)
      dsimp only
      rw [Outcome.bind_of_ok hc]
      cases code? with
      | none => exact replaceHooks_result found body
      | some code => exact replaceHooks_result found _

/-- The body without the statements of its state variables and effects. -/
def withoutHooks (body : Text) : Text :=
  removeSpans body ((findState body).map (·.2) ++ (findEffects body).map (·.2))

/-- Extraction gives the fields, accessors and comments of what is found in the body, once the calls
of the other hooks are replaced. -/
theorem extractHooks_of_replaced (options : Options) {body replaced : Text}
    (hooks : (replaceHooks (occurrences otherHookOpening (withoutHooks body)).reverse
      (withoutHooks body)).result = .ok replaced) :
    (extractHooks options body).result = .ok
      { fields := (findState body).map fun (state, _) => stateField options.stateStyle state
        accessors := (findState body).map fun (state, _) => stateAccessor options.stateStyle state
        body := replaced
        state := (findState body).map (·.1)
        effects := (findEffects body).map (·.1)
        lifecycle := (findEffects body).map fun (effect, _) => effectComment effect } := by
  obtain ⟨_, states⟩ : ∃ as, (Outcome.collect ((findState body).map fun (state, _) => do
      Outcome.warn (.stateField options.stateStyle state.name state.type state.setter)
      Outcome.note (.extractedState state.describe))).result = .ok as := by
    refine collect_result fun x hx => ?_
    obtain ⟨found, -, rfl⟩ := List.mem_map.1 hx
    exact ⟨_, rfl⟩
  obtain ⟨_, effects⟩ : ∃ as,
      (Outcome.collect ((findEffects body).map fun _ => Outcome.warn .effect)).result = .ok as := by
    refine collect_result fun x hx => ?_
    obtain ⟨found, -, rfl⟩ := List.mem_map.1 hx
    exact ⟨_, rfl⟩
  rw [withoutHooks] at hooks
  rw [extractHooks]
  simp only [Outcome.bind_of_ok states, Outcome.bind_of_ok effects, Outcome.bind_of_ok hooks]
  rfl

/-- Extraction ends with a value: the fields, accessors and comments of what is found in the
body. -/
theorem extractHooks_result (options : Options) (body : Text) :
    ∃ replaced, (extractHooks options body).result = .ok
      { fields := (findState body).map fun (state, _) => stateField options.stateStyle state
        accessors := (findState body).map fun (state, _) => stateAccessor options.stateStyle state
        body := replaced
        state := (findState body).map (·.1)
        effects := (findEffects body).map (·.1)
        lifecycle := (findEffects body).map fun (effect, _) => effectComment effect } := by
  obtain ⟨replaced, hooks⟩ := replaceHooks_result
    (occurrences otherHookOpening (withoutHooks body)).reverse (withoutHooks body)
  exact ⟨replaced, extractHooks_of_replaced options hooks⟩

end Recast
