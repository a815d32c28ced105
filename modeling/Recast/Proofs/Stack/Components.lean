import Recast.Proofs.Stack.Lowering
import Recast.Source.Conversion

/-!
# Components on a limited stack

The conversion of components with a limit settles to the outcome without one
(`settles_components`). Two things are looked up on the way. The other hooks are replaced from the
last to the first, so the brackets of those that are left stay where they were found
(`settles_replaceHooks`). And a name that is replaced in a body is one of the references
(`lookUp_replacedNames`).
-/

namespace Recast

open Attempt

/-! ## Hooks -/

/-- The bracket of each call stands where it was found, and the calls come from the last to the
first. -/
def OpenFromLast (found : List (Occurrence OtherHook)) (body : Text) : Prop :=
  (∀ call ∈ found, 1 ≤ call.stop ∧ body[call.stop - 1]? = some '(') ∧
    found.Pairwise fun later earlier => earlier.stop ≤ later.start

theorem openFromLast_occurrences (body : Text) :
    OpenFromLast (occurrences otherHookOpening body).reverse body := by
  have ends := otherHookOpening_endsAt
  refine ⟨fun call mem => ends.getElem? (List.mem_reverse.1 mem), List.pairwise_reverse.2 ?_⟩
  exact (occurrencesFrom_pairwise ends.fits body [] 0 0).2

/-- The calls before one that is replaced. -/
theorem OpenFromLast.replaced {call : Occurrence OtherHook} {rest : List (Occurrence OtherHook)}
    {body : Text} (h : OpenFromLast (call :: rest) body) (after : Text) :
    OpenFromLast rest (body.take call.start ++ after) := by
  obtain ⟨opens, ordered⟩ := h
  obtain ⟨before, ordered⟩ := List.pairwise_cons.1 ordered
  refine ⟨fun earlier mem => ?_, ordered⟩
  obtain ⟨positive, here⟩ := opens earlier (List.mem_cons_of_mem call mem)
  have inside : earlier.stop - 1 < (body.take call.start).length := by
    have := (List.getElem?_eq_some_iff.1 here).1
    have := before earlier mem
    rw [List.length_take]
    omega
  refine ⟨positive, ?_⟩
  rw [List.getElem?_append_left inside, List.getElem?_take_of_lt (by simp at inside; omega), here]

theorem OpenFromLast.tail {call : Occurrence OtherHook} {rest : List (Occurrence OtherHook)}
    {body : Text} (h : OpenFromLast (call :: rest) body) : OpenFromLast rest body :=
  ⟨fun earlier mem => h.1 earlier (List.mem_cons_of_mem call mem), (List.pairwise_cons.1 h.2).2⟩

theorem settles_replaceHooks : ∀ {found : List (Occurrence OtherHook)} {body : Text},
    OpenFromLast found body →
      Settles (fun limit => replaceHooksWithin limit found body) (replaceHooks found body)
  | [], body, _ => settles_pure body
  | call :: rest, body, h => by
    have scans := allDefined_argumentScans (h.1 call (by simp)).2 rfl
    rw [replaceHooks]
    refine (settles_scans scans _).andThen ?_
    cases callArguments? body (call.stop - 1) with
    | none => exact settles_replaceHooks h.tail
    | some found =>
      obtain ⟨arguments, stop⟩ := found
      refine (settles_ofOutcome _).bind fun code? _ => ?_
      cases code? with
      | none => exact settles_replaceHooks h.tail
      | some code =>
        dsimp only
        rw [List.append_assoc]
        exact settles_replaceHooks (h.replaced _)

theorem settles_extractHooks (options : Options) (body : Text) :
    Settles (fun limit => extractHooksWithin limit options body) (extractHooks options body) := by
  refine (settles_scans (allDefined_stateScans body) _).andThen ?_
  refine (settles_ofOutcome _).bind fun _ _ => ?_
  refine (settles_scans (allDefined_effectScans body) _).andThen ?_
  refine (settles_ofOutcome _).bind fun _ _ => ?_
  refine (settles_replaceHooks (openFromLast_occurrences _)).bind fun replaced _ => ?_
  exact settles_pure _

/-! ## References -/

/-- A name that is found in a body is one of those it is searched for. -/
theorem mem_of_nameAmong {names : List Text} {code : Text} {found : Occurrence Mention}
    (mem : found ∈ occurrences (nameAmong names) code) : found.value.name ∈ names := by
  obtain ⟨passed, ahead, size, -, here, -⟩ := exists_of_mem_occurrencesFrom mem
  obtain ⟨-, here⟩ := Option.ite_none_right_eq_some.1 here
  obtain ⟨name, among, here⟩ := List.exists_of_findSome?_eq_some here
  simp only [Option.bind_eq_bind, Option.bind_eq_some_iff, Option.ite_none_left_eq_some,
    Option.some.injEq, Prod.mk.injEq] at here
  obtain ⟨rest, -, -, same, -⟩ := here
  rw [← same]
  exact among

/-- Every name that is replaced has an entry. -/
theorem lookUp_replacedNames (refs : References) (body : Text) :
    lookUp (replacedNames refs body) refs = done () := by
  have known : ∀ name ∈ replacedNames refs body, ¬(refs.lookup name).isNone := by
    intro name mem
    obtain ⟨found, here, rfl⟩ := List.mem_map.1 mem
    have among := mem_of_nameAmong here
    rw [longestFirst, List.mem_mergeSort] at among
    obtain ⟨entry, given, same⟩ := List.mem_map.1 among
    intro none
    rw [Option.isNone_iff_eq_none, List.lookup_eq_none_iff] at none
    exact absurd (none entry given) (by simp [same])
  rw [lookUp, List.find?_eq_none.2 fun name mem => by simpa using known name mem]

theorem settles_qualify (state : List Text) (props : List (Text × Text)) (body : Text) :
    Settles (fun limit => qualifyWithin limit state props body)
      (pure (qualify state props body)) := by
  refine (settles_scans (allDefined_qualifyScans body) ()).andThen ?_
  rw [lookUp_replacedNames]
  exact settles_pure _

/-! ## Functional components -/

theorem settles_renameProps (params body : Text) :
    Settles (fun limit => renamePropsWithin limit params body)
      (pure (match parameterName? params with
        | some parameter => renameParameter parameter "props".toList body
        | none => body)) := by
  simp only [renamePropsWithin]
  cases parameterName? params with
  | none => exact settles_pure body
  | some parameter =>
    exact settles_scans (.ite (fun _ => .nil) fun _ => allDefined_qualifyScans body) _

theorem settles_return (name : Text) (returned? : Option Text) :
    Settles (fun limit => recastReturnWithin limit name returned?)
      (recastReturn name returned?) := by
  cases returned? with
  | none => exact settles_ofOutcome _
  | some returned =>
    rw [recastReturn]
    simp only [recastReturnWithin]
    split
    · exact settles_markup returned
    · refine (settles_expression returned).bind fun value _ => ?_
      split
      · exact (settles_ofOutcome _).bind fun _ _ => settles_pure value
      · exact settles_pure value

theorem settles_openBody (options : Options) (concise : Bool) (body : Text) :
    Settles (fun limit => openBodyWithin limit options concise body)
      (openBody options concise body) := by
  rw [openBody]
  simp only [openBodyWithin]
  split
  · exact settles_pure _
  · refine (settles_scans (allDefined_effectScans body) _).andThen ?_
    refine (settles_extractHooks options body).bind fun extraction _ => ?_
    exact (settles_ask (allDefined_returnScans _) _).bind fun _ _ => settles_pure _

theorem settles_functional (options : Options) (definition : Definition) :
    Settles (fun limit => convertFunctionalWithin limit options definition)
      (convertFunctional options definition) := by
  rw [convertFunctional]
  refine (settles_ofOutcome _).bind fun _ _ => (settles_ofOutcome _).bind fun _ _ => ?_
  refine (settles_renameProps definition.params definition.body).andThen ?_
  refine (settles_scans (allDefined_bindingScans definition.params) ()).andThen ?_
  refine (settles_openBody options definition.concise _).bind fun opened _ => ?_
  obtain ⟨extraction, effects, preamble, returned?⟩ := opened
  refine (settles_return definition.name returned?).bind fun value _ => ?_
  refine (settles_embedded (codeBlock preamble)).bind fun preamble _ => ?_
  refine (settles_qualify _ _ preamble).andThen ((settles_qualify _ _ value).andThen ?_)
  exact (settles_ofOutcome _).bind fun _ _ => settles_pure _

theorem settles_functionals (options : Options) (source : Text) :
    Settles (fun limit => convertFunctionalsWithin limit options source)
      (convertFunctionals options source) := by
  refine (settles_ask (allDefined_definitionScans source) _).bind fun definitions _ => ?_
  refine (Settles.collect fun definition _ => ?_).bind fun edits _ => settles_pure _
  exact (settles_functional options definition).bind fun _ _ => settles_pure _

/-! ## Class components -/

theorem settles_class (options : Options) (head : DefinitionHead) (arguments body : Text) :
    Settles (fun limit => convertClassWithin limit options head arguments body)
      (convertClass options head arguments body) := by
  refine (settles_ofOutcome _).bind fun _ _ => (settles_ofOutcome _).bind fun _ _ => ?_
  refine (settles_ofOutcome _).bind fun _ _ => ?_
  refine (settles_scans (allDefined_classScans arguments body) ()).andThen ?_
  refine (settles_ofOutcome _).bind fun _ _ => (settles_ofOutcome _).bind fun _ _ => ?_
  exact settles_pure _

theorem settles_classEdits (options : Options) (source : Text) :
    ∀ (heads : List (Occurrence DefinitionHead)) (last : Nat),
      Settles (fun limit => classEditsWithin limit options source last heads)
        (Outcome.collect ((classesFrom source last heads).map fun (head, arguments, body) => do
          let text ← convertClass options head.value arguments
            (slice source (body.start + 1) (body.stop - 1))
          return (⟨⟨head.start, body.stop⟩, text⟩ : Edit)))
  | [], _ => settles_pure []
  | head :: heads, last => by
    rw [classesFrom]
    simp only [classEditsWithin]
    split
    · exact settles_classEdits options source heads last
    · refine (settles_scans (allDefined_classBodyScans source head.stop) _).andThen ?_
      cases classBody? source head.stop with
      | none => exact settles_classEdits options source heads last
      | some found =>
        obtain ⟨arguments, body⟩ := found
        rw [List.map_cons, Outcome.collect_cons]
        simp only [bind_assoc, pure_bind]
        refine (settles_class options head.value arguments _).bind fun text _ => ?_
        exact (settles_classEdits options source heads body.stop).bind fun _ _ => settles_pure _

theorem settles_classes (options : Options) (source : Text) :
    Settles (fun limit => convertClassesWithin limit options source)
      (convertClasses options source) :=
  (settles_classEdits options source _ 0).bind fun _ _ => settles_pure _

/-- Converting components with a limit is converting them without one, or overflows. -/
theorem settles_components (options : Options) (source : Text) :
    Settles (fun limit => convertComponentsWithin limit options source)
      (convertComponents options source) :=
  (settles_functionals options source).bind fun functionals _ => settles_classes options functionals

end Recast
