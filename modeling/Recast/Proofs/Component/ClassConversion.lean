import Recast.Component.Functional
import Recast.Proofs.Component.HookExtraction
import Recast.Proofs.Markup.TreeRecast
import Recast.Proofs.Scope.Settled

/-!
# The class of a component with a block

The conversion of a functional component whose body is a block goes through four steps that can fail
or write to the journal: `Definition.MethodCode` names what they give. `convertFunctional_eq_ok`
says that the class is rendered from parts that depend on nothing else (`Definition.classParts`).
Later modules ask what became of a name of the body in one of these parts.

References are qualified under the names of the state variables and the local names of the props,
which are all words (`Definition.isWord_of_mem_references`).
-/

namespace Recast

namespace Definition

/-- The body with the props parameter under its common name. -/
def code (definition : Definition) : Text :=
  match parameterName? definition.params with
  | some parameter => renameParameter parameter "props".toList definition.body
  | none => definition.body

/-- The state variables of the body in order. -/
def states (definition : Definition) : List StateVariable :=
  (findState definition.code).map (·.1)

/-- What the body refers to. -/
def references (definition : Definition) : References :=
  Recast.references (definition.states.map (·.name)) (propAliases definition.params)

/-- Code of the component with its references qualified. -/
def qualified (definition : Definition) (code : Text) : Text :=
  qualify (definition.states.map (·.name)) (propAliases definition.params) code

/-- The parts of the class, from the code before the return and the returned value. -/
def classParts (options : Options) (definition : Definition) (preamble value : Text) :
    ClassParts where
  name := definition.name
  isDefaultExport := mentions "default".toList definition.exported
  propsType := (propsType definition).1
  interface? := (propsType definition).2
  fields := definition.states.map (stateField options.stateStyle)
  accessors := definition.states.map (stateAccessor options.stateStyle)
  preamble := definition.qualified preamble
  value := definition.qualified value
  lifecycle := (findEffects definition.code).map fun (effect, _) => effectComment effect

/-- The code of the body that goes into a method, with its markup made calls: what the hooks leave
before the last return, and what is returned. -/
def MethodCode (options : Options) (definition : Definition) (preamble value : Text) : Prop :=
  ∃ extraction before returned?,
    (extractHooks options definition.code).result = .ok extraction ∧
    splitReturn extraction.body = .ok (before, returned?) ∧
    (recastReturn definition.name returned?).result = .ok value ∧
    (recastEmbedded (codeBlock before)).result = .ok preamble

end Definition

/-! ## The steps of a conversion -/

/-- The conversion of a block ends with a class just if its method code is found, and the class is
rendered from it. -/
theorem convertFunctional_eq_ok {options : Options} {definition : Definition} {text : Text}
    (block : definition.concise = false) :
    (convertFunctional options definition).result = .ok text ↔
      ∃ preamble value, definition.MethodCode options preamble value ∧
        text = (definition.classParts options preamble value).render := by
  -- the parts of the class that come from the hooks are the same for every extraction
  have parts : ∀ {extraction}, (extractHooks options definition.code).result = .ok extraction →
      ∃ body, extraction = ⟨definition.states.map (stateField options.stateStyle),
        definition.states.map (stateAccessor options.stateStyle), body, definition.states,
        (findEffects definition.code).map (·.1),
        (definition.classParts options [] []).lifecycle⟩ := by
    intro extraction extracted
    obtain ⟨replaced, result⟩ := extractHooks_result options definition.code
    rw [extracted] at result
    refine ⟨replaced, (Except.ok.inj result).trans ?_⟩
    simp only [Definition.states, Definition.classParts, List.map_map, Function.comp_def]
  constructor
  · intro h
    rw [convertFunctional] at h
    obtain ⟨_, -, h⟩ := Outcome.bind_result_eq_ok.1 h
    obtain ⟨_, -, h⟩ := Outcome.bind_result_eq_ok.1 h
    obtain ⟨⟨extraction, effects, before, returned?⟩, opened, h⟩ := Outcome.bind_result_eq_ok.1 h
    obtain ⟨value, hvalue, h⟩ := Outcome.bind_result_eq_ok.1 h
    obtain ⟨preamble, hpreamble, h⟩ := Outcome.bind_result_eq_ok.1 h
    obtain ⟨_, -, h⟩ := Outcome.bind_result_eq_ok.1 h
    rw [openBody, block, if_neg Bool.false_ne_true] at opened
    obtain ⟨_, extracted, opened⟩ := Outcome.bind_result_eq_ok.1 opened
    obtain ⟨⟨_, _⟩, split, opened⟩ := Outcome.bind_result_eq_ok.1 opened
    cases opened
    refine ⟨preamble, value, ⟨extraction, before, returned?, extracted, split, hvalue, hpreamble⟩,
      ?_⟩
    obtain ⟨body, rfl⟩ := parts extracted
    exact (Except.ok.inj h).symm
  · rintro ⟨preamble, value, ⟨extraction, before, returned?, extracted, split, hvalue, hpreamble⟩,
      rfl⟩
    have opened : (openBody options definition.concise definition.code).result =
        .ok (extraction, describeEffects options definition.code, before, returned?) := by
      rw [openBody, block, if_neg Bool.false_ne_true, Outcome.bind_of_ok extracted]
      dsimp only
      rw [split]
      rfl
    rw [convertFunctional]
    refine Outcome.bind_result_eq_ok.2 ⟨(), rfl, Outcome.bind_result_eq_ok.2 ⟨(), rfl, ?_⟩⟩
    refine Outcome.bind_result_eq_ok.2 ⟨_, opened, Outcome.bind_result_eq_ok.2 ⟨value, hvalue, ?_⟩⟩
    refine Outcome.bind_result_eq_ok.2
      ⟨preamble, hpreamble, Outcome.bind_result_eq_ok.2 ⟨(), rfl, ?_⟩⟩
    obtain ⟨body, rfl⟩ := parts extracted
    rfl

/-- The state variables are the ones that the extraction gives. -/
theorem Definition.states_of_extracted {options : Options} {definition : Definition}
    {extraction : HookExtraction}
    (extracted : (extractHooks options definition.code).result = .ok extraction) :
    definition.states = extraction.state := by
  obtain ⟨replaced, result⟩ := extractHooks_result options definition.code
  rw [extracted] at result
  rw [Except.ok.inj result]
  rfl

/-- Without markup the method code is what the hooks leave. -/
theorem Definition.methodCode_of_unmarked {options : Options} {definition : Definition}
    {extraction : HookExtraction}
    {before returned : Text}
    (extracted : (extractHooks options definition.code).result = .ok extraction)
    (split : splitReturn extraction.body = .ok (before, some returned))
    (hb : '<' ∉ codeBlock before)
    (hr : '<' ∉ returned) : definition.MethodCode options (codeBlock before) returned := by
  refine ⟨extraction, before, some returned, extracted, split, ?_, ?_⟩
  · have first : returned.head? ≠ some '<' := fun h => hr (List.mem_of_mem_head? h)
    rw [recastReturn, if_neg first, recastExpression_eq_pure hr, pure_bind, if_pos rfl]
    rfl
  · rw [recastEmbedded_eq_pure hb]
    rfl

/-! ## Names -/

theorem isWord_of_word? {t name rest : Text} (h : word? t = some (name, rest)) : isWord name := by
  rw [word?] at h
  split at h
  · simp at h
  · rename_i found
    obtain ⟨rfl, -⟩ := Prod.mk.inj (Option.some.inj h)
    rw [isWord, Bool.and_eq_true, List.all_takeWhile]
    exact ⟨by simpa using found, rfl⟩

/-- The names of a state declaration are words. -/
theorem isWord_of_stateOpening {behind ahead name setter : Text} {argument? : Option Text}
    {size : Nat}
    (h : stateOpening behind ahead = some ((name, setter, argument?), size)) :
    isWord name ∧ isWord setter := by
  simp only [stateOpening, Option.bind_eq_bind, Option.bind_eq_some_iff] at h
  obtain ⟨_, _, _, _, ⟨first, _⟩, hfirst, _, _, ⟨second, _⟩, hsecond, _, _, _, _, _, _, ⟨_, _⟩, _,
      h⟩ := h
  simp only [covers, Option.some.injEq, Prod.mk.injEq] at h
  obtain ⟨⟨rfl, rfl, -⟩, -⟩ := h
  exact ⟨isWord_of_word? hfirst, isWord_of_word? hsecond⟩

theorem isWord_of_mem_findState {body : Text} {found : StateVariable × Span}
    (h : found ∈ findState body) : isWord found.1.name ∧ isWord found.1.setter := by
  obtain ⟨opening, hm, hf⟩ := List.mem_filterMap.1 h
  obtain ⟨stop, -, rfl⟩ := Option.map_eq_some_iff.1 hf
  obtain ⟨passed, ahead, size, -, hr, -⟩ := exists_of_mem_occurrencesFrom hm
  exact isWord_of_stateOpening hr

theorem isWord_of_mem_states {definition : Definition} {state : StateVariable}
    (h : state ∈ definition.states) : isWord state.name ∧ isWord state.setter := by
  obtain ⟨found, hm, rfl⟩ := List.mem_map.1 h
  exact isWord_of_mem_findState hm

theorem isIdentifier_of_propBinding? {entry : Text} {binding : PropBinding}
    (h : propBinding? entry = some binding) : isIdentifier binding.localName := by
  rw [propBinding?] at h
  split at h
  · simp at h
  · obtain ⟨valid, made⟩ := Option.ite_none_right_eq_some.1 h
    obtain rfl := Option.some.inj made
    exact (Bool.and_eq_true_iff.1 valid).2

theorem mem_setAlias {aliases : List (Text × Text)} {key value : Text} {entry : Text × Text}
    (h : entry ∈ propAliases.setAlias aliases key value) : entry ∈ aliases ∨ entry.1 = key := by
  rw [propAliases.setAlias] at h
  split at h
  · obtain ⟨old, hm, rfl⟩ := List.mem_map.1 h
    split
    · exact .inr rfl
    · exact .inl hm
  · rcases List.mem_append.1 h with h | h
    · exact .inl h
    · exact .inr (by rw [List.mem_singleton.1 h])

/-- The local names of props are identifiers. -/
theorem isIdentifier_of_mem_propAliases {params : Text} {entry : Text × Text}
    (h : entry ∈ propAliases params) : isIdentifier entry.1 := by
  have bindings : ∀ binding ∈ propBindings params, isIdentifier binding.localName := by
    intro binding hm
    rw [propBindings] at hm
    split at hm
    · obtain ⟨text, -, hb⟩ := List.mem_filterMap.1 hm
      exact isIdentifier_of_propBinding? hb
    · simp at hm
  have fold : ∀ (bindings : List PropBinding) (aliases : List (Text × Text)),
      (∀ binding ∈ bindings, isIdentifier binding.localName) →
        (∀ entry ∈ aliases, isIdentifier entry.1) →
      ∀ entry ∈ bindings.foldl (fun aliases binding =>
        propAliases.setAlias aliases binding.localName binding.prop) aliases,
        isIdentifier entry.1 := by
    intro bindings
    induction bindings with
    | nil => exact fun aliases _ ha => ha
    | cons binding bindings ih =>
      intro aliases hb ha
      refine ih _ (fun other hm => hb other (by simp [hm])) fun entry hm => ?_
      rcases mem_setAlias hm with hm | hm
      · exact ha entry hm
      · rw [hm]
        exact hb binding (by simp)
  exact fold _ [] bindings (by simp) entry h

/-- Whatever a component refers to is a word. -/
theorem Definition.isWord_of_mem_references {definition : Definition} :
    ∀ entry ∈ definition.references, isWord entry.1 := by
  intro entry hm
  rw [Definition.references, Recast.references] at hm
  rcases List.mem_append.1 hm with hm | hm
  · obtain ⟨name, hn, rfl⟩ := List.mem_map.1 hm
    obtain ⟨state, hs, rfl⟩ := List.mem_map.1 hn
    exact (isWord_of_mem_states hs).1
  · obtain ⟨⟨localName, key⟩, hb, rfl⟩ := List.mem_map.1 hm
    have valid : isIdentifier localName := isIdentifier_of_mem_propAliases hb
    exact isWord_of_isIdentifier valid

end Recast
