import Recast.Proofs.Component.ClassConversion

/-!
# The method that a component becomes

The class of a component holds the method `initializeUI` (`initializer`): the code before the
returned value, indented, and the returned value. `Definition.Returned` and `Definition.Lowers` say
which code this is before and after its markup has become calls, for a block and for an element as a
body alike, and `exists_initializer` that the text of every converted component holds the method,
with the references in its code qualified.
-/

namespace Recast

/-- The lines of the method `initializeUI`. -/
def initializer (preamble value : Text) : List Text :=
  "  initializeUI(): UINode \x7b".toList ::
    (if preamble.isEmpty then [] else indent 4 preamble ++ [[]])
    ++ ["    return ".toList ++ value ++ ";".toList, "  \x7d".toList]

/-- A class holds the method with its code. -/
theorem ClassParts.exists_initializer (parts : ClassParts) :
    ∃ above below, parts.render =
      unlines (above ++ initializer parts.preamble parts.value ++ below) := by
  have regroup : ∀ (head preamble tail lifecycle foot : List Text) (opening value closing : Text),
      head ++ [[], opening] ++ preamble ++ (value :: closing :: tail) ++ lifecycle ++ foot =
        (head ++ [[]]) ++ (opening :: preamble ++ [value, closing]) ++
          (tail ++ lifecycle ++ foot) := by
    intros
    simp
  exact ⟨_, _, congrArg unlines (regroup _ _ _ _ _ _ _ _)⟩

namespace Definition

/-- The names of the state variables; an element as a body has none. -/
def stateNames (definition : Definition) : List Text :=
  if definition.concise then [] else definition.states.map (·.name)

/-- What the code of the method refers to. -/
def methodReferences (definition : Definition) : References :=
  Recast.references definition.stateNames (propAliases definition.params)

/-- What a word of the method's code becomes in its place. -/
def writes (definition : Definition) (code : Text) : Nat → Mention → Text :=
  Mention.qualified definition.methodReferences (bindingScopes (mask code))

/-- Code of the method with its references qualified. -/
def written (definition : Definition) (code : Text) : Text :=
  qualify definition.stateNames (propAliases definition.params) code

/-- The code before the returned value and the returned value as written: of a block, what the hooks
leave around its last return, and of an element as a body, the element. -/
inductive Returned (options : Options) (definition : Definition) : Text → Option Text → Prop where
  | block {extraction : HookExtraction} {before : Text} {returned? : Option Text}
    (block : definition.concise = false)
    (extracted : (extractHooks options definition.code).result = .ok extraction)
    (split : splitReturn extraction.body = .ok (before, returned?)) :
    Returned options definition before returned?
  | element (concise : definition.concise = true) :
    Returned options definition [] (some definition.code)

/-- The code of the method with its markup made calls. -/
def Lowers (options : Options) (definition : Definition) (preamble value : Text) : Prop :=
  ∃ before returned?, definition.Returned options before returned? ∧
    (recastReturn definition.name returned?).result = .ok value ∧
      (recastEmbedded (codeBlock before)).result = .ok preamble

theorem MethodCode.lowers {options : Options} {definition : Definition} {preamble value : Text}
    (block : definition.concise = false) (h : definition.MethodCode options preamble value) :
    definition.Lowers options preamble value := by
  obtain ⟨extraction, before, returned?, extracted, split, recast, embedded⟩ := h
  exact ⟨before, returned?, .block block extracted split, recast, embedded⟩

theorem isWord_of_mem_stateNames {definition : Definition} {name : Text}
    (h : name ∈ definition.stateNames) : isWord name := by
  rw [stateNames] at h
  split at h
  · cases h
  · obtain ⟨state, hs, rfl⟩ := List.mem_map.1 h
    exact (isWord_of_mem_states hs).1

theorem isWord_of_mem_names (definition : Definition) :
    ∀ name ∈ definition.stateNames ++ (propAliases definition.params).map (·.1), isWord name := by
  intro name hm
  rcases List.mem_append.1 hm with hm | hm
  · exact isWord_of_mem_stateNames hm
  · obtain ⟨⟨localName, key⟩, hb, rfl⟩ := List.mem_map.1 hm
    have valid : isIdentifier localName := isIdentifier_of_mem_propAliases hb
    exact isWord_of_isIdentifier valid

theorem isWord_of_mem_methodReferences (definition : Definition) :
    ∀ entry ∈ definition.methodReferences, isWord entry.1 := by
  intro entry hm
  have listed : entry.1 ∈ definition.methodReferences.map (·.1) := List.mem_map_of_mem hm
  exact definition.isWord_of_mem_names entry.1
    (by simpa [methodReferences, Recast.references] using listed)

theorem Returned.unique {options : Options} {definition : Definition} {before before' : Text}
    {returned? returned?' : Option Text} (h : definition.Returned options before returned?)
    (h' : definition.Returned options before' returned?') :
    before = before' ∧ returned? = returned?' := by
  cases h with
  | block block extracted split =>
    cases h' with
    | block _ extracted' split' =>
      obtain rfl := Except.ok.inj (extracted.symm.trans extracted')
      exact Prod.mk.inj (Except.ok.inj (split.symm.trans split'))
    | element concise => cases block.symm.trans concise
  | element concise =>
    cases h' with
    | block block _ _ => cases block.symm.trans concise
    | element _ => exact ⟨rfl, rfl⟩

/-- A component has one code of the method. -/
theorem Lowers.unique {options : Options} {definition : Definition}
    {preamble value preamble' value' : Text}
    (h : definition.Lowers options preamble value)
    (h' : definition.Lowers options preamble' value') : preamble = preamble' ∧ value = value' := by
  obtain ⟨before, returned?, returned, recast, embedded⟩ := h
  obtain ⟨_, _, returned', recast', embedded'⟩ := h'
  obtain ⟨rfl, rfl⟩ := returned.unique returned'
  exact ⟨Except.ok.inj (embedded.symm.trans embedded'), Except.ok.inj (recast.symm.trans recast')⟩

end Definition

/-- The text of a converted component holds the method with its code, in which references are
qualified. -/
theorem exists_initializer {options : Options} {definition : Definition} {text : Text}
    (h : (convertFunctional options definition).result = .ok text) :
    ∃ preamble value, definition.Lowers options preamble value ∧
      ∃ above below, text =
        unlines (above ++ initializer (definition.written preamble) (definition.written value) ++
          below) := by
  cases concise : definition.concise with
  | false =>
    obtain ⟨preamble, value, code, rfl⟩ := (convertFunctional_eq_ok concise).1 h
    obtain ⟨above, below, rendered⟩ :=
      (definition.classParts options preamble value).exists_initializer
    have names : definition.stateNames = definition.states.map (·.name) := by
      rw [Definition.stateNames, concise]
      rfl
    refine ⟨preamble, value, code.lowers concise, above, below, ?_⟩
    rw [rendered, Definition.written, Definition.written, names]
    rfl
  | true =>
    rw [convertFunctional] at h
    obtain ⟨_, -, h⟩ := Outcome.bind_result_eq_ok.1 h
    obtain ⟨_, -, h⟩ := Outcome.bind_result_eq_ok.1 h
    obtain ⟨⟨extraction, effects, before, returned?⟩, opened, h⟩ := Outcome.bind_result_eq_ok.1 h
    obtain ⟨value, hvalue, h⟩ := Outcome.bind_result_eq_ok.1 h
    obtain ⟨preamble, hpreamble, h⟩ := Outcome.bind_result_eq_ok.1 h
    obtain ⟨_, -, rendered⟩ := Outcome.bind_result_eq_ok.1 h
    rw [openBody, concise, if_pos rfl] at opened
    cases opened
    have names : definition.stateNames = [] := by
      rw [Definition.stateNames, concise]
      rfl
    rw [← Except.ok.inj rendered]
    refine ⟨preamble, value, ⟨[], some definition.code, .element concise, hvalue, hpreamble⟩, ?_⟩
    rw [Definition.written, Definition.written, names]
    exact ClassParts.exists_initializer _

end Recast
