import Recast.Proofs.Component.Method
import Recast.Proofs.Scope.Rewriting

/-!
# The root of prop accesses

A component that takes its props under a plain name reads them by member accesses rooted at that
name. The method has no such parameter: the body is rewritten twice, first to accesses rooted at
`props` (`Mention.renamed`), and then to accesses of the instance (`Mention.qualified`).

The two do not look for the same accesses. Renaming takes every root of an access, with blanks or a
question mark before the dot. Qualifying takes the props object only with a dot right behind it, or
where `props` is a state variable (`qualified_props`). So what stands in the method for an access is
rooted at the instance just in these cases, and where `props` is not bound
(`props_root_written_iff`).
-/

namespace Recast

/-! ## Plain parameters -/

theorem head?_trimEnd {t : Text} {c : Char} (first : t.head? = some c) (mark : isBlank c = false) :
    (trimEnd t).head? = some c := by
  obtain ⟨rest, rfl⟩ := List.head?_eq_some_iff.1 first
  have kept := trimEnd_append (s := [c]) (by rintro d ⟨⟩; exact mark) rest
  rw [List.singleton_append] at kept
  rw [kept]
  rfl

/-- What trimming leaves starts with the first character that is not blank. -/
theorem head?_trim (t : Text) : (trim t).head? = (trimStart t).head? := by
  rw [trim]
  cases first : (trimStart t).head? with
  | none =>
    rw [List.head?_eq_none_iff.1 first]
    rfl
  | some c => exact head?_trimEnd first (not_isBlank_of_head?_trimStart first)

/-- A parameter with a plain name is not destructured. -/
theorem patternSpan?_eq_none {params name : Text} (h : parameterName? params = some name) :
    patternSpan? params = none := by
  rw [patternSpan?]
  refine if_neg fun brace => ?_
  obtain ⟨valid, -⟩ := Option.ite_none_right_eq_some.1 h
  have starts : ((cutAt? ':' params).map (·.1) |>.getD params) = params ∨
      ∃ after, params = ((cutAt? ':' params).map (·.1) |>.getD params) ++ ':' :: after := by
    cases cut : cutAt? ':' params with
    | none => exact .inl rfl
    | some parts => exact .inr ⟨parts.2, eq_append_of_cutAt? cut⟩
  generalize ((cutAt? ':' params).map (·.1) |>.getD params) = written at valid starts
  have first : (trim written).head? = some '{' := by
    rw [head?_trim]
    rcases starts with rfl | ⟨after, rfl⟩
    · exact brace
    · rw [trimStart_append (by rintro c ⟨⟩; decide), List.head?_append] at brace
      cases blank : (trimStart written).head? with
      | none => simp [blank] at brace
      | some c => simpa [blank] using brace
  obtain ⟨rest, written⟩ := List.head?_eq_some_iff.1 first
  rw [written, isIdentifier, Bool.and_eq_true] at valid
  exact absurd valid.1 (by decide)

/-- A plain parameter makes no local names of props. -/
theorem propAliases_eq_nil {params name : Text} (h : parameterName? params = some name) :
    propAliases params = [] := by
  rw [propAliases, propBindings, patternSpan?_eq_none h]
  rfl

theorem isWord_of_parameterName? {params name : Text} (h : parameterName? params = some name) :
    isWord name := by
  obtain ⟨valid, same⟩ := Option.ite_none_right_eq_some.1 h
  exact Option.some.inj same ▸ isWord_of_isIdentifier valid

/-! ## The props object -/

/-- Behind the root of an access there is neither a colon nor the end of an entry. -/
theorem head?_of_opensAccess {ahead : Text} (h : opensAccess ahead) :
    (trimStart ahead).head? = some '.' ∨ (trimStart ahead).head? = some '?' := by
  rw [opensAccess, decide_eq_true_iff] at h
  cases start : trimStart ahead with
  | nil => simp [start, dropHead?] at h
  | cons c rest =>
    by_cases mark : '?' = c
    · exact .inr (by rw [← mark]; rfl)
    · left
      simpa [start, dropHead?, mark] using h

section

variable {state : List Text} {scopes : List BindingScope} {pos : Nat} {mention : Mention}

/-- The props object at the root of an access becomes that of the instance where it is not bound,
and has its dot right behind it or is a state variable that is not being declared. -/
theorem qualified_props (name : mention.name = "props".toList) (root : mention.isRoot) :
    mention.qualified (references state []) scopes pos =
      if !isBound scopes "props".toList pos
          && (mention.ahead.head? = some '.' || state.contains "props".toList &&
            !mention.isDeclared) then
        "this.props".toList
      else "props".toList := by
  rw [Mention.isRoot, Bool.and_eq_true, Bool.not_eq_true'] at root
  obtain ⟨notMember, opens⟩ := root
  have notKey : mention.isKey = false := by
    rcases head?_of_opensAccess opens with dot | mark
    · simp [Mention.isKey, dot]
    · simp [Mention.isKey, mark]
  have notShorthand : mention.isShorthand = false := by
    rcases head?_of_opensAccess opens with dot | mark
    · simp [Mention.isShorthand, dot]
    · simp [Mention.isShorthand, mark]
  have notSetter : mention.refersToSetter scopes pos = false := by
    have other : isSetterName "props".toList = false := by decide
    rw [Mention.refersToSetter, Mention.callsSetter, name, other]
    rfl
  have listed : ((references state []).map (·.1)).contains mention.name =
      state.contains "props".toList := by
    rw [contains_references, lookup_references, name]
    cases state.contains "props".toList <;> rfl
  have access : state.contains "props".toList →
      mention.access (references state []) = "this.props".toList := by
    intro known
    rw [Mention.access, notShorthand, lookup_references, name, if_pos known]
    rfl
  rw [Mention.qualified, Mention.refers, Mention.refersToProps, listed, notSetter, notMember,
    notKey, name]
  cases known : state.contains "props".toList with
  | true =>
    rw [access known]
    cases isBound scopes "props".toList pos <;> cases mention.isDeclared <;>
      cases decide (mention.ahead.head? = some '.') <;> rfl
  | false =>
    cases isBound scopes "props".toList pos <;> cases decide (mention.ahead.head? = some '.') <;>
      rfl

end

/-! ## Both rewritings -/

/-- A component with a plain parameter is rewritten word by word: in the body every free root of an
access of the parameter becomes `props`, and from there in the code of the method every root `props`
becomes `this.props` where it is not bound and has its dot right behind it or is a state variable
that is not being declared, and else stays. -/
theorem props_root_written_iff {options : Options} {definition : Definition} {parameter text : Text}
    (plain : parameterName? definition.params = some parameter)
    (h : (convertFunctional options definition).result = .ok text) :
    Rewritten (Mention.renamed parameter "props".toList (bindingScopes (mask definition.body))) []
      (mask definition.body) []
        definition.body definition.code ∧
      ∃ preamble value, definition.Lowers options preamble value ∧
        (∃ above below, text =
          unlines (above ++ initializer (definition.written preamble) (definition.written value) ++
            below)) ∧
        ∀ code ∈ [preamble, value],
          Rewritten (definition.writes code) [] (mask code) [] code (definition.written code) ∧
          ∀ pos mention, mention.name = "props".toList → mention.isRoot →
            (definition.writes code pos mention = "this.props".toList ↔
              isBound (bindingScopes (mask code)) "props".toList pos = false ∧
                (mention.ahead.head? = some '.' ∨
                  "props".toList ∈ definition.stateNames ∧ mention.isDeclared = false)) ∧
            (definition.writes code pos mention ≠ "this.props".toList →
              definition.writes code pos mention = "props".toList) := by
  have renamed : definition.code = renameParameter parameter "props".toList definition.body := by
    rw [Definition.code, plain]
  refine ⟨renamed ▸ rewritten_renameParameter (isWord_of_parameterName? plain) _ _, ?_⟩
  obtain ⟨preamble, value, lowers, written⟩ := exists_initializer h
  have rewritten := rewritten_qualify definition.isWord_of_mem_methodReferences
  refine ⟨preamble, value, lowers, written, fun code _ => ⟨rewritten code, ?_⟩⟩
  intro pos mention name root
  rw [Definition.writes, Definition.methodReferences, propAliases_eq_nil plain,
    qualified_props name root]
  have other : "props".toList ≠ "this.props".toList := by decide
  split
  · rename_i met
    refine ⟨iff_of_true rfl ?_, fun differs => absurd rfl differs⟩
    simpa using met
  · rename_i unmet
    refine ⟨iff_of_false other ?_, fun _ => rfl⟩
    simpa using unmet

/-- A component that reads one prop by a plain access and one by an optional one. -/
def optionalAccess : Definition where
  name := "App".toList
  exported := []
  params := "p".toList
  variableType? := none
  body := "\n  use(p.label);\n  return p?.title;\n".toList
  concise := false
  start := 0
  stop := 55

theorem code_optionalAccess :
    optionalAccess.code = "\n  use(props.label);\n  return props?.title;\n".toList := by
  have plain : parameterName? optionalAccess.params = some "p".toList := by decide
  rw [Definition.code, plain]
  dsimp only
  rw [renameParameter_eq_sweep (by decide) (by decide)]
  decide +kernel

theorem methodCode_optionalAccess :
    optionalAccess.MethodCode Options.standard "use(props.label);".toList
      "props?.title".toList := by
  have extracted : (extractHooks Options.standard optionalAccess.code).result =
      .ok ⟨[], [], optionalAccess.code, [], [], []⟩ := by
    rw [code_optionalAccess]
    decide +kernel
  have split : splitReturn optionalAccess.code =
      .ok ("\n  use(props.label);\n  ".toList, some "props?.title".toList) := by
    rw [code_optionalAccess]
    decide +kernel
  have block : codeBlock "\n  use(props.label);\n  ".toList = "use(props.label);".toList := by
    decide +kernel
  have code := Definition.methodCode_of_unmarked extracted split (by rw [block]; decide) (by decide)
  rwa [block] at code

theorem convertFunctional_optionalAccess :
    (convertFunctional Options.standard optionalAccess).result =
      .ok (optionalAccess.classParts Options.standard "use(props.label);".toList
        "props?.title".toList).render :=
  (convertFunctional_eq_ok rfl).2 ⟨_, _, methodCode_optionalAccess, rfl⟩

theorem states_optionalAccess : optionalAccess.states = [] := by
  rw [Definition.states, code_optionalAccess]
  decide +kernel

theorem props_root_written_optionalAccess :
    parameterName? optionalAccess.params = some "p".toList ∧
      (convertFunctional Options.standard optionalAccess).result =
        .ok (optionalAccess.classParts Options.standard "use(props.label);".toList
          "props?.title".toList).render ∧
      optionalAccess.writes "use(props.label);".toList 4 ⟨"props".toList, "use(".toList.reverse,
        ".label);".toList⟩ =
        "this.props".toList ∧
      optionalAccess.writes "props?.title".toList 0 ⟨"props".toList, [], "?.title".toList⟩ =
        "props".toList := by
  have plain : parameterName? optionalAccess.params = some "p".toList := by decide
  refine ⟨plain, convertFunctional_optionalAccess, ?_⟩
  obtain ⟨-, _, _, lowers, -, words⟩ :=
    props_root_written_iff plain convertFunctional_optionalAccess
  obtain ⟨rfl, rfl⟩ := lowers.unique (Definition.MethodCode.lowers rfl methodCode_optionalAccess)
  constructor
  · have dotted := (words _ List.mem_cons_self).2 4 ⟨"props".toList, "use(".toList.reverse,
      ".label);".toList⟩ rfl (by decide)
    exact dotted.1.2 ⟨by decide +kernel, .inl rfl⟩
  · have optional := (words _ (List.mem_cons_of_mem _ List.mem_cons_self)).2 0
      ⟨"props".toList, [], "?.title".toList⟩ rfl
      (by decide)
    refine optional.2 fun same => ?_
    rcases (optional.1.1 same).2 with dot | ⟨listed, -⟩
    · cases dot
    · rw [Definition.stateNames, states_optionalAccess] at listed
      cases listed

/-- The optional access is free in the body, so its root is renamed, and the method has it with the
root `props`. -/
theorem value_optionalAccess :
    (convertFunctional Options.standard optionalAccess).result =
        .ok (optionalAccess.classParts Options.standard "use(props.label);".toList
          "props?.title".toList).render ∧
      mask optionalAccess.body = "\n  use(p.label);\n  return ".toList ++
        ("p".toList ++ "?.title;\n".toList) ∧
      (⟨"p".toList, "\n  use(p.label);\n  return ".toList.reverse, "?.title;\n".toList⟩ :
        Mention).renames "p".toList
        (bindingScopes (mask optionalAccess.body)) 26 ∧
      (optionalAccess.classParts Options.standard "use(props.label);".toList
        "props?.title".toList).preamble =
        "use(this.props.label);".toList ∧
      (optionalAccess.classParts Options.standard "use(props.label);".toList
        "props?.title".toList).value =
        "props?.title".toList := by
  have walked : ∀ code, optionalAccess.qualified code =
      walk (references [] []) (bindingScopes (mask code)) [] 0 (mask code) code := by
    intro code
    have plain : propAliases optionalAccess.params = [] := by decide
    rw [Definition.qualified, states_optionalAccess, plain]
    exact qualify_eq_walk (by decide) code
  refine ⟨convertFunctional_optionalAccess, by decide +kernel, by decide +kernel, ?_, ?_⟩
  · exact (walked _).trans (by decide +kernel)
  · exact (walked _).trans (by decide +kernel)

end Recast
