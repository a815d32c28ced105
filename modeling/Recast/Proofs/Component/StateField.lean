import Recast.Proofs.Component.ClassConversion

/-!
# The initial values of fields

A state variable becomes a field of the class with its initial value. The code before the return and
the returned value are qualified, the initial value is written as it stands. So a field is right
just if its initial value refers to nothing that is local to the component: no prop, no other state
variable and no setter (`stateField_eq_qualified_iff`).
-/

namespace Recast

/-- Fields of one variable are the same just if they start with the same value. -/
theorem stateField_eq_iff (style : StateStyle) (state : StateVariable) (initial : Text) :
    stateField style state = stateField style { state with initial } ↔ state.initial = initial := by
  constructor
  · intro h
    cases style with
    | binding =>
      exact List.append_cancel_left (List.append_cancel_right (List.append_cancel_left h))
    | field => exact List.append_cancel_left (List.append_cancel_right (List.append_cancel_left h))
  · rintro rfl
    rfl

/-- The class of a block has one field for each state variable, with the initial value as it stands.
The field is the one with the value qualified just if every word of the value that reads as a
reference is local to the value. -/
theorem stateField_eq_qualified_iff {options : Options} {definition : Definition} {text : Text}
    (block : definition.concise = false)
    (h : (convertFunctional options definition).result = .ok text) :
    ∃ preamble value, definition.MethodCode options preamble value ∧
      text = (definition.classParts options preamble value).render ∧
      (definition.classParts options preamble value).fields =
        definition.states.map (stateField options.stateStyle) ∧
      ∀ state ∈ definition.states,
        stateField options.stateStyle state =
            stateField options.stateStyle
              { state with initial := definition.qualified state.initial } ↔
          Settled definition.references (bindingScopes (mask state.initial)) []
            (mask state.initial) := by
  obtain ⟨preamble, value, code, written⟩ := (convertFunctional_eq_ok block).1 h
  refine ⟨preamble, value, code, written, rfl, fun state _ => ?_⟩
  rw [stateField_eq_iff, eq_comm, Definition.qualified,
    qualify_eq_self_iff Definition.isWord_of_mem_references]
  rfl

/-- A component that starts its state with a prop. -/
def startFromProp : Definition where
  name := "App".toList
  exported := []
  params := "props".toList
  variableType? := none
  body := "\n  const [n, setN] = useState(props.start);\n  return n;\n".toList
  concise := false
  start := 0
  stop := 78

theorem extractHooks_startFromProp : (extractHooks Options.standard startFromProp.code).result = .ok
    ⟨["private n: Binding<any> = new Binding(props.start);".toList],
      ["private setN = (newValue: any) => \x7b\n  this.n.set(newValue);\n\x7d;".toList],
        "\n  return n;\n".toList,
      [⟨"n".toList, "setN".toList, "any".toList, "props.start".toList⟩], [], []⟩ := by
  have code : startFromProp.code = startFromProp.body := by decide +kernel
  rw [code, startFromProp]
  -- a long literal is evaluated much faster as a list of its characters
  repeat rw [String.toList_ofList]
  decide +kernel

theorem states_startFromProp :
    startFromProp.states = [⟨"n".toList, "setN".toList, "any".toList, "props.start".toList⟩] :=
  Definition.states_of_extracted extractHooks_startFromProp

theorem convertFunctional_startFromProp :
    (convertFunctional Options.standard startFromProp).result =
      .ok (startFromProp.classParts Options.standard [] "n".toList).render := by
  have split : splitReturn "\n  return n;\n".toList = .ok ("\n  ".toList, some "n".toList) := rfl
  have empty : codeBlock "\n  ".toList = [] := by decide
  have code := Definition.methodCode_of_unmarked extractHooks_startFromProp
    split (by rw [empty]; decide) (by decide)
  rw [empty] at code
  exact (convertFunctional_eq_ok rfl).2 ⟨[], "n".toList, code, rfl⟩

theorem qualified_startFromProp :
    startFromProp.qualified "props.start".toList = "this.props.start".toList := by
  rw [Definition.qualified, qualify_eq_walk Definition.isWord_of_mem_references,
    states_startFromProp]
  decide +kernel

/-- A state that starts with a prop refers to what is local to the component. -/
theorem not_settled_startFromProp :
    (convertFunctional Options.standard startFromProp).result =
        .ok (startFromProp.classParts Options.standard [] "n".toList).render ∧
      ¬Settled startFromProp.references (bindingScopes (mask "props.start".toList)) []
        (mask "props.start".toList) := by
  refine ⟨convertFunctional_startFromProp, fun settled => ?_⟩
  obtain ⟨_, _, -, -, -, fields⟩ := stateField_eq_qualified_iff rfl convertFunctional_startFromProp
  rw [states_startFromProp] at fields
  have same := (fields _ List.mem_cons_self).2 settled
  rw [qualified_startFromProp] at same
  exact absurd same (by decide)

/-- The field of a state that starts with a prop is not the one with the prop qualified. -/
theorem fields_startFromProp :
    (startFromProp.classParts Options.standard [] "n".toList).fields =
        ["private n: Binding<any> = new Binding(props.start);".toList] ∧
      startFromProp.states.map (fun state => stateField .binding
          { state with initial := startFromProp.qualified state.initial }) =
        ["private n: Binding<any> = new Binding(this.props.start);".toList] := by
  rw [Definition.classParts, states_startFromProp]
  simp only [List.map_singleton, qualified_startFromProp]
  repeat rw [String.toList_ofList]
  exact ⟨rfl, rfl⟩

end Recast
