import Recast.Proofs.Component.ClassConversion

/-!
# Calls of state setters

The declaration of a state variable goes into the class, and with it its setter, which becomes an
accessor under the name it was declared with. A call of the setter in the code that stays in a
method has to become a call of the accessor.

A call that is free in code (`FreeCall`) is rewritten at its place, and so is the rest of the code
on either side (`FreeCall.qualify`). What is written for the callee depends on its name only:
`calleeOf` says what it is. This is the accessor just if the name looks like that of a setter, or is
that of a state variable (`calleeOf_eq_accessor_iff`), whatever name the accessor has
(`setterCall_qualified_iff`).
-/

namespace Recast

/-! ## Free calls -/

/-- A call of `name` in code, with the masked code on either side of the name: it is not a member,
not being declared, and not bound at its place. -/
structure FreeCall (text name front rest : Text) : Prop where
  code : mask text = front ++ (name ++ rest)
  starts : PastWord front.reverse
  ends : PastWord rest
  called : (trimStart rest).head? = some '('
  notMember : (⟨name, front.reverse, rest⟩ : Mention).isMember = false
  notDeclared : (⟨name, front.reverse, rest⟩ : Mention).isDeclared = false
  notBound : isBound (bindingScopes (mask text)) name front.length = false

/-- What the callee of a free call becomes. -/
def calleeOf (state : List Text) (props : List (Text × Text)) (name : Text) : Text :=
  if state.contains name then "this.".toList ++ name
  else
    match props.lookup name with
    | some key => "this.props.".toList ++ key
    | none =>
      if isSetterName name && !globalSetters.contains name then "this.".toList ++ name else name

/-- The text from an offset on as it is qualified in its place. -/
def qualifiedFrom (state : List Text) (props : List (Text × Text)) (text : Text) (pos : Nat) :
    Text :=
  walk (references state props) (bindingScopes (mask text)) ((mask text).take pos).reverse pos
    ((mask text).drop pos)
    (text.drop pos)

/-- What the callee of a free call in a component becomes. -/
def Definition.callee (definition : Definition) (name : Text) : Text :=
  calleeOf (definition.states.map (·.name)) (propAliases definition.params) name

/-- Code of a component from an offset on as it is qualified in its place. -/
def Definition.qualifiedFrom (definition : Definition) (code : Text) (pos : Nat) : Text :=
  Recast.qualifiedFrom (definition.states.map (·.name)) (propAliases definition.params) code pos

section

variable {refs : References} {scopes : List BindingScope}

/-- A walk over code goes on behind any piece of it that does not end in a name. -/
theorem Spelled.walk_append (hn : ∀ entry ∈ refs, Recast.isWord entry.1) {behind code body : Text}
    (h : Spelled behind code body) :
    ∀ {a b : Text}, code = a ++ b → PastWord (a.reverse ++ behind) →
      ∃ before, Recast.walk refs scopes behind behind.length code body =
        before ++ Recast.walk refs scopes (a.reverse ++ behind) (behind.length + a.length) b
          (body.drop a.length) := by
  induction h with
  | done behind =>
    intro a b hab _
    obtain ⟨rfl, rfl⟩ := List.append_eq_nil_iff.1 hab.symm
    exact ⟨[], rfl⟩
  | @mark behind code body c d isMark rest ih =>
    intro a b hab past
    cases a with
    | nil =>
      obtain rfl := hab
      exact ⟨[], rfl⟩
    | cons e a =>
      obtain ⟨rfl, rfl⟩ := List.cons.inj hab
      obtain ⟨before, walked⟩ := ih rfl (by simpa using past)
      refine ⟨d :: before, ?_⟩
      rw [List.length_cons] at walked
      rw [walk_quiet hn isMark, walked]
      simp [Nat.add_assoc, Nat.add_comm 1]
  | @word behind code body w isWord free pastCode dot rest ih =>
    intro a b hab past
    rcases List.append_eq_append_iff.1 hab with ⟨a', rfl, rfl⟩ | ⟨c, rfl, rfl⟩
    · obtain ⟨before, walked⟩ := ih rfl (by simpa using past)
      refine ⟨(⟨w, behind, a' ++ b⟩ : Mention).qualified refs scopes behind.length ++ before, ?_⟩
      rw [length_reverse_append] at walked
      rw [walk_word hn isWord (startsFree_of_pastWord free) pastCode dot, walked]
      simp [Nat.add_assoc]
    · -- a piece that ends inside the word is empty
      obtain rfl : a = [] := by
        by_contra ne
        have last :=
          past (a.getLast ne) (by simp [List.head?_append, List.getLast?_eq_some_getLast ne])
        have name :=
          isNameChar_of_isWord isWord (a.getLast ne) (List.mem_append_left _ (List.getLast_mem ne))
        rw [last] at name
        cases name
      exact ⟨[], rfl⟩

end

/-- The callee of a free call is written as its name says. -/
theorem FreeCall.qualified_eq {text name front rest : Text} (call : FreeCall text name front rest)
    (state : List Text) (props : List (Text × Text)) :
    (⟨name, front.reverse, rest⟩ : Mention).qualified (references state props)
      (bindingScopes (mask text)) front.length =
      calleeOf state props name := by
  have notKey : (⟨name, front.reverse, rest⟩ : Mention).isKey = false := by
    simp [Mention.isKey, call.called]
  have notProps : (⟨name, front.reverse, rest⟩ : Mention).refersToProps (bindingScopes (mask text))
      front.length =
      false := by
    rw [Bool.eq_false_iff]
    intro refers
    obtain ⟨after, rfl⟩ := List.head?_eq_some_iff.1 (head?_of_refersToProps refers)
    have called := call.called
    rw [trimStart_eq_self (by rintro c ⟨⟩; decide)] at called
    cases called
  have refers : (⟨name, front.reverse, rest⟩ : Mention).refers (references state props)
      (bindingScopes (mask text))
      front.length = ((references state props).lookup name).isSome := by
    simp only [Mention.refers, call.notMember, call.notDeclared, notKey, call.notBound,
      contains_references, Bool.or_false, Bool.not_false, Bool.and_true]
  have setter : (⟨name, front.reverse, rest⟩ : Mention).refersToSetter (bindingScopes (mask text))
      front.length =
      (isSetterName name && !globalSetters.contains name) := by
    simp only [Mention.refersToSetter, Mention.callsSetter, call.notMember, call.notDeclared,
      call.notBound, call.called, Bool.or_false, decide_true, Bool.and_true]
  rw [Mention.qualified, refers, notProps, setter, access_of_call call.called, lookup_references,
    calleeOf]
  cases state.contains name with
  | true => rfl
  | false => cases props.lookup name <;> rfl

section

variable {state : List Text} {props : List (Text × Text)}

/-- The code from a free call on is rewritten on its own, whatever is written for the code before
it. -/
theorem FreeCall.exists_append_qualifiedFrom {text name front rest : Text}
    (call : FreeCall text name front rest) (hn : ∀ entry ∈ references state props, isWord entry.1) :
    ∃ before, qualify state props text = before ++ qualifiedFrom state props text front.length := by
  obtain ⟨before, walked⟩ :=
    @Spelled.walk_append _ (bindingScopes (mask text)) hn _ _ _ (spelled_mask text) _ _
    call.code (by simpa using call.starts)
  refine ⟨before, ?_⟩
  rw [qualify_eq_walk hn, qualifiedFrom]
  simpa [call.code] using walked

/-- A free call becomes a call of what is written for its callee. -/
theorem FreeCall.qualifiedFrom_eq {text name front rest : Text}
    (call : FreeCall text name front rest)
    (hw : isWord name) (hn : ∀ entry ∈ references state props, isWord entry.1) :
    qualifiedFrom state props text front.length =
      calleeOf state props name ++ qualifiedFrom state props text (front.length + name.length) := by
  have take_front : (mask text).take front.length = front := by rw [call.code, List.take_left]
  have drop_front : (mask text).drop front.length = name ++ rest := by
    rw [call.code, List.drop_left]
  have shown := List.forall₂_drop front.length (mask_shows text)
  rw [drop_front] at shown
  obtain ⟨rest', body, shown⟩ := eq_append_of_shows shown (isNameChar_of_isWord hw)
  have take_name : ((mask text).take (front.length + name.length)).reverse =
      name.reverse ++ front.reverse := by
    rw [call.code, ← List.append_assoc, ← List.length_append, List.take_left, List.reverse_append]
  rw [qualifiedFrom, qualifiedFrom, take_name, ← List.drop_drop, ← List.drop_drop, take_front,
    drop_front, body, List.drop_left, List.drop_left, ← call.qualified_eq]
  exact walk_word hn hw (startsFree_of_pastWord call.starts) call.ends (sameDot_of_shows shown)
    front.length

end

/-! ## Accessors -/

/-- The callee is the accessor of its name just if the name is that of a state variable, or looks
like that of a setter and is not that of a prop. -/
theorem calleeOf_eq_accessor_iff {state : List Text} {props : List (Text × Text)} {name : Text}
    (hw : isWord name) :
    calleeOf state props name = "this.".toList ++ name ↔
      name ∈ state ∨ props.lookup name = none ∧ isSetterName name ∧ name ∉ globalSetters := by
  have setter : (isSetterName name && !globalSetters.contains name) = true ↔ isSetterName name ∧
      name ∉ globalSetters := by
    rw [Bool.and_eq_true, Bool.not_eq_true', ← Bool.not_eq_true, List.contains_iff_mem]
  rw [calleeOf]
  by_cases known : name ∈ state
  · rw [if_pos (List.contains_iff_mem.2 known)]
    exact iff_of_true rfl (.inl known)
  rw [if_neg (mt List.contains_iff_mem.1 known), or_iff_right known]
  cases props.lookup name with
  | some key =>
    -- the access of a prop has a dot behind `this.`, and a name has none
    refine iff_of_false (fun same => ?_) fun h => by cases h.1
    have same : "props.".toList ++ key = name := @List.append_cancel_left _ "this.".toList _ _ same
    have dot : '.' ∈ name := same ▸ List.mem_append_left key (by decide)
    exact absurd (isNameChar_of_isWord hw '.' dot) (by decide)
  | none =>
    rw [and_iff_right rfl, ← setter]
    dsimp only
    split
    · rename_i looks
      exact iff_of_true rfl looks
    · rename_i looks
      refine iff_of_false (fun same => ?_) looks
      exact absurd (List.append_left_eq_self.1 same.symm) (by decide)

/-- The class of a block has an accessor for every state variable. In the code that goes into
`initializeUI`, each free call of the setter becomes a call of one and the same callee. This is the
accessor just if the setter's name looks like that of a setter, or is that of a state variable. -/
theorem setterCall_qualified_iff {options : Options} {definition : Definition} {text : Text}
    (block : definition.concise = false)
    (h : (convertFunctional options definition).result = .ok text) :
    ∃ preamble value, definition.MethodCode options preamble value ∧
      text = (definition.classParts options preamble value).render ∧
      ∀ state ∈ definition.states,
        stateAccessor options.stateStyle state ∈
          (definition.classParts options preamble value).accessors ∧
        (∀ code ∈ [preamble, value], ∀ front rest, FreeCall code state.setter front rest →
          (∃ before, definition.qualified code =
            before ++ definition.qualifiedFrom code front.length) ∧
          definition.qualifiedFrom code front.length =
            definition.callee state.setter ++
              definition.qualifiedFrom code (front.length + state.setter.length)) ∧
        (definition.callee state.setter = "this.".toList ++ state.setter ↔
          state.setter ∈ definition.states.map (·.name) ∨
            (propAliases definition.params).lookup state.setter = none ∧ isSetterName state.setter ∧
              state.setter ∉ globalSetters) := by
  obtain ⟨preamble, value, code, written⟩ := (convertFunctional_eq_ok block).1 h
  refine ⟨preamble, value, code, written, fun state hs => ⟨List.mem_map_of_mem hs, ?_, ?_⟩⟩
  · intro code _ front rest call
    exact ⟨call.exists_append_qualifiedFrom Definition.isWord_of_mem_references,
      call.qualifiedFrom_eq (isWord_of_mem_states hs).2 Definition.isWord_of_mem_references⟩
  · exact calleeOf_eq_accessor_iff (isWord_of_mem_states hs).2

/-- A component whose setter does not look like one. -/
def toggleCall : Definition where
  name := "App".toList
  exported := []
  params := []
  variableType? := none
  body := "\n  const [open, toggle] = useState(false);\n  return toggle(true);\n".toList
  concise := false
  start := 0
  stop := 83

theorem extractHooks_toggleCall : (extractHooks Options.standard toggleCall.code).result = .ok
    ⟨["private open: Binding<boolean> = new Binding(false);".toList],
      ["private toggle = (newValue: boolean) => \x7b\n  this.open.set(newValue);\n\x7d;".toList],
      "\n  return toggle(true);\n".toList,
      [⟨"open".toList, "toggle".toList, "boolean".toList, "false".toList⟩], [], []⟩ := by
  have code : toggleCall.code = toggleCall.body := rfl
  rw [code, toggleCall]
  -- a long literal is evaluated much faster as a list of its characters
  repeat rw [String.toList_ofList]
  decide +kernel

theorem states_toggleCall :
    toggleCall.states = [⟨"open".toList, "toggle".toList, "boolean".toList, "false".toList⟩] :=
  Definition.states_of_extracted extractHooks_toggleCall

theorem convertFunctional_toggleCall :
    (convertFunctional Options.standard toggleCall).result =
      .ok (toggleCall.classParts Options.standard [] "toggle(true)".toList).render := by
  have split : splitReturn "\n  return toggle(true);\n".toList =
      .ok ("\n  ".toList, some "toggle(true)".toList) := rfl
  have empty : codeBlock "\n  ".toList = [] := by decide
  have code := Definition.methodCode_of_unmarked extractHooks_toggleCall
    split (by rw [empty]; decide) (by decide)
  rw [empty] at code
  exact (convertFunctional_eq_ok rfl).2 ⟨[], "toggle(true)".toList, code, rfl⟩

/-- A setter that does not look like one is called under a name that is not that of its accessor. -/
theorem callee_toggleCall :
    (convertFunctional Options.standard toggleCall).result =
        .ok (toggleCall.classParts Options.standard [] "toggle(true)".toList).render ∧
      toggleCall.callee "toggle".toList ≠ "this.toggle".toList := by
  refine ⟨convertFunctional_toggleCall, fun same => ?_⟩
  obtain ⟨_, _, -, -, calls⟩ := setterCall_qualified_iff rfl convertFunctional_toggleCall
  rw [states_toggleCall] at calls
  obtain ⟨-, -, iff⟩ := calls _ List.mem_cons_self
  exact absurd (iff.1 same) (by decide)

/-- The class has the accessor `toggle`, and the free call of it in the returned value is left as it
is. -/
theorem value_toggleCall :
    (convertFunctional Options.standard toggleCall).result =
        .ok (toggleCall.classParts Options.standard [] "toggle(true)".toList).render ∧
      FreeCall "toggle(true)".toList "toggle".toList [] "(true)".toList ∧
      (toggleCall.classParts Options.standard [] "toggle(true)".toList).accessors =
        ["private toggle = (newValue: boolean) => \x7b\n  this.open.set(newValue);\n\x7d;".toList] ∧
      (toggleCall.classParts Options.standard [] "toggle(true)".toList).value =
        "toggle(true)".toList := by
  refine ⟨convertFunctional_toggleCall,
    ⟨by decide +kernel, ?_, ?_, by decide, by decide, by decide, by decide +kernel⟩,
    ?_, ?_⟩
  · rintro c ⟨⟩
  · rintro c ⟨⟩
    decide
  · rw [Definition.classParts, states_toggleCall]
    repeat rw [String.toList_ofList]
    decide +kernel
  · rw [Definition.classParts, Definition.qualified,
      qualify_eq_walk Definition.isWord_of_mem_references, states_toggleCall]
    decide +kernel

end Recast
