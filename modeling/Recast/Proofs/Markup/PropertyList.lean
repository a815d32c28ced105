import Recast.Proofs.Markup.AttributeList
import Recast.Proofs.Markup.BracedValue

/-!
# Property lists inside their call

A property list stands in the braces of a call. `closesList` says that these braces end where the
list does: nothing in the list swallows or closes what follows it.

Strings are quoted anew, and names have no marks of code in them, so they always stay inside. What
is copied as it is written does so under conditions (`Attribute.StaysInside`): a class must not end
the comment around it, and code and the keys of a style must be contained (`IsContained`).
`property_list_closes` is about every text, and `property_list_leaks` has texts with closed braces
and ended quotes whose lists leak.
-/

namespace Recast

/-- Whether braces around the property list of an attribute text end behind it. -/
def closesList (t : Text) : Bool :=
  match (recastAttributes t).result with
  | .ok list => bracketEndAt? ("\x7b ".toList ++ list ++ " \x7d".toList) 0 == some (list.length + 4)
  | .error _ => false

/-- The keys of the style object that declarations become. -/
def styleKeys (css : Text) : List Text :=
  (splitOn ';' css).filterMap fun declaration =>
    (cutAt? ':' declaration).bind fun parts => if isBlankText parts.1 then none
      else some (camelCase parts.1)

/-- The code of an attribute is contained; strings and bare attributes have none. -/
def Attribute.CodeContained : Attribute → Prop
  | .string _ _ => True
  | .boolean _ => True
  | .expression _ value => IsContained value
  | .spread value => IsContained value

/-- The style of an attribute is contained: the keys of its declarations, or its code. -/
def Attribute.StyleContained : Attribute → Prop
  | .string _ css => ∀ key ∈ styleKeys css, IsContained key
  | given => given.CodeContained

/-- What is copied from an attribute into a property list stays inside it. -/
def Attribute.StaysInside (given : Attribute) : Prop :=
  match given.name? with
  | none => IsContained ("...".toList ++ given.value)
  | some name =>
    match attributeRule? name with
    | some .placeholder => endsComment given.value = false
    | some .drop => True
    | some .style => given.StyleContained
    | _ => given.CodeContained

/-! ## Names -/

theorem name?_valuedAttribute (name : Text) (pos : Nat) (t : Text) :
    (valuedAttribute name pos t).1.name? = some name := by
  cases t with
  | nil => rfl
  | cons c cs =>
    rw [valuedAttribute]
    split
    · rfl
    · split
      · split <;> rfl
      · rfl

theorem name?_namedAttribute (name : Text) (pos : Nat) (t : Text) :
    (namedAttribute name pos t).1.name? = some name := by
  rw [namedAttribute]
  split
  · exact name?_valuedAttribute _ _ _
  · rfl

/-- A spread has no name. -/
theorem name?_of_mem_spreadIn {inner : Text} {given : Attribute} (h : given ∈ spreadIn inner) :
    given.name? = none := by
  rw [spreadIn] at h
  split at h
  · rw [List.mem_singleton.1 h]
    rfl
  · simp at h

/-- The attributes that are read have tag names. -/
theorem isTagNameChar_of_mem_attributesFrom :
    ∀ {t : Text} {pos resume : Nat} {given : Attribute} {name : Text},
    given ∈ attributesFrom pos resume t → given.name? = some name → ∀ c ∈ name, isTagNameChar c
  | [], _, _, _, _, h, _ => by simp [attributesFrom] at h
  | c :: cs, pos, resume, given, name, h, named => by
    rw [attributesFrom] at h
    split at h
    · exact isTagNameChar_of_mem_attributesFrom h named
    split at h
    · split at h
      · rcases List.mem_append.1 h with h | h
        · rw [name?_of_mem_spreadIn h] at named
          cases named
        · exact isTagNameChar_of_mem_attributesFrom h named
      · simp at h
    split at h
    · rcases List.mem_cons.1 h with rfl | h
      · have same := (name?_namedAttribute _ _ _).symm.trans named
        rw [← Option.some.inj same]
        exact fun d hd => isTagNameChar_of_mem_tagName hd
      · exact isTagNameChar_of_mem_attributesFrom h named
    · exact isTagNameChar_of_mem_attributesFrom h named

theorem clears_name {name : Text} (h : ∀ c ∈ name, isTagNameChar c) : Clears name :=
  clears_plain fun c hc =>
    ⟨isPlainCode_of_isTagNameChar (h c hc), ne_of_isTagNameChar (h c hc) (by decide),
    ne_of_isTagNameChar (h c hc) (by decide)⟩

theorem clears_target {name : Text} {rule : AttributeRule} (h : attributeRule? name = some rule) :
    Clears rule.target := by
  have all : ∀ entry ∈ attributeRules, ∀ c ∈ entry.2.target, isPlainCode c ∧ c ≠ '{' ∧ c ≠ '}' := by
    decide
  exact clears_plain (all _ (mem_attributeRules h))

/-! ## Values -/

/-- Text in braces with a space on each side. -/
theorem spaced_eq (t : Text) :
    "\x7b ".toList ++ t ++ " \x7d".toList = '{' :: (' ' :: (t ++ [' ']) ++ ['}']) := by
  simp

/-- A key and its value. -/
theorem ClearsValue.keyed {key value : Text} (hk : ClearsValue key) (hv : ClearsValue value) :
    ClearsValue (key ++ ": ".toList ++ value) := by
  rw [List.append_assoc]
  exact hk.append (clears_plain (by decide)) (fun _ => rfl) (fun _ => rfl) hv

theorem clearsValue_styleObject {css : Text} (h : ∀ key ∈ styleKeys css, IsContained key) :
    ClearsValue (styleObject css) := by
  have entries : ∀ entry ∈ (splitOn ';' css).filterMap styleProperty?, ClearsValue entry := by
    intro entry hm
    obtain ⟨declaration, hd, made⟩ := List.mem_filterMap.1 hm
    rw [styleProperty?] at made
    split at made
    · rename_i property value cut
      obtain ⟨filled, same⟩ := Option.ite_none_left_eq_some.1 made
      obtain rfl := Option.some.inj same
      have key : camelCase property ∈ styleKeys css :=
        List.mem_filterMap.2 ⟨declaration, hd, by rw [cut, Option.bind_some, if_neg filled]⟩
      exact (h _ key).clears.keyed (clears_quote _).value
    · simp at made
  have empty : ClearsInside [] := fun _ _ _ _ => rfl
  rw [styleObject]
  split
  · exact empty.clears.value
  · rw [spaced_eq]
    exact (clearsValue_joinComma entries).inside.clears.value

theorem Attribute.CodeContained.clearsValue {given : Attribute} (h : given.CodeContained) :
    ClearsValue given.code := by
  cases given with
  | string _ value => exact (clears_quote value).value
  | boolean _ =>
    have word : Clears "true".toList := clears_plain (by decide)
    exact word.value
  | expression _ value => exact IsContained.clears h
  | spread value => exact IsContained.clears h

theorem Attribute.StyleContained.clearsValue {given : Attribute} (h : given.StyleContained) :
    ClearsValue (styleValue given) := by
  cases given with
  | string _ css => exact clearsValue_styleObject h
  | boolean name => exact (show (boolean name).CodeContained from h).clearsValue
  | expression name value => exact (show (expression name value).CodeContained from h).clearsValue
  | spread value => exact (show (spread value).CodeContained from h).clearsValue

/-- The property of an attribute stays inside. -/
theorem Attribute.StaysInside.clearsValue {given : Attribute} {property : Property}
    (names : ∀ name, given.name? = some name → ∀ c ∈ name, isTagNameChar c) (h : given.StaysInside)
    (made : given.property? = some property) : ClearsValue property.text := by
  rw [property?] at made
  rw [StaysInside] at h
  cases named : given.name? with
  | none =>
    rw [named] at made h
    obtain rfl := Option.some.inj made
    exact IsContained.clears h
  | some name =>
    have key : Clears name := clears_name (names name named)
    rw [named] at made h
    dsimp only at made h
    rw [namedProperty?] at made
    cases rule : attributeRule? name with
    | none =>
      rw [rule] at made h
      obtain rfl := Option.some.inj made
      exact key.value.keyed (CodeContained.clearsValue h)
    | some found =>
      have target := (clears_target rule).value
      rw [rule] at made h
      cases found with
      | placeholder =>
        obtain rfl := Option.some.inj made
        obtain ⟨note, quiet, same⟩ := classPlaceholder_eq h
        rw [same]
        exact (clears_comment quiet).value
      | style =>
        obtain rfl := Option.some.inj made
        have style : Clears "style".toList := clears_plain (by decide)
        exact style.value.keyed (StyleContained.clearsValue h)
      | press =>
        obtain rfl := Option.some.inj made
        have press : Clears "onPress".toList := clears_plain (by decide)
        exact press.value.keyed (CodeContained.clearsValue h)
      | rename target' =>
        obtain rfl := Option.some.inj made
        exact target.keyed (CodeContained.clearsValue h)
      | drop => cases made

/-! ## Lists -/

/-- The property list of every text whose attributes stay inside ends with the braces around it. -/
theorem property_list_closes (t : Text) (h : ∀ given ∈ readAttributes t, given.StaysInside) :
    closesList t := by
  have values : ∀ value ∈ (sortedProperties (readAttributes t)).map Property.text,
      ClearsValue value := by
    intro value hm
    obtain ⟨property, hp, rfl⟩ := List.mem_map.1 hm
    obtain ⟨given, hg, made⟩ := List.mem_filterMap.1 (List.mem_mergeSort.1 hp)
    exact (h given hg).clearsValue (fun name => isTagNameChar_of_mem_attributesFrom hg) made
  have closes := (clearsValue_joinComma values).inside.bracketEndAt?_eq
  rw [closesList, (recastAttributes_eq t).1]
  dsimp only
  rw [spaced_eq, closes]
  simp

/-- Attributes of all kinds. -/
def cardAttributes : Text :=
  "className=\"card\" style=\"color: red\" onClick=\x7b() => \x7b go(); /* \x7d */ \x7d\x7d".toList
    ++ " icon=\x7b<b />\x7d \x7b...rest\x7d open".toList

theorem staysInside_card : ∀ given ∈ readAttributes cardAttributes, given.StaysInside := by
  have read : readAttributes cardAttributes =
      [.string "className".toList "card".toList, .string "style".toList "color: red".toList,
        .expression "onClick".toList "() => \x7b go(); /* \x7d */ \x7d".toList,
        .expression "icon".toList "<b />".toList, .spread "rest".toList,
        .boolean "open".toList] := by decide +kernel
  have note : endsComment "card".toList = false := by decide
  have keys : styleKeys "color: red".toList = ["color".toList] := by decide +kernel
  have color : IsContained "color".toList := isContained_of_not_mem (by decide) (by decide +kernel)
  have press : IsContained "() => \x7b go(); /* \x7d */ \x7d".toList :=
    isContained_of_not_mem (by decide) (by decide +kernel)
  have whole : IsWhole "<b />".toList := fun rest => rfl
  have spread : IsContained "...rest".toList :=
    isContained_of_not_mem (by decide) (by decide +kernel)
  have style : ∀ key ∈ styleKeys "color: red".toList, IsContained key := by
    rw [keys]
    exact List.forall_mem_singleton.2 color
  rw [read]
  simp only [List.forall_mem_cons]
  exact ⟨note, style, press, whole.isContained (by decide), spread, trivial, by simp⟩

/-- Attributes of all kinds stay inside their braces. -/
theorem property_list_closes_card :
    (∀ given ∈ readAttributes cardAttributes, given.StaysInside) ∧ closesList cardAttributes :=
  ⟨staysInside_card, property_list_closes cardAttributes staysInside_card⟩

/-- A class with the end of a comment in it, code that ends in a line comment, a style whose key is
a brace, and an open tag that comes to stand before a string with its closing tag: their property
lists leak. -/
theorem property_list_leaks :
    closesList "className=\"a */ b\"".toList = false ∧
      closesList "onClick=\x7bgo // later\n\x7d".toList = false ∧
      closesList "style=\"\x7d: x\"".toList = false ∧
      closesList "title=\"</b>\" style=\x7b<b>\x7d".toList = false := by
  decide +kernel

end Recast
