import Recast.Proofs.Markup.TreeRecast
import Recast.Proofs.Text.StableSort

/-!
# Attribute lists

The attributes of a tag are read in the order they are written in, and become properties in the
order of their slots. `recastAttributes_eq` says so of every text: the properties are a stable sort
of what the attributes are worth one by one, and the warnings stay where the attributes are.

`ListedAttribute` is an attribute that can be written in a tag: a quoted value, code in braces, a
bare name or a spread. A list of them that is printed is read back as it is
(`readAttributes_printListed`).
-/

namespace Recast

/-! ## Properties in the order of their slots -/

/-- The place of a slot in a property list. -/
def Slot.rank : Slot → Nat
  | .placeholder => 0
  | .style => 1
  | .press => 2
  | .rest => 3

/-- Whether a property may stand before another one. -/
def Property.mayPrecede (p q : Property) : Bool :=
  p.slot.rank ≤ q.slot.rank

theorem Slot.rank_inj {slot slot' : Slot} : slot.rank = slot'.rank ↔ slot = slot' := by
  cases slot <;> cases slot' <;> decide

theorem Slot.rank_lt (slot : Slot) : slot.rank < 4 := by
  cases slot <;> decide

/-- The properties of one slot have all or none of its rank. -/
theorem filter_slot_rank (properties : List Property) (slot : Slot) (k : Nat) :
    (properties.filter (·.slot = slot)).filter (·.slot.rank = k) =
      if slot.rank = k then properties.filter (·.slot.rank = k) else [] := by
  split
  · rename_i same
    rw [List.filter_filter]
    refine List.filter_congr fun p _ => ?_
    simp [← same, Slot.rank_inj]
  · rename_i other
    refine List.filter_eq_nil_iff.2 fun p hp => ?_
    rwa [of_decide_eq_true (List.mem_filter.1 hp).2, decide_eq_true_eq]

/-- A property list is sorted by slots, and stable. -/
theorem propertyList_eq (properties : List Property) :
    propertyList properties =
      joinComma ((properties.mergeSort Property.mayPrecede).map Property.text) := by
  have level : ∀ (slot : Slot), ∀ p ∈ properties.filter (·.slot = slot),
      p.slot.rank = slot.rank := by
    intro slot p hp
    rw [of_decide_eq_true (List.mem_filter.1 hp).2]
  have ordered : ∀ {slot slot' : Slot}, slot.rank ≤ slot'.rank →
      ∀ p ∈ properties.filter (·.slot = slot),
      ∀ q ∈ properties.filter (·.slot = slot'), p.slot.rank ≤ q.slot.rank := by
    intro slot slot' le p hp q hq
    rwa [level slot p hp, level slot' q hq]
  have block := fun slot : Slot =>
    List.pairwise_of_forall_mem_list (ordered (Nat.le_refl slot.rank))
  have sorted : properties.mergeSort Property.mayPrecede =
      properties.filter (·.slot = .placeholder) ++ (properties.filter (·.slot = .style)
        ++ (properties.filter (·.slot = .press) ++ properties.filter (·.slot = .rest))) := by
    refine @mergeSort_eq_of_filter _ (fun p : Property => p.slot.rank) _ _ ?_ fun k => ?_
    · simp only [List.pairwise_append, List.mem_append, or_imp, forall_and]
      exact ⟨block _, ⟨block _, ⟨block _, block _, ordered (by decide)⟩, ordered (by decide),
        ordered (by decide)⟩,
        ordered (by decide), ordered (by decide), ordered (by decide)⟩
    · have ranks : Slot.placeholder.rank = 0 ∧ Slot.style.rank = 1 ∧ Slot.press.rank = 2 ∧
          Slot.rest.rank = 3 := by decide
      simp only [List.filter_append, filter_slot_rank, ranks]
      match k with
      | 0 | 1 | 2 | 3 => simp
      | k + 4 =>
        have none : properties.filter (·.slot.rank = k + 4) = [] := by
          refine List.filter_eq_nil_iff.2 fun p _ => ?_
          have := p.slot.rank_lt
          rw [decide_eq_true_eq]
          omega
        simp [none]
  rw [sorted]
  simp only [propertyList, inSlot, List.map_append, List.append_assoc]

/-! ## What attributes are worth -/

/-- The property of an attribute with a name. -/
def namedProperty? (name : Text) (given : Attribute) : Option Property :=
  match attributeRule? name with
  | none => some ⟨.rest, name ++ ": ".toList ++ given.code⟩
  | some .placeholder => some ⟨.placeholder, classPlaceholder given.value⟩
  | some .style => some ⟨.style, "style: ".toList ++ styleValue given⟩
  | some .press => some ⟨.press, "onPress: ".toList ++ given.code⟩
  | some (.rename target) => some ⟨.rest, target ++ ": ".toList ++ given.code⟩
  | some .drop => none

/-- The warning of an attribute with a name: a class and a key have one. -/
def namedWarning? (name : Text) (given : Attribute) : Option Warning :=
  if name = "className".toList ∨ name = "class".toList then some (.classAttribute given.value)
  else if name = "key".toList then some (.keyAttribute given.value)
  else none

/-- The name of an attribute; a spread has none. -/
def Attribute.name? : Attribute → Option Text
  | .string name _ => some name
  | .expression name _ => some name
  | .boolean name => some name
  | .spread _ => none

/-- The property that an attribute is worth. -/
def Attribute.property? (given : Attribute) : Option Property :=
  match given.name? with
  | some name => namedProperty? name given
  | none => some ⟨.rest, "...".toList ++ given.value⟩

/-- The warning that an attribute is worth. -/
def Attribute.warning? (given : Attribute) : Option Warning :=
  given.name?.bind fun name => namedWarning? name given

/-- The properties of attributes in the order of a property list. -/
def sortedProperties (attributes : List Attribute) : List Property :=
  (attributes.filterMap Attribute.property?).mergeSort Property.mayPrecede

theorem mem_attributeRules {name : Text} {rule : AttributeRule}
    (h : attributeRule? name = some rule) : (name, rule) ∈ attributeRules := by
  obtain ⟨before, after, he, -⟩ := List.lookup_eq_some_iff.1 h
  rw [he]
  simp

/-- The rules for a class leave a placeholder, and only the one for a key leaves nothing. -/
theorem attributeRules_warned : ∀ entry ∈ attributeRules,
    ((entry.1 = "className".toList ∨ entry.1 = "class".toList) ↔ entry.2 = .placeholder) ∧
      (entry.1 = "key".toList ↔ entry.2 = .drop) := by
  decide

theorem namedWarning?_eq (name : Text) (given : Attribute) :
    namedWarning? name given =
      match attributeRule? name with
      | some .placeholder => some (.classAttribute given.value)
      | some .drop => some (.keyAttribute given.value)
      | _ => none := by
  cases h : attributeRule? name with
  | none =>
    have other := List.lookup_eq_none_iff.1 h
    simp only [attributeRules, List.mem_cons, List.not_mem_nil, or_false, forall_eq_or_imp,
      forall_eq, bne_iff_ne] at other
    rw [namedWarning?, if_neg (by tauto), if_neg (by tauto)]
  | some rule =>
    obtain ⟨placeholder, drop⟩ := attributeRules_warned _ (mem_attributeRules h)
    simp only [namedWarning?, placeholder, drop]
    cases rule <;> rfl

theorem recastNamed_eq (name : Text) (given : Attribute) :
    (recastNamed name given).result = .ok (namedProperty? name given).toList ∧
      (recastNamed name given).journal.warnings = (namedWarning? name given).toList := by
  rw [recastNamed, namedProperty?, namedWarning?_eq]
  rcases attributeRule? name with _ | _ | _ | _ | _ | _ <;> exact ⟨rfl, rfl⟩

theorem recastAttribute_eq (given : Attribute) :
    (recastAttribute given).result = .ok given.property?.toList ∧
      (recastAttribute given).journal.warnings = given.warning?.toList := by
  cases given with
  | string name value => exact recastNamed_eq name (.string name value)
  | expression name value => exact recastNamed_eq name (.expression name value)
  | boolean name => exact recastNamed_eq name (.boolean name)
  | spread value => exact ⟨rfl, rfl⟩

theorem flatMap_toList {α β : Type} (f : α → Option β) (as : List α) :
    (as.flatMap fun a => (f a).toList) = as.filterMap f := by
  induction as with
  | nil => rfl
  | cons a as ih => cases h : f a <;> simp [h, ih]

/-- Attributes become their properties in the order of the slots, and their warnings stay in the
order of the attributes. -/
theorem recastAttributes_eq (t : Text) :
    (recastAttributes t).result =
      .ok (joinComma ((sortedProperties (readAttributes t)).map Property.text)) ∧
      (recastAttributes t).journal.warnings = (readAttributes t).filterMap Attribute.warning? := by
  have collected := Outcome.collect_map_of_ok (fun given => (recastAttribute_eq given).1)
    (readAttributes t)
  rw [recastAttributes, collected]
  constructor
  · change Except.ok (propertyList _) = _
    rw [propertyList_eq, ← List.flatMap_def, flatMap_toList]
    rfl
  · change Journal.warnings (_ ++ []) = _
    rw [List.append_nil, ← flatMap_toList, Journal.warnings, List.filterMap_flatMap]
    exact List.flatMap_congr fun given _ => (recastAttribute_eq given).2

/-! ## Printed lists -/

/-- A value in quotes of either kind, without its quote and without backslashes. -/
structure StringValue where
  mark : Char
  isMark : mark = '"' ∨ mark = '\''
  text : Text
  valid : ∀ c ∈ text, c ≠ mark ∧ c ≠ '\\'

/-- Code of a brace expression without blanks around it. -/
structure TrimmedCode extends BraceCode where
  trimmed : trim text = text

/-- An attribute that can be written in a tag. -/
inductive ListedAttribute where
  | string (name : TagName) (value : StringValue)
  | expression (name : TagName) (code : TrimmedCode)
  | boolean (name : TagName)
  | spread (code : TrimmedCode)

/-- The code of a spread with its dots. -/
def TrimmedCode.dotted (code : TrimmedCode) : BraceCode where
  text := "...".toList ++ code.text
  plain c hc := by
    rcases List.mem_append.1 hc with hc | hc
    · exact (by decide : ∀ c ∈ "...".toList, isPlainCode c) c hc
    · exact code.plain c hc
  closed := code.closed

/-- The value in its quotes. -/
def StringValue.print (value : StringValue) : Text :=
  value.mark :: value.text ++ [value.mark]

/-- The attribute with a space before it. -/
def ListedAttribute.print : ListedAttribute → Text
  | .string name value => ' ' :: name.text ++ '=' :: value.print
  | .expression name code => ' ' :: name.text ++ '=' :: code.print
  | .boolean name => ' ' :: name.text
  | .spread code => ' ' :: code.dotted.print

/-- The attribute that is read off its printed form. -/
def ListedAttribute.attribute : ListedAttribute → Attribute
  | .string name value => .string name.text value.text
  | .expression name code => .expression name.text code.text
  | .boolean name => .boolean name.text
  | .spread code => .spread code.text

/-- The attributes one after another. -/
def printListed (attributes : List ListedAttribute) : Text :=
  attributes.flatMap ListedAttribute.print

/-- Blanks before an attribute do not matter. -/
theorem attributesFrom_blanks (rest : Text) :
    ∀ (blanks : Text) (pos : Nat), isBlankText blanks →
      attributesFrom pos 0 (blanks ++ rest) = attributesFrom (pos + blanks.length) 0 rest
  | [], _, _ => rfl
  | c :: cs, pos, h => by
    obtain ⟨hc, hcs⟩ : isBlank c ∧ isBlankText cs := by simpa [isBlankText] using h
    have brace : c ≠ '{' := by
      rintro rfl
      exact absurd hc (by decide)
    have start : ¬ isNameStart c := fun hs => by
      have := not_isNameChar_of_isBlank hc
      simp [isNameChar_of_isNameStart hs] at this
    have ih := attributesFrom_blanks rest cs (pos + 1) hcs
    rw [List.cons_append, attributesFrom, if_neg (Nat.not_lt_zero _), if_neg brace, if_neg start,
      ih, List.length_cons]
    congr 1
    omega

theorem valuedAttribute_string (name : Text) (value : StringValue) (rest : Text) (pos : Nat) :
    valuedAttribute name pos (value.print ++ rest) =
      (.string name value.text, pos + value.print.length) := by
  have quoted : (decide (value.mark = '"') || decide (value.mark = '\'')) = true := by
    simpa using value.isMark
  have template : value.mark ≠ '`' := by rcases value.isMark with h | h <;> simp [h]
  have escape : value.mark ≠ '\\' := by rcases value.isMark with h | h <;> simp [h]
  have stop :=
    literalEnd_plain template escape rest value.text (pos + 1) (fun h => (value.valid _ h).1 rfl)
    (fun h => (value.valid _ h).2 rfl)
  simp only [StringValue.print, List.cons_append, List.append_assoc, List.nil_append]
  rw [valuedAttribute, if_pos quoted, stop]
  simp only [Nat.add_sub_cancel, Nat.add_sub_cancel_left, List.take_left, List.length_cons,
    List.length_append, List.length_nil, Prod.mk.injEq, true_and]
  omega

/-- A name without an equals sign behind it is a boolean attribute. -/
theorem attributesFrom_boolean (name : TagName) {rest : Text}
    (first : ∀ c, rest.head? = some c → isTagNameChar c = false)
    (equals : (trimStart rest).head? ≠ some '=') (pos : Nat) :
    attributesFrom pos 0 (name.text ++ rest) =
      .boolean name.text :: attributesFrom (pos + name.text.length) 0 rest := by
  obtain ⟨blanks, hb, hrest⟩ := exists_append_trimStart rest
  have given : namedAttribute name.text (pos + name.text.length) (blanks ++ trimStart rest) =
      (.boolean name.text, pos + name.text.length + blanks.length) := by
    have hlen : rest.length = blanks.length + (trimStart rest).length := by
      rw [← List.length_append, ← hrest]
    rw [← hrest, namedAttribute]
    split
    · rename_i value h
      exact absurd (by rw [h]; rfl) equals
    · rw [hlen, ← Nat.add_assoc, Nat.add_sub_cancel]
  rw [hrest] at first
  conv_lhs => rw [hrest, attributesFrom_name name first given]
  conv_rhs => rw [hrest, attributesFrom_blanks _ _ _ hb]

theorem TrimmedCode.spreadIn_dotted (code : TrimmedCode) :
    spreadIn code.dotted.text = [.spread code.text] := by
  have last : trimEnd code.text = code.text := by
    have h := code.trimmed
    rw [trim] at h
    rw [← h, trimEnd_trimEnd]
  have trimmed : trim code.dotted.text = "...".toList ++ code.text := by
    rw [trim, dotted, trimStart_eq_self (by rintro c ⟨⟩; decide),
      trimEnd_append (by rintro c ⟨⟩; decide), last]
  rw [spreadIn, trimmed, dropHead?_append]
  simp only [code.trimmed]

theorem attributesFrom_spread (code : TrimmedCode) (rest : Text) (pos : Nat) :
    attributesFrom pos 0 (code.dotted.print ++ rest) =
      .spread code.text :: attributesFrom (pos + code.dotted.print.length) 0 rest := by
  have stop := bracketEnd_braceCode code.dotted ['{'] rest (pos + 1)
  have skip := attributesFrom_skip rest (code.dotted.text ++ ['}']) (pos + 1)
  simp only [BraceCode.print, List.cons_append, List.append_assoc, List.nil_append] at skip ⊢
  rw [attributesFrom, if_neg (Nat.not_lt_zero _), if_pos rfl, stop]
  simp only [Nat.add_sub_cancel, Nat.add_sub_cancel_left, List.take_left, code.spreadIn_dotted,
    List.singleton_append]
  simp only [List.length_append, List.length_cons, List.length_nil] at skip ⊢
  rw [Nat.add_assoc (pos + 1), skip]
  congr 2
  omega

/-- A printed attribute starts with a space, and behind it with its name or its brace. -/
theorem ListedAttribute.print_eq (given : ListedAttribute) :
    ∃ c cs, given.print = ' ' :: c :: cs ∧ (isNameStart c ∨ c = '{') := by
  have named : ∀ (name : TagName) (rest : Text), ∃ c cs,
      ' ' :: (name.text ++ rest) = ' ' :: c :: cs ∧
      (isNameStart c ∨ c = '{') := by
    intro name rest
    obtain ⟨c, cs, hname, hc⟩ := name.eq_cons
    exact ⟨c, cs ++ rest, by rw [hname, List.cons_append], .inl hc⟩
  cases given with
  | string name value => exact named name _
  | expression name code => exact named name _
  | boolean name => simpa [ListedAttribute.print] using named name []
  | spread code => exact ⟨'{', _, rfl, .inr rfl⟩

/-- What follows an attribute in a list neither goes on with its name nor gives it a value. -/
theorem printListed_starts (attributes : List ListedAttribute) :
    (∀ c, (printListed attributes).head? = some c → isTagNameChar c = false) ∧
      (trimStart (printListed attributes)).head? ≠ some '=' := by
  cases attributes with
  | nil => simp [printListed, trimStart]
  | cons given attributes =>
    obtain ⟨c, cs, hprint, hc⟩ := given.print_eq
    have blank : isBlank c = false := by
      rcases hc with hc | rfl
      · exact not_isBlank_of_isTagNameChar (isTagNameChar_of_isNameStart hc)
      · decide
    rw [printListed, List.flatMap_cons, hprint]
    constructor
    · rintro _ ⟨⟩
      decide
    · rw [List.cons_append, List.cons_append, trimStart, List.dropWhile_cons_of_pos (by decide),
        List.dropWhile_cons_of_neg (by simp [blank])]
      rintro ⟨⟩
      rcases hc with hc | hc
      · exact absurd hc (by decide)
      · exact absurd hc (by decide)

/-- A printed attribute is read back, with the list behind it. -/
theorem attributesFrom_listed (given : ListedAttribute) {rest : Text}
    (first : ∀ c, rest.head? = some c → isTagNameChar c = false)
    (equals : (trimStart rest).head? ≠ some '=') (pos : Nat) :
    attributesFrom pos 0 (given.print ++ rest) =
      given.attribute :: attributesFrom (pos + given.print.length) 0 rest := by
  have space : ∀ t : Text, attributesFrom pos 0 (' ' :: t) = attributesFrom (pos + 1) 0 t :=
    fun t => attributesFrom_blanks t [' '] pos (by decide)
  cases given with
  | string name value =>
    refine attributesFrom_valued name ?_ (valuedAttribute_string name.text value rest) pos
    rintro _ ⟨⟩
    rcases value.isMark with h | h <;> rw [h] <;> decide
  | expression name code =>
    have read := attributesFrom_print ⟨name, .braced code.toBraceCode⟩ rest pos
    simp only [WrittenAttribute.attribute, code.trimmed] at read
    exact read
  | boolean name =>
    rw [ListedAttribute.print, List.cons_append, space, attributesFrom_boolean name first equals,
      List.length_cons, Nat.add_assoc pos, Nat.add_comm 1]
    rfl
  | spread code =>
    rw [ListedAttribute.print, List.cons_append, space, attributesFrom_spread, List.length_cons,
      Nat.add_assoc pos, Nat.add_comm 1]
    rfl

/-- A printed list is read back as it is. -/
theorem readAttributes_printListed (attributes : List ListedAttribute) :
    readAttributes (printListed attributes) = attributes.map ListedAttribute.attribute := by
  have from_pos : ∀ (attributes : List ListedAttribute) (pos : Nat),
      attributesFrom pos 0 (printListed attributes) = attributes.map ListedAttribute.attribute := by
    intro attributes
    induction attributes with
    | nil => exact fun _ => rfl
    | cons given attributes ih =>
      intro pos
      obtain ⟨first, equals⟩ := printListed_starts attributes
      have step := attributesFrom_listed given first equals pos
      rw [printListed] at step ih ⊢
      rw [List.flatMap_cons, step, ih, List.map_cons]
  exact from_pos attributes 0

/-- A printed list of attributes is read back as it is; it becomes the properties of its attributes,
in the order of the slots and within a slot in the order of the list; and its classes and keys are
warned of in the order of the list. -/
theorem listed_attributes_recast (attributes : List ListedAttribute) :
    readAttributes (printListed attributes) = attributes.map ListedAttribute.attribute ∧
      (recastAttributes (printListed attributes)).result =
        .ok (joinComma
          ((sortedProperties (attributes.map ListedAttribute.attribute)).map Property.text)) ∧
      (recastAttributes (printListed attributes)).journal.warnings =
        (attributes.map ListedAttribute.attribute).filterMap Attribute.warning? := by
  obtain ⟨result, warnings⟩ := recastAttributes_eq (printListed attributes)
  rw [readAttributes_printListed] at result warnings
  exact ⟨readAttributes_printListed attributes, result, warnings⟩

end Recast
