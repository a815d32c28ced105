import Recast.Config.Load
import Recast.Proofs.Text.Part

/-!
# Validation of a configuration

A configuration is accepted just if no field that is there has a wrong value (`Field.accepts`), and
otherwise refused for the first field that has one (`optionsOf_outcome`). Accepted options are the
given values without the blanks around them, and the standard where nothing is given; read again
they stay as they are.

The wording of a refusal and the notice of ignored keys quote values, and an integer can be too long
to be written. Then neither options nor a refusal come of the configuration (`isUnwritten`), and
this is the only way in which validation is not exact (`validatesExactly_iff`).
-/

namespace Recast

/-! ## What a field takes -/

/-- Whether a field takes a value: one of the styles, a text that is not blank, a positive
integer. -/
def Field.accepts : Field → Value → Bool
  | .stateStyle, .string t => t.isText StateStyle.binding.name || t.isText StateStyle.field.name
  | .importModule, .string t | .outputSuffix, .string t => !t.isBlank
  | .effectSummaryLength, .int n => 1 ≤ n
  | _, _ => false

/-- Whether the refusal of a value quotes it. -/
def Field.quotes : Field → Value → Bool
  | .stateStyle, _ => true
  | .effectSummaryLength, .int _ => true
  | _, _ => false

/-- Whether a field is there with a value that it does not take. -/
def Field.fails (value? : Field → Option Value) (field : Field) : Bool :=
  (value? field).any (!field.accepts ·)

/-- The first field, in the order of the fields, that fails. -/
def firstFailing? (value? : Field → Option Value) : Option Field :=
  Field.all.find? (·.fails value?)

/-- The value without the blanks around a text. -/
def Value.tidied : Value → Value
  | .string t => .string t.trim
  | value => value

/-- The value that an option has in a configuration. -/
def Options.value (options : Options) : Field → Value
  | .stateStyle => .string (.ofText options.stateStyle.name)
  | .importModule => .string options.importModule
  | .outputSuffix => .string options.outputSuffix
  | .effectSummaryLength => .int options.effectSummaryLength

/-! ## Trimming -/

namespace Wide

theorem trim_eq_nil {w : Wide} : w.trim = [] ↔ w.isBlank := by
  rw [trim, List.reverse_eq_nil_iff, List.dropWhile_eq_nil_iff, isBlank, List.all_eq_true]
  constructor
  · intro rest point hm
    by_contra blank
    have kept : w.dropWhile CodePoint.isBlank ≠ [] :=
      fun none => blank (List.dropWhile_eq_nil_iff.1 none point hm)
    have first := List.head_dropWhile_not CodePoint.isBlank kept
    rw [rest _ (List.mem_reverse.2 (List.head_mem kept))] at first
    cases first
  · intro all point hm
    exact all point (mem_of_mem_dropWhile (List.mem_reverse.1 hm))

theorem not_isBlank_of_head? {w : Wide} {point : CodePoint}
    (h : (w.dropWhile CodePoint.isBlank).head? = some point) : point.isBlank = false := by
  rw [← List.find?_not_eq_head?_dropWhile] at h
  simpa using List.find?_some h

theorem trim_trim (w : Wide) : w.trim.trim = w.trim := by
  have last : ∀ point, w.trim.reverse.head? = some point → point.isBlank = false := by
    intro point hm
    rw [trim, List.reverse_reverse] at hm
    exact not_isBlank_of_head? hm
  have first : ∀ point, w.trim.head? = some point → point.isBlank = false := by
    intro point hm
    obtain ⟨rest, split⟩ :=
      List.dropWhile_suffix CodePoint.isBlank (l := (w.dropWhile CodePoint.isBlank).reverse)
    have front : w.dropWhile CodePoint.isBlank = w.trim ++ rest.reverse := by
      rw [← List.reverse_inj, List.reverse_append, trim, List.reverse_reverse, List.reverse_reverse,
        split]
    exact not_isBlank_of_head? (w := w) (by rw [front, List.head?_append, hm]; rfl)
  rw [trim, dropWhile_eq_self first, dropWhile_eq_self last, List.reverse_reverse]

end Wide

theorem StateStyle.trim_name (style : StateStyle) :
    (Wide.ofText style.name).trim = .ofText style.name := by
  cases style <;> decide +kernel

/-! ## Reading a field -/

/-- The fault is about the field, and it can be written unless it quotes an unwritable value. -/
def FieldFault.Concerns (fault : FieldFault) (field : Field) (value : Value) : Prop :=
  fault.field = field ∧ fault.isUnwritable = (field.quotes value && value.isUnwritable)

/-- A field is read off the values that it takes, and a fault off all others; `shown` is the value
of what is read. -/
structure Field.ReadBy {α : Type} (field : Field) (read : Value → Except FieldFault α)
    (shown : α → Value) : Prop where
  accepts : ∀ {value}, field.accepts value → ∃ a, read value = .ok a ∧ shown a = value.tidied
  refuses : ∀ {value}, field.accepts value = false → ∃ fault, read value = .error fault ∧
    fault.Concerns field value

theorem readBy_readStyle :
    Field.stateStyle.ReadBy readStyle fun style => .string (.ofText style.name) where
  accepts {value} taken := by
    cases value with
    | string t =>
      simp only [Field.accepts, Bool.or_eq_true, Wide.isText, beq_iff_eq] at taken
      rcases taken with rfl | rfl
      · exact ⟨.binding, rfl, by rw [Value.tidied, StateStyle.trim_name]⟩
      · exact ⟨.field, rfl, by rw [Value.tidied, StateStyle.trim_name]⟩
    | _ => cases taken
  refuses {value} refused := by
    refine ⟨.unknownStyle value, ?_, rfl, (Bool.true_and _).symm⟩
    cases value with
    | string t =>
      obtain ⟨binding, field⟩ := Bool.or_eq_false_iff.1 refused
      rw [readStyle, if_neg (by simp [binding]), if_neg (by simp [field])]
    | _ => rfl

theorem readBy_readText {field : Field} (text : field = .importModule ∨ field = .outputSuffix) :
    field.ReadBy (readText field) .string where
  accepts {value} taken := by
    cases value with
    | string t =>
      have filled : t.isBlank = false := by
        rcases text with rfl | rfl <;> simpa [Field.accepts] using taken
      exact ⟨t.trim, by rw [readText, filled]; rfl, rfl⟩
    | _ => rcases text with rfl | rfl <;> cases taken
  refuses {value} refused := by
    refine ⟨.blank field, ?_, rfl, ?_⟩
    · cases value with
      | string t =>
        have blank : t.isBlank := by
          rcases text with rfl | rfl <;> simpa [Field.accepts] using refused
        rw [readText, if_pos blank]
      | _ => rfl
    · rcases text with rfl | rfl <;> exact (Bool.false_and _).symm

theorem readBy_readLength : Field.effectSummaryLength.ReadBy readLength .int where
  accepts {value} taken := by
    cases value with
    | int n =>
      have positive : 1 ≤ n := of_decide_eq_true taken
      exact ⟨n, by rw [readLength, if_neg (by omega)], rfl⟩
    | _ => cases taken
  refuses {value} refused := by
    cases value with
    | int n =>
      have small : n < 1 := by
        have := of_decide_eq_false refused
        omega
      exact ⟨.tooSmall n, by rw [readLength, if_pos small], rfl, (Bool.true_and _).symm⟩
    | _ => exact ⟨_, rfl, rfl, rfl⟩

/-! ## Reading all fields -/

section

variable (value? : Field → Option Value)

/-- The value of an option: what is given for its field, or the standard. -/
def valueOr (standard : Value) (field : Field) : Value :=
  ((value? field).map Value.tidied).getD standard

theorem readOr_outcome {α : Type} {field : Field} {read : Value → Except FieldFault α}
    {shown : α → Value} (reads : field.ReadBy read shown) (standard : α) :
    (field.fails value? = false ∧
        ∃ a, readOr standard read (value? field) = .ok a ∧
          shown a = valueOr value? (shown standard) field) ∨
      (field.fails value? ∧ ∃ value fault, value? field = some value ∧
        readOr standard read (value? field) = .error fault ∧ fault.Concerns field value) := by
  cases given : value? field with
  | none => exact .inl ⟨by rw [Field.fails, given]; rfl, standard, rfl, by rw [valueOr, given]; rfl⟩
  | some value =>
    cases taken : field.accepts value with
    | true =>
      obtain ⟨a, read, shows⟩ := reads.accepts taken
      exact .inl ⟨by simp [Field.fails, given, taken], a, read, by rw [valueOr, given]; exact shows⟩
    | false =>
      obtain ⟨fault, read, concerns⟩ := reads.refuses taken
      exact .inr ⟨by simp [Field.fails, given, taken], value, fault, rfl, read, concerns⟩

/-- The options that were read are those that the values of the fields say. -/
def Options.TakenFrom (options : Options) : Prop :=
  ∀ field, options.value field = valueOr value? (Options.standard.value field) field

/-- The fields give options if none fails, and a fault of the first field that fails otherwise. -/
theorem optionsOf_outcome :
    (firstFailing? value? = none ∧ ∃ options, optionsOf value? = .ok options ∧
      options.TakenFrom value?) ∨
      ∃ field value fault, firstFailing? value? = some field ∧ value? field = some value ∧
        optionsOf value? = .error fault ∧ fault.Concerns field value := by
  rcases readOr_outcome value? readBy_readStyle Options.standard.stateStyle with
    ⟨passed₁, style, read₁, shown₁⟩ | ⟨fails, value, fault, given, read, concerns⟩
  swap
  · refine .inr ⟨.stateStyle, value, fault, ?_, given, ?_, concerns⟩
    · simp [firstFailing?, Field.all, fails]
    · rw [optionsOf, read]
      rfl
  rcases readOr_outcome value? (readBy_readText (.inl rfl)) Options.standard.importModule with
    ⟨passed₂, module, read₂, shown₂⟩ | ⟨fails, value, fault, given, read, concerns⟩
  swap
  · refine .inr ⟨.importModule, value, fault, ?_, given, ?_, concerns⟩
    · simp [firstFailing?, Field.all, passed₁, fails]
    · rw [optionsOf, read₁, read]
      rfl
  rcases readOr_outcome value? (readBy_readText (.inr rfl)) Options.standard.outputSuffix with
    ⟨passed₃, suffix, read₃, shown₃⟩ | ⟨fails, value, fault, given, read, concerns⟩
  swap
  · refine .inr ⟨.outputSuffix, value, fault, ?_, given, ?_, concerns⟩
    · simp [firstFailing?, Field.all, passed₁, passed₂, fails]
    · rw [optionsOf, read₁, read₂, read]
      rfl
  rcases readOr_outcome value? readBy_readLength Options.standard.effectSummaryLength with
    ⟨passed₄, length, read₄, shown₄⟩ | ⟨fails, value, fault, given, read, concerns⟩
  swap
  · refine .inr ⟨.effectSummaryLength, value, fault, ?_, given, ?_, concerns⟩
    · simp [firstFailing?, Field.all, passed₁, passed₂, passed₃, fails]
    · rw [optionsOf, read₁, read₂, read₃, read]
      rfl
  have none : firstFailing? value? = none := by
    simp [firstFailing?, Field.all, passed₁, passed₂, passed₃, passed₄]
  refine .inl ⟨none, ⟨style, module, suffix, length⟩, ?_, ?_⟩
  · rw [optionsOf, read₁, read₂, read₃, read₄]
    rfl
  · rintro (_ | _ | _ | _)
    · exact shown₁
    · exact shown₂
    · exact shown₃
    · exact shown₄

end

/-! ## Options that are read again -/

theorem Value.tidied_tidied (value : Value) : value.tidied.tidied = value.tidied := by
  cases value with
  | string t => rw [Value.tidied, Value.tidied, Wide.trim_trim]
  | _ => rfl

/-- A field that takes a text takes it without the blanks around it. -/
theorem Field.accepts_tidied {field : Field} {value : Value} (taken : field.accepts value) :
    field.accepts value.tidied := by
  cases value with
  | string t =>
    have filled : t.isBlank = false → t.trim.isBlank = false := by
      intro filled
      by_contra blank
      rw [Bool.not_eq_false, ← Wide.trim_eq_nil, Wide.trim_trim, Wide.trim_eq_nil, filled] at blank
      cases blank
    cases field with
    | stateStyle =>
      simp only [Field.accepts, Bool.or_eq_true, Wide.isText, beq_iff_eq] at taken
      rcases taken with rfl | rfl
      · rw [Value.tidied, StateStyle.trim_name]
        rfl
      · rw [Value.tidied, StateStyle.trim_name]
        rfl
    | importModule =>
      simpa [Field.accepts, Value.tidied] using filled (by simpa [Field.accepts] using taken)
    | outputSuffix =>
      simpa [Field.accepts, Value.tidied] using filled (by simpa [Field.accepts] using taken)
    | effectSummaryLength => cases taken
  | _ => exact taken

/-- Options that can stand in a configuration as they are: texts that are not blank and have no
blanks around them, and a positive length. -/
structure Options.IsTidy (options : Options) : Prop where
  importModule : options.importModule ≠ [] ∧ options.importModule.trim = options.importModule
  outputSuffix : options.outputSuffix ≠ [] ∧ options.outputSuffix.trim = options.outputSuffix
  effectSummaryLength : 1 ≤ options.effectSummaryLength

/-- Every standard passes the check of its field. -/
theorem Options.standard_accepted (field : Field) :
    field.accepts (standard.value field) ∧
      (standard.value field).tidied = standard.value field := by
  cases field with
  | stateStyle => exact ⟨rfl, congrArg Value.string (StateStyle.trim_name .binding)⟩
  | importModule => exact ⟨by decide +kernel, congrArg Value.string (by decide +kernel)⟩
  | outputSuffix => exact ⟨by decide +kernel, congrArg Value.string (by decide +kernel)⟩
  | effectSummaryLength => exact ⟨rfl, rfl⟩

section

variable {value? : Field → Option Value} {options : Options}

/-- The field takes the value of its option, which has no blanks around it. -/
theorem Options.TakenFrom.accepted (taken : options.TakenFrom value?)
    (none : firstFailing? value? = none) (field : Field) :
    field.accepts (options.value field) ∧ (options.value field).tidied = options.value field := by
  rw [taken field, valueOr]
  cases given : value? field with
  | none => exact Options.standard_accepted field
  | some value =>
    have passes : field.fails value? = false := by
      have listed : field ∈ Field.all := by cases field <;> decide
      simpa using List.find?_eq_none.1 none field listed
    have takes : field.accepts value := by simpa [Field.fails, given] using passes
    exact ⟨Field.accepts_tidied takes, value.tidied_tidied⟩

theorem Options.TakenFrom.isTidy (taken : options.TakenFrom value?)
    (none : firstFailing? value? = none) : options.IsTidy := by
  have text : ∀ {t : Wide}, t.isBlank = false → t ≠ [] := by
    rintro _ filled rfl
    cases filled
  have module := taken.accepted none .importModule
  have suffix := taken.accepted none .outputSuffix
  have length := (taken.accepted none .effectSummaryLength).1
  refine ⟨⟨text ?_, Value.string.inj module.2⟩, ⟨text ?_, Value.string.inj suffix.2⟩,
    of_decide_eq_true length⟩
  · simpa [Field.accepts, Options.value] using module.1
  · simpa [Field.accepts, Options.value] using suffix.1

end

theorem Options.eq_of_value {first second : Options}
    (same : ∀ field, first.value field = second.value field) : first = second := by
  obtain ⟨style, module, suffix, length⟩ := first
  obtain ⟨style', module', suffix', length'⟩ := second
  obtain rfl : module = module' := Value.string.inj (same .importModule)
  obtain rfl : suffix = suffix' := Value.string.inj (same .outputSuffix)
  obtain rfl : length = length' := Value.int.inj (same .effectSummaryLength)
  have name : Wide.ofText style.name = Wide.ofText style'.name :=
    Value.string.inj (same .stateStyle)
  obtain rfl : style = style' := by
    revert name
    cases style <;> cases style' <;> decide
  rfl

theorem Options.get?_entries (options : Options) (field : Field) :
    options.entries.get? field = some (options.value field) := by
  cases field <;> rfl

theorem Options.unknownKeys_entries (options : Options) :
    unknownKeys (options.entries.map (·.1)) = [] := rfl

/-! ## Exact validation -/

/-- The options of a configuration with the given entries. -/
def loadEntries (path : Text) (entries : Entries) : Loading :=
  loadFields (.badField path) (entries.map (·.1)) entries.get?

/-- The entries whose keys are names of fields. -/
def Entries.known (entries : Entries) : Entries :=
  entries.filter fun (key, _) => Field.all.any (·.isNamedBy key)

/-- Whether a value has to be quoted that is too long to be written: an unknown key, or the value of
the first field that fails. -/
def isUnwritten (entries : Entries) : Bool :=
  (unknownKeys (entries.map (·.1))).any Value.isUnwritable ||
    (firstFailing? entries.get?).any fun field =>
      (entries.get? field).any fun value => field.quotes value && value.isUnwritable

/-- The entries are refused just for the first field that fails, and otherwise give tidy options
that are read again as they are. Unknown keys make no difference. -/
structure ValidatesExactly (path : Text) (entries : Entries) : Prop where
  refused : ∀ field, (∃ fault : FieldFault, fault.field = field ∧
    (loadEntries path entries).result = .error (.badField path fault)) ↔
    firstFailing? entries.get? = some field
  accepted : firstFailing? entries.get? = none → ∃ options,
    (loadEntries path entries).result = .ok options ∧
    options.TakenFrom entries.get? ∧ options.IsTidy ∧
      (loadEntries path options.entries).result = .ok options
  unaffected : (loadEntries path entries).result = (loadEntries path entries.known).result

section

variable (path : Text) {entries : Entries}

theorem Entries.get?_known (entries : Entries) (field : Field) :
    entries.known.get? field = entries.get? field := by
  have listed : field ∈ Field.all := by cases field <;> decide
  rw [Entries.get?, Entries.get?, Entries.known, List.find?_filter]
  congr 2
  funext entry
  simpa using fun named => ⟨field, listed, named⟩

theorem Entries.unknownKeys_known (entries : Entries) :
    unknownKeys (entries.known.map (·.1)) = [] := by
  rw [unknownKeys, List.filter_eq_nil_iff]
  intro key hm
  obtain ⟨entry, kept, rfl⟩ := List.mem_map.1 hm
  simpa using (List.mem_filter.1 kept).2

/-- Where no unknown key stands in the way, the fields decide. -/
theorem loadEntries_result
    (written : (unknownKeys (entries.map (·.1))).any Value.isUnwritable = false) :
    (loadEntries path entries).result = (optionsOf entries.get?).mapError fun fault =>
      if fault.isUnwritable then .noValue .unwritable else .badField path fault := by
  rw [loadEntries, loadFields, if_neg (by simp [written])]

/-- Tidy options are read again as they are. -/
theorem loadEntries_entries {options : Options}
    (tidy : ∀ field, field.accepts (options.value field) ∧
      (options.value field).tidied = options.value field) :
    (loadEntries path options.entries).result = .ok options := by
  have values : options.entries.get? = fun field => some (options.value field) :=
    funext options.get?_entries
  have passes : firstFailing? options.entries.get? = none := by
    rw [firstFailing?, List.find?_eq_none]
    intro field _
    simp [Field.fails, values, (tidy field).1]
  rw [loadEntries_result path (by rw [options.unknownKeys_entries]; rfl)]
  rcases optionsOf_outcome options.entries.get?
    with ⟨-, again, read, taken⟩ | ⟨field, _, _, fails, -⟩
  · have same : again = options := by
      refine Options.eq_of_value fun field => ?_
      rw [taken field, valueOr, options.get?_entries]
      exact (tidy field).2
    rw [read, same]
    rfl
  · rw [passes] at fails
    cases fails

/-- A value that cannot be written ends the reading without options and without a refusal. -/
theorem loadEntries_unwritten (unwritten : isUnwritten entries) :
    (loadEntries path entries).result = .error (.noValue .unwritable) := by
  cases keys : (unknownKeys (entries.map (·.1))).any Value.isUnwritable with
  | true => rw [loadEntries, loadFields, if_pos keys]
  | false =>
    rw [isUnwritten, keys, Bool.false_or] at unwritten
    rw [loadEntries_result path keys]
    rcases optionsOf_outcome entries.get?
      with ⟨none, -⟩ | ⟨field, value, fault, fails, given, read, concerns⟩
    · rw [none] at unwritten
      cases unwritten
    · have quoted : fault.isUnwritable := by
        rw [concerns.2]
        simpa [fails, given] using unwritten
      rw [read, Except.mapError, if_pos quoted]

theorem validatesExactly_of_written (written : isUnwritten entries = false) :
    ValidatesExactly path entries := by
  obtain ⟨keys, quoted⟩ := Bool.or_eq_false_iff.1 written
  have result := loadEntries_result path keys
  have unaffected : (loadEntries path entries).result =
      (loadEntries path entries.known).result := by
    rw [result, loadEntries_result path (by rw [entries.unknownKeys_known]; rfl),
      funext entries.get?_known]
  rcases optionsOf_outcome entries.get? with
    ⟨none, options, read, taken⟩ | ⟨field, value, fault, fails, given, read, concerns⟩
  · rw [read] at result
    refine ⟨fun field => ?_, fun _ => ⟨options, result, taken, taken.isTidy none, ?_⟩, unaffected⟩
    · rw [result, none]
      exact iff_of_false (fun ⟨_, _, error⟩ => nomatch error) nofun
    · exact loadEntries_entries path (taken.accepted none)
  · have written : fault.isUnwritable = false := by
      rw [concerns.2]
      simpa [fails, given] using quoted
    rw [read] at result
    have result : (loadEntries path entries).result = .error (.badField path fault) := by
      rw [result, Except.mapError, if_neg (by simp [written])]
    refine ⟨fun other => ?_, fun none => ?_, unaffected⟩
    · rw [result, fails, Option.some.injEq]
      constructor
      · rintro ⟨_, rfl, error⟩
        cases error
        exact concerns.1.symm
      · rintro rfl
        exact ⟨fault, concerns.1, rfl⟩
    · rw [fails] at none
      cases none

/-- Where neither options nor a refusal come of the entries, validation is not exact. -/
theorem not_validatesExactly_of_result
    (result : (loadEntries path entries).result = .error (.noValue .unwritable)) :
    ¬ValidatesExactly path entries := by
  intro exactly
  cases fails : firstFailing? entries.get? with
  | none =>
    obtain ⟨options, read, -⟩ := exactly.accepted fails
    rw [result] at read
    cases read
  | some field =>
    obtain ⟨fault, -, refused⟩ := (exactly.refused field).2 fails
    rw [result] at refused
    cases refused

theorem not_validatesExactly (unwritten : isUnwritten entries) : ¬ValidatesExactly path entries :=
  not_validatesExactly_of_result path (loadEntries_unwritten path unwritten)

end

/-- The entries of a document with their values. -/
def Yaml.Document.values (document : Document) (entries : List (Value × Nat)) : Entries :=
  entries.map fun (key, number) => (key, document.value number)

/-- The loader validates the entries of a document. -/
theorem loadDocument_eq (path : Text) {document : Yaml.Document} {entries : List (Value × Nat)}
    (mapping : document.entries? = some entries) :
    loadDocument path document = loadEntries path (document.values entries) := by
  have keys : (document.values entries).map (·.1) = entries.map (·.1) := by
    rw [Yaml.Document.values, List.map_map]
    rfl
  rw [loadDocument, mapping, loadEntries, keys]
  dsimp only
  congr 1
  funext field
  rw [Entries.get?, Yaml.Document.values, List.find?_map, Option.map_map]
  rfl

/-- Validation is exact just if no value that has to be quoted is too long to be written; otherwise
it ends with neither options nor a refusal. This is what the loader does with the entries of a
document. -/
theorem validatesExactly_iff (path : Text) (entries : Entries) :
    (ValidatesExactly path entries ↔ isUnwritten entries = false) ∧
      ((loadEntries path entries).result = .error (.noValue .unwritable) ↔ isUnwritten entries) ∧
      ∀ (document : Yaml.Document) pairs, document.entries? = some pairs →
        document.values pairs = entries →
        loadDocument path document = loadEntries path entries := by
  rw [← and_assoc]
  refine ⟨?_, fun document pairs mapping values => values ▸ loadDocument_eq path mapping⟩
  cases unwritten : isUnwritten entries with
  | true =>
    exact ⟨iff_of_false (not_validatesExactly path unwritten) nofun,
      iff_of_true (loadEntries_unwritten path unwritten) rfl⟩
  | false =>
    have exactly := validatesExactly_of_written path unwritten
    refine ⟨iff_of_true exactly rfl, iff_of_false (fun result => ?_) nofun⟩
    exact not_validatesExactly_of_result path result exactly

/-- A length with 4335 digits that is not positive. -/
def hugeLength : Entries :=
  [(.string (.ofText Field.effectSummaryLength.name), .int (-(Int.pow 16 3600 - 1)))]

/-- A length that is too small is not refused if it is too long to be written. -/
theorem hugeLength_unrefused :
    firstFailing? hugeLength.get? = some .effectSummaryLength ∧
      (loadEntries [] hugeLength).result = .error (.noValue .unwritable) ∧
        ¬ValidatesExactly [] hugeLength := by
  have unwritten : isUnwritten hugeLength := by decide +kernel
  exact ⟨by decide +kernel, loadEntries_unwritten [] unwritten, not_validatesExactly [] unwritten⟩

end Recast
