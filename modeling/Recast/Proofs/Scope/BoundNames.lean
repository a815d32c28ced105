import Recast.Proofs.Scope.PatternTree
import Recast.Proofs.Scope.Requalify

/-!
# Names beyond ASCII

The names of a language go beyond those that `identifier?` reads: a name may start with any letter,
and have marks that no word has. `BoundItems` are binding patterns with such names, and with any
code as the key of an entry. Of each name that they bind, `patternNames` finds what `identifier?`
reads of it, in order, and of keys and default values nothing. So the names that are found are the
names that are bound exactly if each of these is an identifier (`patternNames_bound_iff`): a name
that starts beyond ASCII is not found at all.
-/

namespace Recast

/-! ## Names and keys -/

/-- A character of a name: one that names have in words, or any other character beyond ASCII but
blanks. -/
def isBoundChar (c : Char) : Bool :=
  isNameChar c || (127 < c.toNat && !isBlank c)

/-- Whether a text can be a name: it does not start with a digit. -/
def isBoundName : Text → Bool
  | c :: cs => isBoundChar c && !c.isDigit && cs.all isBoundChar
  | [] => false

/-- A name, whether or not it is an identifier. -/
structure BoundName where
  text : Text
  valid : isBoundName text

/-- The key of an entry: a name, a number, a string that is blanked, or an expression in square
brackets. Its brackets are closed, and no comma, colon or equals sign is outside them. -/
structure KeyCode where
  text : Text
  part : IsPart text
  level : IsLevel (fun c => c == ':' || c == '=') text
  first : ∃ c cs, text = c :: cs ∧ isBlank c = false ∧ c ≠ '.'

/-! ## Characters of names -/

/-- The characters that mean something to the scanners of patterns. -/
def patternMarks : List Char :=
  ['(', '[', '{', ')', ']', '}', '\'', '"', '`', '/', '<', ',', ':', '=', '.', '!', '>']

theorem isQuiet_of_not_mem {c : Char} (h : c ∉ patternMarks) : IsQuiet c := by
  simp only [patternMarks, List.mem_cons, List.not_mem_nil, or_false, not_or] at h
  simp only [IsQuiet, isPlainMark, isPlainCode, isKeyChar, isQuote, isOpener, isCloser, isComma,
    Bool.and_eq_true, Bool.not_eq_true', Bool.or_eq_false_iff, beq_eq_false_iff_ne, bne_iff_ne]
  tauto

theorem not_mem_patternMarks {c : Char} (h : isBoundChar c) : c ∉ patternMarks := by
  have marks : ∀ d ∈ patternMarks, isBoundChar d = false := by decide +kernel
  intro mark
  rw [marks c mark] at h
  cases h

theorem not_isBlank_of_isBoundChar {c : Char} (h : isBoundChar c) : isBlank c = false := by
  simp only [isBoundChar, Bool.or_eq_true, Bool.and_eq_true, Bool.not_eq_true'] at h
  rcases h with name | ⟨-, solid⟩
  · exact not_isBlank_of_isNameChar name
  · exact solid

section Name

variable (name : BoundName)

theorem BoundName.isBoundChar : ∀ c ∈ name.text, Recast.isBoundChar c := by
  obtain ⟨text, valid⟩ := name
  cases text with
  | nil => simp
  | cons c cs =>
    simp only [isBoundName, Bool.and_eq_true, List.all_eq_true] at valid
    exact List.forall_mem_cons.2 ⟨valid.1.1, valid.2⟩

theorem BoundName.ne_nil : name.text ≠ [] := by
  rintro empty
  have valid := name.valid
  rw [empty] at valid
  cases valid

theorem BoundName.isPart : IsPart name.text :=
  isPart_of_quiet fun c mem => isQuiet_of_not_mem (not_mem_patternMarks (name.isBoundChar c mem))

theorem BoundName.isSolidTarget : IsSolidTarget name.text := by
  have quiet : ∀ c ∈ name.text, IsQuiet c :=
    fun c mem => isQuiet_of_not_mem (not_mem_patternMarks (name.isBoundChar c mem))
  have solid : ∀ c ∈ name.text, isBlank c = false :=
    fun c mem => not_isBlank_of_isBoundChar (name.isBoundChar c mem)
  have other : ∀ c ∈ name.text, c ∉ patternMarks :=
    fun c mem => not_mem_patternMarks (name.isBoundChar c mem)
  obtain ⟨c, cs, cons⟩ := List.exists_cons_of_ne_nil name.ne_nil
  have snoc := List.dropLast_append_getLast name.ne_nil
  refine ⟨⟨⟨⟨c, cs, cons, solid c (by simp [cons])⟩, _, _, snoc.symm,
    solid _ (List.getLast_mem name.ne_nil)⟩, ?_,
    closed_of_quiet quiet, isLevel_of_quiet quiet⟩, ?_⟩
  · intro dot
    exact other '.' (List.mem_of_head? dot) (by decide)
  · intro c last mark
    have marks : ∀ d ∈ ['=', '!', '<', '>'], d ∈ patternMarks := by decide
    exact other c (List.mem_of_getLast? last) (marks c mark)

/-- Of a name the identifier at its start is found. -/
theorem BoundName.targetNames_eq : targetNames name.text = (identifier? name.text).toList := by
  obtain ⟨c, cs, cons⟩ := List.exists_cons_of_ne_nil name.ne_nil
  have other := not_mem_patternMarks (name.isBoundChar c (by simp [cons]))
  have brackets : c ≠ '[' ∧ c ≠ '{' := by
    constructor <;> rintro rfl <;> exact other (by decide)
  rw [cons, targetNames, if_neg (by simp [brackets.1, brackets.2])]

end Name

/-! ## Patterns -/

instance : PatternName BoundName where
  text := BoundName.text
  isPart := BoundName.isPart
  isSolidTarget := BoundName.isSolidTarget
  targetNames_text := BoundName.targetNames_eq

instance : PatternKey KeyCode where
  text := KeyCode.text
  isPart := KeyCode.part
  level := KeyCode.level
  first := KeyCode.first

/-- Items with any names and keys. -/
abbrev BoundItems := PatternItems BoundName KeyCode

/-- What is read at the start of a text is an identifier. -/
theorem isIdentifier_of_identifier? {t name : Text} (found : identifier? t = some name) :
    isIdentifier name := by
  cases t with
  | nil => cases found
  | cons c cs =>
    rw [identifier?] at found
    obtain ⟨start, same⟩ := Option.ite_none_right_eq_some.1 found
    obtain rfl := Option.some.inj same
    rw [isIdentifier, start, Bool.true_and]
    exact List.all_takeWhile

/-- An identifier is read whole. -/
theorem identifier?_of_isIdentifier {name : Text} (valid : isIdentifier name) :
    identifier? name = some name :=
  (⟨name, valid⟩ : Word).identifier?

/-- Of the names that a parameter list binds, the identifiers at their starts are found, in order,
and of keys and default values nothing. The names that are found are those that are bound exactly if
each of these is an identifier. -/
theorem patternNames_bound_iff (items : BoundItems) :
    patternNames items.print = items.names.filterMap identifier? ∧
      ((∀ name, name ∈ patternNames items.print ↔ name ∈ items.names) ↔
        ∀ name ∈ items.names, isIdentifier name) := by
  refine ⟨items.patternNames_print, fun same name mem => ?_, fun valid => ?_⟩
  · rw [← same, items.patternNames_print] at mem
    obtain ⟨bound, -, found⟩ := List.mem_filterMap.1 mem
    exact isIdentifier_of_identifier? found
  · have whole : items.names.filterMap identifier? = items.names.filterMap some :=
      List.filterMap_congr fun name mem => identifier?_of_isIdentifier (valid name mem)
    rw [List.filterMap_some] at whole
    rw [items.patternNames_print, whole]
    exact fun _ => Iff.rfl

/-- A parameter that starts beyond ASCII is not found, and so it is edited like a free name. -/
theorem patternNames_accentedParameter :
    (∃ items : BoundItems, items.print = "é".toList ∧ items.names = ["é".toList] ∧
      patternNames items.print = []) ∧
      qualify ["é".toList] [] "é => é".toList = "this.é => this.é".toList := by
  have word : ∀ entry ∈ references ["é".toList] [], isWord entry.1 := by decide +kernel
  refine ⟨⟨.last (.element ⟨[], rfl⟩ (.name ⟨"é".toList, by decide⟩) ⟨[], rfl⟩ none), rfl, rfl, ?_⟩,
    ?_⟩
  · rw [PatternItems.patternNames_print]
    decide +kernel
  · rw [qualify_eq_walk word]
    decide +kernel

end Recast
