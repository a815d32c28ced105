import Recast.Proofs.Scope.Binders
import Recast.Proofs.Scope.Expression
import Recast.Proofs.Scope.PatternNames

/-!
# Pattern trees

A binding pattern as a tree: a name, an array of items with holes, defaults and a rest, or an object
of entries that are shorthand, keyed or a rest. The trees are the same for every type of names and
keys that scanners pass over like words (`PatternName`, `PatternKey`). `PatternTarget.print` writes
a tree with any blanks between its parts, and `PatternTarget.bound` are the names that it binds, by
recursion over the tree.

`patternNames` has no tree: it cuts the text at commas, takes defaults and keys off and goes into
brackets. On the text of items it finds what `identifier?` reads of the names of the tree, in order
(`PatternItems.patternNames_print`), which are the names themselves if they are words
(`PatternItems.patternNames_words`).
-/

namespace Recast

/-! ## Default values -/

/-- The code of a default value: no quote, no `<`, no `/`, its brackets nested and no comma outside
them. It does not go on with the equals sign before it. -/
structure DefaultCode where
  text : Text
  nested : Nested text
  plain : ∀ c ∈ text, isPlainCode c
  level : IsLevel isComma text
  first : text.head? ≠ some '=' ∧ text.head? ≠ some '>'

/-- The default value behind its equals sign, if there is one. -/
def printDefault : Option DefaultCode → Text
  | none => []
  | some code => '=' :: code.text

/-! ## Parts between commas -/

/-- Text that stands between commas: its brackets are closed, and no comma is outside them. -/
structure IsPart (t : Text) : Prop where
  closed : Closed isElementChar t
  level : IsLevel (fun _ => false) t
  plain : '<' ∉ t

theorem IsPart.append {s t : Text} (hs : IsPart s) (ht : IsPart t) : IsPart (s ++ t) where
  closed := hs.closed.append ht.closed
  level := hs.level.append ht.level
  plain := by simp [hs.plain, ht.plain]

theorem isPart_of_quiet {t : Text} (quiet : ∀ c ∈ t, IsQuiet c) : IsPart t where
  closed := closed_of_quiet quiet
  level := (isLevel_of_quiet quiet).mono fun _ h => Bool.noConfusion h
  plain h := Bool.noConfusion (quiet '<' h).1

theorem Blanks.isPart (blanks : Blanks) : IsPart blanks.text :=
  isPart_of_quiet (isQuiet_of_isBlankText blanks.blank)

theorem Word.isPart (word : Word) : IsPart word.text :=
  isPart_of_quiet (isQuiet_of_isIdentifier word.valid)

theorem isPart_dots : IsPart "...".toList :=
  isPart_of_quiet isQuiet_dots

theorem isPart_mark {c : Char} (mark : c = ':' ∨ c = '=') {t : Text} (ht : IsPart t) :
    IsPart (c :: t) := by
  have single : IsPart [c] := by
    rcases mark with rfl | rfl
    · exact ⟨.mark (by decide) (by decide) (by decide) (by decide) (by simp) .nil,
        by decide, by decide⟩
    · exact ⟨.mark (by decide) (by decide) (by decide) (by decide) (by simp) .nil,
        by decide, by decide⟩
  exact single.append ht

theorem isPart_printDefault : ∀ default? : Option DefaultCode, IsPart (printDefault default?)
  | none => ⟨.nil, rfl, by simp [printDefault]⟩
  | some code => by
    refine isPart_mark (.inr rfl) ⟨closed_of_nested code.nested code.plain code.level, ?_,
      fun h => ?_⟩
    · exact code.level.mono fun _ h => Bool.noConfusion h
    · exact Bool.noConfusion (code.plain '<' h)

/-- What is in brackets. -/
structure IsInside (t : Text) : Prop where
  closed : Closed (fun _ => true) t
  level : IsLevel (fun _ => false) t
  plain : '<' ∉ t

theorem IsPart.inside {t : Text} (h : IsPart t) : IsInside t :=
  ⟨h.closed.mono fun _ _ => rfl, h.level, h.plain⟩

theorem isPart_group (kind : Bracket) {inner : Text} (h : IsInside inner) :
    IsPart (kind.opener :: (inner ++ [kind.closer])) where
  closed := .group kind h.closed .nil
  level := isLevel_group _ kind h.level
  plain := by
    have brackets : kind.opener ≠ '<' ∧ kind.closer ≠ '<' := by cases kind <;> decide
    simp [h.plain, Ne.symm brackets.1, Ne.symm brackets.2]

theorem isInside_joinWith :
    ∀ {parts : List Text}, (∀ part ∈ parts, IsPart part) → IsInside (joinWith [','] parts)
  | [], _ => ⟨.nil, rfl, by simp [joinWith]⟩
  | [part], h => (h part (by simp)).inside
  | part :: next :: parts, h => by
    have first := (h part (by simp)).inside
    have ih : IsInside (joinWith [','] (next :: parts)) :=
      isInside_joinWith fun p hp => h p (List.mem_cons_of_mem _ hp)
    have comma : IsInside [','] :=
      ⟨.mark rfl (by decide) (by decide) (by decide) (by simp) .nil, by decide, by decide⟩
    rw [joinWith]
    · exact ⟨(first.closed.append comma.closed).append ih.closed,
        (first.level.append comma.level).append ih.level,
        by simp [first.plain, ih.plain]⟩
    · simp

theorem unmarked_of_not_mem {t : Text} (h : '<' ∉ t) : Unmarked t := by
  rintro before kind passed ahead rfl
  exact absurd h (by simp)

/-- A text is cut at the commas between its parts, and only there. -/
theorem pieceSpans_joinWith :
    ∀ {parts : List Text} (front : Text), parts ≠ [] → (∀ part ∈ parts, IsPart part) →
    (pieceSpans isComma front.length front.length 0 (joinWith [','] parts)).map
      (·.of (front ++ joinWith [','] parts)) =
      parts
  | [], _, filled, _ => absurd rfl filled
  | [part], front, _, h => by
    have closed := (h part (by simp)).closed
    have unmarked : Unmarked (part ++ []) := by
      rw [List.append_nil]
      exact unmarked_of_not_mem (h part (by simp)).plain
    have none : ∀ c, isElementChar c → isComma c = false := fun c hc => by
      simpa [isElementChar] using hc
    have pieces := pieceSpans_closed closed none front.length front.length [] unmarked
    rw [List.append_nil] at pieces
    rw [joinWith, pieces, pieceSpans, List.map_singleton]
    exact congrArg (fun piece => [piece]) (slice_eq front [] (by simp) rfl rfl)
  | part :: next :: parts, front, _, h => by
    have closed := (h part (by simp)).closed
    have rest : ∀ part ∈ next :: parts, IsPart part := fun p hp => h p (List.mem_cons_of_mem _ hp)
    have join : joinWith [','] (part :: next :: parts) =
        part ++ ',' :: joinWith [','] (next :: parts) := by
      simp [joinWith]
    have unmarked : Unmarked (part ++ ',' :: joinWith [','] (next :: parts)) := by
      rw [← join]
      exact unmarked_of_not_mem (isInside_joinWith h).plain
    have ih := pieceSpans_joinWith (front ++ (part ++ [','])) (by simp) rest
    rw [join, pieceSpans_closed closed (fun c hc => by simpa [isElementChar] using hc)
      _ _ _ unmarked, pieceSpans_separator (by decide) (by decide) (by decide), List.map_cons]
    refine congrArg₂ List.cons (slice_eq front _ rfl rfl rfl) ?_
    simpa [Nat.add_assoc] using ih

theorem map_of_joinWith {parts : List Text} (filled : parts ≠ [])
    (h : ∀ part ∈ parts, IsPart part) :
    (pieceSpans isComma 0 0 0 (joinWith [','] parts)).map (·.of (joinWith [','] parts)) = parts :=
  pieceSpans_joinWith [] filled h

/-- The names of a list are the names of its parts. -/
theorem patternNames_joinWith {parts : List Text} (filled : parts ≠ [])
    (h : ∀ part ∈ parts, IsPart part) :
    patternNames (joinWith [','] parts) = parts.flatMap fun part =>
      targetNames (bindingTarget part) := by
  rw [patternNames_eq]
  conv_rhs => rw [← map_of_joinWith filled h, List.flatMap_map]

/-- The names of entries are the names of what they bind. -/
theorem entryNames_joinWith {parts : List Text} (filled : parts ≠ [])
    (h : ∀ part ∈ parts, IsPart part) :
    entryNames (joinWith [','] parts) = parts.flatMap fun part =>
      patternNames (entryTarget part) := by
  rw [entryNames]
  conv_rhs => rw [← map_of_joinWith filled h, List.flatMap_map]

/-! ## Targets between blanks -/

/-- A target that does not end like a comparison: an equals sign behind it starts a default
value. -/
structure IsSolidTarget (target : Text) : Prop extends IsTarget target where
  last : ∀ c, target.getLast? = some c → c ∉ ['=', '!', '<', '>']

theorem isSolidTarget_name {name : Text} (valid : isIdentifier name) : IsSolidTarget name where
  toIsTarget := isTarget_name valid
  last := last_of_isIdentifier valid

theorem isSolidTarget_group (kind : Bracket) {inner : Text} (inside : IsInside inner) :
    IsSolidTarget (kind.opener :: (inner ++ [kind.closer])) where
  toIsTarget := isTarget_group kind inside.closed inside.level
  last c last := by
    have same : kind.closer = c := by simpa [List.getLast?_cons] using last
    subst same
    cases kind <;> decide

theorem printDefault_ends : ∀ default? : Option DefaultCode, printDefault default? = [] ∨
    ∃ value, printDefault default? = '=' :: value ∧ value.head? ≠ some '=' ∧ value.head? ≠ some '>'
  | none => .inl rfl
  | some code => .inr ⟨code.text, rfl, code.first⟩

/-- A single part is a list of its own. -/
theorem patternNames_part {part : Text} (h : IsPart part) :
    patternNames part = targetNames (bindingTarget part) := by
  have single : patternNames (joinWith [','] [part]) = _ :=
    patternNames_joinWith (by simp) (by simpa using h)
  simpa [joinWith] using single

theorem dropDefault_blanks (blanks : Blanks) : dropDefault blanks.text = [] := by
  rw [dropDefault, trim_eq_nil.2 blanks.blank]
  rfl

theorem targetNames_blanks (blanks : Blanks) : targetNames (bindingTarget blanks.text) = [] := by
  rw [bindingTarget, dropDefault_blanks]
  rfl

/-- A blank entry binds nothing. -/
theorem patternNames_blanks (blanks : Blanks) : patternNames (entryTarget blanks.text) = [] := by
  have entry : entryTarget blanks.text = [] := by
    rw [entryTarget, dropDefault_blanks]
    rfl
  rw [entry, patternNames_part (Blanks.isPart ⟨[], rfl⟩)]
  exact targetNames_blanks ⟨[], rfl⟩

section Solid

variable {target : Text} (solid : IsSolidTarget target)
include solid

theorem IsSolidTarget.trimStart_eq (gap : Blanks) : trimStart (gap.text ++ target) = target := by
  obtain ⟨c, cs, cons, first⟩ := solid.trimmed.first
  rw [trimStart_append, trimStart, List.dropWhile_eq_nil_iff.2 (List.all_eq_true.1 gap.blank),
    List.nil_append]
  intro d hd
  rw [cons] at hd
  obtain rfl := Option.some.inj hd
  exact first

/-- The default value of a target is taken off. -/
theorem IsSolidTarget.dropDefault_element (lead gap : Blanks) (default? : Option DefaultCode) :
    dropDefault (lead.text ++ (target ++ (gap.text ++ printDefault default?))) = target :=
  dropDefault_solid lead.blank gap.blank solid.trimmed solid.level.equals solid.last
    (printDefault_ends default?)

/-- What an element binds is its target. -/
theorem IsSolidTarget.bindingTarget_element (lead gap : Blanks) (default? : Option DefaultCode) :
    bindingTarget (lead.text ++ (target ++ (gap.text ++ printDefault default?))) = target := by
  obtain ⟨c, cs, cons, -⟩ := solid.trimmed.first
  have dot : '.' ≠ c := fun h => solid.dots (by rw [cons, h]; rfl)
  have spread : dropHead? "...".toList target = none := by
    rw [cons]
    exact if_neg dot
  rw [bindingTarget, solid.dropDefault_element, spread]

/-- What a target alone binds. -/
theorem IsSolidTarget.bindingTarget_self (lead : Blanks) :
    bindingTarget (lead.text ++ target) = target := by
  simpa [printDefault] using solid.bindingTarget_element lead ⟨[], rfl⟩ none

/-- Text before a target does not change how it ends. -/
theorem IsSolidTarget.last_append (front : Text) (c : Char)
    (h : (front ++ target).getLast? = some c) : c ∉ ['=', '!', '<', '>'] := by
  obtain ⟨d, ds, cons, -⟩ := solid.trimmed.first
  refine solid.last c ?_
  rwa [List.getLast?_append_of_ne_nil _ (by simp [cons])] at h

/-- A rest has no default value. -/
theorem IsSolidTarget.dropDefault_rest (lead gap tail : Blanks) :
    dropDefault (lead.text ++ ("...".toList ++ (gap.text ++ (target ++ tail.text)))) =
      "...".toList ++ (gap.text ++ target) := by
  obtain ⟨spread, -, level⟩ := spread_solid solid.toIsTarget gap.blank
  have last : ∀ c, ("...".toList ++ (gap.text ++ target)).getLast? = some c →
      c ∉ ['=', '!', '<', '>'] := by
    rw [← List.append_assoc]
    exact solid.last_append _
  have dropped := dropDefault_solid lead.blank tail.blank spread level last (.inl rfl : [] = [] ∨ _)
  rw [← dropped]
  simp only [List.append_assoc, List.append_nil]

/-- What the rest of a list binds is its target. -/
theorem IsSolidTarget.bindingTarget_rest (lead gap tail : Blanks) :
    bindingTarget (lead.text ++ ("...".toList ++ (gap.text ++ (target ++ tail.text)))) =
      target := by
  rw [bindingTarget, solid.dropDefault_rest, dropHead?_append]
  exact solid.trimStart_eq gap

/-- An entry that stands for its own key binds it. -/
theorem IsSolidTarget.patternNames_shorthand (part : IsPart target) (lead gap : Blanks)
    (default? : Option DefaultCode) :
    patternNames (entryTarget (lead.text ++ (target ++ (gap.text ++ printDefault default?)))) =
      targetNames target := by
  have colon : expressionEnd (· == ':') target 0 = target.length := by
    have passed := expressionEndFrom_append [] 0 solid.level.colon
    rw [List.append_nil, Nat.zero_add] at passed
    exact passed
  have entry : entryTarget (lead.text ++ (target ++ (gap.text ++ printDefault default?))) =
      target := by
    simp only [entryTarget, solid.dropDefault_element, colon, decide_true, Bool.or_true, if_true]
  have alone := solid.bindingTarget_self ⟨[], rfl⟩
  rw [List.nil_append] at alone
  rw [entry, patternNames_part part, alone]

/-- An entry with a key binds what is behind the key. -/
theorem IsSolidTarget.patternNames_keyed (part : IsPart target) {key : Text}
    (first : ∃ c cs, key = c :: cs ∧ isBlank c = false ∧ c ≠ '.')
    (level : IsLevel (fun c => c == ':' || c == '=') key)
    (lead before after gap : Blanks) (default? : Option DefaultCode) :
    patternNames (entryTarget (lead.text ++ (key ++ (before.text ++ ':' :: (after.text ++ (target ++
      (gap.text ++ printDefault default?))))))) = targetNames target := by
  obtain ⟨c, cs, cons, visible, dot⟩ := first
  have first' : ∃ c cs, key ++ before.text = c :: cs ∧ isBlank c = false ∧ c ≠ '.' :=
    ⟨c, cs ++ before.text, by rw [cons]; rfl, visible, dot⟩
  have level' := level.append (isLevel_of_quiet (isQuiet_of_isBlankText before.blank))
  obtain ⟨whole, equals⟩ := keyed_solid first' level' after.blank solid.toIsTarget
  have last : ∀ c, (key ++ before.text ++ ':' :: (after.text ++ target)).getLast? = some c →
      c ∉ ['=', '!', '<', '>'] := by
    rw [← List.cons_append, ← List.append_assoc]
    exact solid.last_append _
  have dropped :=
    dropDefault_solid lead.blank gap.blank whole equals last (printDefault_ends default?)
  have entry : entryTarget (lead.text ++ (key ++ (before.text ++ ':' :: (after.text ++ (target ++
      (gap.text ++ printDefault default?)))))) = after.text ++ target := by
    refine entryTarget_of_dropDefault ?_ first' level'
    rw [← dropped]
    congr 1
    simp
  rw [entry, patternNames_part (after.isPart.append part), solid.bindingTarget_self]

/-- The rest of an object binds its target. -/
theorem IsSolidTarget.patternNames_rest (part : IsPart target) (lead gap tail : Blanks) :
    patternNames
      (entryTarget (lead.text ++ ("...".toList ++ (gap.text ++ (target ++ tail.text))))) =
      targetNames target := by
  have dots : startsWith ("...".toList ++ (gap.text ++ target)) "...".toList := by
    rw [startsWith, dropHead?_append]
    rfl
  have entry : entryTarget (lead.text ++ ("...".toList ++ (gap.text ++ (target ++ tail.text)))) =
      "...".toList ++ (gap.text ++ target) := by
    simp only [entryTarget, solid.dropDefault_rest, dots, Bool.true_or, if_true]
  have alone := solid.bindingTarget_rest ⟨[], rfl⟩ gap ⟨[], rfl⟩
  simp only [List.nil_append, List.append_nil] at alone
  rw [entry, patternNames_part (isPart_dots.append (gap.isPart.append part)), alone]

end Solid

/-! ## Names and keys -/

/-- Names that a pattern may bind. They are passed over, and what is read of one is the identifier
that it starts with. -/
class PatternName (ν : Type) where
  text : ν → Text
  isPart : ∀ name, IsPart (text name)
  isSolidTarget : ∀ name, IsSolidTarget (text name)
  targetNames_text : ∀ name, targetNames (text name) = (identifier? (text name)).toList

/-- Keys that the entries of a pattern may have. -/
class PatternKey (κ : Type) where
  text : κ → Text
  isPart : ∀ key, IsPart (text key)
  level : ∀ key, IsLevel (fun c => c == ':' || c == '=') (text key)
  first : ∀ key, ∃ c cs, text key = c :: cs ∧ isBlank c = false ∧ c ≠ '.'

theorem targetNames_word (word : Word) : targetNames word.text = [word.text] := by
  have past : PastWord [] := by simp [PastWord]
  simpa using targetNames_name word.valid past

instance : PatternName Word where
  text := Word.text
  isPart := Word.isPart
  isSolidTarget word := isSolidTarget_name word.valid
  targetNames_text word := by rw [targetNames_word, word.identifier?, Option.toList_some]

instance : PatternKey Word where
  text := Word.text
  isPart := Word.isPart
  level word := isLevel_of_quiet (isQuiet_of_isIdentifier word.valid)
  first word := by
    obtain ⟨c, cs, cons, visible⟩ := (trimmed_of_isIdentifier word.valid).first
    refine ⟨c, cs, cons, visible, ?_⟩
    rintro rfl
    exact Bool.noConfusion (isNameChar_of_isIdentifier word.valid '.' (by simp [cons]))

@[simp] theorem Word.nameText_eq (word : Word) : PatternName.text word = word.text := rfl

@[simp] theorem Word.keyText_eq (word : Word) : PatternKey.text word = word.text := rfl

/-! ## Trees -/

mutual

/-- What is bound: a name, or what is in an array or object pattern. -/
inductive PatternTarget (ν κ : Type) where
  | name (name : ν)
  | array (items : PatternItems ν κ)
  | object (entries : PatternEntries ν κ)

/-- An item of an array pattern or of a parameter list. -/
inductive PatternItem (ν κ : Type) where
  | hole (blanks : Blanks)
  | element (lead : Blanks) (target : PatternTarget ν κ) (gap : Blanks)
    (default? : Option DefaultCode)
  | rest (lead gap : Blanks) (target : PatternTarget ν κ) (tail : Blanks)

/-- Items with commas between them. -/
inductive PatternItems (ν κ : Type) where
  | last (item : PatternItem ν κ)
  | more (item : PatternItem ν κ) (items : PatternItems ν κ)

/-- An entry of an object pattern; a blank one stands in an empty pattern and behind the last
comma. -/
inductive PatternEntry (ν κ : Type) where
  | blank (blanks : Blanks)
  | shorthand (lead : Blanks) (name : ν) (gap : Blanks) (default? : Option DefaultCode)
  | keyed (lead : Blanks) (key : κ) (before after : Blanks) (target : PatternTarget ν κ)
    (gap : Blanks) (default? : Option DefaultCode)
  | rest (lead gap : Blanks) (name : ν) (tail : Blanks)

/-- Entries with commas between them. -/
inductive PatternEntries (ν κ : Type) where
  | last (entry : PatternEntry ν κ)
  | more (entry : PatternEntry ν κ) (entries : PatternEntries ν κ)

end

section Trees

variable {ν κ : Type} [PatternName ν] [PatternKey κ]

mutual

/-- The target as text. -/
def PatternTarget.print : PatternTarget ν κ → Text
  | .name name => PatternName.text name
  | .array items => '[' :: (joinWith [','] items.parts ++ [']'])
  | .object entries => '{' :: (joinWith [','] entries.parts ++ ['}'])

/-- The item as text. -/
def PatternItem.print : PatternItem ν κ → Text
  | .hole blanks => blanks.text
  | .element lead target gap default? =>
    lead.text ++ (target.print ++ (gap.text ++ printDefault default?))
  | .rest lead gap target tail =>
    lead.text ++ ("...".toList ++ (gap.text ++ (target.print ++ tail.text)))

/-- The texts of items. -/
def PatternItems.parts : PatternItems ν κ → List Text
  | .last item => [item.print]
  | .more item items => item.print :: items.parts

/-- The entry as text. -/
def PatternEntry.print : PatternEntry ν κ → Text
  | .blank blanks => blanks.text
  | .shorthand lead name gap default? =>
    lead.text ++ (PatternName.text name ++ (gap.text ++ printDefault default?))
  | .keyed lead key before after target gap default? =>
    lead.text ++ (PatternKey.text key ++ (before.text ++ ':' :: (after.text ++
      (target.print ++ (gap.text ++ printDefault default?)))))
  | .rest lead gap name tail =>
    lead.text ++ ("...".toList ++ (gap.text ++ (PatternName.text name ++ tail.text)))

/-- The texts of entries. -/
def PatternEntries.parts : PatternEntries ν κ → List Text
  | .last entry => [entry.print]
  | .more entry entries => entry.print :: entries.parts

end

/-- The items as text: a parameter list. -/
def PatternItems.print (items : PatternItems ν κ) : Text :=
  joinWith [','] items.parts

/-- The entries as text. -/
def PatternEntries.print (entries : PatternEntries ν κ) : Text :=
  joinWith [','] entries.parts

omit [PatternName ν] [PatternKey κ] in
mutual

/-- The names that a target binds, in order. -/
def PatternTarget.bound : PatternTarget ν κ → List ν
  | .name name => [name]
  | .array items => items.bound
  | .object entries => entries.bound

/-- The names that an item binds. -/
def PatternItem.bound : PatternItem ν κ → List ν
  | .hole _ => []
  | .element _ target _ _ => target.bound
  | .rest _ _ target _ => target.bound

/-- The names that items bind. -/
def PatternItems.bound : PatternItems ν κ → List ν
  | .last item => item.bound
  | .more item items => item.bound ++ items.bound

/-- The names that an entry binds: never its key. -/
def PatternEntry.bound : PatternEntry ν κ → List ν
  | .blank _ => []
  | .shorthand _ name _ _ => [name]
  | .keyed _ _ _ _ target _ _ => target.bound
  | .rest _ _ name _ => [name]

/-- The names that entries bind. -/
def PatternEntries.bound : PatternEntries ν κ → List ν
  | .last entry => entry.bound
  | .more entry entries => entry.bound ++ entries.bound

end

/-- The names that items bind, as they are written. -/
def PatternItems.names (items : PatternItems ν κ) : List Text :=
  items.bound.map PatternName.text

/-- The names that entries bind, as they are written. -/
def PatternEntries.names (entries : PatternEntries ν κ) : List Text :=
  entries.bound.map PatternName.text

/-! ## What trees print -/

theorem PatternItems.parts_ne_nil : ∀ items : PatternItems ν κ, items.parts ≠ []
  | .last _ => by simp [PatternItems.parts]
  | .more _ _ => by simp [PatternItems.parts]

theorem PatternEntries.parts_ne_nil : ∀ entries : PatternEntries ν κ, entries.parts ≠ []
  | .last _ => by simp [PatternEntries.parts]
  | .more _ _ => by simp [PatternEntries.parts]

mutual

theorem PatternTarget.isPart : ∀ target : PatternTarget ν κ, IsPart target.print
  | .name name => PatternName.isPart name
  | .array items => isPart_group .square (isInside_joinWith items.isPart)
  | .object entries => isPart_group .curly (isInside_joinWith entries.isPart)

theorem PatternItem.isPart : ∀ item : PatternItem ν κ, IsPart item.print
  | .hole blanks => blanks.isPart
  | .element lead target gap default? =>
    lead.isPart.append (target.isPart.append (gap.isPart.append (isPart_printDefault default?)))
  | .rest lead gap target tail =>
    lead.isPart.append (isPart_dots.append (gap.isPart.append (target.isPart.append tail.isPart)))

theorem PatternItems.isPart : ∀ items : PatternItems ν κ, ∀ part ∈ items.parts, IsPart part
  | .last item, part, h => by
    obtain rfl := List.mem_singleton.1 h
    exact item.isPart
  | .more item items, part, h => by
    rcases List.mem_cons.1 h with rfl | h
    · exact item.isPart
    · exact items.isPart part h

theorem PatternEntry.isPart : ∀ entry : PatternEntry ν κ, IsPart entry.print
  | .blank blanks => blanks.isPart
  | .shorthand lead name gap default? =>
    lead.isPart.append ((PatternName.isPart name).append
      (gap.isPart.append (isPart_printDefault default?)))
  | .keyed lead key before after target gap default? =>
    lead.isPart.append ((PatternKey.isPart key).append (before.isPart.append (isPart_mark (.inl rfl)
      (after.isPart.append (target.isPart.append
        (gap.isPart.append (isPart_printDefault default?)))))))
  | .rest lead gap name tail =>
    lead.isPart.append (isPart_dots.append
      (gap.isPart.append ((PatternName.isPart name).append tail.isPart)))

theorem PatternEntries.isPart : ∀ entries : PatternEntries ν κ, ∀ part ∈ entries.parts, IsPart part
  | .last entry, part, h => by
    obtain rfl := List.mem_singleton.1 h
    exact entry.isPart
  | .more entry entries, part, h => by
    rcases List.mem_cons.1 h with rfl | h
    · exact entry.isPart
    · exact entries.isPart part h

end

theorem PatternTarget.isSolidTarget : ∀ target : PatternTarget ν κ, IsSolidTarget target.print
  | .name bound => PatternName.isSolidTarget bound
  | .array items => isSolidTarget_group .square (isInside_joinWith items.isPart)
  | .object entries => isSolidTarget_group .curly (isInside_joinWith entries.isPart)

/-! ## What is found -/

/-- What is read of a name. -/
def readName? (name : ν) : Option Text :=
  identifier? (PatternName.text name)

theorem targetNames_name_eq (name : ν) :
    targetNames (PatternName.text name) = [name].filterMap readName? := by
  rw [PatternName.targetNames_text, List.filterMap_cons, List.filterMap_nil, readName?]
  cases identifier? (PatternName.text name) <;> rfl

mutual

/-- What is found in a target. -/
theorem PatternTarget.targetNames_print : ∀ target : PatternTarget ν κ,
    targetNames target.print = target.bound.filterMap readName?
  | .name name => targetNames_name_eq name
  | .array items => by
    have inside := isInside_joinWith items.isPart
    have group := targetNames_group .square (by decide) inside.closed []
      (unmarked_of_not_mem (isPart_group .square inside).plain)
    rw [PatternTarget.bound, ← items.flatMap_names,
      ← patternNames_joinWith items.parts_ne_nil items.isPart]
    exact group
  | .object entries => by
    have inside := isInside_joinWith entries.isPart
    have group := targetNames_group .curly (by decide) inside.closed []
      (unmarked_of_not_mem (isPart_group .curly inside).plain)
    rw [PatternTarget.bound, ← entries.flatMap_names,
      ← entryNames_joinWith entries.parts_ne_nil entries.isPart]
    exact group

theorem PatternItem.names_print : ∀ item : PatternItem ν κ,
    targetNames (bindingTarget item.print) = item.bound.filterMap readName?
  | .hole blanks => targetNames_blanks blanks
  | .element lead target gap default? => by
    rw [PatternItem.print, target.isSolidTarget.bindingTarget_element, target.targetNames_print,
      PatternItem.bound]
  | .rest lead gap target tail => by
    rw [PatternItem.print, target.isSolidTarget.bindingTarget_rest, target.targetNames_print,
      PatternItem.bound]

theorem PatternItems.flatMap_names : ∀ items : PatternItems ν κ,
    (items.parts.flatMap fun part => targetNames (bindingTarget part)) =
      items.bound.filterMap readName?
  | .last item => by
    rw [PatternItems.parts, List.flatMap_singleton, item.names_print, PatternItems.bound]
  | .more item items => by
    rw [PatternItems.parts, List.flatMap_cons, item.names_print, items.flatMap_names,
      PatternItems.bound, List.filterMap_append]

theorem PatternEntry.names_print : ∀ entry : PatternEntry ν κ,
    patternNames (entryTarget entry.print) = entry.bound.filterMap readName?
  | .blank blanks => patternNames_blanks blanks
  | .shorthand lead name gap default? => by
    rw [PatternEntry.print, (PatternName.isSolidTarget name).patternNames_shorthand
      (PatternName.isPart name), targetNames_name_eq, PatternEntry.bound]
  | .keyed lead key before after target gap default? => by
    rw [PatternEntry.print, target.isSolidTarget.patternNames_keyed target.isPart
      (PatternKey.first key) (PatternKey.level key), target.targetNames_print, PatternEntry.bound]
  | .rest lead gap name tail => by
    rw [PatternEntry.print, (PatternName.isSolidTarget name).patternNames_rest
      (PatternName.isPart name), targetNames_name_eq, PatternEntry.bound]

theorem PatternEntries.flatMap_names : ∀ entries : PatternEntries ν κ,
    (entries.parts.flatMap fun part => patternNames (entryTarget part)) =
      entries.bound.filterMap readName?
  | .last entry => by
    rw [PatternEntries.parts, List.flatMap_singleton, entry.names_print, PatternEntries.bound]
  | .more entry entries => by
    rw [PatternEntries.parts, List.flatMap_cons, entry.names_print, entries.flatMap_names,
      PatternEntries.bound, List.filterMap_append]

end

/-- What is found in printed items are the identifiers at the start of the names that they bind, in
order. -/
theorem PatternItems.patternNames_print (items : PatternItems ν κ) :
    patternNames items.print = items.names.filterMap identifier? := by
  rw [PatternItems.print, patternNames_joinWith items.parts_ne_nil items.isPart,
    items.flatMap_names, PatternItems.names, List.filterMap_map]
  rfl

/-- If names are words, those that are found are those that are bound. -/
theorem PatternItems.patternNames_words (items : PatternItems Word κ) :
    patternNames items.print = items.names := by
  have read : identifier? ∘ (PatternName.text : Word → Text) = some ∘ PatternName.text :=
    funext fun word => word.identifier?
  rw [items.patternNames_print, PatternItems.names, List.filterMap_map, read, List.filterMap_eq_map]

end Trees

end Recast
