import Recast.Component.Signature
import Recast.Proofs.Component.HeadSearch
import Recast.Proofs.Scope.PatternTree

/-!
# Names of a props parameter

Two readers see the pattern of a destructured props parameter. `patternNames` goes into nested
patterns and finds every name that is bound. `propAliases` reads the entries one by one: it knows a
name that stands for its own key or for another one, and passes over an entry with a nested pattern,
as over the rest of the props.

So they agree just where the names of the nested patterns are bound by plain entries as well
(`propNames_agree_iff`). A parameter such as `{ user: { name } }` binds a name that is not known as
a prop.
-/

namespace Recast

/-! ## Parameters -/

/-- An entry of an object pattern whose names and keys are words. -/
abbrev WordEntry := PatternEntry Word Word

/-- Entries of an object pattern whose names and keys are words. -/
abbrev WordEntries := PatternEntries Word Word

/-- A destructured props parameter as written: an object pattern with an optional default value. -/
structure PropsParameter where
  lead : Blanks
  entries : WordEntries
  gap : Blanks
  default? : Option DefaultCode

/-- The parameter as an item of the parameter list. -/
def PropsParameter.item (parameter : PropsParameter) : PatternItem Word Word :=
  .element parameter.lead (.object parameter.entries) parameter.gap parameter.default?

/-- The parameter as text. -/
def PropsParameter.print (parameter : PropsParameter) : Text :=
  parameter.item.print

/-- The name that an entry binds to a prop as it is. -/
def PatternEntry.plainName? : WordEntry → Option Text
  | .shorthand _ word _ _ => some word.text
  | .keyed _ _ _ _ (.name word) _ _ => some word.text
  | _ => none

/-- The names that an entry binds to parts of a prop, or to what is left of the props. -/
def PatternEntry.otherNames : WordEntry → List Text
  | .keyed _ _ _ _ (.array items) _ _ => items.names
  | .keyed _ _ _ _ (.object entries) _ _ => entries.names
  | .rest _ _ word _ => [word.text]
  | _ => []

/-- The entries in order. -/
def PatternEntries.toList : WordEntries → List WordEntry
  | .last entry => [entry]
  | .more entry entries => entry :: entries.toList

/-- The names that entries bind to props as they are. -/
def PatternEntries.plainNames (entries : WordEntries) : List Text :=
  entries.toList.filterMap PatternEntry.plainName?

/-- The names that entries bind otherwise. -/
def PatternEntries.otherNames (entries : WordEntries) : List Text :=
  entries.toList.flatMap PatternEntry.otherNames

theorem PatternEntries.parts_eq (entries : WordEntries) :
    entries.parts = entries.toList.map PatternEntry.print := by
  cases entries with
  | last entry => rfl
  | more entry entries =>
    rw [PatternEntries.parts, entries.parts_eq, PatternEntries.toList, List.map_cons]

theorem PatternEntries.names_eq (entries : WordEntries) :
    entries.names = entries.toList.flatMap fun entry => entry.bound.map Word.text := by
  rw [PatternEntries.names]
  cases entries with
  | last entry =>
    rw [PatternEntries.bound, PatternEntries.toList, List.flatMap_singleton]
    rfl
  | more entry entries =>
    rw [PatternEntries.bound, List.map_append, PatternEntries.toList, List.flatMap_cons,
      ← entries.names_eq]
    rfl

theorem PatternEntry.mem_bound {entry : WordEntry} {name : Text} :
    name ∈ entry.bound.map Word.text ↔ entry.plainName? = some name ∨ name ∈ entry.otherNames := by
  rcases entry with _ | _ | ⟨_, _, _, _, _ | _ | _, _, _⟩ | _ <;>
    simp [PatternEntry.bound, PatternTarget.bound, PatternEntry.plainName?, PatternEntry.otherNames,
      PatternItems.names, PatternEntries.names, eq_comm]

/-- Each name of a pattern is bound to a prop as it is, or otherwise. -/
theorem PatternEntries.mem_names {entries : WordEntries} {name : Text} :
    name ∈ entries.names ↔ name ∈ entries.plainNames ∨ name ∈ entries.otherNames := by
  simp only [names_eq, plainNames, otherNames, List.mem_flatMap, List.mem_filterMap,
    PatternEntry.mem_bound, and_or_left, exists_or]

/-- Every name of the parameter is found in it. -/
theorem PropsParameter.patternNames_print (parameter : PropsParameter) :
    patternNames parameter.print = parameter.entries.names :=
  (PatternItems.last parameter.item).patternNames_words

/-! ## Entries -/

/-- What is known of an entry without its default value: the name behind its colon, or the entry
itself. -/
def plainTarget? (target : Text) : Option Text :=
  let (prop, localName) :=
    match cutAt? ':' target with
    | some (prop, localName) => (trim prop, trim localName)
    | none => (target, target)
  if isIdentifier prop && isIdentifier localName then some localName else none

/-- The name of an entry is read off the part before the first equals sign. -/
theorem map_propBinding? {entry : Text} (dots : startsWith entry "...".toList = false) :
    (propBinding? entry).map PropBinding.localName =
      plainTarget? (match cutAt? '=' entry with
        | some (target, _) => trim target
        | none => entry) := by
  rw [propBinding?, dots, plainTarget?]
  cases cutAt? '=' entry with
  | none =>
    simp only [Bool.false_eq_true, if_false]
    split <;> simp_all
  | some cut =>
    simp only [Bool.false_eq_true, if_false]
    split <;> simp_all

theorem not_mem_of_quiet {t : Text} (quiet : ∀ c ∈ t, IsQuiet c) : ':' ∉ t ∧ '=' ∉ t :=
  ⟨fun h => Bool.noConfusion (quiet ':' h).2, fun h => Bool.noConfusion (quiet '=' h).2⟩

theorem Word.quiet (word : Word) : ∀ c ∈ word.text, IsQuiet c :=
  isQuiet_of_isIdentifier word.valid

theorem Blanks.quiet (blanks : Blanks) : ∀ c ∈ blanks.text, IsQuiet c :=
  isQuiet_of_isBlankText blanks.blank

theorem cutAt?_eq_none {mark : Char} {t : Text} (h : mark ∉ t) : cutAt? mark t = none := by
  have cut := cutAt?_append_of_not_mem [] h
  rw [List.append_nil] at cut
  rw [cut]
  rfl

theorem trim_of_trimmed {t : Text} (solid : Trimmed t) (gap : Blanks) :
    trim (t ++ gap.text) = t := by
  have around : trim ([] ++ (t ++ gap.text)) = _ := trim_around rfl solid gap.text
  rwa [trimEnd_blank gap.blank, List.append_nil, List.nil_append] at around

theorem startsWith_dots_eq_false {t : Text} (h : t.head? ≠ some '.') :
    startsWith t "...".toList = false := by
  cases t with
  | nil => rfl
  | cons c cs =>
    simp only [startsWith, Option.isSome_eq_false_iff, Option.isNone_iff_eq_none]
    exact if_neg fun same => h (by rw [← same]; rfl)

theorem Word.head?_ne_dot (word : Word) (t : Text) : (word.text ++ t).head? ≠ some '.' := by
  intro h
  obtain ⟨c, cs, cons, -⟩ := (trimmed_of_isIdentifier word.valid).first
  rw [cons] at h
  obtain rfl := Option.some.inj h
  exact Bool.noConfusion (isNameChar_of_isIdentifier word.valid '.' (by simp [cons]))

/-- A default value and blanks around an entry do not change what is known of it. -/
theorem map_propBinding?_solid {solid : Text} (trimmed : Trimmed solid)
    (dots : solid.head? ≠ some '.')
    (equals : '=' ∉ solid) (lead gap : Blanks) (default? : Option DefaultCode) :
    (propBinding? (trim (lead.text ++ (solid ++ (gap.text ++ printDefault default?))))).map
      PropBinding.localName =
      plainTarget? solid := by
  obtain ⟨c, cs, cons, -⟩ := trimmed.first
  have start : ∀ t, (solid ++ t).head? ≠ some '.' := fun t h => dots (by rw [cons] at h ⊢; exact h)
  rw [trim_around lead.blank trimmed, map_propBinding? (startsWith_dots_eq_false (start _))]
  cases default? with
  | none =>
    rw [printDefault, List.append_nil, trimEnd_blank gap.blank, List.append_nil,
      cutAt?_eq_none equals]
  | some code =>
    have last : trimEnd (gap.text ++ '=' :: code.text) = gap.text ++ '=' :: trimEnd code.text := by
      simpa using trimEnd_append (s := gap.text ++ ['=']) (by simp; decide) code.text
    have front : '=' ∉ solid ++ gap.text := by simp [equals, (not_mem_of_quiet gap.quiet).2]
    rw [printDefault, last, ← List.append_assoc, cutAt?_append _ front]
    simp only [trim_of_trimmed trimmed gap]

/-- A name that stands for its own key is known. -/
theorem plainTarget?_word (word : Word) : plainTarget? word.text = some word.text := by
  rw [plainTarget?, cutAt?_eq_none (not_mem_of_quiet word.quiet).1]
  simp [word.valid]

/-- A key and blanks before a colon are cut off there. -/
theorem cutAt?_key (key : Word) (before : Blanks) (t : Text) :
    cutAt? ':' (key.text ++ (before.text ++ ':' :: t)) = some (key.text ++ before.text, t) := by
  rw [← List.append_assoc]
  exact cutAt?_append t
    (by simp [(not_mem_of_quiet key.quiet).1, (not_mem_of_quiet before.quiet).1])

/-- What stands behind a key is known if it is a name. -/
theorem plainTarget?_keyed (key : Word) (before after : Blanks) {t : Text} (trimmed : Trimmed t)
    (tail : Text) :
    plainTarget? (key.text ++ (before.text ++ ':' :: (after.text ++ (t ++ tail)))) =
      if isIdentifier (t ++ trimEnd tail) then some (t ++ trimEnd tail) else none := by
  rw [plainTarget?, cutAt?_key]
  simp only [trim_of_trimmed (trimmed_of_isIdentifier key.valid) before,
    trim_around after.blank trimmed, key.valid, Bool.true_and]

/-- Nothing is known of an entry with a bracket behind its key. -/
theorem map_propBinding?_bracket (lead : Blanks) (key : Word) (before after : Blanks) {c : Char}
    (bracket : c = '[' ∨ c = '{') (t : Text) :
    (propBinding?
      (trim (lead.text ++ (key.text ++ (before.text ++ ':' :: (after.text ++ c :: t)))))).map
      PropBinding.localName = none := by
  have solid : Trimmed [c] :=
    ⟨⟨c, [], rfl, by rcases bracket with rfl | rfl <;> decide⟩, [], c, rfl,
    by rcases bracket with rfl | rfl <;> decide⟩
  have front : Trimmed (key.text ++ ((before.text ++ ':' :: after.text) ++ [c])) :=
    (trimmed_of_isIdentifier key.valid).around solid _
  have equals : '=' ∉ key.text ++ ((before.text ++ ':' :: after.text) ++ [c]) := by
    have other : '=' ≠ c := by rcases bracket with rfl | rfl <;> decide
    simp [(not_mem_of_quiet key.quiet).2, (not_mem_of_quiet before.quiet).2,
      (not_mem_of_quiet after.quiet).2, other]
  have start : isNameStart c = false := by rcases bracket with rfl | rfl <;> decide
  -- Whatever is left behind the bracket, it is no name.
  have unknown : ∀ rest,
      plainTarget? (key.text ++ ((before.text ++ ':' :: after.text) ++ [c]) ++ rest) = none := by
    intro rest
    have keyed := plainTarget?_keyed key before after solid rest
    have noName : isIdentifier ([c] ++ trimEnd rest) = false := by
      rw [List.singleton_append, isIdentifier, start, Bool.false_and]
    rw [noName, if_neg Bool.false_ne_true] at keyed
    rw [← keyed]
    simp
  have split : lead.text ++ (key.text ++ (before.text ++ ':' :: (after.text ++ c :: t))) =
      lead.text ++ ((key.text ++ ((before.text ++ ':' :: after.text) ++ [c])) ++ t) := by simp
  have dot : ∀ t, (key.text ++ ((before.text ++ ':' :: after.text) ++ [c]) ++ t).head? ≠
      some '.' := by
    intro t
    rw [List.append_assoc]
    exact key.head?_ne_dot _
  rw [split, trim_around lead.blank front, map_propBinding? (startsWith_dots_eq_false (dot _)),
    cutAt?_append_of_not_mem _ equals]
  cases cutAt? '=' (trimEnd t) with
  | none => exact unknown _
  | some cut =>
    have around : trim ([] ++ (_ ++ cut.1)) = _ := trim_around rfl front cut.1
    rw [List.nil_append] at around
    simp only [Option.map_some, around]
    exact unknown _

/-- What is known of an entry is the name that it binds to a prop as it is. -/
theorem PatternEntry.map_propBinding? (entry : WordEntry) :
    (propBinding? (trim entry.print)).map PropBinding.localName = entry.plainName? := by
  cases entry with
  | blank blanks =>
    rw [PatternEntry.print, trim_eq_nil.2 blanks.blank]
    rfl
  | shorthand lead word gap default? =>
    have start : word.text.head? ≠ some '.' := by simpa using word.head?_ne_dot []
    rw [PatternEntry.print, word.nameText_eq,
      map_propBinding?_solid (trimmed_of_isIdentifier word.valid) start
      (not_mem_of_quiet word.quiet).2, plainTarget?_word, PatternEntry.plainName?]
  | keyed lead key before after target gap default? =>
    rw [PatternEntry.print]
    cases target with
    | name word =>
      have valid := trimmed_of_isIdentifier word.valid
      have solid : Trimmed (key.text ++ ((before.text ++ ':' :: after.text) ++ word.text)) :=
        (trimmed_of_isIdentifier key.valid).around valid _
      have equals : '=' ∉ key.text ++ ((before.text ++ ':' :: after.text) ++ word.text) := by
        simp [(not_mem_of_quiet key.quiet).2, (not_mem_of_quiet before.quiet).2,
          (not_mem_of_quiet after.quiet).2, (not_mem_of_quiet word.quiet).2]
      have known := map_propBinding?_solid solid (key.head?_ne_dot _) equals lead gap default?
      have keyed := plainTarget?_keyed key before after valid []
      have nothing : trimEnd [] = [] := rfl
      simp only [List.append_assoc, List.cons_append, List.append_nil, nothing, word.valid, if_true]
        at known keyed
      rw [PatternTarget.print, key.keyText_eq, word.nameText_eq, known, keyed,
        PatternEntry.plainName?]
    | array items => exact map_propBinding?_bracket lead key before after (.inl rfl) _
    | object entries => exact map_propBinding?_bracket lead key before after (.inr rfl) _
  | rest lead gap word tail =>
    have dots : Trimmed "...".toList :=
      ⟨⟨'.', ['.', '.'], rfl, by decide⟩, ['.', '.'], '.', rfl, by decide⟩
    rw [PatternEntry.print, trim_around lead.blank dots, propBinding?, if_pos]
    · rfl
    · rw [startsWith, dropHead?_append]
      rfl

/-! ## Readers of the parameter -/

theorem PropsParameter.print_eq (parameter : PropsParameter) :
    parameter.print = parameter.lead.text ++ '{' :: (parameter.entries.print ++
      '}' :: (parameter.gap.text ++ printDefault parameter.default?)) := by
  simp [PropsParameter.print, PropsParameter.item, PatternItem.print, PatternTarget.print,
    PatternEntries.print]

/-- The pattern of the parameter is found. -/
theorem PropsParameter.patternSpan?_print (parameter : PropsParameter) :
    patternSpan? parameter.print =
      some ⟨parameter.lead.text.length,
        parameter.lead.text.length + parameter.entries.print.length + 2⟩ := by
  obtain ⟨lead, entries, gap, default?⟩ := parameter
  have inside := isInside_joinWith entries.isPart
  have whole : (PropsParameter.mk lead entries gap default?).print =
      lead.text ++ '{' :: (entries.print ++ '}' :: (gap.text ++ printDefault default?)) :=
    PropsParameter.print_eq _
  have plain : '<' ∉ (PropsParameter.mk lead entries gap default?).print :=
    (PropsParameter.item _).isPart.plain
  rw [whole] at plain
  have start : trimStart
      (lead.text ++ '{' :: (entries.print ++ '}' :: (gap.text ++ printDefault default?))) =
      '{' :: (entries.print ++ '}' :: (gap.text ++ printDefault default?)) := by
    rw [trimStart_append (by rintro c ⟨⟩; decide), trimStart,
      List.dropWhile_eq_nil_iff.2 (List.all_eq_true.1 lead.blank), List.nil_append]
  have stop : bracketEndAt?
      (lead.text ++ '{' :: (entries.print ++ '}' :: (gap.text ++ printDefault default?)))
      lead.text.length = some (lead.text.length + entries.print.length + 2) :=
    bracketEndAt?_group inside.closed .curly lead.text (unmarked_of_not_mem plain)
  rw [whole, patternSpan?]
  simp only [start, List.length_append, Nat.add_sub_cancel, List.head?_cons, if_true, stop,
    Option.map_some]

/-- The names known as props are the ones that are bound to props as they are. -/
theorem PropsParameter.map_propBindings (parameter : PropsParameter) :
    (propBindings parameter.print).map PropBinding.localName = parameter.entries.plainNames := by
  have inner : slice parameter.print (parameter.lead.text.length + 1)
      (parameter.lead.text.length + parameter.entries.print.length + 2 - 1) =
        parameter.entries.print := by
    rw [parameter.print_eq, slice_bracketed]
  have pieces := map_of_joinWith parameter.entries.parts_ne_nil parameter.entries.isPart
  have split : (splitTopLevel isComma parameter.entries.print).filterMap propBinding? =
      parameter.entries.parts.filterMap fun part => propBinding? (trim part) := by
    rw [splitTopLevel, piecesOf, List.filterMap_filter]
    conv_rhs => rw [← pieces, List.filterMap_map]
    rw [List.filterMap_map]
    refine List.filterMap_congr fun span _ => ?_
    -- Nothing is known of a blank piece, so that it does not matter whether it is left out.
    by_cases blank : (trim (span.of parameter.entries.print)).isEmpty
    · simp only [Function.comp_apply, PatternEntries.print] at blank ⊢
      rw [List.isEmpty_iff.1 blank]
      rfl
    · simp only [Function.comp_apply, PatternEntries.print] at blank ⊢
      simp [blank]
  rw [propBindings, parameter.patternSpan?_print]
  dsimp only
  rw [inner, split, parameter.entries.parts_eq, List.filterMap_map, PatternEntries.plainNames,
    List.map_filterMap]
  exact List.filterMap_congr fun entry _ => entry.map_propBinding?

theorem mem_setAlias_iff {aliases : List (Text × Text)} {key value name : Text} :
    name ∈ (propAliases.setAlias aliases key value).map Prod.fst ↔ name ∈ aliases.map Prod.fst ∨
      name = key := by
  rw [propAliases.setAlias]
  split
  · rename_i present
    have keys :
        (aliases.map fun entry => if entry.1 = key then (key, value) else entry).map Prod.fst =
          aliases.map Prod.fst := by
      rw [List.map_map]
      refine List.map_congr_left fun entry _ => ?_
      simp only [Function.comp_apply]
      split
      · exact (‹entry.1 = key›).symm
      · rfl
    obtain ⟨entry, mem, same⟩ := List.any_eq_true.1 present
    have known : key ∈ aliases.map Prod.fst := List.mem_map.2 ⟨entry, mem, beq_iff_eq.1 same⟩
    rw [keys]
    exact ⟨.inl, fun h => h.elim id fun same => same ▸ known⟩
  · simp

/-- The names of the aliases are the names of the bindings. -/
theorem mem_propAliases_iff {params name : Text} :
    name ∈ (propAliases params).map Prod.fst ↔
      name ∈ (propBindings params).map PropBinding.localName := by
  have fold : ∀ (bindings : List PropBinding) (aliases : List (Text × Text)),
      name ∈ (bindings.foldl
          (fun aliases binding => propAliases.setAlias aliases binding.localName binding.prop)
          aliases).map Prod.fst ↔
        name ∈ aliases.map Prod.fst ∨ name ∈ bindings.map PropBinding.localName := by
    intro bindings
    induction bindings with
    | nil => simp
    | cons binding bindings ih =>
      intro aliases
      rw [List.foldl_cons, ih, mem_setAlias_iff, List.map_cons, List.mem_cons, or_assoc]
  rw [propAliases, fold]
  simp

/-- For every destructured props parameter, the names found in the pattern are the names that it
binds, and the names known as props are the ones that its entries bind to props as they are. So the
two are the same names just if each name that is bound in a nested pattern, or to the rest of the
props, is bound by a plain entry as well. -/
theorem propNames_agree_iff (parameter : PropsParameter) :
    patternNames parameter.print = parameter.entries.names ∧
      (∀ name, name ∈ (propAliases parameter.print).map Prod.fst ↔
        name ∈ parameter.entries.plainNames) ∧
      ((∀ name, name ∈ (propAliases parameter.print).map Prod.fst ↔
        name ∈ patternNames parameter.print) ↔
        ∀ name ∈ parameter.entries.otherNames, name ∈ parameter.entries.plainNames) := by
  have known : ∀ name, name ∈ (propAliases parameter.print).map Prod.fst ↔
      name ∈ parameter.entries.plainNames := by
    intro name
    rw [mem_propAliases_iff, parameter.map_propBindings]
  refine ⟨parameter.patternNames_print, known, ?_⟩
  simp only [known, parameter.patternNames_print, PatternEntries.mem_names]
  exact ⟨fun same name other => (same name).2 (.inr other),
    fun all name => ⟨.inl, fun h => h.elim id (all name)⟩⟩

/-- A space. -/
def oneSpace : Blanks := ⟨[' '], by decide⟩

/-- No blanks. -/
def noSpace : Blanks := ⟨[], rfl⟩

/-- A parameter that takes a name out of a prop. -/
def userParameter : PropsParameter where
  lead := noSpace
  entries := .last (.keyed oneSpace ⟨"user".toList, by decide⟩ noSpace oneSpace
    (.object (.last (.shorthand oneSpace ⟨"name".toList, by decide⟩ oneSpace none))) oneSpace none)
  gap := noSpace
  default? := none

/-- The name in a nested pattern is bound, and not known as a prop. -/
theorem propAliases_userParameter :
    userParameter.print = "\x7b user: \x7b name \x7d \x7d".toList ∧
      propAliases userParameter.print = [] ∧
      patternNames userParameter.print = ["name".toList] := by
  refine ⟨by decide, by decide +kernel, ?_⟩
  rw [userParameter.patternNames_print]
  rfl

end Recast
