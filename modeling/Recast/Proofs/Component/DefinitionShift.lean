import Recast.Proofs.Component.ComponentSpan
import Recast.Proofs.Scan.Shift
import Recast.Proofs.Text.StableSort

/-!
# Definitions behind another text

A definition is read from its head on: with another text in front of the source it is the same
definition, further on (`arrowDefinition?_append`, `functionDefinition?_append`). `definitionsFrom`
reads the definitions of given heads, and `definitionsFrom_append` says the same for all of them
together, with the choice between nested ones.
-/

namespace Recast

/-- The definition that stands `n` further. -/
def Definition.shift (n : Nat) (definition : Definition) : Definition :=
  { definition with start := definition.start + n, stop := definition.stop + n }

/-- The occurrence that stands `n` further. -/
def Occurrence.shift {α : Type} (n : Nat) (found : Occurrence α) : Occurrence α :=
  { found with start := found.start + n, stop := found.stop + n }

/-! ## Parts -/

theorem semicolonEnd_append (front t : Text) (pos : Nat) :
    semicolonEnd (front ++ t) (pos + front.length) = semicolonEnd t pos + front.length := by
  have rest_le := (List.dropWhile_sublist isIndent (l := t.drop pos)).length_le
  rw [List.length_drop] at rest_le
  rw [semicolonEnd, semicolonEnd, drop_append_shift, List.length_append]
  split
  · omega
  · rfl

theorem length_append_sub (front : Text) {t rest : Text} (h : rest.length ≤ t.length) :
    (front ++ t).length - rest.length = t.length - rest.length + front.length := by
  rw [List.length_append]
  omega

theorem slice_inside_append (front t : Text) (start : Nat) {stop : Nat} (h : 0 < stop) :
    slice (front ++ t) (start + front.length + 1) (stop + front.length - 1) =
      slice t (start + 1) (stop - 1) := by
  have ends : stop + front.length - 1 = stop - 1 + front.length := by omega
  rw [Nat.add_right_comm, ends, slice_append_shift]

theorem arrowSignature?_append (front t : Text) (opening : Nat) :
    arrowSignature? (front ++ t) (opening + front.length) =
      (arrowSignature? t opening).map fun found => (found.1, found.2 + front.length) := by
  rw [arrowSignature?, arrowSignature?, drop_append_shift, bracketEndAt?_append]
  split
  · cases bracket : bracketEndAt? t opening with
    | none => rfl
    | some stop =>
      have bounds := bracketEndAt?_bounds bracket
      simp only [Option.map_some, Option.bind_eq_bind, Option.bind_some, drop_append_shift]
      cases arrow : afterArrow? (t.drop stop) with
      | none => rfl
      | some body =>
        have body_le : body.length ≤ t.length := (length_afterArrow?_le arrow).trans (by simp)
        simp only [Option.bind_some, Option.map_some]
        rw [slice_inside_append front t opening (by omega), length_append_sub front body_le]
  · cases identifier? (t.drop opening) with
    | none => rfl
    | some name =>
      simp only [Option.bind_eq_bind, Option.bind_some]
      cases arrow : afterArrow? ((t.drop opening).drop name.length) with
      | none => rfl
      | some body =>
        have body_le : body.length ≤ t.length := (length_afterArrow?_le arrow).trans (by simp)
        simp only [Option.bind_some, Option.map_some]
        rw [length_append_sub front body_le]

theorem arrowBody?_append (front t : Text) (start : Nat) :
    arrowBody? (front ++ t) (start + front.length) =
      shiftResult front.length
        (Option.map fun found => (found.1, found.2.1, found.2.2 + front.length))
        (arrowBody? t start) := by
  rw [arrowBody?, arrowBody?, drop_append_shift, elementEndAt_append, bracketEndAt?_append]
  split
  · cases elementEndAt t start with
    | error fault => rfl
    | ok found =>
      cases found with
      | none => rfl
      | some stop => simp [shiftResult, Except.map, slice_append_shift]
  · cases bracket : bracketEndAt? t start with
    | none => rfl
    | some stop =>
      have bounds := bracketEndAt?_bounds bracket
      simp only [Option.map_some, shiftResult]
      rw [slice_inside_append front t start (by omega)]
  · cases bracket : bracketEndAt? t start with
    | none => rfl
    | some stop =>
      have bounds := bracketEndAt?_bounds bracket
      simp only [Option.map_some, Option.bind_some, shiftResult]
      rw [slice_inside_append front t start (by omega)]
      split <;> rfl
  · rfl

/-! ## Definitions -/

/-- An arrow component is read the same behind another text. -/
theorem arrowDefinition?_append (front t : Text) (head : Occurrence DefinitionHead) :
    arrowDefinition? (front ++ t) (head.shift front.length) =
      shiftResult front.length (Option.map (Definition.shift front.length))
        (arrowDefinition? t head) := by
  rw [arrowDefinition?, arrowDefinition?, Occurrence.shift, arrowSignature?_append]
  cases arrowSignature? t head.stop with
  | none => rfl
  | some signature =>
    obtain ⟨params, start⟩ := signature
    simp only [Option.map_some, arrowBody?_append]
    cases arrowBody? t start with
    | error fault => rfl
    | ok found =>
      cases found with
      | none => rfl
      | some body =>
        obtain ⟨text, concise, stop⟩ := body
        simp [shiftResult, Except.map, Definition.shift, semicolonEnd_append]

/-- A function component is read the same behind another text. -/
theorem functionDefinition?_append (front t : Text) (head : Occurrence DefinitionHead) :
    functionDefinition? (front ++ t) (head.shift front.length) =
      (functionDefinition? t head).map (Definition.shift front.length) := by
  rw [functionDefinition?, functionDefinition?, Occurrence.shift, bracketEndAt?_append]
  cases bracket : bracketEndAt? t head.stop with
  | none => rfl
  | some paramsEnd =>
    have bounds := bracketEndAt?_bounds bracket
    simp only [Option.map_some, Option.bind_eq_bind, Option.bind_some, drop_append_shift]
    cases brace : fromBrace? (t.drop paramsEnd) with
    | none => rfl
    | some block =>
      have block_le : block.length ≤ t.length := (length_fromBrace?_le brace).trans (by simp)
      simp only [Option.bind_some, length_append_sub front block_le, bracketEndAt?_append]
      cases body : bracketEndAt? t (t.length - block.length) with
      | none => rfl
      | some stop =>
        have bounds := bracketEndAt?_bounds body
        simp only [Option.map_some, Option.bind_some, Definition.shift]
        rw [slice_inside_append front t _ (by omega), slice_inside_append front t _ (by omega)]

/-! ## All definitions of a source -/

/-- The definitions of a source that the given heads of arrow components and of function components
start. -/
def definitionsFrom (source : Text) (arrows functions : List (Occurrence DefinitionHead)) :
    Except MarkupFault (List Definition) :=
  (arrows.mapM (arrowDefinition? source)).map fun arrows =>
    dropNested 0
      ((arrows.reduceOption ++ functions.filterMap (functionDefinition? source)).mergeSort
        fun a b => decide (a.start ≤ b.start))

theorem findDefinitions_eq (source : Text) :
    findDefinitions source =
      definitionsFrom source (occurrences arrowComponent source)
        (occurrences functionComponent source) := by
  rw [findDefinitions, definitionsFrom]
  cases (occurrences arrowComponent source).mapM (arrowDefinition? source) <;> rfl

theorem mapM_shiftResult {α β γ : Type} {n : Nat} {move : β → β} {f : γ → Except MarkupFault β}
    {g : α → Except MarkupFault β} {place : γ → α}
    (h : ∀ c, g (place c) = shiftResult n move (f c)) :
    ∀ cs : List γ, (cs.map place).mapM g = shiftResult n (List.map move) (cs.mapM f)
  | [] => rfl
  | c :: cs => by
    rw [List.map_cons, List.mapM_cons, List.mapM_cons, h c, mapM_shiftResult h cs]
    cases f c with
    | error fault => rfl
    | ok b => cases cs.mapM f <;> rfl

theorem reduceOption_map {α : Type} (move : α → α) (found : List (Option α)) :
    (found.map (Option.map move)).reduceOption = found.reduceOption.map move := by
  simp [List.reduceOption, List.filterMap_map, List.map_filterMap]

theorem dropNested_shift (n : Nat) : ∀ (definitions : List Definition) (last : Nat),
    dropNested (last + n) (definitions.map (Definition.shift n)) =
      (dropNested last definitions).map (Definition.shift n)
  | [], _ => rfl
  | definition :: definitions, last => by
    have nested : (definition.shift n).start < last + n ↔ definition.start < last :=
      Nat.add_lt_add_iff_right
    have after := dropNested_shift n definitions definition.stop
    rw [List.map_cons, dropNested, dropNested]
    simp only [nested, dropNested_shift n definitions last]
    split
    · rfl
    · exact congrArg _ after

/-- No definition starts before the text that stands in front. -/
theorem dropNested_shift_of_le {n last : Nat} (h : last ≤ n) (definitions : List Definition) :
    dropNested last (definitions.map (Definition.shift n)) =
      (dropNested 0 definitions).map (Definition.shift n) := by
  rw [← dropNested_shift]
  cases definitions with
  | nil => rfl
  | cons definition definitions =>
    have start : n ≤ (definition.shift n).start := Nat.le_add_left _ _
    rw [List.map_cons, dropNested, dropNested, if_neg (by omega), if_neg (by omega)]

theorem mergeSort_shift (n : Nat) (definitions : List Definition) :
    ((definitions.map (Definition.shift n)).mergeSort fun a b => decide (a.start ≤ b.start)) =
      (definitions.mergeSort fun a b => decide (a.start ≤ b.start)).map (Definition.shift n) := by
  refine (List.map_mergeSort fun a _ b _ => ?_).symm
  simp [Definition.shift]

theorem filterMap_functionDefinition?_append (front t : Text)
    (functions : List (Occurrence DefinitionHead)) :
    (functions.map (Occurrence.shift front.length)).filterMap (functionDefinition? (front ++ t)) =
      (functions.filterMap (functionDefinition? t)).map (Definition.shift front.length) := by
  rw [List.filterMap_map, List.map_filterMap]
  exact List.filterMap_congr fun head _ => functionDefinition?_append front t head

/-- The definitions of given heads are the same behind another text. -/
theorem definitionsFrom_append (front t : Text)
    (arrows functions : List (Occurrence DefinitionHead)) :
    definitionsFrom (front ++ t) (arrows.map (Occurrence.shift front.length))
        (functions.map (Occurrence.shift front.length)) =
      shiftResult front.length (List.map (Definition.shift front.length))
        (definitionsFrom t arrows functions) := by
  rw [definitionsFrom, definitionsFrom, mapM_shiftResult (arrowDefinition?_append front t),
    filterMap_functionDefinition?_append]
  cases arrows.mapM (arrowDefinition? t) with
  | error fault => rfl
  | ok found =>
    simp only [shiftResult, Except.map, reduceOption_map, ← List.map_append]
    rw [mergeSort_shift, dropNested_shift_of_le (Nat.zero_le _)]

/-- Heads that start nothing do not count. -/
theorem definitionsFrom_append_none {source : Text}
    {arrows functions : List (Occurrence DefinitionHead)} :
    ∀ {before : List (Occurrence DefinitionHead)},
      (∀ head ∈ before, arrowDefinition? source head = .ok none) →
      definitionsFrom source (before ++ arrows) functions = definitionsFrom source arrows functions
  | [], _ => rfl
  | head :: before, h => by
    have first : arrowDefinition? source head = .ok none := h head (by simp)
    have rest : definitionsFrom source (before ++ arrows) functions =
        definitionsFrom source arrows functions :=
      definitionsFrom_append_none fun other hm => h other (List.mem_cons_of_mem _ hm)
    rw [← rest, definitionsFrom, definitionsFrom, List.cons_append, List.mapM_cons, first]
    cases (before ++ arrows).mapM (arrowDefinition? source) <;> rfl

theorem definitionsFrom_error {source : Text} {head : Occurrence DefinitionHead}
    {fault : MarkupFault}
    (first : arrowDefinition? source head = .error fault)
    (arrows functions : List (Occurrence DefinitionHead)) :
    definitionsFrom source (head :: arrows) functions = .error fault := by
  rw [definitionsFrom, List.mapM_cons, first]
  rfl

/-- A definition at the start of the source is the first one. -/
theorem definitionsFrom_first {source : Text} {head : Occurrence DefinitionHead}
    {definition : Definition}
    {arrows functions : List (Occurrence DefinitionHead)} {found : List Definition}
    (first : arrowDefinition? source head = .ok (some definition)) (start : definition.start = 0)
    (h : definitionsFrom source (head :: arrows) functions = .ok found) :
    ∃ others, found = definition :: others := by
  rw [definitionsFrom, List.mapM_cons, first] at h
  cases rest : arrows.mapM (arrowDefinition? source) with
  | error fault => simp [rest, Except.map, bind, Except.bind] at h
  | ok others =>
    simp only [rest, Except.map, bind, Except.bind, pure, Except.pure, Except.ok.injEq] at h
    subst h
    rw [List.reduceOption_cons_of_some, List.cons_append, mergeSort_cons_of_le (by simp [start]),
      dropNested, if_neg (Nat.not_lt_zero _)]
    exact ⟨_, rfl⟩

end Recast
