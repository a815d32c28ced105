import Mathlib.Data.List.ReduceOption
import Recast.Component.ClassComponent
import Recast.Proofs.Scan.Found
import Recast.Proofs.Text.Gap
import Recast.Proofs.Text.Sweep
import Recast.Text.Length

/-!
# The spans of components

A definition starts where its head was found and ends behind a bracket or an element that comes
after the head, so it covers some text and ends inside the source (`arrowDefinition?_bounds`,
`functionDefinition?_bounds`). Those that start inside an earlier one are dropped, so the spans of
what is found are in order (`findDefinitions_ordered`), and so are those of class components
(`classesFrom_ordered`).
-/

namespace Recast

/-- The span of a definition. -/
def Definition.span (definition : Definition) : Span :=
  ⟨definition.start, definition.stop⟩

/-- A class component as it is found: its head, its type arguments and the span of its body. -/
abbrev FoundClass := Occurrence DefinitionHead × Text × Span

/-- The span of a class component, from its head to the end of its body. -/
def FoundClass.span (found : FoundClass) : Span :=
  ⟨found.1.start, found.2.2.stop⟩

/-! ## Parts of a definition -/

theorem length_afterArrow?_le {t rest : Text} (h : afterArrow? t = some rest) :
    rest.length ≤ t.length := by
  obtain ⟨after, cut, rfl⟩ := Option.map_eq_some_iff.1 h
  have arrow := length_dropHead?_le cut
  have blanks := length_trimStart_le after
  have front := length_trimStart_le t
  split at arrow
  · rename_i type colon
    have type_le := (List.dropWhile_sublist (· != '=') (l := type)).length_le
    rw [colon, List.length_cons] at front
    omega
  · omega

theorem length_fromBrace?_le {t rest : Text} (h : fromBrace? t = some rest) :
    rest.length ≤ t.length := by
  have front := length_trimStart_le t
  rw [fromBrace?] at h
  split at h
  · rename_i brace
    obtain rfl := Option.some.inj h
    rwa [← brace]
  · rename_i type colon
    split at h
    · obtain rfl := Option.some.inj h
      have type_le := (List.dropWhile_sublist (· != '{') (l := type)).length_le
      rw [colon, List.length_cons] at front
      omega
    · simp at h
  · simp at h

/-- Only a semicolon on the same line is passed over. -/
theorem semicolonEnd_bounds {t : Text} {pos : Nat} (h : pos ≤ t.length) :
    pos ≤ semicolonEnd t pos ∧ semicolonEnd t pos ≤ t.length := by
  have rest_le := (List.dropWhile_sublist isIndent (l := t.drop pos)).length_le
  rw [List.length_drop] at rest_le
  rw [semicolonEnd]
  split
  · rename_i semicolon
    obtain ⟨rest, found⟩ := List.head?_eq_some_iff.1 semicolon
    have := congrArg List.length found
    rw [List.length_cons] at this
    omega
  · omega

/-- The body of an arrow function comes after its parameters. -/
theorem arrowSignature?_bounds {source params : Text} {opening start : Nat}
    (h : arrowSignature? source opening = some (params, start)) : opening ≤ start := by
  rw [arrowSignature?] at h
  split at h
  · simp only [Option.bind_eq_bind, Option.bind_eq_some_iff, Option.some.injEq, Prod.mk.injEq] at h
    obtain ⟨stop, bracket, body, arrow, -, rfl⟩ := h
    have bounds := bracketEndAt?_bounds bracket
    have body_le := length_afterArrow?_le arrow
    rw [List.length_drop] at body_le
    omega
  · simp only [Option.bind_eq_bind, Option.bind_eq_some_iff, Option.some.injEq, Prod.mk.injEq] at h
    obtain ⟨name, identifier, body, arrow, -, rfl⟩ := h
    have inside : opening < source.length := by
      by_contra outside
      rw [List.drop_eq_nil_of_le (by omega), identifier?] at identifier
      simp at identifier
    have body_le := length_afterArrow?_le arrow
    rw [List.length_drop, List.length_drop] at body_le
    omega

/-- The body of an arrow function covers some text. -/
theorem arrowBody?_bounds {source body : Text} {start stop : Nat} {concise : Bool}
    (h : arrowBody? source start = .ok (some (body, concise, stop))) :
    start < stop ∧ stop ≤ source.length := by
  rw [arrowBody?] at h
  split at h
  · cases ends : elementEndAt source start with
    | error fault => simp [ends, Except.map] at h
    | ok found =>
      simp only [ends, Except.map, Except.ok.injEq, Option.map_eq_some_iff, Prod.mk.injEq] at h
      obtain ⟨_, rfl, -, -, rfl⟩ := h
      have bounds := elementEndAt_bounds ends
      omega
  · simp only [Except.ok.injEq, Option.map_eq_some_iff, Prod.mk.injEq] at h
    obtain ⟨_, bracket, -, -, rfl⟩ := h
    have bounds := bracketEndAt?_bounds bracket
    omega
  · simp only [Except.ok.injEq, Option.bind_eq_some_iff, Option.ite_none_right_eq_some,
      Option.some.injEq, Prod.mk.injEq] at h
    obtain ⟨_, bracket, -, -, -, rfl⟩ := h
    have bounds := bracketEndAt?_bounds bracket
    omega
  · simp at h

/-! ## Definitions -/

/-- A definition starts with its head and ends behind it, inside the source. -/
theorem arrowDefinition?_bounds {source : Text} {head : Occurrence DefinitionHead}
    {definition : Definition} (h : arrowDefinition? source head = .ok (some definition)) :
    definition.start = head.start ∧ head.stop < definition.stop ∧
      definition.stop ≤ source.length := by
  rw [arrowDefinition?] at h
  split at h
  · simp at h
  · rename_i params start signature
    cases body : arrowBody? source start with
    | error fault => simp [body, Except.map] at h
    | ok found =>
      simp only [body, Except.map, Except.ok.injEq, Option.map_eq_some_iff] at h
      obtain ⟨⟨text, concise, stop⟩, rfl, rfl⟩ := h
      have before := arrowSignature?_bounds signature
      have inside := arrowBody?_bounds body
      have after := semicolonEnd_bounds inside.2
      exact ⟨rfl, by dsimp only; omega, after.2⟩

theorem functionDefinition?_bounds {source : Text} {head : Occurrence DefinitionHead}
    {definition : Definition} (h : functionDefinition? source head = some definition) :
    definition.start = head.start ∧ head.stop < definition.stop ∧
      definition.stop ≤ source.length := by
  simp only [functionDefinition?, Option.bind_eq_bind, Option.bind_eq_some_iff,
    Option.some.injEq] at h
  obtain ⟨paramsEnd, params, block, brace, stop, body, rfl⟩ := h
  have params_bounds := bracketEndAt?_bounds params
  have body_bounds := bracketEndAt?_bounds body
  have block_le := length_fromBrace?_le brace
  rw [List.length_drop] at block_le
  exact ⟨rfl, by dsimp only; omega, body_bounds.2⟩

theorem mem_of_mapM_eq_ok {α β ε : Type} {f : α → Except ε β} :
    ∀ {as : List α} {bs : List β}, as.mapM f = .ok bs → ∀ b ∈ bs, ∃ a ∈ as, f a = .ok b
  | [], bs, h => by
    cases h
    simp
  | a :: as, bs, h => by
    rw [List.mapM_cons] at h
    cases first : f a with
    | error fault => simp [first, bind, Except.bind] at h
    | ok b =>
      cases rest : as.mapM f with
      | error fault => simp [first, rest, bind, Except.bind] at h
      | ok others =>
        simp only [first, rest, bind, Except.bind, pure, Except.pure, Except.ok.injEq] at h
        subst h
        intro d hd
        rcases List.mem_cons.1 hd with rfl | hd
        · exact ⟨a, by simp, first⟩
        · obtain ⟨other, hm, ho⟩ := mem_of_mapM_eq_ok rest d hd
          exact ⟨other, by simp [hm], ho⟩

/-- Without nested definitions the spans are in order. -/
theorem dropNested_ordered {size : Nat} :
    ∀ {definitions : List Definition} {last : Nat}, last ≤ size →
    (∀ definition ∈ definitions, definition.start < definition.stop ∧ definition.stop ≤ size) →
    OrderedFrom size last ((dropNested last definitions).map Definition.span)
  | [], _, hl, _ => hl
  | definition :: definitions, last, hl, h => by
    have bounds := h definition (by simp)
    have rest : ∀ other ∈ definitions, other.start < other.stop ∧ other.stop ≤ size :=
      fun other hm => h other (by simp [hm])
    rw [dropNested]
    split
    · exact dropNested_ordered hl rest
    · rename_i outside
      exact ⟨Nat.le_of_not_lt outside, bounds.1, dropNested_ordered bounds.2 rest⟩

theorem start_le_stop_of_mem_occurrences {α : Type} {recognise : Recogniser α} {t : Text}
    {found : Occurrence α} (h : found ∈ occurrences recognise t) : found.start ≤ found.stop := by
  obtain ⟨passed, ahead, size, -, -, start, stop⟩ := exists_of_mem_occurrencesFrom h
  omega

/-- The definitions of a source are in order, none inside another. -/
theorem findDefinitions_ordered {source : Text} {definitions : List Definition}
    (h : findDefinitions source = .ok definitions) :
    OrderedFrom source.length 0 (definitions.map Definition.span) := by
  rw [findDefinitions] at h
  cases found : (occurrences arrowComponent source).mapM (arrowDefinition? source) with
  | error fault => simp [found, bind, Except.bind] at h
  | ok arrows =>
    rw [found] at h
    obtain rfl := Except.ok.inj h
    refine dropNested_ordered (Nat.zero_le _) fun definition hm => ?_
    rcases List.mem_append.1 (List.mem_mergeSort.1 hm) with hm | hm
    · obtain ⟨head, hh, read⟩ :=
        mem_of_mapM_eq_ok found (some definition) (List.reduceOption_mem_iff.1 hm)
      have bounds := arrowDefinition?_bounds read
      have := start_le_stop_of_mem_occurrences hh
      omega
    · obtain ⟨head, hh, read⟩ := List.mem_filterMap.1 hm
      have bounds := functionDefinition?_bounds read
      have := start_le_stop_of_mem_occurrences hh
      omega

/-! ## Class components -/

theorem angleEndFrom_bounds : ∀ {t : Text} {depth : Int} {pos resume stop : Nat},
    angleEndFrom depth pos resume t = some stop → pos < stop ∧ stop ≤ pos + t.length
  | [], _, _, _, _, h => by simp [angleEndFrom] at h
  | c :: cs, depth, pos, resume, stop, h => by
    have tail : ∀ {depth resume}, angleEndFrom depth (pos + 1) resume cs = some stop →
        pos < stop ∧ stop ≤ pos + (c :: cs).length := by
      intro depth resume h
      have := angleEndFrom_bounds h
      rw [List.length_cons]
      omega
    rw [angleEndFrom] at h
    split at h
    · exact tail h
    · split at h
      · split at h
        · exact tail h
        · simp at h
      · split at h
        · exact tail h
        · split at h
          · split at h
            · obtain rfl := Option.some.inj h
              rw [List.length_cons]
              omega
            · exact tail h
          · exact tail h

theorem afterBlanks_bounds {t : Text} {pos : Nat} (h : pos ≤ t.length) :
    pos ≤ afterBlanks t pos ∧ afterBlanks t pos ≤ t.length := by
  have blanks := length_trimStart_le (t.drop pos)
  rw [List.length_drop] at blanks
  rw [afterBlanks]
  omega

/-- The body of a class is a brace at an offset behind the blanks, or behind the type arguments. -/
theorem classBody?_found {source arguments : Text} {pos : Nat} {body : Span}
    (h : classBody? source pos = some (arguments, body)) :
    bracketEndAt? source body.start = some body.stop ∧
      (body.start = afterBlanks source pos ∨ ∃ stop, body.start = afterBlanks source stop ∧
        angleEndFrom 0 (afterBlanks source pos) 0 (source.drop (afterBlanks source pos)) =
          some stop) := by
  rw [classBody?] at h
  simp only [Option.bind_eq_bind] at h
  split at h
  · obtain ⟨⟨given, brace⟩, found, h⟩ := Option.bind_eq_some_iff.1 h
    obtain ⟨stop, angle, same⟩ := Option.map_eq_some_iff.1 found
    obtain ⟨-, rfl⟩ := Prod.mk.inj same
    obtain ⟨-, h⟩ := Option.ite_none_right_eq_some.1 h
    obtain ⟨close, bracket, same⟩ := Option.map_eq_some_iff.1 h
    obtain ⟨-, rfl⟩ := Prod.mk.inj same
    exact ⟨bracket, .inr ⟨stop, rfl, angle⟩⟩
  · obtain ⟨-, h⟩ := Option.ite_none_right_eq_some.1 h
    obtain ⟨close, bracket, same⟩ := Option.map_eq_some_iff.1 h
    obtain ⟨-, rfl⟩ := Prod.mk.inj same
    exact ⟨bracket, .inl rfl⟩

/-- The body of a class comes after the place where it is looked for. -/
theorem classBody?_bounds {source arguments : Text} {pos : Nat} {body : Span}
    (h : classBody? source pos = some (arguments, body)) :
    pos < body.stop ∧ body.stop ≤ source.length := by
  obtain ⟨bracket, place⟩ := classBody?_found h
  have bounds := bracketEndAt?_bounds bracket
  have inside : pos ≤ source.length := by
    by_contra outside
    have blanks : afterBlanks source pos = source.length := by
      rw [afterBlanks, List.drop_eq_nil_of_le (by omega)]
      rfl
    rcases place with here | ⟨stop, -, angle⟩
    · omega
    · simp [blanks, angleEndFrom] at angle
  have blanks := afterBlanks_bounds inside
  rcases place with here | ⟨stop, here, angle⟩
  · omega
  · have angle_bounds := angleEndFrom_bounds angle
    rw [List.length_drop] at angle_bounds
    have next : stop ≤ afterBlanks source stop ∧ afterBlanks source stop ≤ source.length :=
      afterBlanks_bounds (by omega)
    omega

/-- Class components are in order, none inside another. -/
theorem classesFrom_ordered {source : Text} :
    ∀ {heads : List (Occurrence DefinitionHead)} {last : Nat},
    last ≤ source.length → (∀ head ∈ heads, head.start ≤ head.stop) →
    OrderedFrom source.length last ((classesFrom source last heads).map FoundClass.span)
  | [], _, hl, _ => hl
  | head :: heads, last, hl, h => by
    have covers : head.start ≤ head.stop := h head (by simp)
    have rest : ∀ other ∈ heads, other.start ≤ other.stop := fun other hm => h other (by simp [hm])
    rw [classesFrom]
    split
    · exact classesFrom_ordered hl rest
    · rename_i outside
      split
      · rename_i arguments body found
        have bounds := classBody?_bounds found
        exact ⟨Nat.le_of_not_lt outside, Nat.lt_of_le_of_lt covers bounds.1,
          classesFrom_ordered bounds.2 rest⟩
      · exact classesFrom_ordered hl rest

/-- The class components of a source in order. -/
def findClasses (source : Text) : List FoundClass :=
  classesFrom source 0 (occurrences classHead source)

theorem findClasses_ordered (source : Text) :
    OrderedFrom source.length 0 ((findClasses source).map FoundClass.span) :=
  classesFrom_ordered (Nat.zero_le _) fun _ => start_le_stop_of_mem_occurrences

end Recast
