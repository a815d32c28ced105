import Recast.Proofs.Component.HeadSearch

/-!
# A declaration in front of a source

Putting a line in front of a source moves the definitions found in it, as long as the line starts no
component. The line `let X: T;` starts one all the same if an arrow function stands behind the first
equals sign of the source (`lendsArrow`): an annotation is read up to an equals sign, across the
semicolon and the line end, so the variable of the line takes the arrow function as its own.
`findDefinitions_declarationLine` says that this is the only way in which the line has an effect.
-/

namespace Recast

/-- The declaration of a variable with a type and without a value, on a line of its own. -/
def declarationLine (name type : Text) : Text :=
  "let ".toList ++ (name ++ (": ".toList ++ (type ++ ";\n".toList)))

/-- Whether an arrow function that counts as a component starts a text: one with a body, or one
whose markup has a fault. -/
def opensDefinition (t : Text) : Bool :=
  match arrowSignature? t 0 with
  | none => false
  | some signature =>
    match arrowBody? t signature.2 with
    | .ok found => found.isSome
    | .error _ => true

/-- Whether such an arrow function stands behind the first equals sign. -/
def lendsArrow (t : Text) : Bool :=
  (initialiser? t).any opensDefinition

/-! ## Reading the arrow function -/

/-- Whether a head starts a definition depends on what stands behind it alone. -/
theorem arrowDefinition?_eq_none_iff {front opening : Text} {head : Occurrence DefinitionHead}
    (stop : head.stop = front.length) :
    arrowDefinition? (front ++ opening) head = .ok none ↔ opensDefinition opening = false := by
  have place : head.stop = 0 + front.length := by rw [stop, Nat.zero_add]
  rw [arrowDefinition?, place, arrowSignature?_append, opensDefinition]
  cases arrowSignature? opening 0 with
  | none => simp
  | some signature =>
    simp only [Option.map_some, arrowBody?_append]
    cases arrowBody? opening signature.2 with
    | error fault => simp [shiftResult, Except.map]
    | ok found => cases found <;> simp [shiftResult, Except.map]

/-- A definition has the name and the annotation of its head. -/
theorem arrowDefinition?_head {source : Text} {head : Occurrence DefinitionHead}
    {definition : Definition} (h : arrowDefinition? source head = .ok (some definition)) :
    definition.name = head.value.name ∧ definition.variableType? = head.value.variableType? := by
  rw [arrowDefinition?] at h
  split at h
  · simp at h
  · rename_i params start _
    cases body : arrowBody? source start with
    | error fault => simp [body, Except.map] at h
    | ok found =>
      simp only [body, Except.map, Except.ok.injEq, Option.map_eq_some_iff] at h
      obtain ⟨_, -, rfl⟩ := h
      exact ⟨rfl, rfl⟩

/-! ## The line starts no component -/

/-- Before its bracket a function head has no semicolon. -/
theorem functionComponent_semicolon {behind front rest : Text} (h : '(' ∉ front) :
    functionComponent behind (front ++ ';' :: rest) = none := by
  rw [Option.eq_none_iff_forall_ne_some]
  intro found success
  obtain ⟨params, ⟨passed, split, words⟩, -⟩ := functionComponent_needs success
  have noBracket : '(' ∉ passed := fun hm => absurd (words _ hm) (by decide)
  have noSemicolon : ';' ∉ passed := fun hm => absurd (words _ hm) (by decide)
  have front' : '(' ∉ front ++ [';'] := by simp [h]
  have cut := cutAt?_append_of_not_mem rest front'
  rw [List.append_assoc, List.singleton_append, split, cutAt?_append params noBracket] at cut
  obtain ⟨more, -, same⟩ := Option.map_eq_some_iff.1 cut.symm
  have : passed = front ++ [';'] ++ more.1 := (Prod.mk.inj same).1.symm
  exact noSemicolon (by simp [this])

/-- In a line that ends with a semicolon and has no bracket no function component starts. -/
theorem functionComponent_silentIn {front : Text} (h : '(' ∉ front) (behind rest : Text) :
    SilentIn functionComponent behind (front ++ ";\n".toList) rest := by
  intro passed ahead split nonempty
  rcases List.append_eq_append_iff.1 split with ⟨more, rfl, same⟩ | ⟨more, rfl, rfl⟩
  · rcases more with _ | ⟨c, _ | ⟨d, more⟩⟩
    · obtain rfl : ahead = ";\n".toList := same.symm
      exact functionComponent_semicolon List.not_mem_nil
    · -- the last character follows the semicolon and starts no line
      obtain ⟨rfl, -⟩ := List.cons.inj same
      rw [List.reverse_append]
      rfl
    · simp_all
  · rw [List.append_assoc]
    exact functionComponent_semicolon fun hm => h (List.mem_append_right _ hm)

/-- Without an arrow function behind the first equals sign no arrow component starts before it. -/
theorem arrowComponent_silentIn {piece rest : Text} (he : '=' ∉ piece)
    (h : initialiser? rest = none) (behind : Text) : SilentIn arrowComponent behind piece rest := by
  intro passed ahead split _
  have noEquals : '=' ∉ ahead := fun hm => he (by simp [split, hm])
  rw [Option.eq_none_iff_forall_ne_some]
  intro found success
  obtain ⟨opening, init, -⟩ := arrowComponent_needs success
  rw [initialiser?_append noEquals, h] at init
  simp at init

/-! ## A line in front -/

section Line

variable {line s : Text}

/-- Behind a line in which nothing is found the same is found as without it. -/
theorem occurrences_line {α : Type} {recognise : Recogniser α}
    (looks : LooksBehindForLine recognise)
    (ends : startsLine line.reverse) (quiet : SilentIn recognise [] line s) :
    occurrences recognise (line ++ s) =
      (occurrences recognise s).map (Occurrence.shift line.length) := by
  rw [occurrences, occurrencesFrom_silent s 0 quiet, List.append_nil]
  exact occurrencesFrom_shift looks line.length s ends.symm (Aligned.none _ _)

/-- Where an arrow function stands behind the first equals sign, a line may take over heads that end
there. -/
theorem arrowOccurrences_line {mid opening : Text} (he : '=' ∉ line)
    (init : initialiser? (mid ++ opening) = some opening) :
    ∃ before before' others,
      (∀ found ∈ before, found.stop = mid.length) ∧
        (∀ found ∈ before', found.stop = (line ++ mid).length) ∧
      occurrences arrowComponent (mid ++ opening) = before ++ others ∧
      occurrences arrowComponent (line ++ mid ++ opening) =
        before' ++ others.map (Occurrence.shift line.length) := by
  have init' : initialiser? (line ++ mid ++ opening) = some opening := by
    rw [List.append_assoc, initialiser?_append he, init]
  obtain ⟨before, stops, found⟩ := arrowComponent_reaches init [] 0
  obtain ⟨before', stops', found'⟩ := arrowComponent_reaches init' [] 0
  rw [Nat.zero_add] at stops stops'
  refine ⟨before, before', _, stops, stops', found, ?_⟩
  obtain ⟨same, nonempty, split⟩ := exists_append_of_initialiser? init
  obtain rfl := List.append_cancel_right split
  have starts : startsLine (mid.reverse ++ []) = startsLine ((line ++ mid).reverse ++ []) := by
    obtain ⟨c, cs, last⟩ := List.exists_cons_of_ne_nil (List.reverse_ne_nil_iff.2 nonempty)
    rw [List.reverse_append, last]
    rfl
  rw [occurrences, found',
    ← occurrencesFrom_shift arrowComponent_looksBehind line.length opening starts
      (Aligned.none _ _)]
  rw [List.length_append]
  congr 2
  omega

/-- A line moves the definitions behind it, if the first equals sign there has no arrow function to
give away. -/
theorem findDefinitions_line (he : '=' ∉ line) (ends : startsLine line.reverse)
    (quiet : SilentIn functionComponent [] line s) (h : lendsArrow s = false) :
    findDefinitions (line ++ s) =
      shiftResult line.length (List.map (Definition.shift line.length)) (findDefinitions s) := by
  rw [findDefinitions_eq, findDefinitions_eq s,
    occurrences_line functionComponent_looksBehind ends quiet]
  cases init : initialiser? s with
  | none =>
    rw [occurrences_line arrowComponent_looksBehind ends (arrowComponent_silentIn he init []),
      definitionsFrom_append]
  | some opening =>
    obtain ⟨mid, -, rfl⟩ := exists_append_of_initialiser? init
    have opens : opensDefinition opening = false := by simpa [lendsArrow, init] using h
    obtain ⟨before, before', others, stops, stops', found, found'⟩ := arrowOccurrences_line he init
    rw [← List.append_assoc, found, found', List.append_assoc]
    rw [definitionsFrom_append_none fun head hm => (arrowDefinition?_eq_none_iff (stops head hm)).2
      opens]
    rw [← List.append_assoc,
      definitionsFrom_append_none fun head hm =>
        (arrowDefinition?_eq_none_iff (stops' head hm)).2 opens,
      List.append_assoc, definitionsFrom_append]

end Line

/-! ## The declaration of a variable -/

section Declaration

variable {name type s : Text}

theorem not_mem_declarationLine {mark : Char} (hn : ∀ c ∈ name, isNameChar c) (ht : mark ∉ type)
    (hm : isNameChar mark = false) (hs : mark ∉ "let : ;\n".toList) :
    mark ∉ declarationLine name type := by
  have name' : mark ∉ name := fun h => by simp [hn mark h] at hm
  unfold declarationLine
  simp_all

theorem declarationKeyword?_let {t : Text} (first : ∀ c, t.head? = some c → isBlank c = false) :
    declarationKeyword? ("let ".toList ++ t) = some t := by
  have blank : trimStart (' ' :: t) = t := trimStart_eq_self first
  change (if ((' ' :: t).head?.any isBlank) = true then some (trimStart (' ' :: t)) else none) =
    some t
  rw [blank]
  rfl

theorem capitalName?_append (capital : name.head?.any isCapital) (word : ∀ c ∈ name, isNameChar c)
    {rest : Text} (past : PastWord rest) : capitalName? (name ++ rest) = some (name, rest) := by
  have ahead : (name ++ rest).takeWhile isNameChar = name := wordAhead_append word past
  have after : (name ++ rest).dropWhile isNameChar = rest := afterWord_append word past
  have first : (name ++ rest).head?.any isCapital := by
    cases name with
    | nil => simp at capital
    | cons c cs => exact capital
  rw [capitalName?, if_pos first, ahead, after]

/-- The annotation of a declaration goes on behind its semicolon, up to an equals sign. -/
theorem annotatedEquals?_declaration {before after : Text} (he : '=' ∉ type)
    (cut : cutAt? '=' s = some (before, after)) :
    annotatedEquals? (": ".toList ++ (type ++ (";\n".toList ++ s))) =
      some (some (trim (type ++ (";\n".toList ++ before))), after) := by
  have noEquals : '=' ∉ ' ' :: type ++ ";\n".toList := by simp [he]
  have written := cutAt?_append_of_not_mem s noEquals
  rw [cut, Option.map_some] at written
  have split : ' ' :: type ++ ";\n".toList ++ s = ' ' :: (type ++ (";\n".toList ++ s)) := by simp
  have text : ' ' :: type ++ ";\n".toList ++ before =
      ' ' :: (type ++ (";\n".toList ++ before)) := by simp
  have type' : typeBeforeEquals? (' ' :: (type ++ (";\n".toList ++ before))) =
      some (trim (type ++ (";\n".toList ++ before))) := by
    have semicolon : isBlank ';' = false := by decide
    rw [typeBeforeEquals?, if_neg (by simp [isBlankText, semicolon])]
    rfl
  rw [split, text] at written
  have colon : trimStart (": ".toList ++ (type ++ (";\n".toList ++ s))) =
      ':' :: ' ' :: (type ++ (";\n".toList ++ s)) :=
    rfl
  rw [annotatedEquals?, colon]
  simp only [written, type', Option.map_some]

/-- Without such an arrow function the line only moves what stands behind it. -/
theorem findDefinitions_behindDeclaration (word : ∀ c ∈ name, isNameChar c) (he : '=' ∉ type)
    (hp : '(' ∉ type) (h : lendsArrow s = false) :
    findDefinitions (declarationLine name type ++ s) =
      shiftResult (declarationLine name type).length
        (List.map (Definition.shift (declarationLine name type).length)) (findDefinitions s) := by
  have front : declarationLine name type = "let ".toList ++ (name ++ (": ".toList ++ type)) ++
      ";\n".toList := by
    unfold declarationLine
    simp only [List.append_assoc]
  have bracket : '(' ∉ "let ".toList ++ (name ++ (": ".toList ++ type)) := fun hm =>
    not_mem_declarationLine word hp (by decide) (by decide) (front ▸ List.mem_append_left _ hm)
  refine findDefinitions_line (not_mem_declarationLine word he (by decide) (by decide)) ?_ ?_ h
  · rw [front, List.reverse_append]
    rfl
  · rw [front]
    exact functionComponent_silentIn bracket [] s

/-- The line starts a component with the arrow function behind the first equals sign, if there is
one. -/
theorem arrowComponent_declarationLine {opening : Text} (capital : name.head?.any isCapital)
    (word : ∀ c ∈ name, isNameChar c) (he : '=' ∉ type) (init : initialiser? s = some opening) :
    arrowComponent [] (declarationLine name type ++ s) =
      some (⟨[], name, (cutAt? '=' s).map fun cut => trim (type ++ (";\n".toList ++ cut.1))⟩,
        (declarationLine name type ++ s).length - opening.length) := by
  obtain ⟨⟨before, after⟩, cut, arrow⟩ := Option.bind_eq_some_iff.1 init
  have ahead : declarationLine name type ++ s =
      "let ".toList ++ (name ++ (": ".toList ++ (type ++ (";\n".toList ++ s)))) := by
    unfold declarationLine
    simp only [List.append_assoc]
  have first : ∀ c, (name ++ (": ".toList ++ (type ++ (";\n".toList ++ s)))).head? = some c →
      isBlank c = false := by
    intro c hc
    cases name with
    | nil => simp at capital
    | cons d ds =>
      obtain rfl := Option.some.inj hc
      exact not_isBlank_of_isNameChar (word _ (by simp))
  have same : afterExport (declarationLine name type ++ s) = declarationLine name type ++ s := by
    rw [ahead]
    rfl
  refine arrowComponent_eq_some.2 ⟨rfl, _, name, _, _, after, opening, ?_,
    capitalName?_append capital word ?_, annotatedEquals?_declaration he cut, arrow, ?_⟩
  · rw [same, ahead]
    exact declarationKeyword?_let first
  · intro c hc
    obtain rfl := Option.some.inj hc
    decide
  · rw [same, covers, textBefore, Nat.sub_self, cut]
    rfl

/-- The variable of the line takes the arrow function over and is the first component. -/
theorem findDefinitions_takesOver (capital : name.head?.any isCapital)
    (word : ∀ c ∈ name, isNameChar c)
    (he : '=' ∉ type) (h : lendsArrow s = true) {found : List Definition}
    (read : findDefinitions (declarationLine name type ++ s) = .ok found) :
    ∃ first others, found = first :: others ∧ first.name = name ∧ first.start = 0 ∧
      first.variableType? = (cutAt? '=' s).map fun cut =>
        trim (type ++ (";\n".toList ++ cut.1)) := by
  obtain ⟨opening, init, opens⟩ := (Option.any_eq_true _ _).1 h
  have head := arrowComponent_declarationLine capital word he init
  generalize (cutAt? '=' s).map _ = type? at head ⊢
  obtain ⟨mid, hm, rfl⟩ := exists_append_of_initialiser? init
  have nonempty : declarationLine name type ++ mid ≠ [] := by simp [hm]
  rw [← List.append_assoc] at head read
  generalize declarationLine name type ++ mid = piece at head read nonempty
  rw [List.length_append, Nat.add_sub_cancel] at head
  rw [findDefinitions_eq, occurrences, occurrencesFrom_found 0 nonempty head] at read
  cases first : arrowDefinition? (piece ++ opening) ⟨0, 0 + piece.length, ⟨[], name, type?⟩⟩ with
  | error fault =>
    rw [definitionsFrom_error first] at read
    simp at read
  | ok found? =>
    cases found? with
    | none => simp [(arrowDefinition?_eq_none_iff (Nat.zero_add _)).1 first] at opens
    | some definition =>
      obtain ⟨named, annotated⟩ := arrowDefinition?_head first
      obtain ⟨start, -⟩ := arrowDefinition?_bounds first
      obtain ⟨others, rfl⟩ := definitionsFrom_first first start read
      exact ⟨definition, others, rfl, named, start, annotated⟩

/-- A declaration without a value moves the definitions behind it by its length, with everything
else as it was, just if no arrow function stands behind the first equals sign; faults move likewise.
Otherwise its variable is the first component, and has the text from its type up to that equals sign
as its annotation. -/
theorem findDefinitions_declarationLine (capital : name.head?.any isCapital)
    (identifier : isIdentifier name) (he : '=' ∉ type) (hp : '(' ∉ type) (s : Text) :
    (∀ definitions, findDefinitions s = .ok definitions →
      (findDefinitions (declarationLine name type ++ s) =
          .ok (definitions.map (Definition.shift (declarationLine name type).length)) ↔
            lendsArrow s = false)) ∧
    (∀ fault, findDefinitions s = .error fault → lendsArrow s = false →
      findDefinitions (declarationLine name type ++ s) =
        .error (fault.shift (declarationLine name type).length)) ∧
    (lendsArrow s = true → ∀ found, findDefinitions (declarationLine name type ++ s) = .ok found →
      ∃ first others, found = first :: others ∧ first.name = name ∧ first.start = 0 ∧
        first.variableType? = (cutAt? '=' s).map fun cut =>
          trim (type ++ (";\n".toList ++ cut.1))) := by
  have word := isNameChar_of_isIdentifier identifier
  have moved : lendsArrow s = false → _ := findDefinitions_behindDeclaration word he hp
  refine ⟨fun definitions found => ⟨fun same => ?_, fun h => ?_⟩, fun fault found h => ?_,
      fun h found read => findDefinitions_takesOver capital word he h read⟩
  · rw [Bool.eq_false_iff]
    intro h
    obtain ⟨first, others, split, -, start, -⟩ := findDefinitions_takesOver capital word he h same
    obtain ⟨definition, -, rfl⟩ :=
      List.mem_map.1 (split ▸ List.mem_cons_self : first ∈ definitions.map _)
    have positive : 0 < (declarationLine name type).length := Nat.zero_lt_succ _
    simp only [Definition.shift] at start
    omega
  · rw [moved h, found]
    rfl
  · rw [moved h, found]
    rfl

end Declaration

/-! ## Two sources -/

theorem findDefinitions_eq_singleton {source : Text} (arrows : List (Option Definition))
    {definition : Definition}
    (read : (occurrences arrowComponent source).mapM (arrowDefinition? source) = .ok arrows)
    (single : arrows.reduceOption ++
      (occurrences functionComponent source).filterMap (functionDefinition? source) =
      [definition]) : findDefinitions source = .ok [definition] := by
  rw [findDefinitions_eq, definitionsFrom, read, Except.map, single, List.mergeSort_singleton,
    dropNested, if_neg (Nat.not_lt_zero _), dropNested]

/-- A function component. -/
def functionSource : Text :=
  "function App() \x7b\n  return <p />;\n\x7d".toList

/-- The definition in `functionSource`. -/
def functionSourceDefinition : Definition :=
  { name := "App".toList, exported := [], params := [], variableType? := none,
    body := "\n  return <p />;\n".toList, concise := false, start := 0, stop := 34 }

/-- A declaration in front of a function component moves it. -/
theorem findDefinitions_total_functionSource :
    findDefinitions functionSource = .ok [functionSourceDefinition] ∧
      findDefinitions (declarationLine "Total".toList "number".toList ++ functionSource) =
        .ok [functionSourceDefinition.shift 19] := by
  have alone : findDefinitions functionSource = .ok [functionSourceDefinition] :=
    findDefinitions_eq_singleton [] (by decide +kernel) (by decide +kernel)
  have capital : "Total".toList.head?.any isCapital := by decide
  have identifier : isIdentifier "Total".toList := by decide
  have noEquals : '=' ∉ "number".toList := by decide
  have noBracket : '(' ∉ "number".toList := by decide
  obtain ⟨moved, -⟩ :=
    findDefinitions_declarationLine capital identifier noEquals noBracket functionSource
  exact ⟨alone, (moved _ alone).2 (by decide +kernel)⟩

/-- An arrow component. -/
def arrowSource : Text :=
  "const App = () => \x7b\n  return <p />;\n\x7d;".toList

/-- The definition in `arrowSource`. -/
def arrowSourceDefinition : Definition :=
  { functionSourceDefinition with stop := 38 }

/-- What is read instead behind the declaration of `Total`. -/
def totalDefinition : Definition :=
  { arrowSourceDefinition with
    name := "Total".toList, variableType? := some "number;\nconst App".toList, stop := 57 }

/-- A declaration in front of `arrowSource` takes its arrow function over: `App` is not found any
more. -/
theorem findDefinitions_total_arrowSource :
    findDefinitions arrowSource = .ok [arrowSourceDefinition] ∧
      findDefinitions (declarationLine "Total".toList "number".toList ++ arrowSource) =
        .ok [totalDefinition] ∧
      findDefinitions (declarationLine "Total".toList "number".toList ++ arrowSource) ≠
        .ok [arrowSourceDefinition.shift
          (declarationLine "Total".toList "number".toList).length] := by
  have alone : findDefinitions arrowSource = .ok [arrowSourceDefinition] :=
    findDefinitions_eq_singleton [some arrowSourceDefinition] (by decide +kernel)
      (by decide +kernel)
  have behind : findDefinitions (declarationLine "Total".toList "number".toList ++ arrowSource) =
      .ok [totalDefinition] :=
    findDefinitions_eq_singleton [some totalDefinition] (by decide +kernel) (by decide +kernel)
  refine ⟨alone, behind, ?_⟩
  rw [behind]
  decide

end Recast
