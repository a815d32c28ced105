import Recast.Proofs.Scope.ExpressionScopes
import Recast.Proofs.Scope.Walk

/-!
# The words of an expression

The walk over the text of an expression turns each part of it into some text (`Turns`), and what it
turns a word into depends on what stands around the word. A name that stands for a value becomes
what its tree becomes (`Name.turns`), and so does an entry that is its own key
(`Name.turns_shorthand`). Parameters, member names, keys and numbers stay. The names that are bound
at a place of the text are those of the arrow functions around it (`BoundIn`).
-/

namespace Recast

/-! ## Bound names -/

/-- In a range of offsets, the names that are bound are those given, those of the inner scopes and
those of others. -/
def BoundIn (scopes others : List BindingScope) (bound : List Text) (inner : List BindingScope)
    (start stop : Nat) : Prop :=
  ∀ name pos, start ≤ pos → pos < stop →
    isBound scopes name pos =
      (bound.contains name || isBound inner name pos || isBound others name pos)

theorem isBound_append (first second : List BindingScope) (name : Text) (pos : Nat) :
    isBound (first ++ second) name pos = (isBound first name pos || isBound second name pos) :=
  List.any_append

/-- Nothing is bound outside the range of the scopes. -/
theorem Inside.isBound_eq_false {start stop : Nat} {scopes : List BindingScope}
    (h : Inside start stop scopes)
    (name : Text) {pos : Nat} (hp : pos < start ∨ stop ≤ pos) :
    isBound scopes name pos = false := by
  rw [isBound, List.any_eq_false]
  intro scope hm
  have range := h scope hm
  have outside : (decide (scope.start ≤ pos) && decide (pos < scope.stop)) = false := by
    rw [Bool.and_eq_false_iff, decide_eq_false_iff_not, decide_eq_false_iff_not]
    omega
  rw [outside, Bool.false_and]
  decide

variable {scopes others inner first second : List BindingScope} {bound : List Text}
  {start stop start' stop' : Nat}

theorem BoundIn.mono (h : BoundIn scopes others bound inner start stop) (hs : start ≤ start')
    (he : stop' ≤ stop) :
    BoundIn scopes others bound inner start' stop' := fun name pos hp hq =>
  h name pos (Nat.le_trans hs hp) (Nat.lt_of_lt_of_le hq he)

/-- In a part of a range, scopes that lie behind it do not matter. -/
theorem BoundIn.left {mid last : Nat} (h : BoundIn scopes others bound (first ++ second) start stop)
    (hi : Inside mid last second) (hs : start ≤ start') (he : stop' ≤ stop) (hm : stop' ≤ mid) :
    BoundIn scopes others bound first start' stop' := fun name pos hp hq => by
  have whole := h name pos (Nat.le_trans hs hp) (Nat.lt_of_lt_of_le hq he)
  rw [whole, isBound_append, hi.isBound_eq_false name (.inl (Nat.lt_of_lt_of_le hq hm)),
    Bool.or_false]

/-- In a part of a range, scopes that lie before it do not matter. -/
theorem BoundIn.right {mid last : Nat}
    (h : BoundIn scopes others bound (first ++ second) start stop)
    (hi : Inside last mid first) (hs : start ≤ start') (he : stop' ≤ stop) (hm : mid ≤ start') :
    BoundIn scopes others bound second start' stop' := fun name pos hp hq => by
  have whole := h name pos (Nat.le_trans hs hp) (Nat.lt_of_lt_of_le hq he)
  rw [whole, isBound_append, hi.isBound_eq_false name (.inr (Nat.le_trans hm hp)), Bool.false_or]

/-- The parameters of an arrow function are bound in it. -/
theorem BoundIn.arrow {names : List Text}
    (h : BoundIn scopes others bound (⟨start, stop, names⟩ :: inner) start stop) :
    BoundIn scopes others (names ++ bound) inner start stop := fun name pos hp hq => by
  have own : isBound (⟨start, stop, names⟩ :: inner) name pos =
      (names.contains name || isBound inner name pos) := by
    simp [isBound, hp, hq]
  rw [h name pos hp hq, own, List.contains_eq_any_beq, List.contains_eq_any_beq,
    List.contains_eq_any_beq, List.any_append]
  cases names.any fun other => name == other <;> simp

theorem BoundIn.param {names : List Text}
    (h : BoundIn scopes others bound (⟨start, stop, names⟩ :: inner) start stop)
    {name : Text} (hm : name ∈ names) {pos : Nat} (hs : start ≤ pos) (he : pos < stop) :
    isBound scopes name pos := by
  rw [h.arrow name pos hs he, List.contains_iff_mem.2 (List.mem_append_left bound hm), Bool.true_or,
    Bool.true_or]

/-! ## What the walk makes of a part -/

variable {refs : References}

/-- A text is the one that was to be made, or has fewer dots if an access in it is missed. -/
def Made (missed : Bool) (made out : Text) : Prop :=
  if missed then made.count '.' < out.count '.' else made = out

theorem Made.append {missed missed' : Bool} {made out made' out' : Text} (h : Made missed made out)
    (h' : Made missed' made' out') : Made (missed || missed') (made ++ made') (out ++ out') := by
  rw [Made] at *
  rw [List.count_append, List.count_append]
  cases missed with
  | false =>
    obtain rfl : made = out := h
    cases missed' with
    | false => exact congrArg (made ++ ·) h'
    | true => exact Nat.add_lt_add_left h' _
  | true =>
    have less : made'.count '.' ≤ out'.count '.' := by
      cases missed' with
      | false => exact Nat.le_of_eq (congrArg (List.count '.') h')
      | true => exact Nat.le_of_lt h'
    exact Nat.add_lt_add_of_lt_of_le h less

/-- The walk turns the part `body` of the text, which masking shows as `code`, into `out`, less what
is missed. -/
def Turns (refs : References) (scopes : List BindingScope) (behind code body out : Text)
    (missed : Bool) (rest rest' : Text) : Prop :=
  ∃ made, Made missed made out ∧
    walk refs scopes behind behind.length (code ++ rest) (body ++ rest') =
    made ++ walk refs scopes (code.reverse ++ behind) (behind.length + code.length) rest rest'

theorem Turns.append {behind code body out code' body' out' rest rest' : Text}
    {missed missed' : Bool}
    (h : Turns refs scopes behind code body out missed (code' ++ rest) (body' ++ rest'))
    (h' : Turns refs scopes (code.reverse ++ behind) code' body' out' missed' rest rest') :
    Turns refs scopes behind (code ++ code') (body ++ body') (out ++ out') (missed || missed') rest
      rest' := by
  obtain ⟨made, hm, walked⟩ := h
  obtain ⟨made', hm', walked'⟩ := h'
  refine ⟨made ++ made', hm.append hm', ?_⟩
  rw [length_reverse_append] at walked'
  simp only [List.append_assoc, List.reverse_append, List.length_append] at walked ⊢
  rw [walked, walked', Nat.add_assoc]

/-- Nothing more is missed with a part before it in which nothing is. -/
theorem Turns.prepend {behind code body out code' body' out' rest rest' : Text} {missed : Bool}
    (h : Turns refs scopes behind code body out false (code' ++ rest) (body' ++ rest'))
    (h' : Turns refs scopes (code.reverse ++ behind) code' body' out' missed rest rest') :
    Turns refs scopes behind (code ++ code') (body ++ body') (out ++ out') missed rest rest' :=
  h.append h'

/-- Text without name characters is copied. -/
theorem turns_quiet (hn : ∀ entry ∈ refs, isWord entry.1) {code body : Text}
    (hl : code.length = body.length)
    (hc : ∀ c ∈ code, isNameChar c = false) (behind rest rest' : Text) :
    Turns refs scopes behind code body body false rest rest' :=
  ⟨body, rfl, walk_quiet_append hn rest rest' code body behind behind.length hl hc⟩

/-- A character that is not of a name is copied. -/
theorem Turns.mark (hn : ∀ entry ∈ refs, isWord entry.1) {c b : Char} (hc : isNameChar c = false)
    {behind code body out rest rest' : Text} {missed : Bool}
    (h : Turns refs scopes (c :: behind) code body out missed rest rest') :
    Turns refs scopes behind (c :: code) (b :: body) (b :: out) missed rest rest' := by
  have copied : Turns refs scopes behind [c] [b] [b] false (code ++ rest) (body ++ rest') := by
    refine turns_quiet hn ?_ ?_ behind _ _
    · rfl
    · simpa using hc
  exact copied.prepend h

/-- Text without name characters after a part is copied. -/
theorem Turns.append_quiet (hn : ∀ entry ∈ refs, isWord entry.1)
    {behind code body out tail rest rest' : Text}
    {missed : Bool}
    (h : Turns refs scopes behind code body out missed (tail ++ rest) (tail ++ rest'))
    (hc : ∀ c ∈ tail, isNameChar c = false) :
    Turns refs scopes behind (code ++ tail) (body ++ tail) (out ++ tail) missed rest rest' := by
  rw [← Bool.or_false missed]
  exact h.append (turns_quiet hn rfl hc _ rest rest')

theorem turns_hide (hn : ∀ entry ∈ refs, isWord entry.1) (content behind rest rest' : Text) :
    Turns refs scopes behind (content.map hide) content content false rest rest' := by
  refine turns_quiet hn (List.length_map hide) (fun c hc => ?_) behind rest rest'
  obtain ⟨d, _, rfl⟩ := List.mem_map.1 hc
  rw [hide]
  split <;> decide

theorem turns_bracketed (hn : ∀ entry ∈ refs, isWord entry.1) {needed missed : Bool}
    {behind code body out rest rest' : Text}
    (inside : needed = true →
      Turns refs scopes ('(' :: behind) code body out missed (')' :: rest) (')' :: rest'))
    (bare : needed = false → Turns refs scopes behind code body out missed rest rest') :
    Turns refs scopes behind (bracketed needed code) (bracketed needed body) (bracketed needed out)
      missed rest rest' := by
  cases needed with
  | false => exact bare rfl
  | true => exact .mark hn (by decide) (.append_quiet hn (inside rfl) (by decide))

/-! ## Names -/

/-- The references to state variables and props that are given as words. -/
def wordReferences (state : List Word) (props : List (Word × Word)) : References :=
  references (state.map (·.text)) (props.map fun entry => (entry.1.text, entry.2.text))

theorem isIdentifier_of_mem_wordReferences {state : List Word} {props : List (Word × Word)} :
    ∀ entry ∈ wordReferences state props, isIdentifier entry.1 := by
  intro entry hm
  simp only [wordReferences, references, List.map_map, List.mem_append, List.mem_map] at hm
  rcases hm with ⟨word, _, rfl⟩ | ⟨⟨word, key⟩, _, rfl⟩
  · exact word.valid
  · exact word.valid

theorem isWord_of_mem_wordReferences {state : List Word} {props : List (Word × Word)} :
    ∀ entry ∈ wordReferences state props, isWord entry.1 := fun entry hm =>
  isWord_of_isIdentifier (isIdentifier_of_mem_wordReferences entry hm)

variable {state : List Word} {props : List (Word × Word)}

theorem lookup_words (name : Text) :
    ∀ props : List (Word × Word),
      (props.map fun entry => (entry.1.text, entry.2.text)).lookup name =
      (props.find? (·.1.text = name)).map (·.2.text)
  | [] => rfl
  | (word, key) :: props => by
    have ih := lookup_words name props
    rw [List.map_cons, List.lookup_cons, List.find?_cons, ih]
    by_cases h : word.text = name
    · simp [h]
    · have other : (name == word.text) = false := by simpa using Ne.symm h
      simp [h, other]

/-- The access that takes the place of a name is the text that is looked up for it. -/
theorem Name.print_access? (x : Name) :
    (wordReferences state props).lookup x.text = (x.access? state props).map Expr.print := by
  have known : (state.map (·.text)).contains x.text = state.any (·.text = x.text) := by
    rw [Bool.eq_iff_iff, List.contains_iff_mem, List.mem_map, List.any_eq_true]
    simp only [decide_eq_true_eq]
  rw [wordReferences, lookup_references, Name.access?, known, lookup_words]
  split
  · rfl
  · rw [Option.map_map, Option.map_map]
    rfl

/-- Whether a name that is free refers to something of the instance. -/
def Name.refers (state : List Word) (props : List (Word × Word)) (use : Use) (x : Name) : Bool :=
  (x.access? state props).isSome || decide (use = .object ∧ x.text = "props".toList)
    || decide (use = .callee ∧ isSetterName x.text ∧ x.text ∉ globalSetters)

/-- Whether a reference at an offset is missed: the name is free there, but one of the other scopes
binds it. -/
def Name.missed (state : List Word) (props : List (Word × Word)) (others : List BindingScope)
    (bound : List Text) (use : Use) (pos : Nat) (x : Name) : Bool :=
  !bound.contains x.text && isBound others x.text pos && x.refers state props use

theorem Name.qualify_of_not_refers {x : Name} {use : Use} (h : x.refers state props use = false) :
    x.qualify state props bound use = .name x := by
  simp only [Name.refers, Bool.or_eq_false_iff, decide_eq_false_iff_not, Option.isSome_eq_false_iff,
    Option.isNone_iff_eq_none] at h
  simp only [Name.qualify, h.1.1, h.1.2, h.2, if_false, ite_self]

theorem dot_mem_member (root : Expr) (key : Word) : '.' ∈ (Expr.member root key).print := by
  rw [Expr.print, Expr.write]
  exact List.mem_append_right _ List.mem_cons_self

theorem Name.dot_mem_access? {x : Name} {access : Expr} (h : x.access? state props = some access) :
    '.' ∈ access.print := by
  rw [Name.access?] at h
  split at h
  · cases h
    exact dot_mem_member _ _
  · obtain ⟨entry, _, rfl⟩ := Option.map_eq_some_iff.1 h
    exact dot_mem_member _ _

/-- A reference becomes an access of a member. -/
theorem Name.dot_mem_qualify {x : Name} {use : Use} (hb : bound.contains x.text = false)
    (h : x.refers state props use) : '.' ∈ (x.qualify state props bound use).print := by
  rw [Name.qualify, if_neg (Bool.eq_false_iff.1 hb)]
  cases ha : x.access? state props with
  | some access => exact Name.dot_mem_access? ha
  | none =>
    simp only [Name.refers, ha, Option.isSome_none, Bool.false_or, Bool.or_eq_true,
      decide_eq_true_eq] at h
    dsimp only
    split
    · exact dot_mem_member _ _
    · rename_i hp
      rw [if_pos (h.resolve_left hp)]
      exact dot_mem_member _ _

theorem Word.count_dot (word : Word) : word.text.count '.' = 0 :=
  List.count_eq_zero.2 fun hm => Bool.noConfusion (word.isNameChar '.' hm)

/-! ## Mentions in an expression -/

/-- An expression is the root of a member just if a dot follows it. -/
theorem follows_dot {use : Use} {rest : Text} (h : Follows use rest) :
    rest.head? = some '.' ↔ use = .object := by
  cases use with
  | value =>
    refine ⟨fun hd => ?_, by rintro ⟨⟩⟩
    have := h '.' (head?_trimStart_of_head? (by decide) hd)
    exact absurd this (by decide)
  | object => exact ⟨fun _ => rfl, fun _ => h⟩
  | callee =>
    refine ⟨fun hd => ?_, by rintro ⟨⟩⟩
    rw [Follows, hd] at h
    cases h

/-- An expression is called just if a bracket follows it. -/
theorem follows_call {use : Use} {rest : Text} (h : Follows use rest) :
    (trimStart rest).head? = some '(' ↔ use = .callee := by
  cases use with
  | value =>
    refine ⟨fun hd => ?_, by rintro ⟨⟩⟩
    exact absurd (h '(' hd) (by decide)
  | object =>
    refine ⟨fun hd => ?_, by rintro ⟨⟩⟩
    rw [head?_trimStart_of_head? (by decide) h] at hd
    cases hd
  | callee => exact ⟨fun _ => rfl, fun _ => head?_trimStart_of_head? (by decide) h⟩

theorem follows_colon {use : Use} {rest : Text} (h : Follows use rest) :
    (trimStart rest).head? ≠ some ':' := by
  intro hd
  cases use with
  | value => exact absurd (h ':' hd) (by decide)
  | object =>
    rw [head?_trimStart_of_head? (by decide) h] at hd
    cases hd
  | callee =>
    rw [head?_trimStart_of_head? (by decide) h] at hd
    cases hd

theorem pastWord_of_follows {use : Use} {rest : Text} (h : Follows use rest) : PastWord rest := by
  cases use with
  | value => exact pastWord_of_notCalled (notCalled_of_value h)
  | object =>
    intro c hc
    rw [h] at hc
    cases hc
    decide
  | callee =>
    intro c hc
    rw [h] at hc
    cases hc
    decide

theorem Opens.isMember {behind : Text} (h : Opens behind) (name ahead : Text) :
    (⟨name, behind, ahead⟩ : Mention).isMember = false := by
  rw [Mention.isMember]
  by_cases hd : behind.head? = some '.'
  · simp only [h.member hd, Bool.not_true, Bool.and_false]
  · simp only [hd, decide_false, Bool.false_and]

theorem Opens.isShorthand {behind : Text} (h : Opens behind) (name ahead : Text) :
    (⟨name, behind, ahead⟩ : Mention).isShorthand = false := by
  rw [Mention.isShorthand, Bool.and_eq_false_iff]
  by_cases he : (trimStart behind).head? = some '{' ∨ (trimStart behind).head? = some ','
  · exact .inr (decide_eq_false (h.entry he))
  · left
    have entry : (⟨name, behind, ahead⟩ : Mention).startsEntry = false := by
      rw [Mention.startsEntry]
      cases hd : (trimStart behind).head? with
      | none => rfl
      | some c =>
        rw [hd] at he
        simpa using he
    rw [entry, Bool.false_and]

/-- No name is declared where no word comes before. -/
theorem isDeclared_eq_false {behind : Text}
    (h : ∀ c, (trimStart behind).head? = some c → isNameChar c = false)
    (name ahead : Text) : (⟨name, behind, ahead⟩ : Mention).isDeclared = false := by
  have unkeyed : ∀ keyword ∈ declaringKeywords, dropHead? keyword.reverse (trimStart behind) =
      none := by
    intro keyword hk
    have last : keyword.reverse.head?.any isNameChar :=
      (by decide : ∀ kw ∈ declaringKeywords, kw.reverse.head?.any isNameChar) keyword hk
    cases hw : keyword.reverse with
    | nil => simp [hw] at last
    | cons c cs =>
      have name : isNameChar c := by simpa [hw] using last
      cases ht : trimStart behind with
      | nil => rfl
      | cons d ds =>
        refine dropHead?_eq_none ?_ _ _
        rintro rfl
        rw [h c (by rw [ht]; rfl)] at name
        cases name
  rw [Mention.isDeclared, Bool.and_eq_false_iff]
  right
  rw [List.any_eq_false]
  intro keyword hk
  simp only [unkeyed keyword hk]
  decide

/-- A member name stays. -/
theorem qualified_of_isMember {mention : Mention} (h : mention.isMember) (pos : Nat) :
    mention.qualified refs scopes pos = mention.name := by
  simp [Mention.qualified, Mention.refers, Mention.refersToProps, Mention.refersToSetter, h]

/-- A name that is bound stays. -/
theorem qualified_of_isBound {mention : Mention} {pos : Nat} (h : isBound scopes mention.name pos) :
    mention.qualified refs scopes pos = mention.name := by
  simp [Mention.qualified, Mention.refers, Mention.refersToProps, Mention.refersToSetter, h]

/-- A key stays. -/
theorem qualified_of_isKey {mention : Mention} (h : mention.isKey) (pos : Nat) :
    mention.qualified refs scopes pos = mention.name := by
  have colon : (trimStart mention.ahead).head? = some ':' := by
    rw [Mention.isKey, Bool.and_eq_true] at h
    exact of_decide_eq_true h.2
  have dot : mention.ahead.head? ≠ some '.' := by
    intro hd
    rw [head?_trimStart_of_head? (by decide) hd] at colon
    cases colon
  simp [Mention.qualified, Mention.refers, Mention.refersToProps, Mention.refersToSetter,
    Mention.callsSetter, h, colon, dot]

/-- A name that stands for a value becomes what the tree says. -/
theorem Name.qualified (x : Name) {use : Use} {behind rest : Text} {pos : Nat} (ho : Opens behind)
    (hf : Follows use rest) (hb : isBound scopes x.text pos = bound.contains x.text) :
    (⟨x.text, behind, rest⟩ : Mention).qualified (wordReferences state props) scopes pos =
      (x.qualify state props bound use).print := by
  have member := ho.isMember x.text rest
  have declared := isDeclared_eq_false ho.free x.text rest
  have key : (⟨x.text, behind, rest⟩ : Mention).isKey = false := by
    simp [Mention.isKey, follows_colon hf]
  have shorthand : (⟨x.text, behind, rest⟩ : Mention).isShorthand = false :=
    ho.isShorthand x.text rest
  have looked : (wordReferences state props).lookup x.text = _ := x.print_access?
  cases hc : bound.contains x.text with
  | true =>
    rw [Name.qualify, if_pos hc, qualified_of_isBound (hb.trans hc)]
    rfl
  | false =>
    have free : isBound scopes x.text pos = false := hb.trans hc
    have refers : (⟨x.text, behind, rest⟩ : Mention).refers (wordReferences state props)
        scopes pos =
        (x.access? state props).isSome := by
      simp only [Mention.refers, contains_references, looked, Option.isSome_map, member, declared,
        key, free, Bool.or_self, Bool.not_false, Bool.and_true]
    have toProps : (⟨x.text, behind, rest⟩ : Mention).refersToProps scopes pos ↔
        use = .object ∧ x.text = "props".toList := by
      simp only [Mention.refersToProps, member, free, Bool.or_self, Bool.not_false, Bool.and_true,
        Bool.and_eq_true, beq_iff_eq, decide_eq_true_eq, follows_dot hf]
      exact And.comm
    have toSetter : (⟨x.text, behind, rest⟩ : Mention).refersToSetter scopes pos ↔
        use = .callee ∧ isSetterName x.text ∧ x.text ∉ globalSetters := by
      simp only [Mention.refersToSetter, Mention.callsSetter, member, declared, free, Bool.or_false,
        Bool.and_eq_true, decide_eq_true_eq, follows_call hf, Bool.not_eq_true',
        List.contains_eq_mem, decide_eq_false_iff_not]
      tauto
    rw [Mention.qualified, refers, Name.qualify, if_neg (Bool.eq_false_iff.1 hc)]
    cases ha : x.access? state props with
    | some access =>
      rw [ha] at looked
      simp only [Option.isSome_some, if_true, Mention.access, shorthand, Bool.false_eq_true,
        if_false, looked]
      rfl
    | none =>
      simp only [Option.isSome_none, Bool.false_eq_true, if_false, toProps, toSetter]
      split
      · rfl
      · split <;> rfl

/-! ## Words on the walk -/

theorem Word.isWord (word : Word) : isWord word.text :=
  isWord_of_isIdentifier word.valid

theorem Ends.sameDot {rest : Text} (h : Ends rest) (rest' : Text) : SameDot rest rest' := fun hd =>
  absurd (h '.' hd) (by decide)

theorem sameDot_cons {c : Char} {rest : Text} (h : c ≠ '.') (rest' : Text) :
    SameDot (c :: rest) rest' := by
  rintro ⟨⟩
  exact absurd rfl h

/-- A word turns into what its mention becomes. -/
theorem Word.turns (hn : ∀ entry ∈ refs, Recast.isWord entry.1) (word : Word)
    {behind rest rest' out : Text} {missed : Bool}
    (hf : PastWord behind) (hr : PastWord rest) (hd : SameDot rest rest')
    (hm : Made missed ((⟨word.text, behind, rest⟩ : Mention).qualified refs scopes behind.length)
      out) :
    Turns refs scopes behind word.text word.text out missed rest rest' :=
  ⟨_, hm, walk_word hn word.isWord (startsFree_of_pastWord hf) hr hd behind.length⟩

/-- What becomes of a name that stands for a value is what the tree says, unless another scope binds
it. -/
theorem Name.made (x : Name) {use : Use} {behind rest : Text} {pos : Nat} (ho : Opens behind)
    (hf : Follows use rest)
    (hb : isBound scopes x.text pos = (bound.contains x.text || isBound others x.text pos)) :
    Made (x.missed state props others bound use pos)
      ((⟨x.text, behind, rest⟩ : Mention).qualified (wordReferences state props) scopes pos)
      (x.qualify state props bound use).print := by
  rw [Name.missed]
  cases hc : bound.contains x.text with
  | true => exact x.qualified ho hf (by rw [hb, hc, Bool.true_or])
  | false =>
    cases hs : isBound others x.text pos with
    | false => exact x.qualified ho hf (by rw [hb, hc, hs, Bool.or_false])
    | true =>
      rw [qualified_of_isBound (by rw [hb, hs, Bool.or_true])]
      cases hr : x.refers state props use with
      | false =>
        rw [Name.qualify_of_not_refers hr]
        rfl
      | true =>
        have dot := List.count_pos_iff.2 (Name.dot_mem_qualify hc hr)
        rw [← x.count_dot] at dot
        exact dot

/-- A name that stands for a value turns into what the tree says. -/
theorem Name.turns (x : Name) {use : Use} {behind rest rest' : Text} {pos : Nat}
    (hp : behind.length = pos) (ho : Opens behind) (hf : Follows use rest) (hd : SameDot rest rest')
    (hb : isBound scopes x.text pos = (bound.contains x.text || isBound others x.text pos)) :
    Turns (wordReferences state props) scopes behind x.text x.text
      (x.qualify state props bound use).print
      (x.missed state props others bound use pos) rest rest' := by
  subst hp
  exact x.toWord.turns isWord_of_mem_wordReferences ho.pastWord (pastWord_of_follows hf) hd
    (x.made ho hf hb)

/-- A parameter is copied. -/
theorem Name.turns_bound (hn : ∀ entry ∈ refs, Recast.isWord entry.1) (x : Name)
    {behind rest rest' : Text}
    (hf : PastWord behind) (hr : PastWord rest) (hd : SameDot rest rest')
    (hb : isBound scopes x.text behind.length) :
    Turns refs scopes behind x.text x.text x.text false rest rest' :=
  x.toWord.turns hn hf hr hd (qualified_of_isBound hb)

/-- A member name is copied; the text before its dot does not end in one. -/
theorem Word.turns_member (hn : ∀ entry ∈ refs, Recast.isWord entry.1) (key : Word)
    {behind rest rest' : Text}
    (hb : behind.head? ≠ some '.') (hr : PastWord rest) (hd : SameDot rest rest') :
    Turns refs scopes behind ('.' :: key.text) ('.' :: key.text) ('.' :: key.text) false rest
      rest' := by
  have member : (⟨key.text, '.' :: behind, rest⟩ : Mention).isMember := by
    have spread : startsWith ('.' :: behind) "...".toList = false := by
      cases behind with
      | nil => rfl
      | cons c cs =>
        have other : dropHead? "..".toList (c :: cs) = none :=
          dropHead?_eq_none (by rintro rfl; exact hb rfl) _ _
        rw [startsWith, show dropHead? "...".toList ('.' :: c :: cs) =
          dropHead? "..".toList (c :: cs) from rfl, other]
        rfl
    rw [Mention.isMember, spread]
    rfl
  refine .mark hn (by decide) (key.turns hn ?_ hr hd (qualified_of_isMember member _))
  rintro c ⟨⟩
  decide

theorem not_isNameStart_of_isAsciiDigit {c : Char} (h : isAsciiDigit c) :
    isNameStart c = false := by
  by_contra hs
  simp only [isAsciiDigit, isNameStart, isAsciiLetter, Bool.and_eq_true, decide_eq_true_eq,
    Char.le_def, UInt32.le_iff_toNat_le, Bool.not_eq_false, Bool.or_eq_true, beq_iff_eq] at h hs
  rcases hs with (hs | rfl) | rfl
  · have nine : '9'.val.toNat = 57 := rfl
    have upper : 'A'.val.toNat = 65 := rfl
    have lower : 'a'.val.toNat = 97 := rfl
    omega
  · exact absurd h (by decide)
  · exact absurd h (by decide)

/-- No reference starts with a digit. -/
theorem proposals_digit (hi : ∀ entry ∈ refs, isIdentifier entry.1) {c : Char} (hc : isAsciiDigit c)
    (behind cs : Text) (pos : Nat) : proposals refs scopes ⟨pos, behind, c :: cs⟩ = [] := by
  have name : (⟨pos, behind, c :: cs⟩ : Place).mention.name = c :: wordAhead cs := by
    simp [Place.mention, wordAhead, isNameChar_of_isAsciiDigit hc]
  cases hp : proposals refs scopes ⟨pos, behind, c :: cs⟩ with
  | nil => rfl
  | cons edit edits =>
    have hm : edit ∈ proposals refs scopes ⟨pos, behind, c :: cs⟩ := by
      rw [hp]
      exact List.mem_cons_self
    exfalso
    rcases mem_proposals hm with ⟨hr, _⟩ | ⟨hr, _⟩ | ⟨hr, _⟩
    · rw [Mention.refers, Bool.and_eq_true, List.contains_iff_mem, name] at hr
      obtain ⟨entry, he, hn⟩ := List.mem_map.1 hr.1
      have valid := hi entry he
      rw [hn, isIdentifier, Bool.and_eq_true, not_isNameStart_of_isAsciiDigit hc] at valid
      exact Bool.noConfusion valid.1
    · have props := name_eq_props hr
      rw [name] at props
      obtain ⟨rfl, _⟩ := List.cons.inj props
      exact Bool.noConfusion hc
    · have setter := callsSetter_of_refersToSetter hr
      have other : dropHead? "set".toList (c :: wordAhead cs) = none :=
        dropHead?_eq_none (by rintro rfl; exact Bool.noConfusion hc) _ _
      rw [Mention.callsSetter, name, Bool.and_eq_true, isSetterName, other] at setter
      exact Bool.noConfusion setter.1

/-- The rest of a number is copied: each of its words starts with a digit. -/
theorem walk_number (hn : ∀ entry ∈ refs, Recast.isIdentifier entry.1) (rest rest' : Text) :
    ∀ (t behind : Text) (pos : Nat), isNumberTail t → startsFree behind = false ∨
      t.head?.any isAsciiDigit →
      walk refs scopes behind pos (t ++ rest) (t ++ rest') =
        t ++ walk refs scopes (t.reverse ++ behind) (pos + t.length) rest rest'
  | [], _, _, _, _ => rfl
  | c :: cs, behind, pos, ht, hb => by
    rw [isNumberTail, Bool.and_eq_true] at ht
    have next : startsFree (c :: behind) = false ∨ cs.head?.any isAsciiDigit := by
      by_cases hc : c = '.'
      · rw [if_pos hc] at ht
        exact .inr ht.1
      · rw [if_neg hc] at ht
        exact .inl (startsFree_eq_false ht.1 behind)
    have ih := walk_number hn rest rest' cs (c :: behind) (pos + 1) ht.2 next
    have here : proposals refs scopes ⟨pos, behind, c :: (cs ++ rest)⟩ = [] := by
      rcases hb with hf | hd
      · exact proposals_inside hf
      · exact proposals_digit hn (by simpa using hd) _ _ _
    rw [List.cons_append, List.cons_append, walk_of_nil here, ih]
    simp [Nat.add_assoc, Nat.add_comm 1]

theorem NumberText.turns (hi : ∀ entry ∈ refs, isIdentifier entry.1) (value : NumberText)
    (behind rest rest' : Text) :
    Turns refs scopes behind value.text value.text value.text false rest rest' := by
  obtain ⟨text, valid⟩ := value
  cases text with
  | nil => exact Bool.noConfusion valid
  | cons c cs =>
    rw [isNumber, Bool.and_eq_true] at valid
    refine ⟨_, rfl, walk_number hi rest rest' (c :: cs) behind behind.length ?_
      (.inr (by simpa using valid.1))⟩
    rw [isNumberTail, Bool.and_eq_true, if_neg]
    · exact ⟨isNameChar_of_isAsciiDigit valid.1, valid.2⟩
    · rintro rfl
      exact Bool.noConfusion valid.1

/-- The text before an entry of an object; `behind` is what stands before the comma or the first
entry. -/
structure BeforeEntry (lead behind : Text) : Prop where
  isLead : IsLead lead
  opens : lead = [] → behind.head? = some '{'
  bracket : openBracket? 0 behind = some '{'

theorem beforeEntry_first (behind : Text) : BeforeEntry [] ('{' :: behind) where
  isLead := .inl rfl
  opens _ := rfl
  bracket := rfl

theorem BeforeEntry.next {lead behind t : Text} (h : BeforeEntry lead behind) (ht : Balanced t) :
    BeforeEntry [',', ' '] (t.reverse ++ behind) where
  isLead := .inr rfl
  opens := by rintro ⟨⟩
  bracket := by
    rw [ht.openBracket?]
    exact h.bracket

/-- What stands before the name of an entry, read backwards and without blanks. -/
theorem BeforeEntry.head? {lead behind : Text} (h : BeforeEntry lead behind) :
    (trimStart (lead.reverse ++ behind)).head? = some '{' ∨
      (trimStart (lead.reverse ++ behind)).head? = some ',' := by
  rcases h.isLead with rfl | rfl
  · exact .inl (head?_trimStart_of_head? (by decide) (h.opens rfl))
  · exact .inr rfl

theorem BeforeEntry.startsEntry {lead behind : Text} (h : BeforeEntry lead behind)
    (name ahead : Text) : (⟨name, lead.reverse ++ behind, ahead⟩ : Mention).startsEntry := by
  rw [Mention.startsEntry]
  rcases h.head? with hd | hd <;> rw [hd] <;> rfl

theorem BeforeEntry.free {lead behind : Text} (h : BeforeEntry lead behind) :
    ∀ c, (trimStart (lead.reverse ++ behind)).head? = some c → isNameChar c = false := by
  intro c hc
  rcases h.head? with hd | hd <;> rw [hd] at hc <;> cases hc <;> decide

/-- A key is copied. -/
theorem Word.turns_key (hn : ∀ entry ∈ refs, Recast.isWord entry.1) (key : Word)
    {lead behind rest rest' : Text} (h : BeforeEntry lead behind) :
    Turns refs scopes (lead.reverse ++ behind) key.text key.text key.text false (':' :: rest)
      (':' :: rest') := by
  have isKey : (⟨key.text, lead.reverse ++ behind, ':' :: rest⟩ : Mention).isKey := by
    rw [Mention.isKey, h.startsEntry]
    rfl
  refine key.turns hn (pastWord_of_trimStart h.free) ?_ (by rintro ⟨⟩) (qualified_of_isKey isKey _)
  rintro c ⟨⟩
  decide

/-- The text of an entry that stands for its own key, and of those after it. -/
theorem write_shorthand (x : Name) (more : ObjectEntries) (lead : Text) :
    ((ObjectEntries.shorthand x more).qualify state props bound).write .plain lead =
      lead ++ (((ObjectEntries.shorthand x .done).qualify state props bound).write .plain []
        ++ (more.qualify state props bound).write .plain [',', ' ']) := by
  rw [ObjectEntries.qualify, ObjectEntries.qualify]
  split
  · simp [ObjectEntries.write, ObjectEntries.qualify]
  · cases x.access? state props <;> simp [ObjectEntries.write, ObjectEntries.qualify]

/-- What becomes of a name in an object that stands for its own key. -/
theorem Name.qualified_shorthand (x : Name) {lead behind rest : Text} {pos : Nat}
    (h : BeforeEntry lead behind)
    (hr : rest.head? = some ',' ∨ rest.head? = some '}')
    (hb : isBound scopes x.text pos = bound.contains x.text) :
    (⟨x.text, lead.reverse ++ behind, rest⟩ : Mention).qualified (wordReferences state props)
      scopes pos =
      ((ObjectEntries.shorthand x .done).qualify state props bound).write .plain [] := by
  have next : (trimStart rest).head? = some ',' ∨ (trimStart rest).head? = some '}' := by
    rcases hr with hr | hr
    · exact .inl (head?_trimStart_of_head? (by decide) hr)
    · exact .inr (head?_trimStart_of_head? (by decide) hr)
  have noDot : rest.head? ≠ some '.' := by
    intro hd
    rcases hr with hr | hr <;> rw [hr] at hd <;> cases hd
  have bracket : openBracket? 0 (lead.reverse ++ behind) = some '{' :=
    (h.isLead.balanced.openBracket? 0 behind).trans h.bracket
  have shorthand : (⟨x.text, lead.reverse ++ behind, rest⟩ : Mention).isShorthand := by
    rw [Mention.isShorthand, h.startsEntry]
    rcases next with hc | hc <;> simp [hc, bracket]
  have member : (⟨x.text, lead.reverse ++ behind, rest⟩ : Mention).isMember = false := by
    have noDot : (lead.reverse ++ behind).head? ≠ some '.' := by
      rcases h.isLead with rfl | rfl
      · rw [List.reverse_nil, List.nil_append, h.opens rfl]
        rintro ⟨⟩
      · rintro ⟨⟩
    simp only [Mention.isMember, noDot, decide_false, Bool.false_and]
  have declared := isDeclared_eq_false h.free x.text rest
  have key : (⟨x.text, lead.reverse ++ behind, rest⟩ : Mention).isKey = false := by
    rcases next with hc | hc <;> simp [Mention.isKey, hc]
  have called : (⟨x.text, lead.reverse ++ behind, rest⟩ : Mention).callsSetter = false := by
    rcases next with hc | hc <;> simp [Mention.callsSetter, hc]
  have looked : (wordReferences state props).lookup x.text = _ := x.print_access?
  rw [ObjectEntries.qualify]
  cases hc : bound.contains x.text with
  | true =>
    rw [qualified_of_isBound (hb.trans hc), if_pos rfl]
    simp [ObjectEntries.write, ObjectEntries.qualify]
  | false =>
    have free : isBound scopes x.text pos = false := hb.trans hc
    have refers : (⟨x.text, lead.reverse ++ behind, rest⟩ : Mention).refers
        (wordReferences state props) scopes pos =
        (x.access? state props).isSome := by
      simp only [Mention.refers, contains_references, looked, Option.isSome_map, member, declared,
        key, free, Bool.or_self, Bool.not_false, Bool.and_true]
    rw [Mention.qualified, refers, if_neg Bool.false_ne_true]
    cases ha : x.access? state props with
    | some access =>
      rw [ha] at looked
      simp only [Option.isSome_some, if_true, Mention.access, shorthand, looked]
      simp [ObjectEntries.write, ObjectEntries.qualify, Expr.print]
    | none =>
      simp [Mention.refersToProps, Mention.refersToSetter, noDot, called, ObjectEntries.write,
        ObjectEntries.qualify]

/-- An entry that stands for its own key turns into what the tree says. -/
theorem Name.turns_shorthand (x : Name) {lead behind rest rest' : Text} {pos : Nat}
    (hp : (lead.reverse ++ behind).length = pos) (h : BeforeEntry lead behind)
    (hr : rest.head? = some ',' ∨ rest.head? = some '}')
    (hb : isBound scopes x.text pos = (bound.contains x.text || isBound others x.text pos)) :
    Turns (wordReferences state props) scopes (lead.reverse ++ behind) x.text x.text
      (((ObjectEntries.shorthand x .done).qualify state props bound).write .plain [])
      (x.missed state props others bound .value pos) rest rest' := by
  subst hp
  have past : PastWord rest := by
    intro c hc
    rcases hr with hr | hr <;> rw [hr] at hc <;> cases hc <;> decide
  have noDot : rest.head? ≠ some '.' := by
    intro hd
    rcases hr with hr | hr <;> rw [hr] at hd <;> cases hd
  refine x.toWord.turns isWord_of_mem_wordReferences (pastWord_of_trimStart h.free) past
    (fun hd => absurd hd noDot) ?_
  rw [Name.missed]
  cases hc : bound.contains x.text with
  | true => exact x.qualified_shorthand h hr (by rw [hb, hc, Bool.true_or])
  | false =>
    cases hs : isBound others x.text (lead.reverse ++ behind).length with
    | false => exact x.qualified_shorthand h hr (by rw [hb, hc, hs, Bool.or_false])
    | true =>
      rw [qualified_of_isBound (by rw [hb, hs, Bool.or_true]), ObjectEntries.qualify,
        if_neg (Bool.eq_false_iff.1 hc)]
      cases ha : x.access? state props with
      | none => simp [Name.refers, ha, Made, ObjectEntries.write, ObjectEntries.qualify]
      | some access =>
        have dot : '.' ∈ access.print := Name.dot_mem_access? ha
        have mem : '.' ∈ (ObjectEntries.keyed x.toWord access (.done)).write .plain [] := by
          simp only [ObjectEntries.write, List.nil_append, List.append_nil, List.mem_append,
            List.mem_cons]
          exact .inr (.inr (.inr dot))
        have count := List.count_pos_iff.2 mem
        simp only [Name.refers, ha, Option.isSome_some, Bool.true_or, Bool.not_false, Bool.and_self,
          Made, if_true, x.count_dot]
        exact count

end Recast
