import Recast.Proofs.Component.HookScript
import Recast.Proofs.Scan.Found
import Recast.Proofs.Scope.ExpressionScopes
import Recast.Proofs.Scope.PatternNames

/-!
# Binders in code

A `Binder` is a piece of masked code that binds names for itself: an arrow function, a function, a
declaration with the code that follows it in its block, or the header of a loop with the loop's
body. It is made of text as it is written, and `Binder.Binds` says which names it binds.

Not all binders are seen (`Binder.Seen`). A name before an arrow that stands behind a closing
bracket and a colon reads as the type of a parameter list, and only a type of one word is passed
over. A function is missed for its type parameters or for a brace in its type. Of a declaration only
the first declarator is read, behind a blank. Each binder that is seen has a scope that covers it
(`Binder.boundOver`).
-/

namespace Recast

/-! ## How binders are written -/

/-- Blank text. -/
structure Blanks where
  text : Text
  blank : isBlankText text

/-- A parameter list in round brackets. -/
structure ParamList where
  inner : Text
  closed : Closed (fun _ => true) inner
  level : IsLevel (fun _ => false) inner

/-- The list with its brackets. -/
def ParamList.print (params : ParamList) : Text :=
  '(' :: (params.inner ++ [')'])

@[simp] theorem ParamList.length_print (params : ParamList) :
    params.print.length = params.inner.length + 2 := by
  simp [ParamList.print]

/-- A block of code in curly brackets. -/
structure CodeBlock where
  inner : Text
  closed : Closed (fun _ => true) inner

/-- The block with its brackets. -/
def CodeBlock.print (code : CodeBlock) : Text :=
  '{' :: (code.inner ++ ['}'])

@[simp] theorem CodeBlock.length_print (code : CodeBlock) :
    code.print.length = code.inner.length + 2 := by
  simp [CodeBlock.print]

/-- The parameters of an arrow function: one name, a list, or a list with a type behind it. -/
inductive ArrowHead where
  | one (name : Text) (valid : isIdentifier name)
  | list (params : ParamList)
  | annotated (params : ParamList) (gap : Blanks) (type : Text)

/-- The parameters as they are written before the arrow. -/
def ArrowHead.print : ArrowHead → Text
  | .one name _ => name
  | .list params => params.print
  | .annotated params gap type => params.print ++ (gap.text ++ ':' :: type)

/-- The name is a parameter. -/
def ArrowHead.Binds (name : Text) : ArrowHead → Prop
  | .one parameter _ => name = parameter
  | .list params | .annotated params _ _ => Recast.Binds name .list params.inner

/-- The text before the parameters, which is read backwards, does not end inside their first
word. -/
def ArrowHead.Fits (behind : Text) : ArrowHead → Prop
  | .one _ _ => PastWord behind
  | .list _ | .annotated _ _ _ => True

/-- A name behind this text, which is read backwards, reads as the type of a parameter list. -/
def ReadsAsType (behind : Text) : Prop :=
  ∃ list, trimStart behind = ':' :: list ∧ (trimStart list).head? = some ')'

/-- The parameters are found behind a text, which is read backwards: one name does not read as a
type, and a type is one word. -/
def ArrowHead.Seen (behind : Text) : ArrowHead → Prop
  | .one _ _ => ¬ReadsAsType behind
  | .list _ => True
  | .annotated _ _ type => ∃ (gap : Blanks) (word : Text), type = gap.text ++ word ∧ isWord word

/-- What follows an arrow or the header of a loop: a block, or an expression up to any place of
it. -/
inductive BodyText where
  | block (gap : Blanks) (code : CodeBlock)
  | expression (gap : Blanks) (text : Text)
    (first : ∃ c cs, text = c :: cs ∧ isBlank c = false ∧ c ≠ '{')
    (inside : (depthAfter endsExpression 0 text).isSome)

/-- The body with the blanks before it. -/
def BodyText.print : BodyText → Text
  | .block gap code => gap.text ++ code.print
  | .expression gap text _ _ => gap.text ++ text

/-- The keyword of a function with its name, up to its parameter list. -/
structure FunctionHead where
  gap : Blanks
  /-- The blanks behind the star of a generator. -/
  star : Option Blanks
  name : Text
  valid : ∀ c ∈ name, isNameChar c
  apart : name = [] ∨ gap.text ≠ [] ∨ star.isSome
  /-- The type parameters, if there are any. -/
  types : Text
  angled : types = [] ∨ ∃ inner, types = '<' :: (inner ++ ['>'])
  gap' : Blanks

/-- The star of a generator with the blanks behind it. -/
def FunctionHead.starText (head : FunctionHead) : Text :=
  match head.star with
  | some gap => '*' :: gap.text
  | none => []

/-- The head as it is written before its parameter list. -/
def FunctionHead.print (head : FunctionHead) : Text :=
  "function".toList ++
    (head.gap.text ++ (head.starText ++ (head.name ++ (head.types ++ head.gap'.text))))

/-- A declaration up to any place behind it: `passed` are the declarators before the one that is
meant. -/
structure Declaration where
  keyword : Text
  valid : keyword ∈ ["const".toList, "let".toList, "var".toList]
  gap : Blanks
  passed : Text
  place : AtElement passed
  rest : Text

/-- The keyword with the declarators behind it. -/
def Declaration.print (d : Declaration) : Text :=
  d.keyword ++ (d.gap.text ++ (d.passed ++ d.rest))

/-- The declarator is the first one, and a blank comes before it. -/
def Declaration.Seen (d : Declaration) : Prop :=
  d.passed = [] ∧ d.gap.text ≠ []

/-- A piece of code that binds names in itself. -/
inductive Binder where
  | arrow (head : ArrowHead) (gap : Blanks) (body : BodyText)
  | function (head : FunctionHead) (params : ParamList) (gap : Text) (code : CodeBlock)
  | declaration (d : Declaration) (inside : StaysInside d.print)
  | loop (d : Declaration) (level : IsLevel (fun _ => false) d.print) (body : BodyText)

/-- What of a binder comes before its scope. -/
def Binder.lead : Binder → Text
  | .function head _ _ _ => head.print
  | _ => []

/-- The scope of a binder. -/
def Binder.scope : Binder → Text
  | .arrow head gap body => head.print ++ (gap.text ++ ("=>".toList ++ body.print))
  | .function _ params gap code => params.print ++ (gap ++ code.print)
  | .declaration d _ => d.print
  | .loop d _ body => d.print ++ ')' :: body.print

/-- The binder binds the name. -/
def Binder.Binds (name : Text) : Binder → Prop
  | .arrow head _ _ => head.Binds name
  | .function _ params _ _ => Recast.Binds name .list params.inner
  | .declaration d _ | .loop d _ _ => Recast.Binds name .element d.rest

/-- The text before a binder, read backwards, ends in the opening of a loop. -/
def OpensHeader (behind : Text) : Prop :=
  ∃ gap gap' : Blanks, ∃ before,
    behind = gap.text ++ '(' :: (gap'.text ++ ("for".toList.reverse ++ before)) ∧
    startsUnqualified before

/-- The binder stands between two texts, the first of which is read backwards, and cuts no word in
two. -/
def Binder.Fits (behind after : Text) : Binder → Prop
  | .arrow head _ _ => head.Fits behind
  | .function _ _ _ _ => startsUnqualified behind
  | .declaration _ _ => startsUnqualified behind ∧ PastWord after
  | .loop _ _ _ => OpensHeader behind

/-- The binder is seen behind a text, which is read backwards. A function is seen if it has no type
parameters and no brace in its type. -/
def Binder.Seen (behind : Text) : Binder → Prop
  | .arrow head _ _ => head.Seen behind
  | .function head _ gap _ => head.types = [] ∧ '{' ∉ gap
  | .declaration d _ | .loop d _ _ => d.Seen

/-! ## Occurrences -/

theorem mem_placesFrom (c : Char) (cs : Text) : ∀ (before behind : Text) (pos : Nat),
    ⟨pos + before.length, before.reverse ++ behind, c :: cs⟩ ∈
      placesFrom behind pos (before ++ c :: cs)
  | [], _, _ => List.mem_cons_self
  | d :: before, behind, pos => by
    have tail := mem_placesFrom c cs before (d :: behind) (pos + 1)
    rw [List.cons_append, placesFrom]
    refine List.mem_cons_of_mem _ ?_
    simpa [Nat.add_assoc, Nat.add_comm 1] using tail

/-- An isolated recogniser is found where it succeeds. -/
theorem mem_occurrences {α : Type} {recognise : Recogniser α} (isolated : Isolated recognise)
    {before ahead : Text}
    {value : α} {size : Nat} (found : recognise before.reverse ahead = some (value, size)) :
    ⟨before.length, before.length + size, value⟩ ∈ occurrences recognise (before ++ ahead) := by
  cases ahead with
  | nil =>
    rw [isolated.atEnd] at found
    cases found
  | cons c cs =>
    have place := mem_placesFrom c cs before [] 0
    rw [Nat.zero_add, List.append_nil] at place
    rw [occurrences_eq_places isolated]
    exact List.mem_filterMap.2 ⟨_, place, by rw [foundAt, found]; rfl⟩

/-- Where matches that overlap end together, each match ends where an occurrence does. -/
theorem exists_mem_occurrencesFrom {α : Type} {recognise : Recogniser α}
    (shares : ∀ behind passed rest found found', recognise behind (passed ++ rest) = some found →
      passed.length < found.2 → recognise (passed.reverse ++ behind) rest = some found' →
        passed.length + found'.2 = found.2) {found : α × Nat} {rest : Text} :
    ∀ (passed behind : Text) (pos resume : Nat),
      recognise (passed.reverse ++ behind) rest = some found →
      pos + passed.length < resume ∨
        ∃ occurrence ∈ occurrencesFrom recognise behind pos resume (passed ++ rest),
          occurrence.stop = pos + passed.length + found.2
  | [], behind, pos, resume, here => by
    obtain ⟨value, size⟩ := found
    rw [List.reverse_nil, List.nil_append] at here
    cases rest with
    | nil => exact .inr ⟨⟨pos, pos + size, value⟩, by simp [occurrencesFrom, here], rfl⟩
    | cons c cs =>
      by_cases skip : pos < resume
      · exact .inl skip
      · refine .inr ⟨⟨pos, pos + size, value⟩, ?_, rfl⟩
        rw [List.nil_append, occurrencesFrom, if_neg skip, here]
        exact List.mem_cons_self
  | c :: passed, behind, pos, resume, here => by
    have next := fun resume =>
      exists_mem_occurrencesFrom shares passed (c :: behind) (pos + 1) resume (by simpa using here)
    have shift : pos + 1 + passed.length = pos + (c :: passed).length := by
      rw [List.length_cons]
      omega
    rw [shift] at next
    rw [List.cons_append, occurrencesFrom]
    by_cases skip : pos < resume
    · rw [if_pos skip]
      exact next resume
    · rw [if_neg skip]
      cases first : recognise behind (c :: (passed ++ rest)) with
      | none => exact next resume
      | some match' =>
        -- The place is inside the match that starts here, or it comes behind that match.
        rcases next (pos + match'.2) with inside | ⟨occurrence, mem, stop⟩
        · have same := shares behind (c :: passed) rest match' found first (by omega) here
          exact .inr ⟨_, List.mem_cons_self, by dsimp only; omega⟩
        · exact .inr ⟨occurrence, List.mem_cons_of_mem _ mem, stop⟩

/-! ## Keywords -/

/-- What is left of a text behind a part without an opening round bracket. -/
def Reaches (t rest : Text) : Prop :=
  ∃ head, t = head ++ rest ∧ '(' ∉ head

theorem Reaches.trans {t middle rest : Text} (first : Reaches t middle)
    (second : Reaches middle rest) : Reaches t rest := by
  obtain ⟨head, rfl, out⟩ := first
  obtain ⟨more, rfl, out'⟩ := second
  exact ⟨head ++ more, (List.append_assoc _ _ _).symm, by simp [out, out']⟩

theorem reaches_trimStart (t : Text) : Reaches t (trimStart t) := by
  obtain ⟨blanks, blank, split⟩ := exists_append_trimStart t
  exact ⟨blanks, split, not_mem_of_isBlankText (by decide) blank⟩

theorem reaches_dropWhile (t : Text) : Reaches t (t.dropWhile isNameChar) := by
  refine ⟨t.takeWhile isNameChar, List.takeWhile_append_dropWhile.symm, fun mem => ?_⟩
  have name := List.mem_takeWhile_imp mem
  exact Bool.noConfusion name

theorem reaches_star (t : Text) : Reaches t ((dropHead? ['*'] t).getD t) := by
  cases star : dropHead? ['*'] t with
  | none => exact ⟨[], rfl, by simp⟩
  | some rest => exact ⟨['*'], eq_append_of_dropHead? star, by decide⟩

/-- A function is found up to the first opening round bracket. -/
theorem functionToken_reaches {behind ahead : Text} {found : Unit × Nat}
    (h : functionToken behind ahead = some found) :
    ∃ head rest, ahead = head ++ '(' :: rest ∧ '(' ∉ head ∧ found.2 = head.length := by
  simp only [functionToken, Option.bind_eq_bind, Option.bind_none, Option.ite_none_left_eq_some,
    Option.bind_eq_some_iff, Option.ite_none_right_eq_some, Option.some.injEq] at h
  obtain ⟨-, rest, keyword, -, opens, rfl⟩ := h
  have reached : Reaches ahead _ :=
    Reaches.trans ⟨_, eq_append_of_dropHead? keyword, by decide⟩ <|
      (reaches_trimStart rest).trans <| (reaches_star _).trans <| (reaches_trimStart _).trans <|
        (reaches_dropWhile _).trans <| reaches_trimStart _
  obtain ⟨head, split, out⟩ := reached
  obtain ⟨after, cons⟩ := List.head?_eq_some_iff.1 opens
  rw [cons] at split ⊢
  exact ⟨head, after, split, out, by simp [covers, split]⟩

/-- Two parts of one text up to a first opening round bracket are the same. -/
theorem eq_of_first_opening {head head' rest rest' : Text} (out : '(' ∉ head) (out' : '(' ∉ head')
    (same : head ++ '(' :: rest = head' ++ '(' :: rest') : head = head' := by
  have first := cutAt?_append rest out
  rw [same, cutAt?_append rest' out'] at first
  exact (Prod.mk.inj (Option.some.inj first)).1.symm

theorem exists_function {before ahead : Text} {size : Nat}
    (h : functionToken before.reverse ahead = some ((), size)) :
    ∃ occurrence ∈ occurrences functionToken (before ++ ahead), occurrence.stop =
      before.length + size := by
  -- Matches that overlap go up to the same bracket, the first one behind both.
  have shares : ∀ (behind passed rest : Text) (found found' : Unit × Nat),
      functionToken behind (passed ++ rest) = some found → passed.length < found.2 →
        functionToken (passed.reverse ++ behind) rest = some found' →
          passed.length + found'.2 = found.2 := by
    intro behind passed rest found found' outer inside inner
    obtain ⟨head, after, split, out, size⟩ := functionToken_reaches outer
    obtain ⟨head', after', rfl, out', size'⟩ := functionToken_reaches inner
    have short : passed <+: head :=
      List.prefix_of_prefix_length_le ⟨_, rfl⟩ ⟨_, split.symm⟩ (by omega)
    obtain ⟨middle, rfl⟩ := short
    rw [List.append_assoc, List.append_cancel_left_eq] at split
    have same := eq_of_first_opening out' (fun mem => out (List.mem_append_right _ mem)) split
    rw [size, size', same, List.length_append]
  rcases exists_mem_occurrencesFrom shares before [] 0 0 (by simpa using h) with inside | found
  · exact absurd inside (Nat.not_lt_zero _)
  · simpa [occurrences] using found

theorem Blanks.isBlank_head (gap : Blanks) {c : Char} {cs : Text} (cons : gap.text = c :: cs) :
    isBlank c :=
  List.all_eq_true.1 gap.blank c (cons ▸ List.mem_cons_self)

theorem Blanks.trimStart_append (gap : Blanks) (t : Text) :
    trimStart (gap.text ++ t) = trimStart t :=
  List.dropWhile_append_of_pos (List.all_eq_true.1 gap.blank)

/-- Behind blanks there is what comes first. -/
theorem Blanks.trimStart_append_cons (gap : Blanks) {c : Char} (visible : isBlank c = false)
    (t : Text) : trimStart (gap.text ++ c :: t) = c :: t := by
  rw [gap.trimStart_append]
  exact trimStart_eq_self (by rintro d ⟨⟩; exact visible)

theorem Blanks.pastWord_append (gap : Blanks) {t : Text} (past : PastWord t) :
    PastWord (gap.text ++ t) := by
  cases blanks : gap.text with
  | nil => exact past
  | cons d ds =>
    rintro c ⟨⟩
    exact not_isNameChar_of_isBlank (gap.isBlank_head blanks)

/-- A name with blanks around it up to a bracket. -/
theorem trimStart_name {name : Text} (valid : ∀ c ∈ name, isNameChar c) (gap : Blanks)
    (rest : Text) :
    (trimStart (name ++ (gap.text ++ '(' :: rest))).head? ≠ some '*' ∧
      trimStart ((trimStart (name ++ (gap.text ++ '(' :: rest))).dropWhile isNameChar) =
        '(' :: rest := by
  cases name with
  | nil =>
    rw [List.nil_append, gap.trimStart_append_cons (by decide)]
    exact ⟨by simp, rfl⟩
  | cons c cs =>
    have first := valid c List.mem_cons_self
    have kept : trimStart (c :: cs ++ (gap.text ++ '(' :: rest)) =
        c :: cs ++ (gap.text ++ '(' :: rest) :=
      trimStart_eq_self (by rintro d ⟨⟩; exact not_isBlank_of_isNameChar first)
    have after :=
      afterWord_append valid (gap.pastWord_append (t := '(' :: rest) (by rintro d ⟨⟩; rfl))
    rw [kept, show ((c :: cs ++ (gap.text ++ '(' :: rest)).dropWhile isNameChar) = _ from after]
    refine ⟨?_, gap.trimStart_append_cons (by decide) rest⟩
    rintro ⟨⟩
    exact Bool.noConfusion first

theorem wordEnds_of_pastWord {t : Text} (past : PastWord t) : wordEnds t := by
  cases t with
  | nil => rfl
  | cons c cs =>
    have out := past c rfl
    rw [isNameChar, Bool.or_eq_false_iff] at out
    simp [wordEnds, out.1]

namespace FunctionHead

variable (head : FunctionHead)

theorem print_eq :
    head.print = "function".toList ++
      (head.gap.text ++ (head.starText ++ (head.name ++ (head.types ++ head.gap'.text)))) :=
  rfl

/-- What follows the keyword of a function does not continue it. -/
theorem pastWord_keyword (rest : Text) :
    PastWord
      (head.gap.text ++ (head.starText ++ (head.name ++ (head.gap'.text ++ '(' :: rest)))) := by
  have bracket : PastWord (head.gap'.text ++ '(' :: rest) :=
    head.gap'.pastWord_append (by rintro c ⟨⟩; rfl)
  rcases head.apart with unnamed | blank | generator
  · refine head.gap.pastWord_append ?_
    rw [unnamed, starText]
    cases head.star with
    | none => exact bracket
    | some gap => rintro c ⟨⟩; rfl
  · obtain ⟨d, ds, cons⟩ := List.exists_cons_of_ne_nil blank
    have first := head.gap.isBlank_head cons
    rw [cons]
    rintro c ⟨⟩
    exact not_isNameChar_of_isBlank first
  · refine head.gap.pastWord_append ?_
    obtain ⟨gap, star⟩ := Option.isSome_iff_exists.1 generator
    rw [starText, star]
    rintro c ⟨⟩
    rfl

/-- The star of a generator is passed over with the blanks around it. -/
theorem trimStart_star {t : Text} (noStar : (trimStart t).head? ≠ some '*') :
    trimStart ((dropHead? ['*'] (trimStart (head.gap.text ++ (head.starText ++ t)))).getD
      (trimStart (head.gap.text ++ (head.starText ++ t)))) = trimStart t := by
  rw [head.gap.trimStart_append, starText]
  cases head.star with
  | none =>
    dsimp only
    rw [List.nil_append, dropHead?_star noStar, trimStart_trimStart]
  | some gap =>
    have visible : trimStart ('*' :: (gap.text ++ t)) = '*' :: (gap.text ++ t) :=
      trimStart_eq_self (by rintro c ⟨⟩; decide)
    have star : dropHead? ['*'] ('*' :: (gap.text ++ t)) = some (gap.text ++ t) :=
      dropHead?_append ['*'] _
    dsimp only
    rw [List.cons_append, visible, star, Option.getD_some, gap.trimStart_append]

theorem functionToken_print {behind : Text} (plain : head.types = [])
    (starts : startsUnqualified behind) (rest : Text) :
    functionToken behind (head.print ++ '(' :: rest) = some ((), head.print.length) := by
  obtain ⟨noStar, reached⟩ := trimStart_name head.valid head.gap' rest
  have spell : head.print ++ '(' :: rest =
      "function".toList ++
        (head.gap.text ++ (head.starText ++ (head.name ++ (head.gap'.text ++ '(' :: rest)))) := by
    rw [print_eq, plain]
    simp only [List.append_assoc, List.nil_append]
  have keyword := dropHead?_eq_some.2 spell
  have ends := wordEnds_of_pastWord (head.pastWord_keyword rest)
  rw [functionToken, starts, keyword]
  simp only [Bool.not_true, Bool.false_eq_true, if_false, Option.bind_eq_bind,
    Option.bind_some, ends, head.trimStart_star noStar, reached]
  simp [covers]

end FunctionHead

theorem declarationKeyword?_blank {t : Text} (h : ∀ c, t.head? = some c → isBlank c) :
    declarationKeyword? t = none := by
  cases found : declarationKeyword? t with
  | none => rfl
  | some rest =>
    obtain ⟨keyword, blanks, rfl, mem, -⟩ := declarationKeyword?_needs found
    obtain ⟨c, cs, rfl, visible⟩ : ∃ c cs, keyword = c :: cs ∧ isBlank c = false := by
      simp only [List.mem_cons, List.not_mem_nil, or_false] at mem
      rcases mem with rfl | rfl | rfl
      · exact ⟨'c', _, rfl, by decide⟩
      · exact ⟨'l', _, rfl, by decide⟩
      · exact ⟨'v', _, rfl, by decide⟩
    rw [h c rfl] at visible
    cases visible

/-- Inside a keyword there is no other, and what follows it is blank. -/
theorem isolated_declarationToken : Isolated declarationToken where
  atEnd behind := by
    cases startsUnqualified behind <;> simp [declarationToken, declarationKeyword?, dropHead?]
  inside := by
    intro behind passed rest value size found ne inside
    simp only [declarationToken, Option.bind_eq_bind, Option.bind_none,
      Option.ite_none_left_eq_some, Option.bind_eq_some_iff, Option.some.injEq] at found
    obtain ⟨-, after, keyword?, covered⟩ := found
    obtain ⟨keyword, blanks, split, mem, blank⟩ := declarationKeyword?_needs keyword?
    have chars : ∀ keyword ∈ ["const".toList, "let".toList, "var".toList], ∀ c ∈ keyword,
        isNameChar c := by decide
    have total : size = keyword.length + blanks.length := by
      have := (Prod.mk.inj covered).2
      rw [← this, split]
      simp only [List.length_append]
      omega
    rw [← List.append_assoc] at split
    obtain ⟨left, spell, rfl⟩ : ∃ left, keyword ++ blanks = passed ++ left ∧
        rest = left ++ after := by
      rcases List.append_eq_append_iff.1 split with ⟨left, spell, rest'⟩ | ⟨more, spell, -⟩
      · exact ⟨left, spell, rest'⟩
      · have := congrArg List.length spell
        simp only [List.length_append] at this
        omega
    have unread : declarationToken (passed.reverse ++ behind) (left ++ after) = none := by
      rcases List.append_eq_append_iff.1 spell with ⟨more, rfl, rfl⟩ | ⟨more, rfl, rfl⟩
      · -- Behind the keyword there are blanks only.
        have first : ∀ c, (left ++ after).head? = some c → isBlank c := by
          intro c head
          cases left with
          | nil => simp at total inside; omega
          | cons d ds =>
            obtain rfl := Option.some.inj head
            exact List.all_eq_true.1 blank d (by simp)
        rw [declarationToken, declarationKeyword?_blank first]
        cases startsUnqualified ((keyword ++ more).reverse ++ behind) <;> rfl
      · -- Inside the keyword a name character comes before.
        obtain ⟨front, last, rfl⟩ := (List.eq_nil_or_concat passed).resolve_left ne
        have name : isNameChar last := chars _ mem last (by simp)
        rw [List.concat_eq_append, List.reverse_append, declarationToken]
        simp [startsUnqualified_eq_false (.inl name)]
    exact unread

/-- A keyword with blanks behind it is found up to the next word. -/
theorem declarationToken_append {behind keyword : Text} (starts : startsUnqualified behind)
    (valid : keyword ∈ ["const".toList, "let".toList, "var".toList]) (gap : Blanks)
    (apart : gap.text ≠ []) {rest : Text} (first : ∀ c, rest.head? = some c → isBlank c = false) :
    declarationToken behind (keyword ++ (gap.text ++ rest)) =
      some ((), keyword.length + gap.text.length) := by
  have read : declarationKeyword? (keyword ++ (gap.text ++ rest)) = some rest := by
    obtain ⟨d, ds, cons⟩ := List.exists_cons_of_ne_nil apart
    have blank := gap.isBlank_head cons
    have dropped : (dropHead? "const".toList (keyword ++ (gap.text ++ rest)) <|>
        dropHead? "let".toList (keyword ++ (gap.text ++ rest)) <|>
          dropHead? "var".toList (keyword ++ (gap.text ++ rest))) = some (gap.text ++ rest) := by
      simp only [List.mem_cons, List.not_mem_nil, or_false] at valid
      rcases valid with rfl | rfl | rfl <;> rfl
    rw [declarationKeyword?, dropped]
    have opens : (gap.text ++ rest).head?.any isBlank := by
      rw [cons]
      exact blank
    rw [Option.bind_eq_bind, Option.bind_some, if_pos opens, gap.trimStart_append,
      trimStart_eq_self first]
  have size : covers () (keyword ++ (gap.text ++ rest)) rest =
      ((), keyword.length + gap.text.length) := by
    simp only [covers, List.length_append, Prod.mk.injEq, true_and]
    omega
  rw [declarationToken, starts, read]
  exact congrArg some size

/-! ## Bodies -/

/-- A body ends behind its start. -/
theorem le_bodyEnd {code : Text} {pos : Nat} (h : pos ≤ code.length) : pos ≤ bodyEnd code pos := by
  have shorter := length_trimStart_le (code.drop pos)
  rw [List.length_drop] at shorter
  rw [bodyEnd]
  split
  · cases found : bracketEndAt? code (code.length - (trimStart (code.drop pos)).length) with
    | none => exact h
    | some stop =>
      have bounds := bracketEndAt?_bounds found
      rw [Option.getD_some]
      omega
  · have later := le_expressionEndFrom endsExpression
      (code.drop (code.length - (trimStart (code.drop pos)).length)) 0
      (code.length - (trimStart (code.drop pos)).length)
    rw [expressionEnd]
    omega

/-- Blanks before a body are passed over. -/
theorem bodyEnd_append (front : Text) (gap : Blanks) {t : Text}
    (first : ∀ c, t.head? = some c → isBlank c = false) :
    bodyEnd (front ++ (gap.text ++ t)) front.length =
      if t.head? = some '{' then
        (bracketEndAt? ((front ++ gap.text) ++ t) (front ++ gap.text).length).getD
          ((front ++ gap.text) ++ t).length
      else expressionEndFrom endsExpression 0 (front ++ gap.text).length t := by
  have start : (front ++ (gap.text ++ t)).length -
      (trimStart ((front ++ (gap.text ++ t)).drop front.length)).length =
      (front ++ gap.text).length := by
    rw [List.drop_left, gap.trimStart_append, trimStart_eq_self first]
    simp only [List.length_append]
    omega
  rw [bodyEnd, start, expressionEnd, ← List.append_assoc, List.drop_left]

theorem BodyText.le_bodyEnd (body : BodyText) {front after : Text}
    (unmarked : Unmarked (front ++ (body.print ++ after))) :
    front.length + body.print.length ≤ bodyEnd (front ++ (body.print ++ after)) front.length := by
  cases body with
  | block gap code =>
    have split : (BodyText.block gap code).print ++ after =
        gap.text ++ '{' :: (code.inner ++ '}' :: after) := by
      simp [BodyText.print, CodeBlock.print]
    rw [split] at unmarked ⊢
    rw [← List.append_assoc] at unmarked
    have stop : bracketEndAt? (front ++ gap.text ++ '{' :: (code.inner ++ '}' :: after))
        (front ++ gap.text).length = _ :=
      bracketEndAt?_group code.closed .curly _ unmarked
    rw [bodyEnd_append front gap (by rintro c ⟨⟩; decide), List.head?_cons, if_pos rfl, stop,
      Option.getD_some]
    simp only [BodyText.print, List.length_append, CodeBlock.length_print]
    omega
  | expression gap text first inside =>
    obtain ⟨c, cs, rfl, visible, brace⟩ := first
    obtain ⟨depth, inside⟩ := Option.isSome_iff_exists.1 inside
    have later := le_expressionEndFrom endsExpression after depth
      ((front ++ gap.text).length + (c :: cs).length)
    have noBlock : (c :: cs ++ after).head? ≠ some '{' := fun same => brace (Option.some.inj same)
    rw [BodyText.print, List.append_assoc, bodyEnd_append front gap (by rintro d ⟨⟩; exact visible),
      if_neg noBlock, expressionEndFrom_append after _ inside]
    simp only [List.length_append] at later ⊢
    omega

/-! ## Arrow functions -/

theorem ParamList.reverse_print (params : ParamList) :
    params.print.reverse = ')' :: (params.inner.reverse ++ ['(']) := by
  simp [ParamList.print]

theorem ParamList.bracketedParams? (params : ParamList) (before rest : Text) :
    bracketedParams? (before ++ (params.print ++ rest)) (params.print.reverse ++ before.reverse) =
      some (before.length, params.inner) := by
  have opening : openerBehind? 0 (')' :: (params.inner.reverse ++ '(' :: before.reverse)) =
      some before.length := by
    have inner := openerBehind?_append ('(' :: before.reverse) params.inner params.level
    have closer : isCloser ')' := rfl
    rw [openerBehind?, if_pos closer]
    exact inner.trans (by simp [openerBehind?, isCloser, isOpener])
  have cut : slice (before ++ (params.print ++ rest)) (before.length + 1)
      (params.inner.reverse ++ '(' :: before.reverse).length = params.inner :=
    slice_eq (before ++ ['(']) (')' :: rest) (by simp [ParamList.print]) (by simp) (by simp; omega)
  rw [params.reverse_print, List.cons_append, List.append_assoc, List.singleton_append,
    Recast.bracketedParams?, opening, Option.map_some, cut]

theorem Blanks.dropWhile_reverse_append (gap : Blanks) {t : Text}
    (first : ∀ c, t.head? = some c → isBlank c = false) :
    (gap.text.reverse ++ t).dropWhile isBlank = t := by
  have blank : ∀ c ∈ gap.text.reverse, isBlank c :=
    fun c mem => List.all_eq_true.1 gap.blank c (List.mem_reverse.1 mem)
  rw [List.dropWhile_append_of_pos blank, dropWhile_eq_self first]

theorem not_isBlank_of_isWord {w : Text} (valid : isWord w) (t : Text) :
    ∀ c, (w ++ t).head? = some c → isBlank c = false := by
  obtain ⟨d, ds, rfl⟩ := List.exists_cons_of_ne_nil (ne_nil_of_isWord valid)
  rintro c ⟨⟩
  exact not_isBlank_of_isNameChar (isNameChar_of_isWord valid d List.mem_cons_self)

section ArrowHeads

variable {code before rest : Text} {arrow : Nat}

/-- A word before an arrow is a parameter, unless it is the type behind a parameter list. -/
theorem arrowParamsBefore?_word {word : Text} (valid : isWord word) (past : PastWord before)
    (behind : (code.take arrow).reverse.dropWhile isBlank = word ++ before) :
    ((∀ list, before.dropWhile isBlank = ':' :: list →
      bracketedParams? code (list.dropWhile isBlank) = none) →
      arrowParamsBefore? code arrow = some (before.length, word.reverse)) ∧
    ∀ list found, before.dropWhile isBlank = ':' :: list →
      bracketedParams? code (list.dropWhile isBlank) = some found →
      arrowParamsBefore? code arrow = some found := by
  have chars := isNameChar_of_isWord valid
  have ahead : (word ++ before).takeWhile isNameChar = word := wordAhead_append chars past
  have after : (word ++ before).dropWhile isNameChar = before := afterWord_append chars past
  have filled : word.isEmpty = false := by simpa using ne_nil_of_isWord valid
  have bracket : (word ++ before).head? ≠ some ')' := by
    obtain ⟨c, cs, rfl⟩ := List.exists_cons_of_ne_nil (ne_nil_of_isWord valid)
    rintro ⟨⟩
    exact Bool.noConfusion (chars ')' List.mem_cons_self)
  rw [arrowParamsBefore?, behind]
  simp only [if_neg bracket, ahead, after, filled, Bool.false_eq_true, if_false]
  constructor
  · intro untyped
    split
    · rename_i list colon
      rw [untyped list colon, Option.getD_none]
    · rfl
  · intro list found colon typed
    rw [colon]
    change some ((bracketedParams? code (list.dropWhile isBlank)).getD _) = _
    rw [typed, Option.getD_some]

theorem arrowParamsBefore?_one {name : Text} (valid : isWord name) (past : PastWord before.reverse)
    (free : ¬ReadsAsType before.reverse)
    (behind : (code.take arrow).reverse.dropWhile isBlank = name.reverse ++ before.reverse) :
    arrowParamsBefore? code arrow = some (before.length, name) := by
  have found := (arrowParamsBefore?_word (isWord_reverse valid) past behind).1
  rw [List.reverse_reverse, List.length_reverse] at found
  refine found fun list colon => ?_
  rw [bracketedParams?.eq_def]
  split
  · rename_i closer
    exact absurd ⟨list, colon, by rw [trimStart, closer]; rfl⟩ free
  · rfl

theorem arrowParamsBefore?_list (params : ParamList)
    (split : code = before ++ (params.print ++ rest))
    (behind : (code.take arrow).reverse.dropWhile isBlank =
      params.print.reverse ++ before.reverse) :
    arrowParamsBefore? code arrow = some (before.length, params.inner) := by
  have closer : (params.print.reverse ++ before.reverse).head? = some ')' := by
    rw [params.reverse_print]
    rfl
  have found := params.bracketedParams? before rest
  rw [arrowParamsBefore?, behind]
  simp only [if_pos closer]
  rw [split, found]

theorem arrowParamsBefore?_annotated (params : ParamList) (gap gap' : Blanks) {type : Text}
    (valid : isWord type) (split : code = before ++ (params.print ++ rest))
    (behind : (code.take arrow).reverse.dropWhile isBlank =
      type.reverse ++
        (gap'.text.reverse ++
          ':' :: (gap.text.reverse ++ (params.print.reverse ++ before.reverse)))) :
    arrowParamsBefore? code arrow = some (before.length, params.inner) := by
  have past : PastWord
      (gap'.text.reverse ++
        ':' :: (gap.text.reverse ++ (params.print.reverse ++ before.reverse))) :=
    pastWord_blank_append (by rw [isBlankText, List.all_reverse]; exact gap'.blank) (by decide)
  have colon := gap'.dropWhile_reverse_append
    (t := ':' :: (gap.text.reverse ++ (params.print.reverse ++ before.reverse)))
    (by rintro c ⟨⟩; decide)
  have list := gap.dropWhile_reverse_append (t := params.print.reverse ++ before.reverse)
    (by rw [params.reverse_print]; rintro c ⟨⟩; decide)
  refine (arrowParamsBefore?_word (isWord_reverse valid) past behind).2 _ _ colon ?_
  rw [list, split, params.bracketedParams? before rest]

end ArrowHeads

/-- The text of the parameters. -/
def ArrowHead.pattern : ArrowHead → Text
  | .one name _ => name
  | .list params | .annotated params _ _ => params.inner

theorem ArrowHead.arrowParamsBefore? (head : ArrowHead) {before : Text}
    (fits : head.Fits before.reverse)
    (seen : head.Seen before.reverse) (gap : Blanks) (rest : Text) :
    arrowParamsBefore? (before ++ (head.print ++ (gap.text ++ rest)))
      (before ++ (head.print ++ gap.text)).length =
      some (before.length, head.pattern) := by
  have split : before ++ (head.print ++ (gap.text ++ rest)) =
      (before ++ (head.print ++ gap.text)) ++ rest := by simp
  have behind : (∀ c, (head.print.reverse ++ before.reverse).head? = some c → isBlank c = false) →
      ((before ++ (head.print ++ (gap.text ++ rest))).take
        (before ++ (head.print ++ gap.text)).length).reverse.dropWhile isBlank =
          head.print.reverse ++ before.reverse := by
    intro visible
    rw [split, List.take_left, List.reverse_append, List.reverse_append, List.append_assoc,
      gap.dropWhile_reverse_append visible]
  cases head with
  | one name valid =>
    have word := isWord_of_isIdentifier valid
    exact arrowParamsBefore?_one word fits seen
      (behind (not_isBlank_of_isWord (isWord_reverse word) _))
  | list params =>
    refine arrowParamsBefore?_list params rfl (behind ?_)
    rw [ArrowHead.print, params.reverse_print]
    rintro c ⟨⟩
    decide
  | annotated params gap' type =>
    obtain ⟨gap'', word, rfl, valid⟩ := seen
    have spell : (ArrowHead.annotated params gap' (gap''.text ++ word)).print.reverse ++
        before.reverse =
        word.reverse ++
          (gap''.text.reverse ++
            ':' :: (gap'.text.reverse ++ (params.print.reverse ++ before.reverse))) := by
      simp [ArrowHead.print]
    refine arrowParamsBefore?_annotated params gap' gap'' valid (by simp [ArrowHead.print]; rfl)
      ((behind ?_).trans spell)
    rw [spell]
    exact not_isBlank_of_isWord (isWord_reverse valid) _

theorem ArrowHead.exists_pattern (head : ArrowHead) :
    ∃ front back, head.print = front ++ (head.pattern ++ back) := by
  cases head with
  | one name valid => exact ⟨[], [], by simp [ArrowHead.print, ArrowHead.pattern]⟩
  | list params => exact ⟨['('], [')'], rfl⟩
  | annotated params gap type =>
    refine ⟨['('], ')' :: (gap.text ++ ':' :: type), ?_⟩
    simp [ArrowHead.print, ArrowHead.pattern, ParamList.print]

theorem ArrowHead.Binds.pattern {name : Text} {head : ArrowHead} (h : head.Binds name) :
    Recast.Binds name .list head.pattern := by
  cases head with
  | one parameter valid =>
    have same : name = parameter := h
    subst same
    have here : Recast.Binds name .element ([] ++ (name ++ [])) := .name rfl valid (by rintro c ⟨⟩)
    simpa [ArrowHead.pattern] using Recast.Binds.item (.inl rfl) here
  | list params => exact h
  | annotated params gap type => exact h

/-! ## The scopes of binders -/

/-- One of the scopes binds the name from one place to another. -/
def BoundOver (scopes : List BindingScope) (name : Text) (start stop : Nat) : Prop :=
  ∃ scope ∈ scopes, scope.start ≤ start ∧ stop ≤ scope.stop ∧ name ∈ scope.names

section Scopes

variable {name before after : Text}

theorem boundOver_arrow {head : ArrowHead} {gap : Blanks} {body : BodyText}
    (unmarked : Unmarked (before ++ ((Binder.arrow head gap body).scope ++ after)))
    (fits : head.Fits before.reverse) (seen : head.Seen before.reverse) (binds : head.Binds name) :
    BoundOver (bindingScopes (before ++ ((Binder.arrow head gap body).scope ++ after))) name
      before.length
      (before.length + (Binder.arrow head gap body).scope.length) := by
  set code := before ++ ((Binder.arrow head gap body).scope ++ after) with spell
  set front := before ++ (head.print ++ gap.text) with hfront
  have atArrow : code = front ++ ("=>".toList ++ (body.print ++ after)) := by
    simp [spell, hfront, Binder.scope]
  have atBody : code = (front ++ "=>".toList) ++ (body.print ++ after) := by
    rw [atArrow, List.append_assoc front]
  have token : ⟨front.length, front.length + 2, ()⟩ ∈ occurrences arrowToken code := by
    rw [atArrow]
    exact mem_occurrences isolated_arrowToken rfl
  have params : arrowParamsBefore? code front.length = some (before.length, head.pattern) := by
    have found := head.arrowParamsBefore? fits seen gap ("=>".toList ++ (body.print ++ after))
    simpa [spell, hfront, Binder.scope] using found
  have covered := body.le_bodyEnd (atBody ▸ unmarked)
  rw [← atBody, List.length_append] at covered
  obtain ⟨first, last, pattern⟩ := head.exists_pattern
  have bound := binds.pattern.mem_patternNames
    (unmarked.part (before ++ first) (last ++ (gap.text ++ ("=>".toList ++ (body.print ++ after))))
      (by simp [spell, Binder.scope, pattern]))
  refine ⟨⟨before.length, bodyEnd code (front.length + 2), patternNames head.pattern⟩, ?_,
    Nat.le_refl _, ?_, bound⟩
  · refine List.mem_append_left _ (List.mem_append_left _ (List.mem_filterMap.2 ⟨_, token, ?_⟩))
    rw [arrowScope?, params, Option.map_some]
  · refine Nat.le_trans ?_ covered
    simp only [hfront, Binder.scope, List.length_append]
    omega

/-- The first mark of a text behind a part without it. -/
theorem offsetOf?_append {mark : Char} (rest : Text) : ∀ {t : Text} (pos : Nat), mark ∉ t →
    offsetOf? (· == mark) pos (t ++ mark :: rest) = some (pos + t.length)
  | [], pos, _ => by simp [offsetOf?]
  | c :: cs, pos, out => by
    simp only [List.mem_cons, not_or] at out
    have other : (c == mark) = false := by simpa using Ne.symm out.1
    rw [List.cons_append, offsetOf?, other, if_neg Bool.false_ne_true,
      offsetOf?_append rest (pos + 1) out.2, List.length_cons, Nat.add_assoc, Nat.add_comm 1]

theorem boundOver_function {head : FunctionHead} {params : ParamList} {gap : Text}
    {block : CodeBlock}
    (unmarked : Unmarked
      (before ++ (head.print ++ ((Binder.function head params gap block).scope ++ after))))
    (seen : head.types = [] ∧ '{' ∉ gap) (starts : startsUnqualified before.reverse)
    (binds : Binds name .list params.inner) :
    BoundOver (bindingScopes
        (before ++ (head.print ++ ((Binder.function head params gap block).scope ++ after))))
      name (before ++ head.print).length
      ((before ++ head.print).length + (Binder.function head params gap block).scope.length) := by
  set front := before ++ head.print with hfront
  set code := before ++ (head.print ++ ((Binder.function head params gap block).scope ++ after))
    with spell
  have atParams : code =
      front ++ '(' :: (params.inner ++ ')' :: (gap ++ (block.print ++ after))) := by
    simp [spell, hfront, Binder.scope, ParamList.print]
  have atGap : code = (front ++ params.print) ++ (gap ++ '{' :: (block.inner ++ '}' :: after)) := by
    simp [spell, hfront, Binder.scope, CodeBlock.print]
  have atBlock : code = ((front ++ params.print) ++ gap) ++
      '{' :: (block.inner ++ '}' :: after) := by
    rw [atGap, List.append_assoc (front ++ params.print)]
  have paramsEnd : bracketEndAt? code front.length = some (front ++ params.print).length := by
    have found := bracketEndAt?_group params.closed .round front (atParams ▸ unmarked)
    rw [atParams]
    refine found.trans (congrArg some ?_)
    simp only [List.length_append, ParamList.length_print]
    omega
  have brace : offsetOf? (· == '{') (front ++ params.print).length
      (code.drop (front ++ params.print).length) =
      some ((front ++ params.print) ++ gap).length := by
    rw [atGap, List.drop_left, offsetOf?_append _ _ seen.2, ← List.length_append]
  have blockEnd : bracketEndAt? code ((front ++ params.print) ++ gap).length =
      some (((front ++ params.print) ++ gap).length + block.inner.length + 2) := by
    rw [atBlock]
    exact bracketEndAt?_group block.closed .curly _ (atBlock ▸ unmarked)
  have inner : slice code (front.length + 1) ((front ++ params.print).length - 1) = params.inner :=
    slice_eq (front ++ ['(']) (')' :: (gap ++ (block.print ++ after))) (by simp [atParams])
      (by simp)
      (by simp only [List.length_append, ParamList.length_print, List.length_singleton]; omega)
  obtain ⟨occurrence, mem, stop⟩ := exists_function (head.functionToken_print seen.1 starts
    (params.inner ++ ')' :: (gap ++ (block.print ++ after))))
  rw [← List.append_assoc, ← hfront, ← atParams] at mem
  rw [← List.length_append, ← hfront] at stop
  have bound :=
    binds.mem_patternNames (unmarked.part (front ++ ['(']) (')' :: (gap ++ (block.print ++ after)))
    (by simp [atParams]))
  refine ⟨⟨front.length, ((front ++ params.print) ++ gap).length + block.inner.length + 2,
    patternNames params.inner⟩,
    List.mem_append_right _ (List.mem_filterMap.2 ⟨occurrence, mem, ?_⟩), Nat.le_refl _, ?_, bound⟩
  · simp only [functionScope?, stop, paramsEnd, brace, blockEnd, inner, Option.bind_eq_bind,
      Option.bind_some]
  · simp only [Binder.scope, List.length_append, CodeBlock.length_print]
    omega

theorem pastWord_append {t u : Text} (ht : PastWord t) (hu : PastWord u) : PastWord (t ++ u) := by
  cases t with
  | nil => exact hu
  | cons c cs => exact ht

/-- A declared name is read in full. -/
theorem declaredPattern?_name (front : Text) (valid : isIdentifier name) (past : PastWord after) :
    declaredPattern? (front ++ (name ++ after)) front.length = some name := by
  have found := identifier?_append valid past
  have word : ∀ c, (name ++ after).head? = some c → isNameChar c := by
    cases name with
    | nil => exact Bool.noConfusion valid
    | cons c cs => rintro d ⟨⟩; exact isNameChar_of_isIdentifier valid c List.mem_cons_self
  have bracket : ∀ c, isNameChar c = false → decide ((name ++ after).head? = some c) = false := by
    intro c out
    rw [decide_eq_false_iff_not]
    intro head
    rw [word c head] at out
    cases out
  rw [declaredPattern?, List.drop_left, found, bracket '{' rfl, bracket '[' rfl]
  rfl

/-- A destructuring pattern is read up to its closing bracket. -/
theorem declaredPattern?_group (kind : Bracket) (hk : kind ≠ .round) {inner : Text}
    (closed : Closed (fun _ => true) inner)
    (front : Text) (unmarked : Unmarked (front ++ kind.opener :: (inner ++ kind.closer :: after))) :
    declaredPattern? (front ++ kind.opener :: (inner ++ kind.closer :: after)) front.length =
      some (kind.opener :: (inner ++ [kind.closer])) := by
  have stop := bracketEndAt?_group closed kind front unmarked
  have cut : slice (front ++ kind.opener :: (inner ++ kind.closer :: after)) front.length
      (front.length + inner.length + 2) =
      kind.opener :: (inner ++ [kind.closer]) :=
    slice_eq front after (by simp) rfl (by simp; omega)
  have opener : (kind.opener :: (inner ++ kind.closer :: after)).head? = some '{' ∨
      (kind.opener :: (inner ++ kind.closer :: after)).head? = some '[' := by
    cases kind with
    | round => exact absurd rfl hk
    | square => exact .inr rfl
    | curly => exact .inl rfl
  rw [declaredPattern?, List.drop_left, stop]
  simp only [Bool.or_eq_true, decide_eq_true_eq, if_pos opener, Option.map_some, cut]

/-- Behind blanks, `rest` starts with a pattern that binds the name, as it is read before
`after`. -/
def Declares (name front rest after : Text) : Prop :=
  ∃ (lead : Blanks) (solid : Text), rest = lead.text ++ solid ∧
    (∀ c, (solid ++ after).head? = some c → isBlank c = false) ∧
      ∃ pattern, declaredPattern? (front ++ (rest ++ after)) (front ++ lead.text).length =
        some pattern ∧
        name ∈ patternNames pattern

theorem declares_name (lead : Blanks) (valid : isIdentifier name) {rest : Text}
    (past : PastWord rest)
    (past' : PastWord after) {front : Text}
    (unmarked : Unmarked (front ++ ((lead.text ++ (name ++ rest)) ++ after))) :
    Declares name front (lead.text ++ (name ++ rest)) after := by
  have visible := not_isBlank_of_isWord (isWord_of_isIdentifier valid) (rest ++ after)
  have found := declaredPattern?_name (front ++ lead.text) valid (pastWord_append past past')
  have alone : Binds name .list ([] ++ ([] ++ (name ++ []))) :=
    .item (.inl rfl) (.name rfl valid (by rintro c ⟨⟩))
  simp only [List.append_nil, List.nil_append] at alone
  refine ⟨lead, name ++ rest, rfl, by simpa using visible, name, by simpa using found, ?_⟩
  exact alone.mem_patternNames (unmarked.part (front ++ lead.text) (rest ++ after) (by simp))

theorem declares_group (lead : Blanks) (kind : Bracket) (hk : kind ≠ .round) {inner : Text}
    (closed : Closed (fun _ => true) inner) {rest front : Text}
    (unmarked : Unmarked
      (front ++ ((lead.text ++ kind.opener :: (inner ++ kind.closer :: rest)) ++ after)))
    (binds : Binds name .element ([] ++ kind.opener :: (inner ++ [kind.closer]))) :
    Declares name front (lead.text ++ kind.opener :: (inner ++ kind.closer :: rest)) after := by
  have visible : isBlank kind.opener = false := by cases kind <;> decide
  have found : declaredPattern?
      ((front ++ lead.text) ++ kind.opener :: (inner ++ kind.closer :: (rest ++ after)))
      (front ++ lead.text).length = _ :=
    declaredPattern?_group kind hk closed (front ++ lead.text) (by simpa using unmarked)
  refine ⟨lead, _, rfl, by rintro c ⟨⟩; exact visible, _, by simpa using found, ?_⟩
  exact (Binds.item (.inl rfl) binds).mem_patternNames
    (unmarked.part (front ++ lead.text) (rest ++ after) (by simp))

/-- What an element binds is declared by it. -/
theorem Binds.declares {rest : Text} (binds : Binds name .element rest) (past : PastWord after)
    {front : Text}
    (unmarked : Unmarked (front ++ (rest ++ after))) : Declares name front rest after := by
  cases binds with
  | @name lead _ blank valid past' => exact declares_name ⟨lead, blank⟩ valid past' past unmarked
  | @array lead _ _ blank closed level here =>
    exact declares_group ⟨lead, blank⟩ .square (by decide) closed unmarked
      (.array rfl closed level here)
  | @object lead _ _ blank closed level here =>
    exact declares_group ⟨lead, blank⟩ .curly (by decide) closed unmarked
      (.object rfl closed level here)

/-- Where the scope of a declaration ends. -/
def declarationStop (code : Text) (start : Nat) : Nat :=
  let block := expressionEnd (fun _ => false) code start
  if opensLoop (code.take start).reverse && block < code.length then bodyEnd code (block + 1)
  else block

/-- A declaration that is seen has a scope from its keyword on. -/
theorem Declaration.exists_scope {d : Declaration} (seen : d.Seen)
    (starts : startsUnqualified before.reverse)
    (binds : Binds name .element d.rest) (past : PastWord after)
    (unmarked : Unmarked (before ++ (d.print ++ after))) :
    ∃ scope ∈ bindingScopes (before ++ (d.print ++ after)), scope.start = before.length ∧
      scope.stop = declarationStop (before ++ (d.print ++ after)) before.length ∧
        name ∈ scope.names := by
  have print : before ++ (d.print ++ after) = (before ++ (d.keyword ++ d.gap.text)) ++
      (d.rest ++ after) := by
    simp [Declaration.print, seen.1]
  obtain ⟨lead, solid, split, visible, pattern, found, bound⟩ :=
    binds.declares past (print ▸ unmarked)
  -- The blanks before the pattern belong to the keyword.
  have blank : isBlankText (d.gap.text ++ lead.text) := by
    rw [isBlankText, List.all_append, Bool.and_eq_true]
    exact ⟨d.gap.blank, lead.blank⟩
  have token := mem_occurrences isolated_declarationToken
    (declarationToken_append starts d.valid ⟨_, blank⟩ (by simp [seen.2]) visible)
  have spell : before ++ (d.keyword ++ ((d.gap.text ++ lead.text) ++ (solid ++ after))) =
      before ++ (d.print ++ after) := by
    simp [print, split]
  have target : before.length + (d.keyword.length + (d.gap.text ++ lead.text).length) =
      ((before ++ (d.keyword ++ d.gap.text)) ++ lead.text).length := by
    simp only [List.length_append]
    omega
  rw [spell, target] at token
  rw [← print] at found
  refine ⟨⟨before.length, declarationStop (before ++ (d.print ++ after)) before.length,
    patternNames pattern⟩, ?_, rfl, rfl,
    bound⟩
  refine List.mem_append_left _ (List.mem_append_right _ (List.mem_filterMap.2 ⟨_, token, ?_⟩))
  rw [declarationScope?, found]
  rfl

theorem le_declarationStop (code : Text) (start : Nat) :
    expressionEnd (fun _ => false) code start ≤ declarationStop code start := by
  rw [declarationStop]
  split
  · rename_i loop
    rw [Bool.and_eq_true, decide_eq_true_eq] at loop
    exact Nat.le_of_succ_le (le_bodyEnd loop.2)
  · exact Nat.le_refl _

theorem boundOver_declaration {d : Declaration} (inside : StaysInside d.print) (seen : d.Seen)
    (starts : startsUnqualified before.reverse) (binds : Binds name .element d.rest)
    (past : PastWord after) (unmarked : Unmarked (before ++ (d.print ++ after))) :
    BoundOver (bindingScopes (before ++ (d.print ++ after))) name before.length
      (before.length + d.print.length) := by
  obtain ⟨scope, mem, start, stop, bound⟩ :=
    Declaration.exists_scope seen starts binds past unmarked
  obtain ⟨depth, inside⟩ := Option.isSome_iff_exists.1 inside
  have block : expressionEnd (fun _ => false) (before ++ (d.print ++ after)) before.length =
      expressionEndFrom (fun _ => false) depth (before.length + d.print.length) after := by
    rw [expressionEnd, List.drop_left, expressionEndFrom_append after _ inside]
  have later := le_expressionEndFrom (fun _ => false) after depth (before.length + d.print.length)
  have last := le_declarationStop (before ++ (d.print ++ after)) before.length
  exact ⟨scope, mem, by omega, by omega, bound⟩

/-- What opens the header of a loop is read as such. -/
theorem OpensHeader.opensLoop {behind : Text} (h : OpensHeader behind) : opensLoop behind := by
  obtain ⟨gap, gap', rest, rfl, starts⟩ := h
  have bracket :
      (gap.text ++ '(' :: (gap'.text ++ ("for".toList.reverse ++ rest))).dropWhile isBlank =
      '(' :: (gap'.text ++ ("for".toList.reverse ++ rest)) :=
    gap.trimStart_append_cons (by decide) _
  have keyword : (gap'.text ++ ("for".toList.reverse ++ rest)).dropWhile isBlank =
      "for".toList.reverse ++ rest :=
    gap'.trimStart_append_cons (by decide) _
  simp only [Recast.opensLoop, bracket, keyword, dropHead?_append]
  exact starts

theorem OpensHeader.startsUnqualified {behind : Text} (h : OpensHeader behind) :
    startsUnqualified behind := by
  obtain ⟨gap, gap', rest, rfl, -⟩ := h
  cases blanks : gap.text with
  | nil => rfl
  | cons c cs =>
    have blank := gap.isBlank_head blanks
    have dot : c ≠ '.' := by
      rintro rfl
      exact Bool.noConfusion blank
    simp [Recast.startsUnqualified, not_isNameChar_of_isBlank blank, dot]

theorem boundOver_loop {d : Declaration} (level : IsLevel (fun _ => false) d.print)
    {body : BodyText} (seen : d.Seen)
    (opens : OpensHeader before.reverse) (binds : Binds name .element d.rest)
    (unmarked : Unmarked (before ++ (d.print ++ ')' :: (body.print ++ after)))) :
    BoundOver (bindingScopes (before ++ (d.print ++ ')' :: (body.print ++ after)))) name
      before.length
      (before.length + (d.print ++ ')' :: body.print).length) := by
  obtain ⟨scope, mem, start, stop, bound⟩ :=
    Declaration.exists_scope seen opens.startsUnqualified binds (by rintro c ⟨⟩; rfl) unmarked
  have block : expressionEnd (fun _ => false) (before ++ (d.print ++ ')' :: (body.print ++ after)))
      before.length =
      before.length + d.print.length := by
    rw [expressionEnd, List.drop_left, expressionEndFrom_append _ _ level]
    rfl
  have split : before ++ (d.print ++ ')' :: (body.print ++ after)) =
      (before ++ (d.print ++ [')'])) ++ (body.print ++ after) := by
    simp
  have header : before.length + d.print.length + 1 = (before ++ (d.print ++ [')'])).length := by
    simp only [List.length_append, List.length_singleton]
    omega
  have short : before.length + d.print.length <
      (before ++ (d.print ++ ')' :: (body.print ++ after))).length := by
    simp only [List.length_append, List.length_cons]
    omega
  have covered := body.le_bodyEnd (split ▸ unmarked)
  rw [← split, ← header] at covered
  rw [declarationStop, block, List.take_left] at stop
  simp only [opens.opensLoop, short, decide_true, Bool.and_self, if_true] at stop
  refine ⟨scope, mem, by omega, ?_, bound⟩
  simp only [List.length_append, List.length_cons]
  omega

end Scopes

/-- A binder that is seen has a scope that covers it. -/
theorem Binder.boundOver (binder : Binder) {name code before after : Text}
    (unmarked : Unmarked code)
    (split : code = before ++ (binder.lead ++ (binder.scope ++ after)))
    (fits : binder.Fits before.reverse after)
    (seen : binder.Seen before.reverse) (binds : binder.Binds name) :
    BoundOver (bindingScopes code) name (before ++ binder.lead).length
      ((before ++ binder.lead).length + binder.scope.length) := by
  subst split
  cases binder with
  | arrow head gap body =>
    simpa [Binder.lead] using boundOver_arrow unmarked fits seen binds
  | function head params gap block => exact boundOver_function unmarked seen fits binds
  | declaration d inside =>
    simpa [Binder.lead, Binder.scope] using boundOver_declaration inside seen fits.1 binds fits.2
      unmarked
  | loop d level body =>
    have spell : before ++
        ((Binder.loop d level body).lead ++ ((Binder.loop d level body).scope ++ after)) =
        before ++ (d.print ++ ')' :: (body.print ++ after)) := by
      simp [Binder.lead, Binder.scope]
    rw [spell] at unmarked ⊢
    simpa [Binder.lead, Binder.scope] using boundOver_loop level seen fits binds unmarked

end Recast
