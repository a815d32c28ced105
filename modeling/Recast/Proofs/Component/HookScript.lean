import Recast.Proofs.Component.ClassConversion
import Recast.Proofs.Scan.Nesting
import Recast.Proofs.Scope.Expression
import Recast.Proofs.Text.Search

/-!
# Bodies written statement by statement

A `Script` is the body of a component as a list of statements on lines of their own: state
declarations, effects, and plain statements that name no hook. Its parts carry the proofs of their
own shape, so that every script is one that can be written; `scriptText` writes it.

The hooks of a script are found where they are declared and nowhere else. A state declaration needs
the word `useState` and its own `const [` before it (`stateOpening_needs`), and every such word of a
script has one (`heralded_script`); the other hooks need their name as a whole word (`HookCall`).
-/

namespace Recast

/-! ## Whole words in a text -/

/-- The word stands in the text, with no name character next to it. -/
def HasWord (w t : Text) : Prop :=
  ∃ before after, t = before ++ (w ++ after) ∧ PastWord before.reverse ∧ PastWord after

theorem pastWord_nil : PastWord [] := by
  rintro c ⟨⟩

theorem PastWord.of_append {a b : Text} (h : PastWord (a ++ b)) : PastWord a := by
  intro c hc
  exact h c (by rw [List.head?_append, hc]; rfl)

/-- A word in two pieces of text is in one of them, if the pieces do not meet inside a word. -/
theorem word_of_append {w piece rest before after : Text} (hw : isWord w)
    (border : PastWord piece.reverse ∨ PastWord rest) (h : piece ++ rest = before ++ (w ++ after))
    (hb : PastWord before.reverse) (ha : PastWord after) :
    (∃ more, piece = before ++ (w ++ more) ∧ PastWord more) ∨
      ∃ more, before = piece ++ more ∧ rest = more ++ (w ++ after) ∧ PastWord more.reverse := by
  rcases List.append_eq_append_iff.1 h with ⟨more, rfl, rfl⟩ | ⟨cut, rfl, split⟩
  · refine .inr ⟨more, rfl, rfl, ?_⟩
    rw [List.reverse_append] at hb
    exact hb.of_append
  · rcases List.append_eq_append_iff.1 split with ⟨more, rfl, rfl⟩ | ⟨more, rfl, rfl⟩
    · exact .inl ⟨more, rfl, ha.of_append⟩
    · have chars := isNameChar_of_isWord hw
      cases more with
      | nil => exact .inl ⟨[], by simp, pastWord_nil⟩
      | cons c cs =>
        rcases cut.eq_nil_or_concat with rfl | ⟨start, last, rfl⟩
        · exact .inr ⟨[], by simp, rfl, pastWord_nil⟩
        · -- the two pieces meet between two characters of the word
          exfalso
          rcases border with border | border
          · have := border last (by simp)
            simp [chars last (by simp)] at this
          · have := border c rfl
            simp [chars c (by simp)] at this

theorem HasWord.of_append {w piece rest : Text} (hw : isWord w)
    (border : PastWord piece.reverse ∨ PastWord rest)
    (h : HasWord w (piece ++ rest)) : HasWord w piece ∨ HasWord w rest := by
  obtain ⟨before, after, split, hb, ha⟩ := h
  rcases word_of_append hw border split hb ha with ⟨more, rfl, hm⟩ | ⟨more, rfl, rfl, hm⟩
  · exact .inl ⟨before, more, rfl, hb, hm⟩
  · exact .inr ⟨more, after, rfl, hm, ha⟩

/-- The names of the hooks. -/
def hookNames : List Text :=
  ["useState".toList, "useEffect".toList, "useLayoutEffect".toList, "useRef".toList,
    "useCallback".toList, "useMemo".toList]

theorem isWord_of_mem_hookNames : ∀ hook ∈ hookNames, isWord hook := by
  decide

/-- The text names no hook. -/
def Hookless (t : Text) : Prop :=
  ∀ hook ∈ hookNames, ¬HasWord hook t

theorem Hookless.append {piece rest : Text} (hp : Hookless piece) (hr : Hookless rest)
    (border : PastWord piece.reverse ∨ PastWord rest) : Hookless (piece ++ rest) := by
  intro hook hm found
  rcases found.of_append (isWord_of_mem_hookNames hook hm) border with found | found
  · exact hp hook hm found
  · exact hr hook hm found

theorem not_hasWord_of_not_mem {w t : Text} {c : Char} (hc : c ∈ w) (h : c ∉ t) : ¬HasWord w t := by
  rintro ⟨before, after, rfl, -⟩
  exact h (by simp [hc])

/-- A text without the letter that all hooks start with names none. -/
theorem hookless_of_not_mem {t : Text} (h : 'u' ∉ t) : Hookless t := by
  have first : ∀ hook ∈ hookNames, 'u' ∈ hook := by decide
  exact fun hook hm => not_hasWord_of_not_mem (first hook hm) h

/-! ## Statements -/

/-- The blanks before a statement on its line. -/
structure Indentation where
  text : Text
  valid : ∀ c ∈ text, isIndent c

/-- Code with properly nested brackets, no quote, no `<`, no `/`, and no hook. -/
structure Snippet where
  text : Text
  nested : Nested text
  plain : ∀ c ∈ text, isPlainCode c
  hookless : Hookless text

/-- A type argument that is not blank. -/
structure TypeArgument where
  text : Text
  written : isBlankText text = false
  valid : ∀ c ∈ text, c ≠ '(' ∧ c ≠ ')' ∧ c ≠ '='

/-- A statement of a body. -/
inductive Statement where
  | state (indentation : Indentation) (name setter : Word) (qualified : Bool)
    (type? : Option TypeArgument)
      (initial : Snippet)
  | effect (indentation : Indentation) (body dependencies : Snippet)
  | plain (code : Text) (hookless : Hookless code)

/-- The type argument in its brackets, or nothing. -/
def typeText : Option TypeArgument → Text
  | none => []
  | some type => '<' :: (type.text ++ ['>'])

/-- The module name before a hook, or nothing. -/
def moduleText (qualified : Bool) : Text :=
  if qualified then "React.".toList else []

/-- A state declaration before its opening bracket. -/
def declarationText (name setter : Word) (qualified : Bool) (type? : Option TypeArgument) : Text :=
  "const [".toList ++ (name.text ++ (", ".toList ++ (setter.text ++ ("] = ".toList ++
    (moduleText qualified ++ ("useState".toList ++ typeText type?))))))

/-- The arguments of an effect. -/
def effectArguments (body dependencies : Snippet) : Text :=
  "() => \x7b".toList ++ (body.text ++ ("\x7d, [".toList ++ (dependencies.text ++ "]".toList)))

/-- The statement as text. -/
def Statement.text : Statement → Text
  | .state indentation name setter qualified type? initial =>
    indentation.text ++
      ((declarationText name setter qualified type? ++ ['(']) ++ (initial.text ++ ");".toList))
  | .effect indentation body dependencies =>
    indentation.text ++ ("useEffect(".toList ++ (effectArguments body dependencies ++ ");".toList))
  | .plain code _ => code

/-- A statement, and whether a line end follows. -/
structure Line where
  statement : Statement
  ended : Bool

/-- The line end of a line, if it has one. -/
def Line.ending (line : Line) : Text :=
  if line.ended then ['\n'] else []

/-- The line as text. -/
def Line.text (line : Line) : Text :=
  line.statement.text ++ line.ending

/-- Statements on lines of their own: only behind the last one the line end may be missing. -/
structure Script where
  lines : List Line
  ends : ∀ line ∈ lines.dropLast, line.ended = true

/-- The lines one after the other. -/
def scriptText (lines : List Line) : Text :=
  lines.flatMap Line.text

example :
    scriptText
      [⟨.state ⟨"  ".toList, by decide⟩ ⟨"n".toList, by decide⟩ ⟨"setN".toList, by decide⟩ true
        (some ⟨"number".toList, by decide, by decide⟩)
        ⟨"f(0)".toList, by decide, by decide, hookless_of_not_mem (by decide)⟩, true⟩,
      ⟨.plain "go();".toList (hookless_of_not_mem (by decide)), true⟩,
      ⟨.effect ⟨[], by decide⟩
        ⟨"log(n);".toList, by decide, by decide, hookless_of_not_mem (by decide)⟩
        ⟨"n".toList, by decide, by decide, hookless_of_not_mem (by decide)⟩, false⟩] =
      "  const [n, setN] = React.useState<number>(f(0));\ngo();\n".toList
        ++ "useEffect(() => \x7blog(n);\x7d, [n]);".toList := by
  decide

/-! ## What a script declares -/

/-- The state variable that a statement declares. -/
def Statement.stateVariable? : Statement → Option StateVariable
  | .state _ name setter _ type? initial =>
    let value := if isBlankText initial.text then "null".toList else trim initial.text
    some ⟨name.text, setter.text, type?.elim (literalType value).text fun type => trim type.text,
      value⟩
  | _ => none

/-- The effect that a statement is. -/
def Statement.effectBlock? : Statement → Option EffectBlock
  | .effect _ body dependencies => some ⟨codeBlock body.text, some (trim dependencies.text)⟩
  | _ => none

/-- Whether a statement declares nothing. -/
def Statement.isPlain : Statement → Bool
  | .plain _ _ => true
  | _ => false

/-- The lines of the plain statements one after the other. -/
def plainText (lines : List Line) : Text :=
  lines.flatMap fun line => if line.statement.isPlain then line.text else []

/-! ## What a state declaration needs -/

theorem declarationKeyword?_needs {t rest : Text} (h : declarationKeyword? t = some rest) :
    ∃ keyword blanks, t = keyword ++ (blanks ++ rest) ∧
      keyword ∈ ["const".toList, "let".toList, "var".toList] ∧ isBlankText blanks := by
  simp only [declarationKeyword?, Option.bind_eq_bind, Option.bind_eq_some_iff,
    Option.orElse_eq_orElse, Option.orElse_eq_or, Option.or_eq_some_iff,
    Option.ite_none_right_eq_some, Option.some.injEq] at h
  obtain ⟨after, keyword, -, rfl⟩ := h
  obtain ⟨blanks, hb, split⟩ := exists_append_trimStart after
  rcases keyword with keyword | ⟨-, keyword | ⟨-, keyword⟩⟩
  · exact ⟨_, blanks, by rw [← split, eq_append_of_dropHead? keyword], by simp, hb⟩
  · exact ⟨_, blanks, by rw [← split, eq_append_of_dropHead? keyword], by simp, hb⟩
  · exact ⟨_, blanks, by rw [← split, eq_append_of_dropHead? keyword], by simp, hb⟩

theorem exists_append_dropModule (t : Text) :
    ∃ qualified, t = moduleText qualified ++ dropModule t := by
  rw [dropModule]
  cases found : dropHead? "React.".toList t with
  | none => exact ⟨false, rfl⟩
  | some rest => exact ⟨true, eq_append_of_dropHead? found⟩

theorem eq_append_of_word? {t name rest : Text} (h : word? t = some (name, rest)) :
    t = name ++ rest := by
  rw [word?] at h
  obtain ⟨-, same⟩ := Option.ite_none_left_eq_some.1 h
  obtain ⟨rfl, rfl⟩ := Prod.mk.inj (Option.some.inj same)
  exact List.takeWhile_append_dropWhile.symm

theorem pastWord_blank_append {blanks rest : Text} {c : Char} (hb : isBlankText blanks)
    (hc : isNameChar c = false) : PastWord (blanks ++ c :: rest) := by
  intro d hd
  cases blanks with
  | nil => rwa [← Option.some.inj hd]
  | cons blank blanks =>
    obtain rfl := Option.some.inj hd
    exact not_isNameChar_of_isBlank (List.all_eq_true.1 hb _ (by simp))

theorem pastWord_of_trimStart_cons {t rest : Text} {c : Char} (hc : isNameChar c = false)
    (h : trimStart t = c :: rest) : PastWord t := by
  obtain ⟨blanks, hb, split⟩ := exists_append_trimStart t
  rw [split, h]
  exact pastWord_blank_append hb hc

theorem pastWord_of_callOpening? {t rest : Text} {argument? : Option Text}
    (h : callOpening? t = some (argument?, rest)) : PastWord t := by
  rw [callOpening?] at h
  split at h
  · rename_i opened
    exact pastWord_of_trimStart_cons (by decide) opened
  · obtain ⟨after, opened, -⟩ := Option.map_eq_some_iff.1 h
    exact pastWord_of_trimStart_cons (by decide) (eq_append_of_dropHead? opened)

theorem not_mem_of_isBlankText {c : Char} (hc : isBlank c = false) {t : Text} (h : isBlankText t) :
    c ∉ t := by
  intro hm
  rw [List.all_eq_true.1 h c hm] at hc
  cases hc

theorem not_mem_of_isWord {c : Char} (hc : isNameChar c = false) {t : Text} (h : isWord t) :
    c ∉ t := by
  intro hm
  rw [isNameChar_of_isWord h c hm] at hc
  cases hc

theorem pastWord_reverse_append {a b : Text} (h : PastWord b.reverse) (hb : b ≠ []) :
    PastWord (a ++ b).reverse := by
  intro c hc
  rw [List.reverse_append, List.head?_append_of_ne_nil _ (by simpa using hb)] at hc
  exact h c hc

theorem pastWord_reverse_blank {t : Text} (h : isBlankText t) : PastWord t.reverse := by
  intro c hc
  exact not_isNameChar_of_isBlank
    (List.all_eq_true.1 h c (List.mem_reverse.1 (List.mem_of_mem_head? hc)))

theorem pastWord_moduleText (qualified : Bool) : PastWord (moduleText qualified).reverse := by
  cases qualified
  · exact pastWord_nil
  · rintro c ⟨⟩
    decide

/-- A state declaration is found at a keyword before a square bracket, with `useState` behind and no
other square bracket that opens between them. -/
theorem stateOpening_needs {behind ahead : Text} {found : (Text × Text × Option Text) × Nat}
    (h : stateOpening behind ahead = some found) :
    ∃ keyword blanks between after,
      ahead = keyword ++ (blanks ++ '[' :: (between ++ ("useState".toList ++ after))) ∧
      keyword ∈ ["const".toList, "let".toList, "var".toList] ∧ isBlankText blanks ∧ '[' ∉ between ∧
      PastWord ('[' :: between).reverse ∧ PastWord after := by
  simp only [stateOpening, Option.bind_eq_bind, Option.bind_eq_some_iff] at h
  obtain ⟨declared, declares, pattern, bracket, ⟨name, afterName⟩, named, afterComma, comma,
      ⟨setter, afterSetter⟩, set,
    afterPattern, closed, value, equals, after, hook, ⟨argument?, rest⟩, call, -⟩ := h
  obtain ⟨keyword, blanks, rfl, hk, hb⟩ := declarationKeyword?_needs declares
  obtain rfl := eq_append_of_dropHead? bracket
  obtain ⟨blanks₁, hb₁, split₁⟩ := exists_append_trimStart pattern
  obtain ⟨blanks₂, hb₂, split₂⟩ := exists_append_trimStart afterName
  obtain ⟨blanks₃, hb₃, split₃⟩ := exists_append_trimStart afterComma
  obtain ⟨blanks₄, hb₄, split₄⟩ := exists_append_trimStart afterSetter
  obtain ⟨blanks₅, hb₅, split₅⟩ := exists_append_trimStart afterPattern
  obtain ⟨blanks₆, hb₆, split₆⟩ := exists_append_trimStart value
  obtain ⟨qualified, split₇⟩ := exists_append_dropModule (trimStart value)
  rw [eq_append_of_word? named] at split₁
  rw [eq_append_of_dropHead? comma] at split₂
  rw [eq_append_of_word? set] at split₃
  rw [eq_append_of_dropHead? closed] at split₄
  rw [eq_append_of_dropHead? equals] at split₅
  rw [split₇, eq_append_of_dropHead? hook] at split₆
  have blank : ∀ {t}, isBlankText t → '[' ∉ t := not_mem_of_isBlankText (by decide)
  have word : ∀ {t}, isWord t → '[' ∉ t := not_mem_of_isWord (by decide)
  have module : '[' ∉ moduleText qualified := by cases qualified <;> decide
  refine ⟨keyword, blanks,
    blanks₁ ++ (name ++ (blanks₂ ++ ',' :: (blanks₃ ++ (setter ++ (blanks₄ ++ ']' :: (blanks₅
    ++ '=' :: (blanks₆ ++ moduleText qualified))))))), after, ?_, hk, hb, ?_, ?_,
    pastWord_of_callOpening? call⟩
  · rw [split₁, split₂, split₃, split₄, split₅, split₆]
    simp
  · simp only [List.mem_append, List.mem_cons, not_or]
    exact ⟨blank hb₁, word (isWord_of_word? named), blank hb₂, by
      decide, blank hb₃, word (isWord_of_word? set),
      blank hb₄, by decide, blank hb₅, by decide, blank hb₆, module⟩
  · have ends : PastWord ('=' :: (blanks₆ ++ moduleText qualified)).reverse := by
      cases qualified
      · rw [moduleText, if_neg Bool.false_ne_true, List.append_nil]
        cases blanks₆ with
        | nil =>
          rintro c ⟨⟩
          decide
        | cons blank blanks =>
          exact pastWord_reverse_append (a := ['=']) (pastWord_reverse_blank hb₆) (by simp)
      · exact pastWord_reverse_append (a := '=' :: blanks₆) (pastWord_moduleText true) (by decide)
    have whole := pastWord_reverse_append
      (a := '[' :: (blanks₁ ++ (name ++ (blanks₂ ++ ',' :: (blanks₃ ++ (setter
      ++ (blanks₄ ++ ']' :: blanks₅))))))) ends (by simp)
    simpa using whole

/-! ## Where state declarations are found -/

/-- Every `useState` of the text has the start of a declaration before it. -/
def Heralded (t : Text) : Prop :=
  ∀ before after, t = before ++ ("useState".toList ++ after) → PastWord before.reverse →
    PastWord after →
    ∃ front back, before = front ++ ("const [".toList ++ back)

theorem heralded_nil : Heralded [] := by
  intro before after split
  simp at split

theorem Heralded.append {piece rest : Text} (h : Heralded rest)
    (border : PastWord piece.reverse ∨ PastWord rest)
    (quiet : ¬HasWord "useState".toList piece) : Heralded (piece ++ rest) := by
  intro before after split hb ha
  rcases word_of_append (by decide) border split hb ha with ⟨more, rfl, hm⟩ | ⟨more, rfl, later, hm⟩
  · exact absurd ⟨before, more, rfl, hb, hm⟩ quiet
  · obtain ⟨front, back, rfl⟩ := h more after later hm ha
    exact ⟨piece ++ front, back, by simp⟩

theorem heralded_declaration {indentation : Text} (h : ∀ c ∈ indentation, isIndent c)
    (more : Text) : Heralded (indentation ++ ("const [".toList ++ more)) := by
  intro before after split _ _
  rw [← List.append_assoc] at split
  rcases List.append_eq_append_iff.1 split with ⟨back, rfl, -⟩ | ⟨start, front, word⟩
  · exact ⟨indentation, back, by simp⟩
  · cases start with
    | nil => exact ⟨indentation, [], by simpa using front.symm⟩
    | cons c cs =>
      -- the word would start in the indentation or in `const [`
      obtain rfl : 'u' = c := (List.cons.inj word).1
      have letter : 'u' ∈ indentation ++ "const [".toList := by
        rw [front]
        simp
      rcases List.mem_append.1 letter with hm | hm
      · exact absurd (h 'u' hm) (by decide)
      · exact absurd hm (by decide)

/-- Two cuts of a text at a character that one of them has only once are the same. -/
theorem append_cons_inj {c : Char} {a b x y : Text} (h : a ++ c :: b = x ++ c :: y) (ha : c ∉ a)
    (hb : c ∉ b) : a = x ∧ b = y := by
  rcases List.append_eq_append_iff.1 h with ⟨more, rfl, split⟩ | ⟨more, rfl, split⟩
  · cases more with
    | nil => simpa using split
    | cons d more =>
      rw [(List.cons.inj split).2] at hb
      simp at hb
  · cases more with
    | nil => simpa using split.symm
    | cons d more =>
      obtain rfl := (List.cons.inj split).1
      simp at ha

/-- A piece of text does not end inside a word or behind a dot, or it is the last one. -/
def Apart (piece rest : Text) : Prop :=
  startsUnqualified piece.reverse = true ∨ rest = []

theorem pastWord_of_startsUnqualified {behind : Text} (h : startsUnqualified behind = true) :
    PastWord behind := by
  intro c hc
  simp only [startsUnqualified, hc, Option.any_some, Bool.not_eq_true', Bool.or_eq_false_iff] at h
  exact h.1

theorem Apart.border {piece rest : Text} (h : Apart piece rest) :
    PastWord piece.reverse ∨ PastWord rest := by
  rcases h with h | rfl
  · exact .inl (pastWord_of_startsUnqualified h)
  · exact .inr pastWord_nil

theorem keyword_shape {keyword : Text}
    (h : keyword ∈ ["const".toList, "let".toList, "var".toList]) :
    '[' ∉ keyword ∧ keyword.length ≤ 5 ∧ ∀ c, keyword.getLast? = some c → isBlank c = false := by
  simp only [List.mem_cons, List.not_mem_nil, or_false] at h
  rcases h with rfl | rfl | rfl
  all_goals
    refine ⟨by decide, by decide, ?_⟩
    rintro c ⟨⟩
    decide

/-- No state declaration starts in a piece without `useState`: the next one of the rest has a
keyword of its own. -/
theorem silent_stateOpening {piece rest : Text} (behind : Text) (apart : Apart piece rest)
    (quiet : ¬HasWord "useState".toList piece) (later : Heralded rest) :
    SilentIn stateOpening behind piece rest := by
  rintro passed ahead rfl nonempty
  by_contra succeeds
  obtain ⟨found, h⟩ := Option.ne_none_iff_exists'.1 succeeds
  obtain ⟨keyword, blanks, between, after, split, hk, hb, once, hbefore, hafter⟩ :=
    stateOpening_needs h
  have whole : (passed ++ ahead) ++ rest =
      (passed ++ (keyword ++ (blanks ++ '[' :: between))) ++ ("useState".toList ++ after) := by
    rw [List.append_assoc, split]
    simp
  have starts : PastWord (passed ++ (keyword ++ (blanks ++ '[' :: between))).reverse := by
    rw [← List.append_assoc, ← List.append_assoc]
    exact pastWord_reverse_append hbefore (by simp)
  rcases word_of_append (by decide) apart.border whole starts hafter
    with ⟨more, inside, hm⟩ | ⟨more, inside, hr, hm⟩
  · exact quiet ⟨_, more, inside, starts, hm⟩
  · obtain ⟨front, back, rfl⟩ := later more after hr hm hafter
    obtain ⟨bare, short, last⟩ := keyword_shape hk
    have same : (keyword ++ blanks) ++ '[' :: between = (ahead ++ (front ++ "const ".toList)) ++
        '[' :: back := by
      rw [List.append_assoc] at inside
      simpa using List.append_cancel_left inside
    have once' : '[' ∉ keyword ++ blanks := by
      simp only [List.mem_append, not_or]
      exact ⟨bare, not_mem_of_isBlankText (by decide) hb⟩
    have cut := congrArg trimEnd (append_cons_inj same once' once).1
    have own : (ahead ++ (front ++ "const ".toList)) = (ahead ++ (front ++ "const".toList)) ++
        [' '] := by simp
    rw [trimEnd_append last, trimEnd_blank hb, own, trimEnd_append (by simp; decide)] at cut
    have positive := List.length_pos_of_ne_nil nonempty
    have lengths := congrArg List.length cut
    have five : "const".toList.length = 5 := rfl
    simp only [List.length_append, List.length_nil, five] at lengths
    omega

/-! ## Where the other hooks are found -/

/-- A call of one of the hooks may start here: its name as a whole word, with or without the module
before it. -/
def HookCall (hooks : List Text) (behind ahead : Text) : Prop :=
  startsUnqualified behind = true ∧ ∃ qualified hook after,
    ahead = moduleText qualified ++ (hook ++ after) ∧ hook ∈ hooks ∧ PastWord after

/-- No call of a hook starts in a piece that names none. -/
theorem not_hookCall {hooks : List Text} (known : hooks ⊆ hookNames)
    {behind passed ahead rest : Text}
    (apart : Apart (passed ++ ahead) rest) (quiet : Hookless (passed ++ ahead))
    (nonempty : ahead ≠ []) : ¬HookCall hooks (passed.reverse ++ behind) (ahead ++ rest) := by
  rintro ⟨free, qualified, hook, after, split, hm, ha⟩
  have starts : PastWord (passed ++ moduleText qualified).reverse := by
    cases qualified
    · rw [moduleText, if_neg Bool.false_ne_true, List.append_nil]
      exact (pastWord_of_startsUnqualified free).of_append
    · exact pastWord_reverse_append (pastWord_moduleText true) (by decide)
  have whole : (passed ++ ahead) ++ rest = (passed ++ moduleText qualified) ++ (hook ++ after) := by
    rw [List.append_assoc, split, List.append_assoc]
  rcases word_of_append (isWord_of_mem_hookNames hook (known hm)) apart.border whole starts ha with
    ⟨more, inside, hmore⟩ | ⟨more, inside, hr, -⟩
  · exact quiet hook (known hm) ⟨_, more, inside, starts, hmore⟩
  · -- the piece would end inside the module name or behind its dot
    have cut : moduleText qualified = ahead ++ more := by
      rw [List.append_assoc] at inside
      exact List.append_cancel_left inside
    rcases apart with ends | rfl
    · obtain ⟨start, last, rfl⟩ := (List.eq_nil_or_concat ahead).resolve_left nonempty
      have letters : ∀ c ∈ moduleText qualified, (isNameChar c || c == '.') = true := by
        cases qualified <;> decide
      have := letters last (by rw [cut]; simp)
      simp [startsUnqualified, this] at ends
    · have := ne_nil_of_isWord (isWord_of_mem_hookNames hook (known hm))
      simp [this] at hr

/-- The names of the hooks that are effects. -/
def effectNames : List Text :=
  ["useEffect".toList, "useLayoutEffect".toList]

/-- An effect is found at its name, before a bracket. -/
theorem effectOpening_needs {behind ahead : Text} {found : Unit × Nat}
    (h : effectOpening behind ahead = some found) :
    startsUnqualified behind = true ∧ ∃ qualified hook blanks rest,
      ahead = moduleText qualified ++ (hook ++ (blanks ++ '(' :: rest)) ∧ hook ∈ effectNames ∧
        isBlankText blanks := by
  rw [effectOpening] at h
  cases free : startsUnqualified behind with
  | false => simp [free] at h
  | true =>
    simp only [free, Bool.not_true, Bool.false_eq_true, if_false, Option.bind_eq_bind,
      Option.bind_eq_some_iff] at h
    obtain ⟨hook, used, after, effect, rest, opened, -⟩ := h
    obtain ⟨qualified, split⟩ := exists_append_dropModule ahead
    obtain ⟨blanks, hb, blank⟩ := exists_append_trimStart after
    rw [eq_append_of_dropHead? opened] at blank
    rw [eq_append_of_dropHead? used] at split
    refine ⟨rfl, qualified, ?_⟩
    cases layout : dropHead? "Layout".toList hook with
    | none =>
      rw [layout, Option.getD_none] at effect
      rw [eq_append_of_dropHead? effect, blank] at split
      exact ⟨"useEffect".toList, blanks, rest, by simpa using split, by decide, hb⟩
    | some more =>
      rw [layout, Option.getD_some] at effect
      rw [eq_append_of_dropHead? layout, eq_append_of_dropHead? effect, blank] at split
      exact ⟨"useLayoutEffect".toList, blanks, rest, by simpa using split, by decide, hb⟩

/-- No effect starts in a piece that names no hook. -/
theorem silent_effectOpening {piece rest : Text} (behind : Text) (apart : Apart piece rest)
    (quiet : Hookless piece) : SilentIn effectOpening behind piece rest := by
  rintro passed ahead rfl nonempty
  by_contra succeeds
  obtain ⟨found, h⟩ := Option.ne_none_iff_exists'.1 succeeds
  obtain ⟨free, qualified, hook, blanks, after, split, hm, hb⟩ := effectOpening_needs h
  have known : effectNames ⊆ hookNames := by decide
  exact not_hookCall known apart quiet nonempty
    ⟨free, qualified, hook, _, split, hm, pastWord_blank_append hb (by decide)⟩

theorem bracket_not_mem_declarationText (name setter : Word) (qualified : Bool)
    (type? : Option TypeArgument) : '(' ∉ declarationText name setter qualified type? := by
  have word : ∀ word : Word, '(' ∉ word.text :=
    fun word => not_mem_of_isWord (by decide) (isWord_of_isIdentifier word.valid)
  have module : '(' ∉ moduleText qualified := by cases qualified <;> decide
  have type : '(' ∉ typeText type? := by
    cases type? with
    | none => exact List.not_mem_nil
    | some type =>
      intro hm
      simp only [typeText, List.mem_cons, List.mem_append, List.not_mem_nil, or_false] at hm
      rcases hm with hm | hm | hm
      · exact absurd hm (by decide)
      · exact (type.valid '(' hm).1 rfl
      · exact absurd hm (by decide)
  unfold declarationText
  simp only [List.mem_append, not_or]
  exact ⟨by decide, word name, by decide, word setter, by decide, module, by decide, type⟩

theorem getLast?_declarationText (name setter : Word) (qualified : Bool)
    (type? : Option TypeArgument) :
    (declarationText name setter qualified type?).getLast? =
      some (if type?.isSome then '>' else 'e') := by
  have hook : ("useState".toList ++ typeText type?).getLast? =
      some (if type?.isSome then '>' else 'e') := by
    cases type? with
    | none => rfl
    | some type => rw [typeText, ← List.cons_append, ← List.append_assoc, List.getLast?_append]; rfl
  unfold declarationText
  simp only [List.getLast?_append, hook, Option.some_or]

/-- No effect starts in the head of a state declaration: its name would be the last one before the
bracket. -/
theorem silent_effectOpening_declaration (behind rest : Text) (name setter : Word)
    (qualified : Bool) (type? : Option TypeArgument) :
    SilentIn effectOpening behind (declarationText name setter qualified type? ++ ['(']) rest := by
  intro passed ahead split nonempty
  by_contra succeeds
  obtain ⟨found, h⟩ := Option.ne_none_iff_exists'.1 succeeds
  obtain ⟨-, module, hook, blanks, after, call, hm, hb⟩ := effectOpening_needs h
  obtain ⟨front, last, rfl⟩ := (List.eq_nil_or_concat ahead).resolve_left nonempty
  rw [List.concat_eq_append] at split call
  rw [← List.append_assoc] at split
  obtain ⟨declaration, bracket⟩ := List.append_inj' split rfl
  obtain rfl := List.singleton_inj.1 bracket
  have bare : '(' ∉ front :=
    fun hm => bracket_not_mem_declarationText name setter qualified type? (by
    rw [declaration]
    simp [hm])
  have named : '(' ∉ moduleText module ++ (hook ++ blanks) := by
    have hooks : ∀ hook ∈ effectNames, '(' ∉ hook := by decide
    simp only [List.mem_append, not_or]
    exact ⟨by cases module <;> decide, hooks hook hm, not_mem_of_isBlankText (by decide) hb⟩
  have cut : some (front, rest) = some (moduleText module ++ (hook ++ blanks), after) := by
    rw [← cutAt?_append rest bare, ← cutAt?_append after named]
    exact congrArg _ (by simpa using call)
  have ends := getLast?_declarationText name setter qualified type?
  obtain ⟨c, last, own⟩ : ∃ c, (hook ++ blanks).getLast? = some c ∧ (c = 't' ∨ isBlank c) := by
    have hooks : ∀ hook ∈ effectNames, hook.getLast? = some 't' := by decide
    rw [List.getLast?_append, hooks hook hm]
    cases blank : blanks.getLast? with
    | none => exact ⟨'t', rfl, .inl rfl⟩
    | some c => exact ⟨c, rfl, .inr (List.all_eq_true.1 hb c (List.mem_of_getLast? blank))⟩
  rw [declaration, (Prod.mk.inj (Option.some.inj cut)).1, List.getLast?_append,
    List.getLast?_append, last, Option.some_or, Option.some_or, Option.some.injEq] at ends
  subst ends
  revert own
  split <;> decide

theorem otherHookOpening_needs {behind ahead : Text} {found : OtherHook × Nat}
    (h : otherHookOpening behind ahead = some found) :
    HookCall ["useCallback".toList, "useMemo".toList, "useRef".toList] behind ahead := by
  rw [otherHookOpening] at h
  cases free : startsUnqualified behind with
  | false => simp [free] at h
  | true =>
    simp only [free, Bool.not_true, Bool.false_eq_true, if_false, Option.bind_eq_bind,
      Option.bind_eq_some_iff] at h
    obtain ⟨⟨hook, after⟩, named, ⟨argument?, rest⟩, call, -⟩ := h
    obtain ⟨other, -, named⟩ := List.exists_of_findSome?_eq_some named
    obtain ⟨_, here, same⟩ := Option.map_eq_some_iff.1 named
    obtain ⟨rfl, rfl⟩ := Prod.mk.inj same
    obtain ⟨qualified, split⟩ := exists_append_dropModule ahead
    rw [eq_append_of_dropHead? here] at split
    exact ⟨free, qualified, other.name, _, split,
      by cases other <;> decide, pastWord_of_callOpening? call⟩

/-- No other hook is called in a text that names none. -/
theorem occurrences_otherHookOpening {t : Text} (quiet : Hookless t) :
    occurrences otherHookOpening t = [] := by
  refine occurrencesFrom_eq_nil (fun behind => ?_) t [] 0 fun passed ahead split nonempty => ?_
  · rw [otherHookOpening]
    cases startsUnqualified behind <;> rfl
  · subst split
    by_contra succeeds
    obtain ⟨found, h⟩ := Option.ne_none_iff_exists'.1 succeeds
    have call := otherHookOpening_needs h
    rw [← List.append_nil ahead] at call
    exact not_hookCall (by decide) (.inr rfl) quiet nonempty call

end Recast
