import Recast.Proofs.Scope.Expression

/-!
# The code of expressions

The text of an expression is bracketed code (`Expr.code`), so masking shows of it what `Expr.shown`
says (`mask_expr`). What is shown is balanced, and scanners that count brackets pass over it as a
whole.
-/

namespace Recast

/-! ## Expressions as code -/

theorem isPlainMark_of_isNameChar {c : Char} (h : isNameChar c) : isPlainMark c := by
  by_contra hm
  simp only [isPlainMark, isPlainCode, isQuote, isOpener, isCloser, Bool.and_eq_true,
    Bool.not_eq_true', Bool.or_eq_false_iff, bne_iff_ne, beq_eq_false_iff_ne, ne_eq] at hm
  have : c ∈ ['\'', '"', '`', '/', '<', '(', '[', '{', ')', ']', '}'] := by
    simp only [List.mem_cons, List.not_mem_nil, or_false]
    tauto
  have none : ∀ d ∈ ['\'', '"', '`', '/', '<', '(', '[', '{', ')', ']', '}'],
      isNameChar d = false := by decide +kernel
  rw [none c this] at h
  exact Bool.noConfusion h

/-- Single characters in front of code. -/
def Code.marks (rest : Code) : Text → Code
  | [] => rest
  | c :: cs => if h : isPlainMark c then .mark c h (rest.marks cs) else rest.marks cs

/-- The text of code, or what masking shows of it. -/
def Code.write (m : Manner) (code : Code) : Text :=
  match m with
  | .plain => code.print
  | .masked => code.shown

/-- The text of the parts of a template, or what masking shows of it. -/
def TemplateParts.write (m : Manner) (parts : TemplateParts) : Text :=
  match m with
  | .plain => parts.print
  | .masked => parts.shown

variable (m : Manner)

theorem Code.write_done : Code.done.write m = [] := by
  cases m <;> rfl

theorem Code.write_mark {c : Char} (valid : isPlainMark c) (rest : Code) :
    (Code.mark c valid rest).write m = c :: rest.write m := by
  cases m <;> rfl

theorem Code.write_string (content : LiteralText '"') (rest : Code) :
    (Code.string content rest).write m =
      '"' :: (m.content content.text ++ '"' :: rest.write m) := by
  cases m <;> rfl

theorem Code.write_template (parts : TemplateParts) (rest : Code) :
    (Code.template parts rest).write m = '`' :: (parts.write m ++ '`' :: rest.write m) := by
  cases m <;> rfl

theorem Code.write_group (kind : Bracket) (inner rest : Code) :
    (Code.group kind inner rest).write m =
      kind.opener :: (inner.write m ++ kind.closer :: rest.write m) := by
  cases m <;> rfl

theorem TemplateParts.write_last (content : LiteralText '`') :
    (TemplateParts.last content).write m = m.content content.text := by
  cases m <;> rfl

theorem TemplateParts.write_substitution (content : LiteralText '`') (inner : Code)
    (rest : TemplateParts) :
    (TemplateParts.substitution content inner rest).write m =
      m.content content.text ++ (m.opening ++ (inner.write m ++ m.closing :: rest.write m)) := by
  cases m <;> rfl

theorem Code.write_marks (rest : Code) :
    ∀ t : Text, (∀ c ∈ t, isPlainMark c) → (rest.marks t).write m = t ++ rest.write m
  | [], _ => rfl
  | c :: cs, h => by
    rw [Code.marks, dif_pos (h c (by simp)), Code.write_mark,
      rest.write_marks cs fun d hd => h d (by simp [hd])]
    rfl

/-- The parameters in front of code. -/
def Params.code (rest : Code) : Params → Code
  | .one name => rest.marks name.text
  | .list names => .group .round (Code.done.marks (joinComma (names.map (·.text)))) rest

mutual

/-- An expression in front of code. -/
def Expr.code (rest : Code) : Expr → Code
  | .name x => rest.marks x.text
  | .number value => rest.marks value.text
  | .string content => .string content rest
  | .template parts => .template parts.code rest
  | .member root key =>
    if root.isArrow then .group .round (root.code .done) (rest.marks ('.' :: key.text))
    else root.code (rest.marks ('.' :: key.text))
  | .call callee arguments =>
    if callee.isArrow then
      .group .round (callee.code .done) (.group .round (arguments.code []) rest)
    else callee.code (.group .round (arguments.code []) rest)
  | .array items => .group .square (items.code []) rest
  | .object entries => .group .curly (entries.code []) rest
  | .sum left right =>
    let second := if right.isArrow then .group .round (right.code .done) .done else right.code .done
    let operator := second.marks [' ', '+', ' ']
    .group .round (if left.isArrow then .group .round (left.code .done) operator
      else left.code operator) rest
  | .arrow params body =>
    let second := if body.opensObject then .group .round (body.code .done) rest else body.code rest
    params.code (second.marks [' ', '=', '>', ' '])

/-- The parts of a template as parts of code. -/
def Template.code : Template → TemplateParts
  | .last content => .last content
  | .substitution content value rest => .substitution content (value.code .done) rest.code

/-- Items as code. -/
def Items.code (lead : Text) : Items → Code
  | .done => .done
  | .item spread value rest => (value.code (rest.code [',', ' '])).marks (lead ++ spreadDots spread)

/-- Entries as code. -/
def ObjectEntries.code (lead : Text) : ObjectEntries → Code
  | .done => .done
  | .keyed key value rest =>
    (value.code (rest.code [',', ' '])).marks (lead ++ key.text ++ [':', ' '])
  | .shorthand name rest => (rest.code [',', ' ']).marks (lead ++ name.text)
  | .spread value rest => (value.code (rest.code [',', ' '])).marks (lead ++ "...".toList)

end

theorem Word.isNameChar (word : Word) : ∀ c ∈ word.text, isNameChar c :=
  isNameChar_of_isIdentifier word.valid

theorem Word.isPlainMark (word : Word) : ∀ c ∈ word.text, isPlainMark c := fun c hc =>
  isPlainMark_of_isNameChar (word.isNameChar c hc)

theorem isNameChar_of_isAsciiDigit {c : Char} (h : isAsciiDigit c) : isNameChar c := by
  simp [isNameChar, isWordChar, h]

theorem mem_numberTail : ∀ t : Text, isNumberTail t → ∀ c ∈ t, isNameChar c ∨ c = '.'
  | [], _, _, hc => by simp at hc
  | d :: ds, h, c, hc => by
    rw [isNumberTail, Bool.and_eq_true] at h
    rcases List.mem_cons.1 hc with rfl | hc
    · by_cases hd : c = '.'
      · exact .inr hd
      · rw [if_neg hd] at h
        exact .inl h.1
    · exact mem_numberTail ds h.2 c hc

/-- A number is made of name characters and dots. -/
theorem NumberText.mem (value : NumberText) : ∀ c ∈ value.text, isNameChar c ∨ c = '.' := by
  obtain ⟨text, valid⟩ := value
  cases text with
  | nil => simp
  | cons d ds =>
    rw [isNumber, Bool.and_eq_true] at valid
    intro c hc
    rcases List.mem_cons.1 hc with rfl | hc
    · exact .inl (isNameChar_of_isAsciiDigit valid.1)
    · exact mem_numberTail ds valid.2 c hc

theorem NumberText.isPlainMark (value : NumberText) : ∀ c ∈ value.text, isPlainMark c := by
  intro c hc
  rcases value.mem c hc with hn | rfl
  · exact isPlainMark_of_isNameChar hn
  · decide

theorem isPlainMark_joinComma :
    ∀ names : List Name, ∀ c ∈ joinComma (names.map (·.text)), isPlainMark c
  | [], _, hc => by simp [joinComma, joinWith] at hc
  | [name], c, hc => name.isPlainMark c hc
  | name :: other :: names, c, hc => by
    have ih := isPlainMark_joinComma (other :: names) c
    have join : joinComma ((name :: other :: names).map (·.text)) =
        name.text ++ [',', ' '] ++ joinComma ((other :: names).map (·.text)) := rfl
    rw [join, List.mem_append, List.mem_append] at hc
    rcases hc with (hc | hc) | hc
    · exact name.isPlainMark c hc
    · exact (by decide : ∀ c ∈ [',', ' '], isPlainMark c) c hc
    · exact ih hc

theorem isPlainMark_append {t u : Text} (ht : ∀ c ∈ t, isPlainMark c)
    (hu : ∀ c ∈ u, isPlainMark c) :
    ∀ c ∈ t ++ u, isPlainMark c := fun c hc =>
  (List.mem_append.1 hc).elim (ht c) (hu c)

/-- What comes before an item or an entry: nothing or a comma. -/
def IsLead (lead : Text) : Prop :=
  lead = [] ∨ lead = [',', ' ']

theorem IsLead.isPlainMark {lead : Text} (h : IsLead lead) : ∀ c ∈ lead, isPlainMark c := by
  rcases h with rfl | rfl <;> decide

theorem isPlainMark_spreadDots (spread : Bool) : ∀ c ∈ spreadDots spread, isPlainMark c := by
  cases spread <;> decide

theorem Params.write_code (rest : Code) (params : Params) :
    (params.code rest).write m = params.print ++ rest.write m := by
  cases params with
  | one name => exact Code.write_marks m rest _ name.isPlainMark
  | list names =>
    simp [Params.code, Code.write_group, Code.write_marks m _ _ (isPlainMark_joinComma names),
      Code.write_done, Params.print, Bracket.opener, Bracket.closer]

theorem isPlainMark_member (key : Word) : ∀ c ∈ '.' :: key.text, isPlainMark c := by
  rintro c (_ | ⟨_, hc⟩)
  · decide
  · exact key.isPlainMark c hc

mutual

/-- The code of an expression has its text, in either manner. -/
theorem Expr.write_code :
    ∀ (e : Expr) (rest : Code), (e.code rest).write m = e.write m ++ rest.write m
  | .name x, rest => Code.write_marks m rest _ x.isPlainMark
  | .number value, rest => Code.write_marks m rest _ value.isPlainMark
  | .string content, rest => by simp [Expr.code, Code.write_string, Expr.write]
  | .template parts, rest => by simp [Expr.code, Code.write_template, Expr.write, parts.write_code]
  | .member root key, rest => by
    rw [Expr.code, Expr.write]
    cases root.isArrow <;>
      simp [Code.write_group, root.write_code, Code.write_marks m _ _ (isPlainMark_member key),
        Code.write_done, bracketed, Bracket.opener, Bracket.closer]
  | .call callee arguments, rest => by
    rw [Expr.code, Expr.write]
    cases callee.isArrow <;>
      simp [Code.write_group, callee.write_code, arguments.write_code (.inl rfl), Code.write_done,
        bracketed, Bracket.opener, Bracket.closer]
  | .array items, rest => by
    simp [Expr.code, Code.write_group, Expr.write, items.write_code (.inl rfl), Bracket.opener,
      Bracket.closer]
  | .object entries, rest => by
    simp [Expr.code, Code.write_group, Expr.write, entries.write_code (.inl rfl), Bracket.opener,
      Bracket.closer]
  | .sum left right, rest => by
    have operator : ∀ c ∈ [' ', '+', ' '], Recast.isPlainMark c := by decide
    rw [Expr.code, Expr.write]
    cases left.isArrow <;> cases right.isArrow <;>
      simp [Code.write_group, left.write_code, right.write_code, Code.write_marks m _ _ operator,
        Code.write_done, bracketed, Bracket.opener, Bracket.closer]
  | .arrow params body, rest => by
    have operator : ∀ c ∈ [' ', '=', '>', ' '], Recast.isPlainMark c := by decide
    rw [Expr.code, Expr.write]
    cases body.opensObject <;>
      simp [Code.write_group, params.write_code, body.write_code, Code.write_marks m _ _ operator,
        Code.write_done, bracketed, Bracket.opener, Bracket.closer]

theorem Template.write_code : ∀ t : Template, t.code.write m = t.write m
  | .last content => TemplateParts.write_last m content
  | .substitution content value rest => by
    simp [Template.code, TemplateParts.write_substitution, Template.write, value.write_code,
      rest.write_code, Code.write_done]

theorem Items.write_code :
    ∀ {lead : Text} (items : Items), IsLead lead → (items.code lead).write m = items.write m lead
  | _, .done, _ => Code.write_done m
  | lead, .item spread value rest, h => by
    rw [Items.code,
      Code.write_marks m _ _ (isPlainMark_append h.isPlainMark (isPlainMark_spreadDots spread)),
      value.write_code, rest.write_code (.inr rfl), Items.write, List.append_assoc]

theorem ObjectEntries.write_code :
    ∀ {lead : Text} (entries : ObjectEntries), IsLead lead →
      (entries.code lead).write m = entries.write m lead
  | _, .done, _ => Code.write_done m
  | lead, .keyed key value rest, h => by
    rw [ObjectEntries.code, Code.write_marks m _ _
      (isPlainMark_append (isPlainMark_append h.isPlainMark key.isPlainMark) (by decide)),
      value.write_code, rest.write_code (.inr rfl), ObjectEntries.write]
    simp
  | lead, .shorthand name rest, h => by
    rw [ObjectEntries.code,
      Code.write_marks m _ _ (isPlainMark_append h.isPlainMark name.isPlainMark),
      rest.write_code (.inr rfl), ObjectEntries.write, List.append_assoc]
  | lead, .spread value rest, h => by
    rw [ObjectEntries.code, Code.write_marks m _ _ (isPlainMark_append h.isPlainMark (by decide)),
      value.write_code, rest.write_code (.inr rfl), ObjectEntries.write]
    simp

end

theorem Expr.write_eq (e : Expr) : e.write m = (e.code .done).write m := by
  rw [e.write_code, Code.write_done, List.append_nil]

/-- Masking shows of an expression what can be seen of it. -/
theorem mask_expr (e : Expr) : mask e.print = e.shown := by
  rw [Expr.print, Expr.shown, e.write_eq, e.write_eq]
  exact mask_print (e.code .done)

/-! ## Passing over expressions -/

theorem Expr.balanced (e : Expr) : Balanced (e.write .masked) := by
  rw [e.write_eq]
  exact (e.code .done).balanced_shown

theorem Items.balanced (items : Items) {lead : Text} (h : IsLead lead) :
    Balanced (items.write .masked lead) := by
  rw [← items.write_code .masked h]
  exact (items.code lead).balanced_shown

theorem ObjectEntries.balanced (entries : ObjectEntries) {lead : Text} (h : IsLead lead) :
    Balanced (entries.write .masked lead) := by
  rw [← entries.write_code .masked h]
  exact (entries.code lead).balanced_shown

/-- Text in which no expression ends. -/
def Passed (t : Text) : Prop :=
  ∀ depth pos rest, expressionEndFrom endsExpression depth pos (t ++ rest) =
    expressionEndFrom endsExpression depth (pos + t.length) rest

theorem Passed.append {t u : Text} (ht : Passed t) (hu : Passed u) :
    Passed (t ++ u) := fun depth pos rest => by
  rw [List.append_assoc, ht, hu, List.length_append, Nat.add_assoc]

theorem passed_plain :
    ∀ t : Text, (∀ c ∈ t, isOpener c = false ∧ isCloser c = false ∧ endsExpression c = false) →
      Passed t
  | [], _ => fun _ _ _ => rfl
  | c :: cs, h => fun depth pos rest => by
    have ih := passed_plain cs fun d hd => h d (by simp [hd])
    obtain ⟨opens, closes, stops⟩ := h c (by simp)
    rw [List.cons_append, expressionEndFrom, if_neg (by rw [opens]; decide),
      if_neg (by rw [closes]; decide), if_neg (by rw [stops]; simp), ih, List.length_cons,
      Nat.add_assoc, Nat.add_comm 1]

theorem passed_group (kind : Bracket) {inner : Text} (h : Balanced inner) :
    Passed (kind.opener :: (inner ++ [kind.closer])) := fun depth pos rest => by
  rw [List.cons_append, List.append_assoc, List.singleton_append, expressionEndFrom,
    if_pos (isOpener_opener kind), h.expressionEndFrom, expressionEndFrom,
    if_neg (by rw [isOpener_closer]; decide), if_pos (isCloser_closer kind),
    if_neg (Nat.succ_ne_zero _), Nat.add_sub_cancel]
  simp only [List.length_cons, List.length_append, List.length_nil]
  congr 1
  omega

theorem passed_bracketed {needed : Bool} {t : Text} (hb : Balanced t) (hp : Passed t) :
    Passed (bracketed needed t) := by
  cases needed
  · exact hp
  · exact passed_group .round hb

theorem endsExpression_of_isNameChar {c : Char} (h : isNameChar c) : endsExpression c = false := by
  cases hs : endsExpression c with
  | false => rfl
  | true =>
    simp only [endsExpression, Bool.or_eq_true, beq_iff_eq] at hs
    rcases hs with rfl | rfl <;> exact Bool.noConfusion h

/-- Name characters and dots end no expression. -/
theorem passed_of_mem {t : Text} (h : ∀ c ∈ t, isNameChar c ∨ c = '.') : Passed t := by
  refine passed_plain t fun c hc => ?_
  rcases h c hc with hn | rfl
  · have mark := isPlainMark_iff.1 (isPlainMark_of_isNameChar hn)
    exact ⟨mark.2.1, mark.2.2, endsExpression_of_isNameChar hn⟩
  · decide

theorem passed_hide (t : Text) : Passed (t.map hide) := by
  refine passed_plain _ fun c hc => ?_
  obtain ⟨d, _, rfl⟩ := List.mem_map.1 hc
  rw [hide]
  split <;> decide

theorem Template.passed : ∀ t : Template, Passed (t.write .masked)
  | .last content => passed_hide content.text
  | .substitution content value rest => by
    have group : Passed ('(' :: (value.write .masked ++ [')'])) :=
      passed_group .round value.balanced
    have blank : Passed [' '] := passed_plain _ (by decide)
    have all := (passed_hide content.text).append (blank.append (group.append rest.passed))
    simpa [Template.write, Manner.content, Manner.opening, Manner.closing] using all

theorem Params.passed (params : Params) : Passed params.print := by
  cases params with
  | one name => exact passed_of_mem fun c hc => .inl (name.isNameChar c hc)
  | list names =>
    refine passed_group .round (balanced_of_plain _ fun c hc => ?_)
    exact (isPlainMark_iff.1 (isPlainMark_joinComma names c hc)).2

theorem Balanced.bracketed {t : Text} (h : Balanced t) (needed : Bool) :
    Balanced (bracketed needed t) := by
  cases needed
  · exact h
  · exact .group .round h .nil

/-- No expression ends inside another one. -/
theorem Expr.passed : ∀ e : Expr, Passed (e.write .masked)
  | .name x => passed_of_mem fun c hc => .inl (x.isNameChar c hc)
  | .number value => passed_of_mem value.mem
  | .string content => by
    have quote : Passed ['"'] := passed_plain _ (by decide)
    have all := quote.append ((passed_hide content.text).append quote)
    simpa [Expr.write, Manner.content] using all
  | .template parts => by
    have quote : Passed ['`'] := passed_plain _ (by decide)
    have all := quote.append (parts.passed.append quote)
    simpa [Expr.write] using all
  | .member root key => by
    refine (passed_bracketed root.balanced root.passed).append (passed_of_mem fun c hc => ?_)
    rcases List.mem_cons.1 hc with rfl | hc
    · exact .inr rfl
    · exact .inl (key.isNameChar c hc)
  | .call callee arguments =>
    (passed_bracketed callee.balanced callee.passed).append
      (passed_group .round (arguments.balanced (.inl rfl)))
  | .array items => passed_group .square (items.balanced (.inl rfl))
  | .object entries => passed_group .curly (entries.balanced (.inl rfl))
  | .sum left right => by
    have operator : Balanced [' ', '+', ' '] := balanced_of_plain _ (by decide)
    have inner := (left.balanced.bracketed left.isArrow).append
      (operator.append (right.balanced.bracketed right.isArrow))
    simpa [Expr.write, Bracket.opener, Bracket.closer] using passed_group .round inner
  | .arrow params body => by
    have operator : Passed [' ', '=', '>', ' '] := passed_plain _ (by decide)
    exact params.passed.append (operator.append (passed_bracketed body.balanced body.passed))

end Recast
