import Recast.Proofs.Scope.Undeclared

/-!
# Arrow functions in code

Around an arrow, the parameters are found by reading backwards and the body by reading on. Both
readings agree with how an arrow function is written: the names that are bound are those of the
parameters (`patternNames_joinComma`), which are found before the arrow
(`arrowParamsBefore?_params`), and the body ends where its text does (`bodyEnd_text`). So the scope
of an arrow function is its whole text (`arrowScope?_arrow`).
-/

namespace Recast

/-! ## Names of parameters -/

/-- Characters that open nothing and separate nothing belong to the piece before them. -/
theorem pieceSpans_plain {isSeparator : Char → Bool} (start : Nat) (rest : Text) :
    ∀ (t : Text) (pos : Nat), (∀ c ∈ t, isPlainMark c ∧ isSeparator c = false) →
      pieceSpans isSeparator start pos 0 (t ++ rest) =
        pieceSpans isSeparator start (pos + t.length) 0 rest
  | [], _, _ => rfl
  | c :: cs, pos, h => by
    have ih := pieceSpans_plain start rest cs (pos + 1) fun d hd => h d (by simp [hd])
    obtain ⟨mark, separates⟩ := h c (by simp)
    have quote : isQuote c = false := by
      have plain := (isPlainMark_iff.1 mark).1
      simp only [isPlainCode, Bool.and_eq_true, Bool.not_eq_true'] at plain
      exact plain.1.1
    have nested : nestedEnd? pos c (cs ++ rest) = none := by
      have opens := (isPlainMark_iff.1 mark).2.1
      simp only [isOpener, Bool.or_eq_false_iff, beq_eq_false_iff_ne] at opens
      simp [nestedEnd?, Bracket.ofOpener?, opens.1.1, opens.1.2, opens.2]
    rw [List.cons_append, pieceSpans, if_neg (Nat.not_lt_zero _), if_neg (by rw [quote]; decide)]
    simp only [nested, separates, Bool.false_eq_true, if_false, ih, List.length_cons]
    rw [Nat.add_assoc, Nat.add_comm 1]

theorem dropDefaultFrom_plain :
    ∀ (t : Text) (previous : Option Char), (∀ c ∈ t, isNameChar c) →
      dropDefaultFrom 0 previous t = t
  | [], _, _ => rfl
  | c :: cs, previous, h => by
    have ih := dropDefaultFrom_plain cs (some c) fun d hd => h d (by simp [hd])
    have name := h c (by simp)
    have mark := isPlainMark_iff.1 (isPlainMark_of_isNameChar name)
    have equals : c ≠ '=' := by
      rintro rfl
      exact Bool.noConfusion name
    rw [dropDefaultFrom, mark.2.1, mark.2.2]
    simp [equals, ih]

theorem Word.trim_text (word : Word) : trim word.text = word.text := by
  refine trim_eq_self (fun c hc => ?_) fun c hc => ?_
  · exact not_isBlank_of_isNameChar (word.isNameChar c (List.mem_of_head? hc))
  · exact not_isBlank_of_isNameChar (word.isNameChar c (List.mem_of_getLast? hc))

theorem Word.eq_cons (word : Word) :
    ∃ c cs, word.text = c :: cs ∧ isNameStart c ∧ ∀ d ∈ cs, Recast.isNameChar d := by
  obtain ⟨text, valid⟩ := word
  cases text with
  | nil => exact Bool.noConfusion valid
  | cons c cs =>
    rw [isIdentifier, Bool.and_eq_true, List.all_eq_true] at valid
    exact ⟨c, cs, rfl, valid.1, valid.2⟩

theorem Word.identifier? (word : Word) : identifier? word.text = some word.text := by
  obtain ⟨c, cs, h, hs, hc⟩ := word.eq_cons
  have whole : cs.takeWhile Recast.isNameChar = cs := List.takeWhile_eq_self_iff.2 hc
  rw [h, Recast.identifier?, if_pos hs, whole]

/-- A parameter binds its name, also after a blank. -/
theorem bindingTarget_name (word : Word) {lead : Text} (h : lead = [] ∨ lead = [' ']) :
    bindingTarget (lead ++ word.text) = word.text := by
  have trimmed : trim (lead ++ word.text) = word.text := by
    rcases h with rfl | rfl
    · exact word.trim_text
    · exact word.trim_text
  have target : dropDefault (lead ++ word.text) = word.text := by
    rw [dropDefault, trimmed, dropDefaultFrom_plain _ _ word.isNameChar, word.trim_text]
  obtain ⟨c, cs, hw, hs, _⟩ := word.eq_cons
  have dots : dropHead? "...".toList word.text = none := by
    rw [hw]
    refine dropHead?_eq_none ?_ _ _
    rintro rfl
    exact Bool.noConfusion hs
  rw [bindingTarget, target, dots]

/-- The names that a pattern binds whose elements are all names. -/
theorem patternNames_words {pattern : Text} {names : List Name}
    (h : ((pieceSpans isComma 0 0 0 pattern).map fun span => bindingTarget (span.of pattern)) =
      names.map (·.text)) :
    patternNames pattern = names.map (·.text) := by
  rw [patternNames, ← h, ← List.flatMap_pure_eq_map]
  refine List.flatMap_congr fun span hs => ?_
  have target : bindingTarget (span.of pattern) ∈ names.map (·.text) := h ▸ List.mem_map_of_mem hs
  obtain ⟨name, _, hname⟩ := List.mem_map.1 target
  obtain ⟨d, ds, hw, start, _⟩ := name.eq_cons
  have square : d ≠ '[' := by
    rintro rfl
    exact Bool.noConfusion start
  have curly : d ≠ '{' := by
    rintro rfl
    exact Bool.noConfusion start
  have whole := name.identifier?
  rw [hname] at hw whole
  split
  · rename_i he
    rw [he] at hw
    cases hw
  · rename_i c rest he
    obtain ⟨rfl, rfl⟩ := List.cons.inj (he.symm.trans hw)
    rw [he] at whole
    simp [square, curly, whole, he]

theorem pieceSpans_comma (start pos : Nat) (rest : Text) :
    pieceSpans isComma start pos 0 (',' :: rest) =
      ⟨start, pos⟩ :: pieceSpans isComma (pos + 1) (pos + 1) 0 rest := rfl

theorem pieceSpans_name (word : Word) (start pos : Nat) (rest : Text) :
    pieceSpans isComma start pos 0 (word.text ++ rest) =
      pieceSpans isComma start (pos + word.text.length) 0 rest := by
  refine pieceSpans_plain start rest word.text pos fun c hc => ⟨word.isPlainMark c hc, ?_⟩
  have name := word.isNameChar c hc
  cases h : isComma c with
  | false => rfl
  | true =>
    rw [eq_of_beq h] at name
    exact Bool.noConfusion name

/-- The elements of a list of names; `lead` is the blank before the first of them. -/
theorem bindingTargets_joinComma (code : Text) :
    ∀ (name : Name) (names : List Name) (before lead : Text), lead = [] ∨ lead = [' '] →
      code = before ++ (lead ++ joinComma ((name :: names).map (·.text))) →
      ((pieceSpans isComma before.length (before.length + lead.length) 0
        (joinComma ((name :: names).map (·.text)))).map
        fun span => bindingTarget (span.of code)) = (name :: names).map (·.text)
  | name, [], before, lead, hl, hcode => by
    have spans := pieceSpans_name name.toWord before.length (before.length + lead.length) []
    have piece : slice code before.length (before.length + lead.length + name.text.length) =
        lead ++ name.text :=
      slice_eq before [] (by rw [hcode, List.append_nil]; rfl) rfl
        (by rw [List.length_append, Nat.add_assoc])
    rw [List.append_nil] at spans
    rw [List.map_singleton, joinComma, joinWith, spans]
    simp only [pieceSpans, List.map_cons, List.map_nil, Span.of, piece,
      bindingTarget_name name.toWord hl]
  | name, other :: names, before, lead, hl, hcode => by
    have join : joinComma ((name :: other :: names).map (·.text)) =
        name.text ++ ',' :: ' ' :: joinComma ((other :: names).map (·.text)) :=
      List.append_assoc name.text [',', ' '] _
    have piece : slice code before.length (before.length + lead.length + name.text.length) =
        lead ++ name.text := by
      refine slice_eq before (',' :: ' ' :: joinComma ((other :: names).map (·.text))) ?_ rfl ?_
      · rw [hcode, join, List.append_assoc]
      · rw [List.length_append, Nat.add_assoc]
    have ih := bindingTargets_joinComma code other names (before ++ (lead ++ (name.text ++ [','])))
      [' '] (.inr rfl)
      (by rw [hcode, join]; simp)
    have blank : pieceSpans isComma _ _ 0 (' ' :: joinComma ((other :: names).map (·.text))) = _ :=
      pieceSpans_plain (before.length + lead.length + name.text.length + 1)
        (joinComma ((other :: names).map (·.text)))
        [' '] (before.length + lead.length + name.text.length + 1) (by decide)
    have length : (before ++ (lead ++ (name.text ++ [',']))).length =
        before.length + lead.length + name.text.length + 1 := by
      simp [Nat.add_assoc]
    rw [length] at ih
    rw [join, pieceSpans_name, pieceSpans_comma, blank, List.map_cons, ih, Span.of, piece,
      bindingTarget_name name.toWord hl]
    rfl

theorem patternNames_nil : patternNames [] = [] := by
  rw [patternNames]
  rfl

/-- The parameters of an arrow function bind their names. -/
theorem patternNames_joinComma (names : List Name) :
    patternNames (joinComma (names.map (·.text))) = names.map (·.text) := by
  cases names with
  | nil => exact patternNames_nil
  | cons name names =>
    exact patternNames_words (bindingTargets_joinComma _ name names [] [] (.inl rfl) rfl)

/-! ## Parameters before an arrow -/

/-- What can stand before an expression: no word, no dot but those of a spread, no list with a type
annotation, and no comma of an object. -/
structure Opens (behind : Text) : Prop where
  free : ∀ c, (trimStart behind).head? = some c → isNameChar c = false
  member : behind.head? = some '.' → startsWith behind "...".toList
  annotation : ∀ before, trimStart behind = ':' :: before → (trimStart before).head? ≠ some ')'
  entry : (trimStart behind).head? = some '{' ∨ (trimStart behind).head? = some ',' →
    openBracket? 0 behind ≠ some '{'

theorem pastWord_of_trimStart {behind : Text}
    (h : ∀ c, (trimStart behind).head? = some c → isNameChar c = false) : PastWord behind := by
  intro c hc
  by_contra hn
  have name : isNameChar c := by simpa using hn
  exact hn (h c (head?_trimStart_of_head? (not_isBlank_of_isNameChar name) hc))

theorem Opens.pastWord {behind : Text} (h : Opens behind) : PastWord behind :=
  pastWord_of_trimStart h.free

theorem openerBehind?_plain (rest : Text) (depth : Int) :
    ∀ t : Text, (∀ c ∈ t, isOpener c = false ∧ isCloser c = false) →
      openerBehind? depth (t ++ rest) = openerBehind? depth rest
  | [], _ => rfl
  | c :: cs, h => by
    have ih := openerBehind?_plain rest depth cs fun d hd => h d (by simp [hd])
    obtain ⟨opens, closes⟩ := h c (by simp)
    rw [List.cons_append, openerBehind?, if_neg (by rw [closes]; decide),
      if_neg (by rw [opens]; decide), ih]

/-- A list of names in brackets is read backwards as such. -/
theorem bracketedParams?_list (names : List Name) (behind rest : Text) :
    bracketedParams? (behind.reverse ++ ((Params.list names).print ++ rest))
      ((Params.list names).print.reverse ++ behind) =
      some (behind.length, joinComma (names.map (·.text))) := by
  have plain : ∀ c ∈ (joinComma (names.map (·.text))).reverse, isOpener c = false ∧
      isCloser c = false := fun c hc =>
    (isPlainMark_iff.1 (isPlainMark_joinComma names c (List.mem_reverse.1 hc))).2
  have opener : openerBehind? 0
      (')' :: ((joinComma (names.map (·.text))).reverse ++ '(' :: behind)) = some behind.length :=
    openerBehind?_plain ('(' :: behind) 1 _ plain
  have inner : slice (behind.reverse ++ ('(' :: (joinComma (names.map (·.text)) ++ [')']) ++ rest))
      (behind.length + 1)
      ((joinComma (names.map (·.text))).reverse ++ '(' :: behind).length =
        joinComma (names.map (·.text)) := by
    refine slice_eq (behind.reverse ++ ['(']) (')' :: rest) (by simp) (by simp) ?_
    simp only [List.length_append, List.length_reverse, List.length_cons, List.length_nil]
    omega
  have backwards : (Params.list names).print.reverse ++ behind =
      ')' :: ((joinComma (names.map (·.text))).reverse ++ '(' :: behind) := by
    simp [Params.print]
  rw [backwards, bracketedParams?, opener, Params.print, Option.map_some, inner]

theorem bracketedParams?_eq_none {code behind : Text} (h : behind.head? ≠ some ')') :
    bracketedParams? code behind = none := by
  rw [bracketedParams?]
  rintro before rfl
  exact h rfl

theorem Params.last (params : Params) :
    ∃ c cs, params.print.reverse = c :: cs ∧ isBlank c = false := by
  cases params with
  | one name =>
    obtain ⟨d, ds, hw, _⟩ := name.eq_cons
    obtain ⟨c, cs, last⟩ : ∃ c cs, name.text.reverse = c :: cs :=
      List.exists_cons_of_ne_nil (by simp [hw])
    have mem : c ∈ name.text := List.mem_reverse.1 (by rw [last]; exact List.mem_cons_self)
    exact ⟨c, cs, last, not_isBlank_of_isNameChar (name.isNameChar c mem)⟩
  | list names =>
    exact ⟨')', (joinComma (names.map (·.text))).reverse ++ ['('],
      by simp [Params.print], by decide⟩

/-- The parameters of an arrow are found before it. -/
theorem arrowParamsBefore?_params (params : Params) {behind : Text} (h : Opens behind)
    (rest : Text) :
    arrowParamsBefore? (behind.reverse ++ (params.print ++ ' ' :: rest))
      (behind.length + params.print.length + 1) =
      some (behind.length, joinComma params.names) := by
  have read : ((behind.reverse ++ (params.print ++ ' ' :: rest)).take
      (behind.length + params.print.length + 1)).reverse.dropWhile isBlank =
        params.print.reverse ++ behind := by
    have taken : (behind.reverse ++ (params.print ++ ' ' :: rest)).take
        (behind.length + params.print.length + 1) =
        behind.reverse ++ (params.print ++ [' ']) := by
      have whole : behind.reverse ++ (params.print ++ ' ' :: rest) =
          (behind.reverse ++ (params.print ++ [' '])) ++ rest := by simp
      rw [whole, List.take_left']
      simp [Nat.add_assoc]
    have backwards : (behind.reverse ++ (params.print ++ [' '])).reverse =
        ' ' :: (params.print.reverse ++ behind) := by
      simp
    obtain ⟨c, cs, last, blank⟩ := params.last
    rw [taken, backwards, List.dropWhile_cons_of_pos (by decide), last]
    exact dropWhile_eq_self (by rintro d ⟨⟩; exact blank)
  simp only [arrowParamsBefore?, read]
  cases params with
  | one name =>
    have chars : ∀ c ∈ name.text.reverse, isNameChar c :=
      fun c hc => name.isNameChar c (List.mem_reverse.1 hc)
    have word : (name.text.reverse ++ behind).takeWhile isNameChar = name.text.reverse :=
      wordAhead_append chars h.pastWord
    have before : (name.text.reverse ++ behind).dropWhile isNameChar = behind :=
      afterWord_append chars h.pastWord
    obtain ⟨c, cs, last⟩ : ∃ c cs, name.text.reverse = c :: cs := by
      obtain ⟨d, ds, hw, _⟩ := name.eq_cons
      exact List.exists_cons_of_ne_nil (by simp [hw])
    have closes : (name.text.reverse ++ behind).head? ≠ some ')' := by
      have name := chars c (by rw [last]; exact List.mem_cons_self)
      rw [last]
      rintro ⟨⟩
      exact Bool.noConfusion name
    have names : joinComma (Params.one name).names = name.text := rfl
    rw [Params.print, if_neg closes, word, before, if_neg (by simp [last]), List.reverse_reverse,
      names]
    split
    · rename_i list ha
      have unannotated : (list.dropWhile isBlank).head? ≠ some ')' := h.annotation list ha
      rw [bracketedParams?_eq_none unannotated, Option.getD_none]
    · rfl
  | list names =>
    rw [if_pos (by simp [Params.print])]
    exact bracketedParams?_list names behind (' ' :: rest)

/-! ## The body after an arrow -/

/-- What can stand after an arrow function: the end, a comma or a closing bracket. -/
def Ends (rest : Text) : Prop :=
  ∀ c, rest.head? = some c → c ∈ [',', ')', ']', '}']

theorem expressionEndFrom_ends {rest : Text} (h : Ends rest) (pos : Nat) :
    expressionEndFrom endsExpression 0 pos rest = pos := by
  cases rest with
  | nil => rfl
  | cons c cs =>
    have mark := h c rfl
    simp only [List.mem_cons, List.not_mem_nil, or_false] at mark
    rcases mark with rfl | rfl | rfl | rfl <;> rfl

/-- The body after an arrow and a blank is the text there, up to where an expression ends. -/
theorem bodyEnd_text {t rest : Text} {c : Char} {cs : Text} (first : t = c :: cs)
    (blank : isBlank c = false)
    (block : c ≠ '{') (passed : Passed t) (ends : Ends rest) (before : Text) :
    bodyEnd (before ++ ' ' :: (t ++ rest)) before.length = before.length + 1 + t.length := by
  have after : (before ++ ' ' :: (t ++ rest)).drop before.length = ' ' :: (t ++ rest) :=
    List.drop_left
  have body : (before ++ ' ' :: (t ++ rest)).drop (before.length + 1) = t ++ rest := by
    rw [← List.drop_drop, after]
    rfl
  have trimmed : trimStart (' ' :: (t ++ rest)) = t ++ rest := by
    rw [trimStart, List.dropWhile_cons_of_pos (by decide), first]
    exact dropWhile_eq_self (by rintro d ⟨⟩; exact blank)
  have start : (before ++ ' ' :: (t ++ rest)).length - (t ++ rest).length = before.length + 1 := by
    rw [List.length_append, List.length_cons]
    omega
  simp only [bodyEnd, after, trimmed, start, body]
  rw [if_neg (by rw [first]; rintro ⟨⟩; exact block rfl), expressionEnd, body, passed,
    expressionEndFrom_ends ends]

/-- The scope of an arrow function reaches from its parameters to the end of its body. -/
theorem arrowScope?_arrow (params : Params) {behind t rest : Text} (h : Opens behind) {c : Char}
    {cs : Text}
    (first : t = c :: cs) (blank : isBlank c = false) (block : c ≠ '{') (passed : Passed t)
    (ends : Ends rest) :
    arrowScope? (behind.reverse ++ (params.print ++ ' ' :: '=' :: '>' :: ' ' :: (t ++ rest)))
        ⟨behind.length + params.print.length + 1, behind.length + params.print.length + 1 + 2, ()⟩ =
      some ⟨behind.length, behind.length + params.print.length + 4 + t.length, params.names⟩ := by
  have stop : bodyEnd (behind.reverse ++ (params.print ++ ' ' :: '=' :: '>' :: ' ' :: (t ++ rest)))
      (behind.length + params.print.length + 1 + 2) = behind.length + params.print.length + 4 +
        t.length := by
    have ends := bodyEnd_text first blank block passed ends
      (behind.reverse ++ (params.print ++ [' ', '=', '>']))
    simpa [Nat.add_assoc] using ends
  have names : patternNames (joinComma params.names) = params.names := by
    cases params with
    | one name => exact patternNames_joinComma [name]
    | list names => exact patternNames_joinComma names
  rw [arrowScope?, arrowParamsBefore?_params params h, Option.map_some]
  dsimp only
  rw [stop, names]

end Recast
