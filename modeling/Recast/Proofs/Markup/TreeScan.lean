import Recast.Proofs.Markup.Tree
import Recast.Proofs.Text.Part

/-!
# Scanning printed trees

Every scanner of markup cuts a printed tree where the tree does: the end of an opening tag
(`tagEnd_opening`, `tagEnd_selfClosing`), the children up to the closing tag
(`childrenEnd_element`), the end of the element (`elementEnd_print`), the tokens
(`tokensFrom_children`) and the units of a children text (`childSpans_children`).
-/

namespace Recast

/-! ## Names -/

theorem TagName.all_isTagNameChar (name : TagName) : ∀ c ∈ name.text, isTagNameChar c := by
  obtain ⟨text, valid⟩ := name
  cases text with
  | nil => simp
  | cons c cs =>
    simp only [isTagName, Bool.and_eq_true, List.all_eq_true] at valid
    intro x hx
    rcases List.mem_cons.1 hx with rfl | hx
    · exact isTagNameChar_of_isNameStart valid.1
    · exact valid.2 x hx

theorem OpeningTag.all_isTagNameChar (tag : OpeningTag) : ∀ c ∈ tag.name, isTagNameChar c := by
  cases tag with
  | fragment => simp [OpeningTag.name]
  | named name _ => exact name.all_isTagNameChar

/-- A name character is none of the marks of markup. -/
theorem ne_of_isTagNameChar {c d : Char} (h : isTagNameChar c) (hd : isTagNameChar d = false) :
    c ≠ d := by
  rintro rfl
  simp [hd] at h

theorem tagName_append {name rest : Text} (hn : isTagName name)
    (hr : ∀ c, rest.head? = some c → isTagNameChar c = false) : tagName (name ++ rest) = name := by
  cases name with
  | nil => simp [isTagName] at hn
  | cons c cs =>
    simp only [isTagName, Bool.and_eq_true, List.all_eq_true] at hn
    have stop : rest.takeWhile isTagNameChar = [] := by
      cases rest with
      | nil => rfl
      | cons d rest => rw [List.takeWhile_cons_of_neg (by simp [hr d rfl])]
    rw [List.cons_append, tagName, if_pos hn.1, List.takeWhile_append_of_pos hn.2, stop,
      List.append_nil]

theorem head?_printAttributes (attributes : List WrittenAttribute) {rest : Text}
    (hr : ∀ c, rest.head? = some c → isTagNameChar c = false) :
    ∀ c, (printAttributes attributes ++ rest).head? = some c → isTagNameChar c = false := by
  cases attributes with
  | nil => simpa [printAttributes] using hr
  | cons given _ =>
    intro c hc
    obtain rfl : ' ' = c := by simpa [printAttributes, WrittenAttribute.print] using hc
    decide

/-- The name is read off an opening tag. -/
theorem tagName_opening (tag : OpeningTag) (rest : Text) :
    tagName (tag.name ++ (printAttributes tag.attributes ++ '>' :: rest)) = tag.name := by
  have stop : ∀ c, ('>' :: rest).head? = some c → isTagNameChar c = false := by
    rintro c ⟨⟩
    decide
  cases tag with
  | fragment => rfl
  | named name attributes => exact tagName_append name.valid (head?_printAttributes attributes stop)

/-! ## Tags -/

/-- A tag goes on behind characters that neither open a value nor end the tag. -/
theorem tagEnd_quiet (name : Text) (start : Nat) (rest : Text) :
    ∀ (t : Text) (previous : Char) (pos : Nat), (∀ c ∈ t, c ≠ '"' ∧ c ≠ '\'' ∧ c ≠ '{' ∧ c ≠ '>') →
      tagEnd name start previous pos 0 (t ++ rest) =
        tagEnd name start (t.getLastD previous) (pos + t.length) 0 rest
  | [], _, _, _ => rfl
  | c :: cs, previous, pos, h => by
    obtain ⟨h1, h2, h3, h4⟩ := h c (by simp)
    have ih := tagEnd_quiet name start rest cs c (pos + 1) fun x hx => h x (by simp [hx])
    rw [List.cons_append, tagEnd]
    simp only [Nat.not_lt_zero, if_false, h1, h2, h3, h4, decide_false, Bool.or_self,
      Bool.false_eq_true, ih]
    rw [List.length_cons, Nat.add_assoc pos 1, Nat.add_comm 1]
    cases cs <;> rfl

theorem tagEnd_name (tag : Text) (start : Nat) {name : Text} (hn : ∀ c ∈ name, isTagNameChar c)
    (rest : Text) (previous : Char) (pos : Nat) :
    tagEnd tag start previous pos 0 (name ++ rest) =
      tagEnd tag start (name.getLastD previous) (pos + name.length) 0 rest := by
  refine tagEnd_quiet tag start rest name previous pos fun c hc => ?_
  have h := hn c hc
  exact ⟨ne_of_isTagNameChar h (by decide), ne_of_isTagNameChar h (by decide),
    ne_of_isTagNameChar h (by decide),
    ne_of_isTagNameChar h (by decide)⟩

/-- The character that ends a value. -/
def WrittenValue.mark : WrittenValue → Char
  | .quoted _ => '"'
  | .braced _ => '}'

theorem bracketEnd_braceCode (code : BraceCode) (behind rest : Text) (pos : Nat) :
    bracketEnd .curly 0 behind pos 0 (code.text ++ '}' :: rest) =
      some (pos + code.text.length + 1) :=
  bracketEnd_plain .curly rest code.text behind pos code.plain code.closed

theorem literalEnd_quotedValue (value : QuotedValue) (rest : Text) (pos : Nat) :
    literalEnd '"' pos 0 (value.text ++ '"' :: rest) = pos + value.text.length + 1 :=
  literalEnd_plain (by decide) (by decide) rest value.text pos (fun h => (value.valid _ h).1 rfl)
    (fun h => (value.valid _ h).2 rfl)

theorem tagEnd_value (name : Text) (start : Nat) (value : WrittenValue) (rest : Text)
    (previous : Char) (pos : Nat) :
    tagEnd name start previous pos 0 (value.print ++ rest) =
      tagEnd name start value.mark (pos + value.print.length) 0 rest := by
  cases value with
  | quoted value =>
    have skip := tagEnd_skip name start rest (value.text ++ ['"']) '"' (pos + 1)
    simp only [List.length_append, List.length_singleton, List.append_assoc, List.singleton_append]
      at skip
    simp only [WrittenValue.print, List.cons_append, List.append_assoc, List.nil_append]
    rw [tagEnd]
    simp only [Nat.not_lt_zero, if_false, decide_true, Bool.true_or, if_true,
      literalEnd_quotedValue]
    rw [Nat.add_assoc (pos + 1), skip]
    simp only [WrittenValue.mark, List.length_cons, List.length_append, List.length_nil,
      List.getLastD_concat]
    congr 1
    omega
  | braced code =>
    have skip := tagEnd_skip name start rest (code.text ++ ['}']) '{' (pos + 1)
    simp only [List.length_append, List.length_singleton, List.append_assoc, List.singleton_append]
      at skip
    simp only [WrittenValue.print, BraceCode.print, List.cons_append, List.append_assoc,
      List.nil_append]
    rw [tagEnd]
    simp only [Nat.not_lt_zero, if_false, if_true, Char.reduceEq, decide_false, Bool.or_self,
      Bool.false_eq_true, bracketEnd_braceCode]
    rw [Nat.add_assoc (pos + 1), skip]
    simp only [WrittenValue.mark, List.length_cons, List.length_append, List.length_nil,
      List.getLastD_concat]
    congr 1
    omega

theorem tagEnd_attribute (name : Text) (start : Nat) (given : WrittenAttribute) (rest : Text)
    (previous : Char) (pos : Nat) :
    tagEnd name start previous pos 0 (given.print ++ rest) =
      tagEnd name start given.value.mark (pos + given.print.length) 0 rest := by
  have space := tagEnd_quiet name start (given.name.text ++ ('=' :: given.value.print ++ rest))
    [' '] previous pos
    (by simp)
  have word := tagEnd_name name start given.name.all_isTagNameChar
    ('=' :: given.value.print ++ rest) ' ' (pos + 1)
  have equals :=
    tagEnd_quiet name start (given.value.print ++ rest) ['='] (given.name.text.getLastD ' ')
    (pos + 1 + given.name.text.length) (by simp)
  simp only [List.singleton_append, List.length_singleton] at space equals
  rw [WrittenAttribute.print, List.append_assoc, List.cons_append, space]
  rw [show [' '].getLastD previous = ' ' from rfl, word, List.cons_append, equals, tagEnd_value]
  congr 1
  simp only [List.length_cons, List.length_append]
  omega

/-- A tag goes on behind its attributes; the character before is never a slash. -/
theorem tagEnd_attributes (name : Text) (start : Nat) (rest : Text) :
    ∀ (attributes : List WrittenAttribute) {previous : Char} (pos : Nat), previous ≠ '/' →
      ∃ previous', previous' ≠ '/' ∧
        tagEnd name start previous pos 0 (printAttributes attributes ++ rest) =
        tagEnd name start previous' (pos + (printAttributes attributes).length) 0 rest
  | [], previous, _, h => ⟨previous, h, rfl⟩
  | given :: attributes, previous, pos, _ => by
    have mark : given.value.mark ≠ '/' := by
      cases given.value <;> simp [WrittenValue.mark]
    obtain ⟨previous', h, ih⟩ :=
      tagEnd_attributes name start rest attributes (pos + given.print.length) mark
    refine ⟨previous', h, ?_⟩
    rw [printAttributes, List.flatMap_cons, List.append_assoc, tagEnd_attribute]
    rw [printAttributes] at ih
    rw [ih, List.length_append, Nat.add_assoc]

/-- The end of the name and attributes of a tag. -/
theorem tagEnd_head {name : Text} (hn : ∀ c ∈ name, isTagNameChar c) (start pos : Nat)
    (attributes : List WrittenAttribute) (rest : Text) :
    ∃ previous, previous ≠ '/' ∧
      tagEnd name start '<' pos (pos + name.length) (name ++ (printAttributes attributes ++ rest)) =
        tagEnd name start previous (pos + name.length + (printAttributes attributes).length) 0
          rest := by
  have last : name.getLastD '<' ≠ '/' := by
    rw [List.getLastD_eq_getLast?]
    cases h : name.getLast? with
    | none => simp
    | some c => exact ne_of_isTagNameChar (hn c (List.mem_of_getLast? h)) (by decide)
  obtain ⟨previous, h, hp⟩ := tagEnd_attributes name start rest attributes (pos + name.length) last
  exact ⟨previous, h, by rw [tagEnd_skip, hp]⟩

theorem tagEnd_opening {name : Text} (hn : ∀ c ∈ name, isTagNameChar c) (start pos : Nat)
    (attributes : List WrittenAttribute) (rest : Text) :
    tagEnd name start '<' pos (pos + name.length)
      (name ++ (printAttributes attributes ++ '>' :: rest)) =
      .ok ⟨pos + name.length + (printAttributes attributes).length + 1, false⟩ := by
  obtain ⟨previous, h, hp⟩ := tagEnd_head hn start pos attributes ('>' :: rest)
  rw [hp, tagEnd]
  simp [h]

theorem tagEnd_selfClosing {name : Text} (hn : ∀ c ∈ name, isTagNameChar c) (start pos : Nat)
    (attributes : List WrittenAttribute) (rest : Text) :
    tagEnd name start '<' pos (pos + name.length)
        (name ++ (printAttributes attributes ++ ' ' :: '/' :: '>' :: rest)) =
      .ok ⟨pos + name.length + (printAttributes attributes).length + 3, true⟩ := by
  obtain ⟨previous, h, hp⟩ := tagEnd_head hn start pos attributes (' ' :: '/' :: '>' :: rest)
  rw [hp]
  simp [tagEnd]

/-! ## Marks -/

theorem opensTag_of_isNameStart {c : Char} (h : isNameStart c) (cs : Text) :
    opensTag (c :: cs) := by
  simp only [isNameStart, Bool.or_eq_true] at h
  simp only [opensTag, isLetter, Bool.or_eq_true]
  tauto

/-- The mark that an opening tag is, once its end is known. -/
theorem markAt_tag {pos stop : Nat} {closing : Bool} {cs : Text} (hopen : opensTag cs)
    (hs : cs.head? ≠ some '/')
    (hend : tagEnd (tagName cs) pos '<' (pos + 1) (pos + 1 + (tagName cs).length) cs =
      .ok ⟨stop, closing⟩) :
    markAt pos '<' cs =
      some (.ok ⟨if closing then .selfClosing else .opening, pos, stop, tagName cs⟩) := by
  rw [markAt, markBy.eq_def, if_neg (by decide), if_pos (by simp [hopen])]
  split
  · simp at hs
  · simp only [hend]

theorem TagName.eq_cons (name : TagName) : ∃ c cs, name.text = c :: cs ∧ isNameStart c := by
  obtain ⟨text, valid⟩ := name
  cases text with
  | nil => simp [isTagName] at valid
  | cons c cs => exact ⟨c, cs, rfl, (Bool.and_eq_true_iff.1 valid).1⟩

theorem TagName.opens (name : TagName) (rest : Text) :
    opensTag (name.text ++ rest) ∧ (name.text ++ rest).head? ≠ some '/' := by
  obtain ⟨c, cs, h, hc⟩ := name.eq_cons
  rw [h, List.cons_append]
  refine ⟨opensTag_of_isNameStart hc _, ?_⟩
  rw [List.head?_cons, ne_eq, Option.some.injEq]
  rintro rfl
  exact absurd hc (by decide)

theorem markAt_opening (tag : OpeningTag) (rest : Text) (pos : Nat) :
    markAt pos '<' (tag.name ++ printAttributes tag.attributes ++ ['>'] ++ rest) =
      some (.ok ⟨.opening, pos, pos + tag.print.length, tag.name⟩) := by
  have opens : opensTag (tag.name ++ (printAttributes tag.attributes ++ '>' :: rest)) ∧
      (tag.name ++ (printAttributes tag.attributes ++ '>' :: rest)).head? ≠ some '/' := by
    cases tag with
    | fragment => exact ⟨rfl, by simp [OpeningTag.name, OpeningTag.attributes, printAttributes]⟩
    | named name attributes => exact name.opens _
  have stop := tagEnd_opening tag.all_isTagNameChar pos (pos + 1) tag.attributes rest
  have mark := markAt_tag opens.1 opens.2 (by rw [tagName_opening]; exact stop)
  simp only [List.append_assoc, List.cons_append, List.nil_append]
  rw [mark, tagName_opening]
  simp only [OpeningTag.print, List.length_cons, List.length_append, List.length_nil,
    Bool.false_eq_true, if_false, Option.some.injEq, Except.ok.injEq, Token.mk.injEq, true_and,
    and_true]
  omega

theorem markAt_selfClosing (name : TagName) (attributes : List WrittenAttribute) (rest : Text)
    (pos : Nat) :
    markAt pos '<' (name.text ++ printAttributes attributes ++ [' ', '/', '>'] ++ rest) =
      some (.ok ⟨.selfClosing, pos,
        pos + (Element.selfClosing name attributes).print.length, name.text⟩) := by
  have space : ∀ c, (' ' :: '/' :: '>' :: rest).head? = some c → isTagNameChar c = false := by
    rintro c ⟨⟩
    decide
  have named := tagName_append name.valid (head?_printAttributes attributes space)
  have stop := tagEnd_selfClosing name.all_isTagNameChar pos (pos + 1) attributes rest
  have mark := markAt_tag (name.opens _).1 (name.opens _).2 (by rw [named]; exact stop)
  simp only [List.append_assoc, List.cons_append, List.nil_append]
  rw [mark, named]
  simp only [Element.print, List.length_cons, List.length_append, List.length_nil, if_true,
    Option.some.injEq, Except.ok.injEq, Token.mk.injEq, true_and, and_true]
  omega

theorem markAt_closing {name : Text} (hn : ∀ c ∈ name, isTagNameChar c) (rest : Text) (pos : Nat) :
    markAt pos '<' ('/' :: (name ++ ['>']) ++ rest) =
      some (.ok ⟨.closing, pos, pos + (closingTag name).length, name⟩) := by
  have cut : cutAt? '>' (name ++ '>' :: rest) = some (name, rest) :=
    cutAt?_append rest fun h => ne_of_isTagNameChar (hn _ h) (by decide) rfl
  have kept : trim name = name := by
    refine trim_eq_self (fun c hc => ?_) fun c hc => ?_
    · exact not_isBlank_of_isTagNameChar (hn c (List.mem_of_head? hc))
    · exact not_isBlank_of_isTagNameChar (hn c (List.mem_of_getLast? hc))
  simp only [List.append_assoc, List.cons_append, List.nil_append]
  rw [markAt, markBy.eq_def, if_neg (by decide), if_pos (by simp [opensTag])]
  simp only [cut, kept, closingTag, List.length_cons, List.length_append, List.length_nil,
    Option.some.injEq, Except.ok.injEq, Token.mk.injEq, true_and, and_true]
  omega

theorem markAt_expression (code : BraceCode) (rest : Text) (pos : Nat) :
    markAt pos '{' (code.text ++ ['}'] ++ rest) =
      some (.ok ⟨.expression, pos, pos + code.print.length, []⟩) := by
  simp only [List.append_assoc, List.cons_append, List.nil_append]
  rw [markAt, markBy.eq_def, if_pos rfl]
  simp only [bracketEnd_braceCode, BraceCode.print, List.length_cons, List.length_append,
    List.length_nil, Option.some.injEq, Except.ok.injEq, Token.mk.injEq, true_and, and_true]
  omega

theorem markAt_text {c : Char} (h : c ≠ '<' ∧ c ≠ '{') (cs : Text) (pos : Nat) :
    markAt pos c cs = none := by
  rw [markAt, markBy.eq_def, if_neg h.2, if_neg (by simp [h.1])]

/-! ## Children up to the closing tag -/

/-- Behind a mark the scan for a closing tag goes on at the mark's end. -/
theorem childrenEnd_mark {c : Char} {piece rest : Text} {pos : Nat} {token : Token} (name : Text)
    (depth : Nat)
    (h : markAt pos c (piece ++ rest) = some (.ok token))
    (hs : token.stop = pos + (c :: piece).length) :
    childrenEnd name depth pos 0 (c :: piece ++ rest) =
      match token.kind with
      | .opening => childrenEnd name (depth + 1) token.stop 0 rest
      | .closing =>
        if depth = 0 then .ok (if token.name = name then some token.stop else none)
        else childrenEnd name (depth - 1) token.stop 0 rest
      | _ => childrenEnd name depth token.stop 0 rest := by
  have hs' : token.stop = pos + 1 + piece.length := by
    rw [hs, List.length_cons]
    omega
  have skip : ∀ d, childrenEnd name d (pos + 1) token.stop (piece ++ rest) =
      childrenEnd name d token.stop 0 rest := by
    intro d
    rw [hs', childrenEnd_skip]
  rw [List.cons_append, childrenEnd, if_neg (Nat.not_lt_zero _)]
  rw [markAt] at h
  rw [h]
  dsimp only
  cases token.kind <;> simp only [skip]

theorem childrenEnd_gap (name : Text) (depth : Nat) (rest : Text) :
    ∀ (t : Text) (pos : Nat), (∀ c ∈ t, c ≠ '<' ∧ c ≠ '{') →
      childrenEnd name depth pos 0 (t ++ rest) = childrenEnd name depth (pos + t.length) 0 rest
  | [], _, _ => rfl
  | c :: cs, pos, h => by
    have ih := childrenEnd_gap name depth rest cs (pos + 1) fun x hx => h x (by simp [hx])
    have text := markAt_text (h c (by simp)) (cs ++ rest) pos
    rw [markAt] at text
    rw [List.cons_append, childrenEnd, if_neg (Nat.not_lt_zero _), text]
    dsimp only
    rw [ih, List.length_cons, Nat.add_assoc pos 1, Nat.add_comm 1]

/-- The scan for a closing tag goes on behind an expression. -/
theorem childrenEnd_expression (name : Text) (depth : Nat) (code : BraceCode) (rest : Text)
    (pos : Nat) :
    childrenEnd name depth pos 0 (code.print ++ rest) =
      childrenEnd name depth (pos + code.print.length) 0 rest :=
  childrenEnd_mark name depth (markAt_expression code rest pos) rfl

theorem childrenEnd_opening (name : Text) (depth : Nat) (tag : OpeningTag) (rest : Text)
    (pos : Nat) :
    childrenEnd name depth pos 0 (tag.print ++ rest) =
      childrenEnd name (depth + 1) (pos + tag.print.length) 0 rest :=
  childrenEnd_mark name depth (markAt_opening tag rest pos) rfl

theorem childrenEnd_closing (name : Text) (depth : Nat) (tag : OpeningTag) (rest : Text)
    (pos : Nat) :
    childrenEnd name depth pos 0 (closingTag tag.name ++ rest) =
      if depth = 0 then
        .ok (if tag.name = name then some (pos + (closingTag tag.name).length) else none)
      else childrenEnd name (depth - 1) (pos + (closingTag tag.name).length) 0 rest :=
  childrenEnd_mark name depth (markAt_closing tag.all_isTagNameChar rest pos) rfl

mutual

/-- The scan for a closing tag goes on behind an element. -/
theorem childrenEnd_element (name : Text) :
    ∀ (t : Element) (depth : Nat) (rest : Text) (pos : Nat),
      childrenEnd name depth pos 0 (t.print ++ rest) =
        childrenEnd name depth (pos + t.print.length) 0 rest
  | .paired tag children, depth, rest, pos => by
    rw [Element.print, List.append_assoc, List.append_assoc, childrenEnd_opening,
      childrenEnd_children, childrenEnd_closing, if_neg (Nat.succ_ne_zero depth),
      Nat.add_sub_cancel]
    simp only [List.length_append, Nat.add_assoc]
  | .selfClosing tag attributes, depth, rest, pos =>
    childrenEnd_mark name depth (markAt_selfClosing tag attributes rest pos) rfl

/-- The scan for a closing tag goes on behind children. -/
theorem childrenEnd_children (name : Text) :
    ∀ (t : Children) (depth : Nat) (rest : Text) (pos : Nat),
      childrenEnd name depth pos 0 (t.print ++ rest) =
        childrenEnd name depth (pos + t.print.length) 0 rest
  | .last gap, depth, rest, pos => childrenEnd_gap name depth rest gap.text pos gap.valid
  | .element gap child more, depth, rest, pos => by
    rw [Children.print, List.append_assoc, List.append_assoc, childrenEnd_gap _ _ _ _ _ gap.valid,
      childrenEnd_element, childrenEnd_children]
    simp only [List.length_append, Nat.add_assoc]
  | .expression gap code more, depth, rest, pos => by
    rw [Children.print, List.append_assoc, List.append_assoc, childrenEnd_gap _ _ _ _ _ gap.valid,
      childrenEnd_expression, childrenEnd_children]
    simp only [List.length_append, Nat.add_assoc]

end

/-! ## The end of an element -/

/-- The text of an element after its first `<`. -/
def Element.inside (t : Element) : Text :=
  t.print.drop 1

theorem Element.print_eq (t : Element) : t.print = '<' :: t.inside := by
  cases t <;> rfl

/-- An element ends where its text does, whatever follows. -/
theorem elementEnd_print (t : Element) (rest : Text) (pos : Nat) :
    elementEnd pos '<' (t.inside ++ rest) = .ok (some (pos + t.print.length)) := by
  cases t with
  | paired tag children =>
    have mark := markAt_opening tag (children.print ++ (closingTag tag.name ++ rest)) pos
    have skip := childrenEnd_skip tag.name 0 (children.print ++ (closingTag tag.name ++ rest))
      (tag.name ++ printAttributes tag.attributes ++ ['>']) (pos + 1)
    have hlen : pos + tag.print.length =
        pos + 1 + (tag.name ++ printAttributes tag.attributes ++ ['>']).length := by
      simp only [OpeningTag.print, List.length_cons]
      omega
    have text : (Element.paired tag children).inside ++ rest =
        tag.name ++ printAttributes tag.attributes ++ ['>'] ++
          (children.print ++ (closingTag tag.name ++ rest)) := by
      simp [Element.inside, Element.print, OpeningTag.print]
    rw [text, elementEnd, mark]
    dsimp only
    rw [hlen, skip, childrenEnd_children, childrenEnd_closing, if_pos rfl, if_pos rfl]
    rw [← hlen, Element.print, List.length_append, List.length_append, Nat.add_assoc, Nat.add_assoc,
      Nat.add_assoc tag.print.length]
  | selfClosing name attributes =>
    have mark := markAt_selfClosing name attributes rest pos
    have text : (Element.selfClosing name attributes).inside =
        name.text ++ printAttributes attributes ++ [' ', '/', '>'] := by
      simp [Element.inside, Element.print]
    rw [text, elementEnd, mark]

/-! ## Tokens -/

mutual

/-- The tokens of an element that starts at `pos`. -/
def Element.tokens (pos : Nat) : Element → List Token
  | .paired tag children =>
    let inner := pos + tag.print.length
    let close := inner + children.print.length
    ⟨.opening, pos, inner, tag.name⟩
      :: (children.tokens inner ++
        [⟨.closing, close, close + (closingTag tag.name).length, tag.name⟩])
  | .selfClosing name attributes =>
    [⟨.selfClosing, pos, pos + (Element.selfClosing name attributes).print.length, name.text⟩]

/-- The tokens of children that start at `pos`. -/
def Children.tokens (pos : Nat) : Children → List Token
  | .last gap => textToken pos (pos + gap.text.length)
  | .element gap child rest =>
    let start := pos + gap.text.length
    textToken pos start ++ child.tokens start ++ rest.tokens (start + child.print.length)
  | .expression gap code rest =>
    let start := pos + gap.text.length
    textToken pos start
      ++ ⟨.expression, start, start + code.print.length, []⟩ :: rest.tokens
        (start + code.print.length)

end

/-- Whether no text goes on at `pos`: the text ends there or a mark does start. -/
def Breaks (pos : Nat) : Text → Prop
  | [] => True
  | c :: cs => (markAt pos c cs).isSome

theorem textToken_self (pos : Nat) : textToken pos pos = [] :=
  if_neg (Nat.lt_irrefl pos)

/-- Text that ends at a break is a token of its own. -/
theorem tokensFrom_break {textStart pos : Nat} {rest : Text} (h : Breaks pos rest) :
    tokensFrom textStart pos 0 rest =
      (tokensFrom pos pos 0 rest).map (textToken textStart pos ++ ·) := by
  cases rest with
  | nil => simp [tokensFrom, textToken_self, Except.map]
  | cons c cs =>
    obtain ⟨mark, hm⟩ := Option.isSome_iff_exists.1 h
    rw [tokensFrom, tokensFrom, if_neg (Nat.not_lt_zero _), if_neg (Nat.not_lt_zero _), hm]
    cases mark with
    | error fault => rfl
    | ok token =>
      dsimp only
      cases tokensFrom token.stop (pos + 1) token.stop cs with
      | error fault => rfl
      | ok found => simp [Except.map, textToken_self]

/-- A mark is one token. -/
theorem tokensFrom_mark {c : Char} {piece rest : Text} {pos : Nat} {token : Token}
    (h : markAt pos c (piece ++ rest) = some (.ok token))
    (hs : token.stop = pos + (c :: piece).length) :
    tokensFrom pos pos 0 (c :: piece ++ rest) =
      (tokensFrom token.stop token.stop 0 rest).map (token :: ·) := by
  have hs' : token.stop = pos + 1 + piece.length := by
    rw [hs, List.length_cons]
    omega
  have skip := tokensFrom_skip token.stop rest piece (pos + 1)
  rw [← hs'] at skip
  rw [List.cons_append, tokensFrom, if_neg (Nat.not_lt_zero _), h]
  dsimp only
  rw [skip]
  cases tokensFrom token.stop token.stop 0 rest with
  | error fault => rfl
  | ok found => simp [Except.map, textToken_self]

theorem tokensFrom_gap (textStart : Nat) (rest : Text) :
    ∀ (t : Text) (pos : Nat), (∀ c ∈ t, c ≠ '<' ∧ c ≠ '{') →
      tokensFrom textStart pos 0 (t ++ rest) = tokensFrom textStart (pos + t.length) 0 rest
  | [], _, _ => rfl
  | c :: cs, pos, h => by
    have ih := tokensFrom_gap textStart rest cs (pos + 1) fun x hx => h x (by simp [hx])
    rw [List.cons_append, tokensFrom, if_neg (Nat.not_lt_zero _), markAt_text (h c (by simp))]
    dsimp only
    rw [ih, List.length_cons, Nat.add_assoc pos 1, Nat.add_comm 1]

theorem breaks_element (t : Element) (rest : Text) (pos : Nat) : Breaks pos (t.print ++ rest) := by
  cases t with
  | paired tag children =>
    have mark := markAt_opening tag (children.print ++ (closingTag tag.name ++ rest)) pos
    rw [Element.print, List.append_assoc, List.append_assoc]
    exact Option.isSome_of_eq_some mark
  | selfClosing name attributes =>
    exact Option.isSome_of_eq_some (markAt_selfClosing name attributes rest pos)

theorem breaks_expression (code : BraceCode) (rest : Text) (pos : Nat) :
    Breaks pos (code.print ++ rest) :=
  Option.isSome_of_eq_some (markAt_expression code rest pos)

theorem breaks_closing (tag : OpeningTag) (rest : Text) (pos : Nat) :
    Breaks pos (closingTag tag.name ++ rest) :=
  Option.isSome_of_eq_some (markAt_closing tag.all_isTagNameChar rest pos)

theorem except_map_map {ε α β γ : Type} (f : α → β) (g : β → γ) (x : Except ε α) :
    (x.map f).map g = x.map (g ∘ f) := by
  cases x <;> rfl

mutual

/-- The tokens of a printed element. -/
theorem tokensFrom_element :
    ∀ (t : Element) (rest : Text) (pos : Nat),
      tokensFrom pos pos 0 (t.print ++ rest) =
        (tokensFrom (pos + t.print.length) (pos + t.print.length) 0 rest).map (t.tokens pos ++ ·)
  | .paired tag children, rest, pos => by
    have opening :=
      tokensFrom_mark (markAt_opening tag (children.print ++ (closingTag tag.name ++ rest)) pos) rfl
    have inner :=
      tokensFrom_children children (closingTag tag.name ++ rest) (pos + tag.print.length)
      (breaks_closing tag rest _)
    have close : tokensFrom (pos + tag.print.length + children.print.length) _ 0
        (closingTag tag.name ++ rest) = _ :=
      tokensFrom_mark (markAt_closing tag.all_isTagNameChar rest _) rfl
    rw [Element.print, List.append_assoc, List.append_assoc]
    refine opening.trans ?_
    rw [inner, close, except_map_map, except_map_map]
    simp only [List.length_append, Nat.add_assoc, Element.tokens]
    congr 1
    funext found
    simp
  | .selfClosing tag attributes, rest, pos =>
    tokensFrom_mark (markAt_selfClosing tag attributes rest pos) rfl

/-- The tokens of printed children in front of a break. -/
theorem tokensFrom_children :
    ∀ (t : Children) (rest : Text) (pos : Nat), Breaks (pos + t.print.length) rest →
      tokensFrom pos pos 0 (t.print ++ rest) =
        (tokensFrom (pos + t.print.length) (pos + t.print.length) 0 rest).map (t.tokens pos ++ ·)
  | .last gap, rest, pos, h => by
    rw [Children.print, tokensFrom_gap pos rest gap.text pos gap.valid]
    exact tokensFrom_break h
  | .element gap child more, rest, pos, h => by
    have hlen : pos + (Children.element gap child more).print.length =
        pos + gap.text.length + child.print.length + more.print.length := by
      simp only [Children.print, List.length_append, Nat.add_assoc]
    rw [hlen] at h ⊢
    rw [Children.print, List.append_assoc, List.append_assoc,
      tokensFrom_gap pos _ gap.text pos gap.valid, tokensFrom_break (breaks_element child _ _),
      tokensFrom_element child, tokensFrom_children more rest _ h, except_map_map, except_map_map]
    congr 1
    funext found
    simp [Children.tokens]
  | .expression gap code more, rest, pos, h => by
    have hlen : pos + (Children.expression gap code more).print.length =
        pos + gap.text.length + code.print.length + more.print.length := by
      simp only [Children.print, List.length_append, Nat.add_assoc]
    have mark : tokensFrom (pos + gap.text.length) _ 0 (code.print ++ (more.print ++ rest)) = _ :=
      tokensFrom_mark (markAt_expression code (more.print ++ rest) _) rfl
    rw [hlen] at h ⊢
    rw [Children.print, List.append_assoc, List.append_assoc,
      tokensFrom_gap pos _ gap.text pos gap.valid, tokensFrom_break (breaks_expression code _ _),
      mark, tokensFrom_children more rest _ h, except_map_map, except_map_map]
    congr 1
    funext found
    simp [Children.tokens]

end

/-- The tokens of a text that is printed children. -/
theorem tokens_children (t : Children) : tokens t.print 0 = .ok (t.tokens 0) := by
  have h := tokensFrom_children t [] 0 trivial
  simpa [tokens, tokensFrom, textToken_self, Except.map] using h

/-! ## Units -/

theorem childSpans_textToken_inside (size depth unitStart start stop : Nat) (rest : List Token) :
    childSpans size (depth + 1) unitStart (textToken start stop ++ rest) =
      childSpans size (depth + 1) unitStart rest := by
  rw [textToken]
  split <;> simp [childSpans]

mutual

/-- Inside an open element the tokens of an element change nothing. -/
theorem childSpans_element_inside (size unitStart : Nat) (rest : List Token) :
    ∀ (t : Element) (depth pos : Nat),
      childSpans size (depth + 1) unitStart (t.tokens pos ++ rest) =
        childSpans size (depth + 1) unitStart rest
  | .paired tag children, depth, pos => by
    rw [Element.tokens, List.cons_append, List.append_assoc, childSpans,
      if_neg (Nat.succ_ne_zero depth), if_pos rfl,
      childSpans_children_inside size unitStart _ children]
    simp [childSpans]
  | .selfClosing tag attributes, depth, pos => by
    simp [Element.tokens, childSpans]

/-- Inside an open element the tokens of children change nothing. -/
theorem childSpans_children_inside (size unitStart : Nat) (rest : List Token) :
    ∀ (t : Children) (depth pos : Nat),
      childSpans size (depth + 1) unitStart (t.tokens pos ++ rest) =
        childSpans size (depth + 1) unitStart rest
  | .last gap, depth, pos => childSpans_textToken_inside size depth unitStart _ _ rest
  | .element gap child more, depth, pos => by
    rw [Children.tokens, List.append_assoc, List.append_assoc, childSpans_textToken_inside,
      childSpans_element_inside size unitStart _ child,
      childSpans_children_inside size unitStart _ more]
  | .expression gap code more, depth, pos => by
    have inner := childSpans_children_inside size unitStart rest more depth
      (pos + gap.text.length + code.print.length)
    rw [Children.tokens, List.append_assoc, childSpans_textToken_inside, List.cons_append,
      childSpans]
    simpa using inner

end

/-- Outside all elements the start of the last one has no meaning. -/
theorem childSpans_unitStart (size : Nat) :
    ∀ (found : List Token) (unitStart unitStart' : Nat),
      childSpans size 0 unitStart found = childSpans size 0 unitStart' found
  | [], _, _ => rfl
  | token :: found, unitStart, unitStart' => by
    rw [childSpans, childSpans, if_pos rfl, if_pos rfl,
      childSpans_unitStart size found unitStart unitStart']

/-- An element outside all others is one unit. -/
theorem childSpans_element (size unitStart : Nat) (rest : List Token) (t : Element) (pos : Nat) :
    childSpans size 0 unitStart (t.tokens pos ++ rest) =
      ⟨pos, pos + t.print.length⟩ :: childSpans size 0 unitStart rest := by
  cases t with
  | paired tag children =>
    rw [Element.tokens, List.cons_append, List.append_assoc, childSpans, if_pos rfl, if_pos rfl,
      childSpans_children_inside size pos _ children, List.cons_append, childSpans,
      if_neg Nat.one_ne_zero, if_neg (by simp), if_pos rfl, if_pos rfl, List.nil_append,
      childSpans_unitStart size rest pos unitStart]
    simp only [Element.print, List.length_append, Nat.add_assoc]
  | selfClosing name attributes => simp [Element.tokens, childSpans]

/-- The span of a text if there is any. -/
def textSpan (start stop : Nat) : List Span :=
  if start < stop then [⟨start, stop⟩] else []

theorem childSpans_textToken (size unitStart start stop : Nat) (rest : List Token) :
    childSpans size 0 unitStart (textToken start stop ++ rest) =
      textSpan start stop ++ childSpans size 0 unitStart rest := by
  rw [textToken, textSpan]
  split <;> simp [childSpans]

/-- The spans of children that start at `pos`. -/
def Children.spans (pos : Nat) : Children → List Span
  | .last gap => textSpan pos (pos + gap.text.length)
  | .element gap child rest =>
    let start := pos + gap.text.length
    textSpan pos start ++
      ⟨start, start + child.print.length⟩ :: rest.spans (start + child.print.length)
  | .expression gap code rest =>
    let start := pos + gap.text.length
    textSpan pos start ++
      ⟨start, start + code.print.length⟩ :: rest.spans (start + code.print.length)

/-- The siblings among the tokens of children are the children. -/
theorem childSpans_children (size unitStart : Nat) :
    ∀ (t : Children) (pos : Nat), childSpans size 0 unitStart (t.tokens pos) = t.spans pos
  | .last gap, pos => by
    have h := childSpans_textToken size unitStart pos (pos + gap.text.length) []
    simpa [Children.tokens, Children.spans, childSpans] using h
  | .element gap child more, pos => by
    have ih := childSpans_children size unitStart more (pos + gap.text.length + child.print.length)
    rw [Children.tokens, List.append_assoc, childSpans_textToken, childSpans_element, ih,
      Children.spans]
  | .expression gap code more, pos => by
    have ih := childSpans_children size unitStart more (pos + gap.text.length + code.print.length)
    rw [Children.tokens, childSpans_textToken, childSpans, if_pos rfl, if_neg (by simp), ih,
      Children.spans]

/-- A run of text as a unit, if there is any. -/
def TextRun.units (gap : TextRun) : List Text :=
  if gap.text.isEmpty then [] else [gap.text]

/-- The texts of children in order, with the texts between them. -/
def Children.units : Children → List Text
  | .last gap => gap.units
  | .element gap child rest => gap.units ++ child.print :: rest.units
  | .expression gap code rest => gap.units ++ code.print :: rest.units

theorem textSpan_map_of {t : Text} (gap : TextRun) (before after : Text)
    (h : t = before ++ (gap.text ++ after)) :
    (textSpan before.length (before.length + gap.text.length)).map (·.of t) = gap.units := by
  rw [textSpan, TextRun.units]
  cases hg : gap.text with
  | nil => simp
  | cons c cs =>
    rw [hg] at h
    have text := slice_eq before after h rfl rfl
    simpa [Span.of] using text

/-- The spans of children cover their texts. -/
theorem spans_map_of {t : Text} :
    ∀ (children : Children) (before : Text), t = before ++ children.print →
      (children.spans before.length).map (·.of t) = children.units
  | .last gap, before, h => textSpan_map_of gap before [] (by simpa [Children.print] using h)
  | .element gap child more, before, h => by
    rw [Children.print, List.append_assoc] at h
    have gapText := textSpan_map_of gap before _ h
    have childText : Span.of ⟨before.length + gap.text.length, before.length + gap.text.length +
        child.print.length⟩ t
        = child.print := slice_eq (before ++ gap.text) more.print (by rw [h, List.append_assoc])
          (by simp) (by simp)
    have ih := spans_map_of (t := t) more (before ++ gap.text ++ child.print) (by rw [h]; simp)
    simp only [List.length_append] at ih
    rw [Children.spans, Children.units, List.map_append, gapText, List.map_cons, childText, ih]
  | .expression gap code more, before, h => by
    rw [Children.print, List.append_assoc] at h
    have gapText := textSpan_map_of gap before _ h
    have codeText : Span.of ⟨before.length + gap.text.length, before.length + gap.text.length +
        code.print.length⟩ t
        = code.print := slice_eq (before ++ gap.text) more.print (by rw [h, List.append_assoc])
          (by simp) (by simp)
    have ih := spans_map_of (t := t) more (before ++ gap.text ++ code.print) (by rw [h]; simp)
    simp only [List.length_append] at ih
    rw [Children.spans, Children.units, List.map_append, gapText, List.map_cons, codeText, ih]

end Recast
