import Recast.Proofs.Markup.LeftMarkup

/-!
# Elements in code

Code that holds elements is code with elements in the places where a value is expected (`CodeTail`,
`EmbeddedCode`); its last tag may be one that is never closed. `recastEmbedded` replaces each
element by what it becomes and keeps the code between them (`recastEmbedded_print`).

What comes out holds markup just if a warning says so or an open tag is in the code
(`EmbeddedCode.yields`). Where such a tag stands among children it is worth a warning
(`recastMarkup_unclosed`), but in code it is no complete element and is passed over. In the same way
the collection of a rendered list is kept as written (`RenderedList.yields`).
`containsMarkup_eq_leavesMarkup` says this of every way into the recasting of markup.
-/

namespace Recast

/-! ## Where the list of elements goes on -/

theorem embeddedElements_of_le :
    ∀ (t : Text) {behind : Text} {pos resume : Nat}, resume ≤ pos →
      embeddedElements behind pos resume t = embeddedElements behind pos 0 t
  | [], _, _, _, _ => rfl
  | c :: cs, behind, pos, resume, h => by
    have tail : embeddedElements (c :: behind) (pos + 1) resume cs =
        embeddedElements (c :: behind) (pos + 1) 0 cs :=
      embeddedElements_of_le cs (by omega)
    have comment : embeddedElements (c :: behind) (pos + 1)
        ((commentEnd? pos c cs).getD resume) cs =
        embeddedElements (c :: behind) (pos + 1) ((commentEnd? pos c cs).getD 0) cs := by
      cases commentEnd? pos c cs with
      | none => exact tail
      | some stop => rfl
    rw [embeddedElements, embeddedElements]
    simp only [Nat.not_lt.2 h, Nat.not_lt_zero, if_false, tail, comment]

theorem embeddedElements_skip (rest : Text) :
    ∀ (t behind : Text) (pos : Nat), embeddedElements behind pos (pos + t.length) (t ++ rest) =
      embeddedElements (t.reverse ++ behind) (pos + t.length) 0 rest
  | [], behind, pos => embeddedElements_of_le rest (Nat.le_refl _)
  | c :: cs, behind, pos => by
    have h := embeddedElements_skip rest cs (c :: behind) (pos + 1)
    rw [List.cons_append, embeddedElements, if_pos (by simp)]
    rw [List.length_cons, ← Nat.add_assoc, Nat.add_right_comm, h]
    simp

theorem embeddedElements_plain (rest : Text) :
    ∀ {t : Text} (behind : Text) (pos : Nat), (∀ c ∈ t, isPlainCode c) →
      embeddedElements behind pos 0 (t ++ rest) =
        embeddedElements (t.reverse ++ behind) (pos + t.length) 0 rest
  | [], _, _, _ => rfl
  | c :: cs, behind, pos, h => by
    have tail := embeddedElements_plain rest (c :: behind) (pos + 1) fun d hd =>
      h d (List.mem_cons_of_mem c hd)
    have plain := h c List.mem_cons_self
    simp only [isPlainCode, Bool.and_eq_true, Bool.not_eq_true', bne_iff_ne] at plain
    have comment : commentEnd? pos c (cs ++ rest) = none := by
      rw [commentEnd?.eq_def, if_neg plain.1.2]
    rw [List.cons_append, embeddedElements, if_neg (Nat.not_lt_zero _), plain.1.1, comment]
    simp only [Bool.false_eq_true, if_false, plain.2, decide_false, Bool.false_and,
      Option.getD_none]
    rw [tail]
    simp [Nat.add_assoc, Nat.add_comm 1]

/-- An element where markup opens is listed, and the list goes on behind it. -/
theorem embeddedElements_element (t : Element) (rest : Text) {behind : Text} (pos : Nat)
    (h : opensValue behind) :
    embeddedElements behind pos 0 (t.print ++ rest) =
      .ok ⟨pos, pos + t.print.length⟩ :: embeddedElements (t.print.reverse ++ behind)
        (pos + t.print.length) 0 rest := by
  obtain ⟨c, cs, same, hc⟩ := t.print_starts
  have inside : t.inside = c :: cs := by rw [Element.inside, same]; rfl
  have stop := elementEnd_print t rest pos
  have opens : opensMarkup behind (t.inside ++ rest) := by
    rw [inside]
    exact opensMarkup_of_opensValue h hc (cs ++ rest)
  have skip := embeddedElements_skip rest t.inside ('<' :: behind) (pos + 1)
  have hlen : pos + 1 + t.inside.length = pos + t.print.length := by
    rw [t.print_eq, List.length_cons]
    omega
  have quote : isQuote '<' = false := by decide
  rw [hlen] at skip
  rw [t.print_eq, List.cons_append, embeddedElements, if_neg (Nat.not_lt_zero _), quote, stop,
    ← t.print_eq]
  simp only [Bool.false_eq_true, if_false, decide_true, opens, Bool.and_self, if_true, skip]
  rw [t.print_eq]
  simp

/-! ## Code without elements -/

/-- A text in double quotes. -/
def QuotedValue.print (value : QuotedValue) : Text :=
  '"' :: (value.text ++ ['"'])

/-- Code that holds no element: characters without a meaning of their own, quoted texts and block
comments. -/
inductive IsCode : Text → Prop where
  | nil : IsCode []
  | plain {c : Char} {rest : Text} (h : isPlainCode c) (code : IsCode rest) : IsCode (c :: rest)
  | quoted (value : QuotedValue) {rest : Text} (code : IsCode rest) : IsCode (value.print ++ rest)
  | comment {inner rest : Text} (h : endsComment inner = false) (code : IsCode rest) :
    IsCode ("/*".toList ++ inner ++ "*/".toList ++ rest)

theorem isCode_of_plain : ∀ {t : Text}, (∀ c ∈ t, isPlainCode c) → IsCode t
  | [], _ => .nil
  | c :: _, h =>
    .plain (h c List.mem_cons_self) (isCode_of_plain fun d hd => h d (List.mem_cons_of_mem c hd))

theorem embeddedElements_quoted (value : QuotedValue) (rest behind : Text) (pos : Nat) :
    embeddedElements behind pos 0 (value.print ++ rest) =
      embeddedElements (value.print.reverse ++ behind) (pos + value.print.length) 0 rest := by
  have stop := literalEnd_quotedValue value rest (pos + 1)
  have skip := embeddedElements_skip rest (value.text ++ ['"']) ('"' :: behind) (pos + 1)
  rw [List.length_append, List.length_singleton, ← Nat.add_assoc, List.append_assoc,
    List.singleton_append] at skip
  have text : value.print ++ rest = '"' :: (value.text ++ '"' :: rest) := by
    simp [QuotedValue.print]
  rw [text, embeddedElements, if_neg (Nat.not_lt_zero _), if_pos (by decide), stop, skip]
  simp only [QuotedValue.print, List.reverse_cons, List.append_assoc, List.singleton_append,
    List.length_cons, List.length_append, List.length_nil]
  congr 1
  omega

theorem embeddedElements_comment {inner : Text} (h : endsComment inner = false) (rest behind : Text)
    (pos : Nat) :
    embeddedElements behind pos 0 ("/*".toList ++ inner ++ "*/".toList ++ rest) =
      embeddedElements (("/*".toList ++ inner ++ "*/".toList).reverse ++ behind)
        (pos + ("/*".toList ++ inner ++ "*/".toList).length) 0 rest := by
  have stop : blockCommentEnd (pos + 2) (inner ++ (['*', '/'] ++ rest)) =
      pos + 2 + inner.length + 2 :=
    blockCommentEnd_append rest (pos + 2) h
  have skip := embeddedElements_skip rest ('*' :: (inner ++ ['*', '/'])) ('/' :: behind) (pos + 1)
  have hlen : pos + 1 + ('*' :: (inner ++ ['*', '/'])).length = pos + 2 + inner.length + 2 := by
    simp only [List.length_cons, List.length_append, List.length_nil]
    omega
  have text : "/*".toList ++ inner ++ "*/".toList = '/' :: '*' :: (inner ++ ['*', '/']) := rfl
  have quote : isQuote '/' = false := by decide
  rw [hlen, List.cons_append, List.append_assoc] at skip
  rw [text, List.cons_append, List.cons_append, List.append_assoc, embeddedElements,
    if_neg (Nat.not_lt_zero _), quote, commentEnd?, if_pos rfl, if_neg Bool.false_ne_true,
    if_neg (by simp), stop, Option.getD_some, skip]
  simp only [List.reverse_cons, List.append_assoc, List.singleton_append, List.length_cons,
    List.length_append, List.length_nil]
  congr 1
  omega

/-- Code is passed over in the search for elements. -/
theorem IsCode.embeddedElements {t : Text} (h : IsCode t) (rest behind : Text) (pos : Nat) :
    Recast.embeddedElements behind pos 0 (t ++ rest) =
      Recast.embeddedElements (t.reverse ++ behind) (pos + t.length) 0 rest := by
  induction h generalizing behind pos with
  | nil => rfl
  | @plain c code hc _ ih =>
    have first := @embeddedElements_plain (code ++ rest) [c] behind pos (by simpa using hc)
    rw [List.cons_append]
    refine first.trans ((ih _ _).trans ?_)
    simp [Nat.add_assoc, Nat.add_comm 1]
  | quoted value _ ih =>
    rw [List.append_assoc, embeddedElements_quoted, ih]
    simp only [List.reverse_append, List.append_assoc, List.length_append, Nat.add_assoc]
  | comment inner _ ih =>
    rw [List.append_assoc, embeddedElements_comment inner, ih]
    simp only [List.reverse_append, List.append_assoc, List.length_append, Nat.add_assoc]

theorem carries_quotedValue (value : QuotedValue) : Carries false value.print :=
  carries_literal rfl fun pos rest => literalEnd_quotedValue value rest pos

/-- Code holds no markup. -/
theorem IsCode.carries {t : Text} (h : IsCode t) : Carries false t := by
  induction h with
  | nil => exact carries_nil
  | @plain c _ hc _ ih => exact (@carries_plain [c] (by simpa using hc)).append ih
  | quoted value _ ih => exact (carries_quotedValue value).append ih
  | comment inner _ ih => exact (carries_comment inner).append ih

/-! ## Tags that are never closed -/

theorem embeddedElements_value (value : WrittenValue) (rest behind : Text) (pos : Nat) :
    embeddedElements behind pos 0 (value.print ++ rest) =
      embeddedElements (value.print.reverse ++ behind) (pos + value.print.length) 0 rest := by
  cases value with
  | quoted value => exact embeddedElements_quoted value rest behind pos
  | braced code =>
    refine embeddedElements_plain rest behind pos fun c hc => ?_
    simp only [WrittenValue.print, BraceCode.print, List.cons_append, List.mem_cons,
      List.mem_append, List.not_mem_nil, or_false] at hc
    rcases hc with rfl | hc | rfl
    · decide
    · exact code.plain c hc
    · decide

/-- The names and values of a tag are no elements, and a value in quotes is not looked into. -/
theorem embeddedElements_attributes (rest : Text) :
    ∀ (attributes : List WrittenAttribute) (behind : Text) (pos : Nat),
      embeddedElements behind pos 0 (printAttributes attributes ++ rest) =
        embeddedElements ((printAttributes attributes).reverse ++ behind)
          (pos + (printAttributes attributes).length) 0 rest
  | [], _, _ => rfl
  | given :: attributes, behind, pos => by
    have plain : ∀ c ∈ ' ' :: given.name.text ++ ['='], isPlainCode c := by
      simp only [List.cons_append, List.mem_cons, List.mem_append, List.not_mem_nil, or_false]
      rintro c (rfl | hc | rfl)
      · decide
      · exact isPlainCode_of_isTagNameChar (given.name.all_isTagNameChar c hc)
      · decide
    have text : printAttributes (given :: attributes) =
        (' ' :: given.name.text ++ ['=']) ++ (given.value.print ++ printAttributes attributes) := by
      simp [printAttributes, WrittenAttribute.print]
    rw [text, List.append_assoc, embeddedElements_plain _ _ _ plain, List.append_assoc,
      embeddedElements_value, embeddedElements_attributes rest attributes]
    simp only [List.reverse_append, List.append_assoc, List.length_append, Nat.add_assoc]

/-- An opening tag with nothing but text behind it is no element. -/
theorem elementEnd_unclosed (tag : OpeningTag) (gap : TextRun) (pos : Nat) :
    elementEnd pos '<' (tag.print.drop 1 ++ gap.text) = .ok none := by
  have inside : tag.print.drop 1 = tag.name ++ printAttributes tag.attributes ++ ['>'] := rfl
  have mark := markAt_opening tag gap.text pos
  have skip := childrenEnd_skip tag.name 0 gap.text (tag.print.drop 1) (pos + 1)
  have text := childrenEnd_gap tag.name 0 [] gap.text (pos + 1 + (tag.print.drop 1).length)
    gap.valid
  have hlen : pos + 1 + (tag.print.drop 1).length = pos + tag.print.length := by
    rw [OpeningTag.print, List.length_cons, List.drop_one, List.tail_cons]
    omega
  rw [List.append_nil] at text
  rw [hlen] at skip text
  rw [inside, elementEnd, mark]
  dsimp only
  rw [← inside, skip, text, childrenEnd]

/-- A tag that is never closed is not listed. -/
theorem embeddedElements_unclosed (tag : OpeningTag) (gap : TextRun) (behind : Text) (pos : Nat) :
    embeddedElements behind pos 0 (tag.print ++ gap.text) = [] := by
  have none := elementEnd_unclosed tag gap pos
  have quote : isQuote '<' = false := by decide
  have name : ∀ c ∈ tag.name, isPlainCode c :=
    fun c hc => isPlainCode_of_isTagNameChar (tag.all_isTagNameChar c hc)
  have last : '<' ∉ '>' :: gap.text := by
    simp only [List.mem_cons, not_or]
    exact ⟨by decide, fun hm => (gap.valid _ hm).1 rfl⟩
  -- the search goes on inside the tag, where the quotes of a value hide what is in it
  have inner : embeddedElements ('<' :: behind) (pos + 1) 0 (tag.print.drop 1 ++ gap.text) =
      [] := by
    have text : tag.print.drop 1 ++ gap.text =
        tag.name ++ (printAttributes tag.attributes ++ '>' :: gap.text) := by
      simp [OpeningTag.print]
    rw [text, embeddedElements_plain _ _ _ name, embeddedElements_attributes,
      embeddedElements_eq_nil _ _ _ _ last]
  have comment : commentEnd? pos '<' (tag.print.drop 1 ++ gap.text) = .none := by
    rw [commentEnd?.eq_def, if_neg (by decide)]
  have start : tag.print = '<' :: tag.print.drop 1 := rfl
  rw [start, List.cons_append, embeddedElements, if_neg (Nat.not_lt_zero _), quote, none, comment]
  simp only [Bool.false_eq_true, if_false, Option.getD_none, inner, ite_self]

theorem tokens_unclosed (tag : OpeningTag) (gap : TextRun) :
    tokens (tag.print ++ gap.text) 0 = .ok (⟨.opening, 0, tag.print.length, tag.name⟩
      :: textToken tag.print.length (tag.print.length + gap.text.length)) := by
  have opening := tokensFrom_mark (markAt_opening tag gap.text 0) rfl
  have text := tokensFrom_gap tag.print.length [] gap.text tag.print.length gap.valid
  rw [List.append_nil, tokensFrom] at text
  rw [Nat.zero_add, text] at opening
  exact opening

theorem elementParts_unclosed (tag : OpeningTag) (gap : TextRun) :
    elementParts (tag.print.drop 1 ++ gap.text) =
      .ok ⟨tag.name, printAttributes tag.attributes, none⟩ := by
  have inside : tag.print.drop 1 ++ gap.text =
      tag.name ++ (printAttributes tag.attributes ++ '>' :: gap.text) := by
    simp [OpeningTag.print]
  have named := tagName_opening tag gap.text
  have stop := tagEnd_opening tag.all_isTagNameChar 0 1 tag.attributes gap.text
  have open' := elementEnd_unclosed tag gap 0
  rw [inside] at open' ⊢
  have attributes : slice (tag.name ++ (printAttributes tag.attributes ++ '>' :: gap.text))
      tag.name.length
      (1 + tag.name.length + (printAttributes tag.attributes).length + 1 - 2) =
        printAttributes tag.attributes :=
    slice_eq tag.name _ rfl rfl (by omega)
  simp only [elementParts, tagEndAt, tagNameAt, List.drop_succ_cons, List.drop_zero, named,
    List.headD_cons, stop, bind, Except.bind, Nat.zero_add, Bool.false_eq_true, if_false,
    attributes, elementEndAt, open', Option.map_none]
  rfl

theorem trim_unclosed (tag : OpeningTag) (gap : TextRun) :
    trim (tag.print ++ gap.text) = tag.print ++ gap.trimEnd.text := by
  have last : ∀ c, tag.print.getLast? = some c → isBlank c = false := by
    rw [OpeningTag.print, ← List.cons_append, List.getLast?_concat]
    rintro c ⟨⟩
    decide
  have first : ∀ c, (tag.print ++ gap.text).head? = some c → isBlank c = false := by
    rintro c ⟨⟩
    decide
  rw [trim, trimStart_eq_self first, trimEnd_append last]
  rfl

/-- An opening tag takes everything after it as one unit. -/
theorem recastChildren_unclosed (tag : OpeningTag) (gap : TextRun)
    (h : trim (tag.print ++ gap.text) = tag.print ++ gap.text) :
    recastChildren (tag.print ++ gap.text) = (do
      Outcome.warn (.unmatchedTag tag.name)
      return tag.print ++ gap.text) := by
  have unit : childSpans (tag.print ++ gap.text).length 0 0
      (⟨.opening, 0, tag.print.length, tag.name⟩
      :: textToken tag.print.length (tag.print.length + gap.text.length)) =
        [⟨0, (tag.print ++ gap.text).length⟩] := by
    have text := childSpans_textToken_inside (tag.print ++ gap.text).length 0 0 tag.print.length
      (tag.print.length + gap.text.length) []
    rw [List.append_nil] at text
    rw [childSpans, if_pos rfl, if_pos rfl, text, childSpans, if_neg Nat.one_ne_zero]
  have whole : Span.of ⟨0, (tag.print ++ gap.text).length⟩ (tag.print ++ gap.text) =
      tag.print ++ gap.text := by
    rw [Span.of, slice, List.take_length, List.drop_zero]
  have start : tag.print ++ gap.text = '<' :: (tag.print.drop 1 ++ gap.text) := rfl
  rw [recastChildren, tokens_unclosed]
  simp only [unit, List.map_cons, List.map_nil, whole, h]
  rw [start, recastUnit, if_pos rfl, recastElement, elementParts_unclosed]
  rfl

/-- Among children a tag that is never closed stays as written with a warning. -/
theorem recastMarkup_unclosed (tag : OpeningTag) (gap : TextRun) :
    recastMarkup (tag.print ++ gap.text) = (do
      Outcome.warn (.unmatchedTag tag.name)
      return tag.print ++ trimEnd gap.text) := by
  have again : trim (tag.print ++ gap.trimEnd.text) = tag.print ++ gap.trimEnd.text := by
    rw [trim_unclosed]
    exact congrArg (tag.print ++ ·) (trimEnd_trimEnd gap.text)
  have start : tag.print ++ gap.trimEnd.text = '<' :: (tag.print.drop 1 ++ gap.trimEnd.text) := rfl
  rw [recastMarkup, trim_unclosed, recastChildren_unclosed tag gap.trimEnd again,
    if_neg (by simp [start]), if_neg (by simp [start])]
  rfl

/-! ## Code with elements -/

/-- A piece of code without elements. -/
structure PlainCode where
  text : Text
  valid : IsCode text

/-- Code behind which a value is expected, whatever stands before it. -/
structure LeadCode extends PlainCode where
  opens : opensValue (text.reverse ++ [')'])

/-- What follows at a place in code: elements, each behind the code that leads to it. -/
inductive CodeTail where
  | code (last : PlainCode)
  | unclosed (lead : LeadCode) (tag : OpeningTag) (gap : TextRun)
  | element (lead : LeadCode) (child : Element) (rest : CodeTail)

/-- Code with elements; it may start with one. -/
inductive EmbeddedCode where
  | tail (rest : CodeTail)
  | leading (child : Element) (rest : CodeTail)

/-- The code as text. -/
def CodeTail.print : CodeTail → Text
  | .code last => last.text
  | .unclosed lead tag gap => lead.text ++ (tag.print ++ gap.text)
  | .element lead child rest => lead.text ++ (child.print ++ rest.print)

/-- The code as text. -/
def EmbeddedCode.print : EmbeddedCode → Text
  | .tail rest => rest.print
  | .leading child rest => child.print ++ rest.print

/-- What becomes of code: its elements are replaced in place, and an open tag stays as written. -/
def CodeTail.recast : CodeTail → Outcome Text
  | .code last => return last.text
  | .unclosed lead tag gap => return lead.text ++ (tag.print ++ gap.text)
  | .element lead child rest => do
    let call ← child.recast
    let more ← rest.recast
    return lead.text ++ (call ++ more)

/-- What becomes of code that may start with an element. -/
def EmbeddedCode.recast : EmbeddedCode → Outcome Text
  | .tail rest => rest.recast
  | .leading child rest => do
    let call ← child.recast
    let more ← rest.recast
    return call ++ more

theorem LeadCode.opensValue_behind (lead : LeadCode) (behind : Text) :
    opensValue (lead.text.reverse ++ behind) := by
  have opens := lead.opens
  rw [opensValue, List.dropWhile_append] at opens ⊢
  cases h : lead.text.reverse.dropWhile isLayout with
  | nil =>
    rw [h] at opens
    exact absurd opens (by decide)
  | cons last before =>
    rw [h] at opens
    exact opens

/-! ## Replacing elements -/

/-- The edit for an element of the code. -/
def embeddedEdit (code : Text) : Except MarkupFault Span → Outcome Edit
  | .error fault => Outcome.fail fault
  | .ok span => do
    let call ← recastElement ((span.of code).drop 1)
    return ⟨span, call⟩

/-- The edits of the code from an offset on, made. -/
def recastFrom (code behind : Text) (last pos : Nat) (t : Text) : Outcome Text :=
  replaceFrom code last <$> Outcome.collect
    ((embeddedElements behind pos 0 t).map (embeddedEdit code))

theorem recastEmbedded_eq (code : Text) : recastEmbedded code = recastFrom code [] 0 0 code := by
  have same : embeddedEdit code = fun
      | .error fault => Outcome.fail fault
      | .ok span => do
        let call ← recastElement ((span.of code).drop 1)
        return (⟨span, call⟩ : Edit) := by
    funext found
    cases found <;> rfl
  rw [recastEmbedded, recastFrom, same]
  rfl

/-- An element in its place is replaced by what it becomes, and the edits go on behind it. -/
theorem recastFrom_element (child : Element) {code before lead after behind : Text}
    (h : code = before ++ lead ++ child.print ++ after) (opens : opensValue behind) :
    recastFrom code behind before.length (before ++ lead).length (child.print ++ after) = (do
      let call ← child.recast
      let more ← recastFrom code (child.print.reverse ++ behind)
        (before ++ lead ++ child.print).length
        (before ++ lead ++ child.print).length after
      return lead ++ (call ++ more)) := by
  have kept : slice code before.length (before ++ lead).length = lead :=
    slice_eq before (child.print ++ after) (by rw [h]; simp) rfl (by rw [List.length_append])
  have text : slice code (before ++ lead).length (before ++ lead ++ child.print).length =
      child.print :=
    slice_eq (before ++ lead) after (by rw [h, List.append_assoc]) rfl (by rw [List.length_append])
  have stop : (before ++ lead).length + child.print.length =
      (before ++ lead ++ child.print).length :=
    List.length_append.symm
  have call : recastElement (child.print.drop 1) = child.recast := recastElement_print child
  rw [recastFrom, embeddedElements_element child after _ opens, stop, List.map_cons,
    Outcome.collect_cons, embeddedEdit, Span.of, text, call]
  simp [recastFrom, replaceFrom, kept, -List.length_append]

theorem recastFrom_tail {code : Text} :
    ∀ (tail : CodeTail) (before behind : Text), code = before ++ tail.print →
    recastFrom code behind before.length before.length tail.print = tail.recast
  | .code last, before, behind, h => by
    have none := last.valid.embeddedElements [] behind before.length
    rw [List.append_nil] at none
    rw [recastFrom, CodeTail.print, none, embeddedElements, List.map_nil, Outcome.collect_nil,
      map_pure, replaceFrom, h, List.drop_left]
    rfl
  | .unclosed lead tag gap, before, behind, h => by
    rw [recastFrom, CodeTail.print, lead.valid.embeddedElements, embeddedElements_unclosed,
      List.map_nil, Outcome.collect_nil, map_pure, replaceFrom, h, List.drop_left]
    rfl
  | .element lead child rest, before, behind, h => by
    have place : code = before ++ lead.text ++ child.print ++ rest.print := by
      rw [h, CodeTail.print]
      simp
    -- the edits behind the element are those of the rest, which starts where the element ends
    have step := recastFrom_element child place (lead.opensValue_behind behind)
    rw [recastFrom_tail rest _ _ place] at step
    rw [CodeTail.print, CodeTail.recast, ← step, recastFrom, recastFrom,
      lead.valid.embeddedElements, List.length_append]

/-- Code with elements becomes what its elements become, with the code between them. -/
theorem recastEmbedded_print (code : EmbeddedCode) : recastEmbedded code.print = code.recast := by
  cases code with
  | tail rest => exact (recastEmbedded_eq _).trans (recastFrom_tail rest [] [] rfl)
  | leading child rest =>
    have step := @recastFrom_element child (child.print ++ rest.print) [] [] rest.print [] rfl rfl
    rw [List.append_nil, List.nil_append, recastFrom_tail rest child.print _ rfl] at step
    exact (recastEmbedded_eq _).trans step

/-! ## Markup in code -/

/-- Whether the code ends with a tag that is never closed. -/
def CodeTail.hasOpenTag : CodeTail → Bool
  | .code _ => false
  | .unclosed _ _ _ => true
  | .element _ _ rest => rest.hasOpenTag

/-- Whether the code ends with a tag that is never closed. -/
def EmbeddedCode.hasOpenTag : EmbeddedCode → Bool
  | .tail rest => rest.hasOpenTag
  | .leading _ rest => rest.hasOpenTag

/-- Whether there is a tag in the code. -/
def EmbeddedCode.hasTag : EmbeddedCode → Bool
  | .tail (.code _) => false
  | _ => true

/-- The elements of the code are tame. -/
def CodeTail.Tame : CodeTail → Prop
  | .code _ => True
  | .unclosed _ _ _ => True
  | .element _ child rest => child.Tame ∧ rest.Tame

/-- The elements of the code are tame. -/
def EmbeddedCode.Tame : EmbeddedCode → Prop
  | .tail rest => rest.Tame
  | .leading child rest => child.Tame ∧ rest.Tame

theorem LeadCode.leads (lead : LeadCode) : Leads lead.text :=
  ⟨lead.valid.carries, lead.opensValue_behind⟩

theorem OpeningTag.reads (tag : OpeningTag) (rest : Text) : Reads true (tag.print ++ rest) := by
  obtain ⟨c, cs, same, hc⟩ := tag.print_eq
  rw [same]
  exact reads_markup hc (cs ++ rest)

/-- What an element becomes, with the code behind it. -/
theorem reads_replaced {said more isOpen : Bool} {call code : Text} (hc : Reads said call)
    (hv : Carries (isOpen || more) code) :
    Reads (isOpen || (said || (more || false))) (call ++ code) := by
  have both := hc.append hv
  rwa [Bool.or_left_comm, ← Bool.or_false more] at both

/-- What becomes of code holds markup just if a warning says so or a tag is left open. -/
theorem CodeTail.yields : ∀ tail : CodeTail, tail.Tame →
    tail.recast.Yields fun left value => Carries (tail.hasOpenTag || left) value
  | .code last, _ => Outcome.yields_pure (last.valid.carries)
  | .unclosed lead tag gap, _ => Outcome.yields_pure (lead.leads.append (tag.reads gap.text))
  | .element lead child rest, h => by
    refine (child.yields h.1).bind fun said call hc => (rest.yields h.2).bind
      fun more value hv => ?_
    exact Outcome.yields_pure (lead.leads.append (reads_replaced hc hv))

theorem EmbeddedCode.yields (code : EmbeddedCode) (h : code.Tame) :
    code.recast.Yields fun left value => Reads (code.hasOpenTag || left) value := by
  cases code with
  | tail rest =>
    obtain ⟨value, result, carries⟩ := rest.yields h
    exact ⟨value, result, carries.reads⟩
  | leading child rest =>
    refine (child.yields h.1).bind fun said call hc => (rest.yields h.2).bind
      fun more value hv => ?_
    exact Outcome.yields_pure (reads_replaced hc hv)

/-- Code as it is written holds markup just if it has a tag. -/
theorem EmbeddedCode.reads (code : EmbeddedCode) : Reads code.hasTag code.print := by
  match code with
  | .tail (.code last) => exact (last.valid.carries).reads
  | .tail (.unclosed lead tag gap) => exact (lead.leads.append (tag.reads gap.text)).reads
  | .tail (.element lead child rest) =>
    exact (lead.leads.append (reads_written child rest.print)).reads
  | .leading child rest => exact reads_written child rest.print

/-! ## Rendered lists -/

theorem recastExpression_of_none {text : Text} (h : listCall? text = .ok none) :
    recastExpression text = recastEmbedded text := by
  rw [recastExpression]
  split
  · simp_all
  · rfl
  · simp_all

theorem recastExpression_of_some {text : Text} {call : ListCall}
    (h : listCall? text = .ok (some call)) :
    recastExpression text = (do
      Outcome.warn .mappedArray
      let rendered ← recastMarkup call.item
      let before ← recastEmbedded call.before
      let after ← recastEmbedded call.after
      return before ++ dynamicList call rendered ++ after) := by
  rw [recastExpression]
  split
  · simp_all
  · simp_all
  · rename_i found same
    obtain rfl := Option.some.inj (Except.ok.inj (h.symm.trans same))
    rfl

/-- A rendered list in code: the code around it, the collection, the parameters and the markup of an
item. -/
structure RenderedList where
  before : EmbeddedCode
  collection : EmbeddedCode
  params : PlainCode
  item : Children
  after : CodeTail

/-- The parts of the list as they are read off its text. -/
def RenderedList.call (list : RenderedList) : ListCall :=
  ⟨list.before.print, list.collection.print, list.params.text, list.item.print, list.after.print⟩

/-- The elements around the list and those of an item are tame. -/
def RenderedList.Tame (list : RenderedList) : Prop :=
  list.before.Tame ∧ list.item.Tame ∧ list.after.Tame

/-- Whether a tag of the list stays as written for which there is no warning. -/
def RenderedList.hidesTag (list : RenderedList) : Bool :=
  list.before.hasOpenTag || list.collection.hasTag || list.after.hasOpenTag

theorem carries_dynamicList {call : ListCall} {rendered : Text} {a b : Bool}
    (hc : Reads a call.collection)
    (hp : Carries false call.params) (hr : Reads b rendered) :
    Carries (a || b) (dynamicList call rendered) := by
  have data : Leads "DynamicList(\x7b data: ".toList := ⟨carries_plain (by decide), fun _ => rfl⟩
  have arrow : Leads ") => ".toList := ⟨carries_plain (by decide), fun _ => rfl⟩
  have function := (carries_plain (t := ", renderItem: (".toList) (by decide)).append hp
  have body := (arrow.append hr).append (carries_plain (t := " \x7d)".toList) (by decide))
  have whole := ((data.append hc).append function).append body
  rw [Bool.or_false, Bool.or_false, Bool.or_false] at whole
  unfold dynamicList
  simpa only [List.append_assoc] using whole

/-- What becomes of a rendered list holds markup just if a warning says so or one of its tags is
hidden. -/
theorem RenderedList.yields (list : RenderedList) (tame : list.Tame) {text : Text}
    (h : listCall? text = .ok (some list.call)) :
    (recastExpression text).Yields fun left value => Reads (list.hidesTag || left) value := by
  have before : recastEmbedded list.call.before = list.before.recast :=
    recastEmbedded_print list.before
  have after : recastEmbedded list.call.after = list.after.recast :=
    recastEmbedded_print (.tail list.after)
  rw [recastExpression_of_some h, before, after]
  refine (Outcome.yields_warn _).bind ?_
  rintro _ _ rfl
  refine (yields_recastMarkup tame.2.1).bind fun said rendered hr => ?_
  refine (list.before.yields tame.1).bind fun said' code hb => (list.after.yields tame.2.2).bind
    fun said'' rest ha => ?_
  refine Outcome.yields_pure ?_
  have call :=
    @carries_dynamicList list.call rendered _ _ list.collection.reads list.params.valid.carries hr
  have made := (hb.append call).append ha
  have same : ∀ a b c x y z : Bool, (a || y || (b || x) || (c || z)) =
      (a || b || c || (x || (y || (z || false)))) := by
    decide
  rw [same] at made
  exact made

/-! ## What is said of left markup -/

/-- Reading attributes never tells of left markup, whatever their values hold. -/
theorem yields_recastAttributes (attributes : Text) :
    (recastAttributes attributes).Yields fun said _ => said = false := by
  have named : ∀ name given, (recastNamed name given).Yields fun left _ => left = false ∧ True := by
    intro name given
    rw [recastNamed]
    split
    · exact Outcome.yields_pure ⟨rfl, trivial⟩
    · exact ⟨_, rfl, rfl, trivial⟩
    · exact Outcome.yields_pure ⟨rfl, trivial⟩
    · exact Outcome.yields_pure ⟨rfl, trivial⟩
    · exact Outcome.yields_pure ⟨rfl, trivial⟩
    · exact ⟨_, rfl, rfl, trivial⟩
  have each :=
    @Outcome.yields_collect _ (fun _ => True) ((readAttributes attributes).map recastAttribute) (by
    intro x hx
    obtain ⟨given, -, rfl⟩ := List.mem_map.1 hx
    cases given with
    | spread value => exact Outcome.yields_pure ⟨rfl, trivial⟩
    | string name value => exact named name _
    | expression name value => exact named name _
    | boolean name => exact named name _)
  refine each.bind ?_
  rintro _ properties ⟨rfl, -⟩
  exact Outcome.yields_pure rfl

/-- The outcome ends with a text that holds markup just if its journal tells of left markup or some
is kept unsaid. -/
def Outcome.Shows (unsaid : Bool) (x : Outcome Text) : Prop :=
  ∃ value, x.result = .ok value ∧ containsMarkup value = (unsaid || x.journal.leavesMarkup)

theorem Outcome.Yields.shows {unsaid : Bool} {x : Outcome Text}
    (h : x.Yields fun left value => Reads (unsaid || left) value) : x.Shows unsaid := by
  obtain ⟨value, result, reads⟩ := h
  exact ⟨value, result, reads.containsMarkup_eq⟩

/-- No markup is left unsaid among children: what they become holds markup just if a warning says
that an element was left, also where a tag is never closed. In code this is so but for such a tag,
and in a rendered list but for the tags of its collection; code in which no element is complete
comes back as it is, whatever tags open in it. Attributes are never searched: none of their values
is worth such a warning. -/
theorem containsMarkup_eq_leavesMarkup (children : Children) (tag : OpeningTag) (gap : TextRun)
    (code : EmbeddedCode) (list : RenderedList) (text attributes : Text) :
    (children.Tame → (recastMarkup children.print).Shows false) ∧
    (recastMarkup (tag.print ++ gap.text)).Shows false ∧
    (code.Tame → (recastEmbedded code.print).Shows code.hasOpenTag) ∧
    (embeddedElements [] 0 0 text = [] → recastEmbedded text = pure text) ∧
    (code.Tame → listCall? code.print = .ok none →
      (recastExpression code.print).Shows code.hasOpenTag) ∧
    (list.Tame → listCall? text = .ok (some list.call) →
      (recastExpression text).Shows list.hidesTag) ∧
    (recastAttributes attributes).Yields fun said _ => said = false := by
  have embedded : code.Tame → (recastEmbedded code.print).Shows code.hasOpenTag := by
    intro tame
    rw [recastEmbedded_print]
    exact (code.yields tame).shows
  refine ⟨fun tame => @Outcome.Yields.shows false _ (yields_recastMarkup tame), ?_, embedded,
    fun none => ?_,
    fun tame h => ?_, fun tame h => (list.yields tame h).shows, yields_recastAttributes attributes⟩
  · rw [recastMarkup_unclosed]
    exact ⟨_, rfl, (tag.reads _).containsMarkup_eq⟩
  · rw [recastEmbedded_eq, recastFrom, none]
    rfl
  · rw [recastExpression_of_none h]
    exact embedded tame

/-- An open tag behind an operator. -/
def openDiv : EmbeddedCode :=
  .tail (.unclosed ⟨⟨"ok && ".toList, isCode_of_plain (by decide)⟩, by decide⟩
    (.named ⟨"div".toList, by decide⟩ []) ⟨[], by decide⟩)

/-- A list of elements, each of which is rendered as a text. -/
def elementList : RenderedList where
  before := .tail (.code ⟨[], .nil⟩)
  collection := .tail (.element ⟨⟨"[".toList, isCode_of_plain (by decide)⟩, by decide⟩
    (.selfClosing ⟨"a".toList, by decide⟩ []) (.code ⟨"]".toList, isCode_of_plain (by decide)⟩))
  params := ⟨"x".toList, isCode_of_plain (by decide)⟩
  item := .element ⟨[], by decide⟩
    (.paired (.named ⟨"p".toList, by decide⟩ []) (.last ⟨[], by decide⟩)) (.last ⟨[], by decide⟩)
  after := .code ⟨[], .nil⟩

/-- An open tag in code and the elements of a mapped list stay, and are both unsaid; the same tag
alone is not. -/
theorem shows_openDiv :
    (recastMarkup "<p></p>".toList).Shows false ∧ (recastMarkup "<div>".toList).Shows false ∧
    (recastEmbedded "ok && <div>".toList).Shows true ∧
    (recastExpression "[<a />].map(x => <p></p>)".toList).Shows true := by
  obtain ⟨markup, alone, embedded, -, -, mapped, -⟩ :=
    containsMarkup_eq_leavesMarkup elementList.item
    (.named ⟨"div".toList, by decide⟩ []) ⟨[], by decide⟩ openDiv elementList
      "[<a />].map(x => <p></p>)".toList []
  have item : elementList.item.Tame := ⟨.inr ⟨by simp [OpeningTag.attributes], trivial⟩, trivial⟩
  exact ⟨markup item, alone, embedded trivial, mapped ⟨trivial, item, trivial⟩ (by decide +kernel)⟩

/-- The open tag comes back without a warning. -/
theorem openDiv_unsaid : recastEmbedded "ok && <div>".toList = pure "ok && <div>".toList ∧
    containsMarkup "ok && <div>".toList ∧
      (recastEmbedded "ok && <div>".toList).journal.leavesMarkup = false := by
  have kept : recastEmbedded "ok && <div>".toList = pure "ok && <div>".toList :=
    recastEmbedded_print openDiv
  exact ⟨kept, by decide +kernel, by rw [kept]; rfl⟩

end Recast
