import Mathlib.Data.List.ReduceOption
import Recast.Proofs.Journal.Laws
import Recast.Proofs.Markup.TreeScan

/-!
# Recasting text is recasting trees

`recastMarkup` never builds a tree: it scans the text of an element again at every level. On the
text of a tree all its scanners cut at the same places, so that it gives what `Element.recast` gives
by recursion over the tree (`recastMarkup_print`).
-/

namespace Recast

/-! ## Attributes -/

theorem attributesFrom_of_le :
    ∀ (t : Text) {pos resume : Nat}, resume ≤ pos →
      attributesFrom pos resume t = attributesFrom pos 0 t
  | [], _, _, _ => rfl
  | c :: cs, pos, resume, h => by
    have tail : attributesFrom (pos + 1) resume cs = attributesFrom (pos + 1) 0 cs :=
      attributesFrom_of_le cs (by omega)
    rw [attributesFrom, attributesFrom]
    simp only [Nat.not_lt.2 h, Nat.not_lt_zero, if_false, tail]

theorem attributesFrom_skip (rest : Text) :
    ∀ (t : Text) (pos : Nat), attributesFrom pos (pos + t.length) (t ++ rest) =
      attributesFrom (pos + t.length) 0 rest
  | [], pos => attributesFrom_of_le rest (Nat.le_refl _)
  | c :: cs, pos => by
    have h := attributesFrom_skip rest cs (pos + 1)
    rw [List.cons_append, attributesFrom, if_pos (by simp)]
    rwa [List.length_cons, ← Nat.add_assoc, Nat.add_right_comm]

theorem valuedAttribute_print (given : WrittenAttribute) (rest : Text) (pos : Nat) :
    valuedAttribute given.name.text pos (given.value.print ++ rest) =
      (given.attribute, pos + given.value.print.length) := by
  obtain ⟨name, value⟩ := given
  cases value with
  | quoted value =>
    have stop := literalEnd_quotedValue value rest (pos + 1)
    simp only [WrittenValue.print, List.cons_append, List.append_assoc, List.nil_append]
    rw [valuedAttribute, if_pos (by simp), stop]
    simp only [WrittenAttribute.attribute, Nat.add_sub_cancel, Nat.add_sub_cancel_left,
      List.take_left, List.length_cons, List.length_append, List.length_nil, Prod.mk.injEq,
      true_and]
    omega
  | braced code =>
    have stop := bracketEnd_braceCode code ['{'] rest (pos + 1)
    simp only [WrittenValue.print, BraceCode.print, List.cons_append, List.append_assoc,
      List.nil_append]
    rw [valuedAttribute, if_neg (by simp), if_pos rfl, stop]
    simp only [WrittenAttribute.attribute, Nat.add_sub_cancel, Nat.add_sub_cancel_left,
      List.take_left, List.length_cons, List.length_append, List.length_nil, Prod.mk.injEq,
      true_and]
    omega

/-- A name with an equals sign takes the value behind it. -/
theorem namedAttribute_equals (name : Text) {value rest : Text} {given : Attribute} {pos : Nat}
    (first : ∀ c, (value ++ rest).head? = some c → isBlank c = false)
    (h : valuedAttribute name (pos + 1) (value ++ rest) = (given, pos + 1 + value.length)) :
    namedAttribute name pos ('=' :: value ++ rest) = (given, pos + ('=' :: value).length) := by
  have equals : trimStart ('=' :: (value ++ rest)) = '=' :: (value ++ rest) :=
    trimStart_eq_self (by rintro c ⟨⟩; decide)
  rw [List.cons_append, namedAttribute, equals]
  simp only [trimStart_eq_self first]
  rw [List.length_cons,
    show pos + ((value ++ rest).length + 1) - (value ++ rest).length =
      pos + 1 by omega, h, List.length_cons]
  congr 1
  omega

/-- A name is read together with the piece behind it that its attribute takes. -/
theorem attributesFrom_name (name : TagName) {piece rest : Text} {given : Attribute} {pos : Nat}
    (stop : ∀ c, (piece ++ rest).head? = some c → isTagNameChar c = false)
    (h : namedAttribute name.text (pos + name.text.length) (piece ++ rest) =
      (given, pos + name.text.length + piece.length)) :
    attributesFrom pos 0 (name.text ++ (piece ++ rest)) =
      given :: attributesFrom (pos + name.text.length + piece.length) 0 rest := by
  obtain ⟨c, cs, hname, hc⟩ := name.eq_cons
  have named : tagName (name.text ++ (piece ++ rest)) = name.text := tagName_append name.valid stop
  have skip := attributesFrom_skip rest (cs ++ piece) (pos + 1)
  have hlen : pos + name.text.length + piece.length = pos + 1 + (cs ++ piece).length := by
    simp only [hname, List.length_append, List.length_cons]
    omega
  have brace : c ≠ '{' := by
    rintro rfl
    exact absurd hc (by decide)
  conv_lhs => rw [hname, List.cons_append, attributesFrom, if_neg (Nat.not_lt_zero _), if_neg brace,
    if_pos hc]
  rw [← List.cons_append, ← hname, named]
  dsimp only
  rw [List.drop_left, h, hlen]
  dsimp only
  rw [← List.append_assoc, skip]

/-- A space, a name and a value are read as one attribute. -/
theorem attributesFrom_valued (name : TagName) {value rest : Text} {given : Attribute}
    (first : ∀ c, (value ++ rest).head? = some c → isBlank c = false)
    (h : ∀ pos, valuedAttribute name.text pos (value ++ rest) = (given, pos + value.length))
    (pos : Nat) :
    attributesFrom pos 0 (' ' :: name.text ++ '=' :: value ++ rest) =
      given :: attributesFrom (pos + (' ' :: name.text ++ '=' :: value).length) 0 rest := by
  have read := namedAttribute_equals name.text first (h (pos + 1 + name.text.length + 1))
  rw [List.append_assoc, List.cons_append, attributesFrom, if_neg (Nat.not_lt_zero _),
    if_neg (by decide), if_neg (by decide), attributesFrom_name name (by rintro c ⟨⟩; decide) read]
  congr 2
  simp only [List.length_cons, List.length_append]
  omega

/-- A printed attribute is read back. -/
theorem attributesFrom_print (given : WrittenAttribute) (rest : Text) (pos : Nat) :
    attributesFrom pos 0 (given.print ++ rest) =
      given.attribute :: attributesFrom (pos + given.print.length) 0 rest := by
  refine attributesFrom_valued given.name (fun c hc => ?_) (valuedAttribute_print given rest) pos
  cases h : given.value with
  | quoted value =>
    obtain rfl : '"' = c := by simpa [h, WrittenValue.print] using hc
    decide
  | braced code =>
    obtain rfl : '{' = c := by simpa [h, WrittenValue.print, BraceCode.print] using hc
    decide

/-- Printed attributes are read back in order. -/
theorem attributesFrom_printAttributes (rest : Text) :
    ∀ (attributes : List WrittenAttribute) (pos : Nat),
      attributesFrom pos 0 (printAttributes attributes ++ rest) =
        attributes.map WrittenAttribute.attribute
          ++ attributesFrom (pos + (printAttributes attributes).length) 0 rest
  | [], _ => rfl
  | given :: attributes, pos => by
    have ih := attributesFrom_printAttributes rest attributes (pos + given.print.length)
    rw [printAttributes] at ih ⊢
    rw [List.flatMap_cons, List.append_assoc, attributesFrom_print, ih, List.map_cons,
      List.cons_append, List.length_append, Nat.add_assoc]

theorem recastAttributes_print (attributes : List WrittenAttribute) :
    recastAttributes (printAttributes attributes) = recastWritten attributes := by
  have h := attributesFrom_printAttributes [] attributes 0
  simp only [List.append_nil, attributesFrom] at h
  rw [recastAttributes, readAttributes, h, List.map_map]
  rfl

theorem recastAttributes_print_blank (attributes : List WrittenAttribute) :
    recastAttributes (printAttributes attributes ++ [' ']) = recastWritten attributes := by
  have h := attributesFrom_printAttributes [' '] attributes 0
  have blank : ∀ pos, attributesFrom pos 0 [' '] = [] := by
    intro pos
    rw [attributesFrom, if_neg (Nat.not_lt_zero _), if_neg (by decide), if_neg (by decide),
      attributesFrom]
  rw [blank, List.append_nil] at h
  rw [recastAttributes, readAttributes, h, List.map_map]
  rfl

/-! ## Expressions without markup -/

theorem embeddedElements_eq_nil :
    ∀ (t behind : Text) (pos resume : Nat), '<' ∉ t → embeddedElements behind pos resume t = []
  | [], _, _, _, _ => rfl
  | c :: cs, behind, pos, resume, h => by
    simp only [List.mem_cons, not_or] at h
    have ih := fun behind pos resume => embeddedElements_eq_nil cs behind pos resume h.2
    rw [embeddedElements]
    simp only [ih, Ne.symm h.1, decide_false, Bool.false_and, Bool.false_eq_true, if_false,
      ite_self]

/-- Code without a `<` stays as it is. -/
theorem recastEmbedded_eq_pure {code : Text} (h : '<' ∉ code) :
    recastEmbedded code = pure code := by
  rw [recastEmbedded, embeddedElements_eq_nil code [] 0 0 h]
  rfl

theorem callbackMarkup_eq_none {body : Text} (h : '<' ∉ body) : callbackMarkup body = .ok none := by
  induction hn : body.length using Nat.strongRecOn generalizing body with
  | ind n ih =>
    cases body with
    | nil => rw [callbackMarkup]
    | cons c rest =>
      simp only [List.mem_cons, not_or] at h
      rw [callbackMarkup, if_neg (Ne.symm h.1)]
      split
      · rfl
      · rename_i stop _
        have inner : '<' ∉ slice rest 0 (stop - 2) := fun hm => h.2 (mem_of_mem_slice hm)
        dsimp only
        split
        · have first : (trim (slice rest 0 (stop - 2))).head? ≠ some '<' := fun hm =>
            inner (mem_of_mem_trim (List.mem_of_head? hm))
          rw [if_neg first]
        · split
          · split
            · rename_i statement _
              have := length_trim_le ((slice rest 0 (stop - 2)).drop statement.stop)
              have := (List.drop_sublist statement.stop (slice rest 0 (stop - 2))).length_le
              have := length_slice_le rest 0 (stop - 2)
              refine ih _ ?_ (fun hm => inner (List.mem_of_mem_drop (mem_of_mem_trim hm))) rfl
              rw [List.length_cons] at hn
              omega
            · rfl
          · rfl

theorem mem_of_arrowParams? {t params rest : Text} (h : arrowParams? t = some (params, rest))
    {c : Char} (hc : c ∈ rest) : c ∈ t := by
  rw [arrowParams?.eq_def] at h
  split at h
  · simp at h
  · rename_i d cs
    split at h
    · obtain ⟨⟨inner, after⟩, hcut, he⟩ := Option.map_eq_some_iff.1 h
      obtain ⟨rfl, rfl⟩ := Prod.mk.inj he
      rw [eq_append_of_cutAt? hcut]
      simp [hc]
    · split at h
      · simp only [Option.some.injEq, Prod.mk.injEq] at h
        exact mem_of_mem_dropWhile (h.2 ▸ hc)
      · simp at h

theorem mem_of_arrowHead? {t params body : Text} (h : arrowHead? t = some (params, body)) {c : Char}
    (hc : c ∈ body) : c ∈ t := by
  rw [arrowHead?] at h
  split at h
  · simp at h
  · rename_i found rest hp
    obtain ⟨after, ha, he⟩ := Option.map_eq_some_iff.1 h
    obtain ⟨rfl, rfl⟩ := Prod.mk.inj he
    have hrest : c ∈ trimStart rest := by
      rw [eq_append_of_dropHead? ha]
      exact List.mem_append_right _ (mem_of_mem_trimStart hc)
    exact mem_of_mem_trimStart (mem_of_arrowParams? hp (mem_of_mem_trimStart hrest))

/-- Code without a `<` holds no rendered list. -/
theorem listCall?_eq_none {t : Text} (h : '<' ∉ t) : listCall? t = .ok none := by
  rw [listCall?]
  split
  · rfl
  · dsimp only
    split
    · rfl
    · split
      · rfl
      · split
        · rfl
        · rename_i head params body harrow
          have clean : '<' ∉ trim body :=
            fun hm => h (mem_of_mem_slice (mem_of_arrowHead? harrow (mem_of_mem_trim hm)))
          rw [callbackMarkup_eq_none clean]
          rfl

theorem recastExpression_eq_pure {t : Text} (h : '<' ∉ t) : recastExpression t = pure t := by
  rw [recastExpression]
  split
  · rename_i fault hf
    simp [listCall?_eq_none h] at hf
  · exact recastEmbedded_eq_pure h
  · rename_i call hc
    simp [listCall?_eq_none h] at hc

theorem containsMarkupFrom_eq_false :
    ∀ (t behind : Text) (pos resume : Nat), '<' ∉ t → containsMarkupFrom behind pos resume t = false
  | [], _, _, _, _ => rfl
  | c :: cs, behind, pos, resume, h => by
    simp only [List.mem_cons, not_or] at h
    have ih := fun behind pos resume => containsMarkupFrom_eq_false cs behind pos resume h.2
    have hc : (c == '<') = false := by simp [Ne.symm h.1]
    rw [containsMarkupFrom]
    simp only [ih, hc, Bool.false_and, Bool.or_self]
    split
    · rfl
    · split
      · rfl
      · split <;> rfl

theorem BraceCode.not_mem_text (code : BraceCode) : '<' ∉ code.text := fun h =>
  absurd (code.plain '<' h) (by decide)

/-! ## Units -/

theorem Element.getLast?_print (t : Element) : t.print.getLast? = some '>' := by
  cases t with
  | paired tag children =>
    have close : closingTag tag.name = '<' :: '/' :: tag.name ++ ['>'] := rfl
    rw [Element.print, close, ← List.append_assoc, List.getLast?_concat]
  | selfClosing name attributes => simp [Element.print, List.getLast?_cons]

theorem trim_element (t : Element) : trim t.print = t.print := by
  refine trim_eq_self (fun c hc => ?_) fun c hc => ?_
  · obtain rfl : '<' = c := by simpa [t.print_eq] using hc
    decide
  · obtain rfl : '>' = c := by simpa [t.getLast?_print] using hc
    decide

theorem trim_expression (code : BraceCode) : trim code.print = code.print := by
  refine trim_eq_self (fun c hc => ?_) fun c hc => ?_
  · obtain rfl : '{' = c := by simpa [BraceCode.print] using hc
    decide
  · rw [BraceCode.print, List.getLast?_concat] at hc
    obtain rfl := Option.some.inj hc
    decide

theorem trim_gap (gap : TextRun) {c : Char} {cs : Text} (h : trim gap.text = c :: cs) :
    c ≠ '<' ∧ c ≠ '{' :=
  gap.valid c (mem_of_mem_trim (h ▸ List.mem_cons_self))

/-- A run of text is no markup, and its only unit is dropped when it is blank. -/
theorem recastUnit_gap (gap : TextRun) :
    recastUnit (trim gap.text) = pure gap.values.head? := by
  rw [TextRun.values, ← isEmpty_trim]
  cases h : trim gap.text with
  | nil => rw [recastUnit]; rfl
  | cons c cs =>
    obtain ⟨h1, h2⟩ := trim_gap gap h
    rw [recastUnit, if_neg h1, if_neg (by simp [h2])]
    rfl

theorem isSilent_trim (code : BraceCode) : isSilent (trim code.text) = isBlankText code.text := by
  have comment : isCommentExpression (trim code.text) = false := by
    rw [isCommentExpression, Bool.and_eq_false_iff]
    left
    rw [startsWith, Option.isSome_eq_false_iff, Option.isNone_iff_eq_none]
    cases h : dropHead? "/*".toList (trim code.text) with
    | none => rfl
    | some rest =>
      have slash : '/' ∈ trim code.text := by
        rw [eq_append_of_dropHead? h]
        simp
      exact absurd (code.plain '/' (mem_of_mem_trim slash)) (by decide)
  rw [isSilent, comment, Bool.or_false, isEmpty_trim]

theorem recastUnit_expression (code : BraceCode) :
    recastUnit code.print = pure code.values.head? := by
  have last : (code.text ++ ['}']).getLast? = some '}' := by simp
  rw [BraceCode.print, List.cons_append, recastUnit, if_neg (by decide), if_pos (by simp [last])]
  simp only [List.dropLast_concat, isSilent_trim, BraceCode.values]
  split
  · rfl
  · rw [recastExpression_eq_pure fun h => code.not_mem_text (mem_of_mem_trim h)]
    rfl

theorem recastUnit_element (t : Element) :
    recastUnit t.print = some <$> recastElement t.inside := by
  rw [t.print_eq, recastUnit, if_pos rfl]

/-! ## Text content -/

theorem isMarkupUnit_gap (gap : TextRun) : isMarkupUnit (trim gap.text) = false := by
  cases h : trim gap.text with
  | nil => rfl
  | cons c cs =>
    obtain ⟨h1, h2⟩ := trim_gap gap h
    rw [isMarkupUnit.eq_def]
    split
    · simp_all
    · simp_all
    · rfl

theorem isMarkupUnit_expression (code : BraceCode) : isMarkupUnit code.print = false := by
  rw [BraceCode.print, List.cons_append, isMarkupUnit, List.dropLast_concat, containsMarkup,
    containsMarkupFrom_eq_false _ _ _ _ code.not_mem_text]

theorem isMarkupUnit_element (t : Element) : isMarkupUnit t.print = true := by
  rw [t.print_eq, isMarkupUnit]

/-- The units of a children text, trimmed and without the blank ones. -/
theorem splitChildren_print (t : Children) :
    splitChildren t.print = .ok ((t.units.map trim).filter (!·.isEmpty)) := by
  have spans := spans_map_of (t := t.print) t [] rfl
  rw [splitChildren, tokens_children]
  simp only [Except.map, piecesOf, childSpans_children, ← spans, List.map_map, List.length_nil]
  rfl

/-- The trimmed unit of a run of text, if it is not blank. -/
theorem units_gap (gap : TextRun) :
    (gap.units.map trim).filter (!·.isEmpty) =
      if isBlankText gap.text then [] else [trim gap.text] := by
  rw [TextRun.units]
  split
  · rename_i h
    rw [List.isEmpty_iff.1 h]
    rfl
  · cases hb : isBlankText gap.text <;> simp [isEmpty_trim, hb]

theorem any_isMarkupUnit :
    ∀ t : Children, ((t.units.map trim).filter (!·.isEmpty)).any isMarkupUnit = t.hasElement
  | .last gap => by
    rw [Children.units, units_gap, Children.hasElement]
    split <;> simp [isMarkupUnit_gap]
  | .element gap child more => by
    have kept : child.print.isEmpty = false := by simp [child.print_eq]
    simp [Children.units, Children.hasElement, trim_element, kept, isMarkupUnit_element]
  | .expression gap code more => by
    have ih := any_isMarkupUnit more
    have none : ((gap.units.map trim).filter (!·.isEmpty)).any isMarkupUnit = false := by
      rw [units_gap]
      split <;> simp [isMarkupUnit_gap]
    rw [Children.units, Children.hasElement, List.map_append, List.filter_append,
      List.any_append, none, Bool.false_or, List.map_cons, trim_expression,
      List.filter_cons_of_pos (by simp [BraceCode.print]), List.any_cons, isMarkupUnit_expression,
      Bool.false_or, ih]

theorem isEmpty_units {t : Children} (h : t.hasElement = false) :
    ((t.units.map trim).filter (!·.isEmpty)).isEmpty = t.isBlank := by
  cases t with
  | last gap =>
    rw [Children.units, units_gap, Children.isBlank]
    cases isBlankText gap.text <;> rfl
  | element gap child more => simp [Children.hasElement] at h
  | expression gap code more =>
    have kept : code.print.isEmpty = false := by simp [BraceCode.print]
    simp [Children.units, Children.isBlank, trim_expression, kept]

theorem contentPieces_gap {t : Text} (gap : TextRun) (before after : Text)
    (h : t = before ++ (gap.text ++ after)) :
    (textToken before.length (before.length + gap.text.length)).filterMap (contentPiece? t) =
      gap.pieces := by
  rw [textToken, TextRun.pieces]
  cases hg : gap.text with
  | nil => simp
  | cons c cs =>
    rw [hg] at h
    have text := slice_eq before after h rfl rfl
    simpa [contentPiece?, Token.of] using text

theorem contentPiece?_expression {t : Text} (code : BraceCode) {start : Nat}
    (h : slice t start (start + code.print.length) = code.print) :
    contentPiece? t ⟨.expression, start, start + code.print.length, []⟩ =
      (code.values.map .expression).head? := by
  rw [contentPiece?, if_pos rfl, Token.of, h, BraceCode.print, List.cons_append, List.drop_one,
    List.tail_cons, List.dropLast_concat]
  simp only [isSilent_trim, BraceCode.values]
  split <;> rfl

/-- The pieces of content are read off printed children. -/
theorem contentPieces_print {t : Text} :
    ∀ (children : Children) (before : Text), t = before ++ children.print →
      children.hasElement = false →
      (children.tokens before.length).filterMap (contentPiece? t) = children.pieces
  | .last gap, before, h, _ => contentPieces_gap gap before [] (by simpa [Children.print] using h)
  | .element gap child more, before, h, he => by simp [Children.hasElement] at he
  | .expression gap code more, before, h, he => by
    rw [Children.print, List.append_assoc] at h
    have ih := contentPieces_print (t := t) more (before ++ gap.text ++ code.print)
      (by rw [h]; simp) he
    have text : slice t (before.length + gap.text.length)
        (before.length + gap.text.length + code.print.length)
        = code.print := slice_eq (before ++ gap.text) more.print (by rw [h, List.append_assoc])
          (by simp) (by simp)
    simp only [List.length_append] at ih
    rw [Children.tokens, Children.pieces, List.filterMap_append, contentPieces_gap gap before _ h,
      List.filterMap_cons, contentPiece?_expression code text, ih, BraceCode.values]
    cases isBlankText code.text <;> simp

theorem textValue_print {children : Children} (h : children.hasElement = false) :
    textValue children.print = .ok (contentValue children.pieces) := by
  have pieces := contentPieces_print (t := children.print) children [] rfl h
  rw [List.length_nil] at pieces
  rw [textValue, tokens_children, Except.map, pieces]

/-! ## Elements -/

theorem lastClosingTag_eq_self :
    ∀ (t : Text) (pos found : Nat), '<' ∉ t → lastClosingTag pos found t = found
  | [], _, _, _ => rfl
  | c :: cs, pos, found, h => by
    simp only [List.mem_cons, not_or] at h
    rw [lastClosingTag, if_neg (by simp [Ne.symm h.1]), lastClosingTag_eq_self cs _ _ h.2]

/-- The last closing tag is the one after which no other starts. -/
theorem lastClosingTag_append {tail : Text} (h : '<' ∉ tail) :
    ∀ (t : Text) (pos found : Nat), lastClosingTag pos found (t ++ '<' :: '/' :: tail) =
      pos + t.length
  | [], pos, found => by
    rw [List.nil_append, lastClosingTag, if_pos (by simp),
      lastClosingTag_eq_self _ _ _ (by simp [h]), List.length_nil, Nat.add_zero]
  | c :: cs, pos, found => by
    rw [List.cons_append, lastClosingTag, lastClosingTag_append h cs, List.length_cons]
    omega

theorem Element.inside_paired (tag : OpeningTag) (children : Children) :
    (Element.paired tag children).inside = tag.name ++
      (printAttributes tag.attributes ++ '>' :: (children.print ++ closingTag tag.name)) := by
  simp [Element.inside, Element.print, OpeningTag.print]

theorem Element.inside_selfClosing (name : TagName) (attributes : List WrittenAttribute) :
    (Element.selfClosing name attributes).inside =
      name.text ++ (printAttributes attributes ++ [' ', '/', '>']) := by
  simp [Element.inside, Element.print]

theorem elementEndAt_print (t : Element) :
    elementEndAt ('<' :: t.inside) 0 = .ok (some t.print.length) := by
  have h := elementEnd_print t [] 0
  rwa [List.append_nil, Nat.zero_add] at h

/-- The parts of a printed element with children. -/
theorem elementParts_paired (tag : OpeningTag) (children : Children) :
    elementParts (Element.paired tag children).inside =
      .ok ⟨tag.name, printAttributes tag.attributes,
        some ⟨tag.print.length - 1, tag.print.length + children.print.length - 1⟩⟩ := by
  have hlen : tag.print.length =
      0 + 1 + tag.name.length + (printAttributes tag.attributes).length + 1 := by
    simp only [OpeningTag.print, List.length_cons, List.length_append, List.length_nil]
    omega
  have named : tagName (Element.paired tag children).inside = tag.name := by
    rw [Element.inside_paired, tagName_opening]
  have stop : tagEndAt ('<' :: (Element.paired tag children).inside) 0 =
      .ok ⟨tag.print.length, false⟩ := by
    rw [tagEndAt]
    simp only [tagNameAt, List.drop_succ_cons, List.drop_zero, named, List.headD_cons]
    rw [Element.inside_paired, tagEnd_opening tag.all_isTagNameChar, hlen]
  have attributes : slice (Element.paired tag children).inside tag.name.length
      (tag.print.length - 2) =
      printAttributes tag.attributes :=
    slice_eq tag.name _ (Element.inside_paired tag children) rfl (by omega)
  have close : lastClosingTag 0 0 (Element.paired tag children).print =
      tag.print.length + children.print.length := by
    have tail : '<' ∉ tag.name ++ ['>'] := by
      simp only [List.mem_append, List.mem_singleton, not_or]
      exact ⟨fun h => ne_of_isTagNameChar (tag.all_isTagNameChar _ h) (by decide) rfl, by decide⟩
    rw [Element.print, closingTag, lastClosingTag_append tail, List.length_append, Nat.zero_add]
  have whole : ('<' :: (Element.paired tag children).inside).take
      (Element.paired tag children).print.length =
      (Element.paired tag children).print := by
    rw [← Element.print_eq, List.take_length]
  simp only [elementParts, named, stop, bind, Except.bind, Bool.false_eq_true, if_false, attributes,
    elementEndAt_print, Option.map_some, whole, close]
  rfl

theorem elementParts_selfClosing (name : TagName) (attributes : List WrittenAttribute) :
    elementParts (Element.selfClosing name attributes).inside =
      .ok ⟨name.text, printAttributes attributes ++ [' '], some ⟨0, 0⟩⟩ := by
  have space : ∀ c, [' ', '/', '>'].head? = some c → isTagNameChar c = false := by
    rintro c ⟨⟩
    decide
  have named : tagName (Element.selfClosing name attributes).inside = name.text := by
    rw [Element.inside_selfClosing,
      tagName_append name.valid (head?_printAttributes attributes space)]
  have stop : tagEndAt ('<' :: (Element.selfClosing name attributes).inside) 0 =
      .ok ⟨0 + 1 + name.text.length + (printAttributes attributes).length + 3, true⟩ := by
    rw [tagEndAt]
    simp only [tagNameAt, List.drop_succ_cons, List.drop_zero, named, List.headD_cons]
    rw [Element.inside_selfClosing, tagEnd_selfClosing name.all_isTagNameChar]
  have given : slice (Element.selfClosing name attributes).inside name.text.length
      (0 + 1 + name.text.length + (printAttributes attributes).length + 3 - 3) =
        printAttributes attributes ++ [' '] := by
    refine slice_eq name.text ['/', '>'] ?_ rfl ?_
    · rw [Element.inside_selfClosing]
      simp
    · simp only [List.length_append, List.length_cons, List.length_nil]
      omega
  simp only [elementParts, named, stop, bind, Except.bind, if_true, given]
  rfl

/-! ## Trees -/

theorem recastChildren_print {t : Children}
    (h : List.reduceOption <$> Outcome.collect (t.units.map fun unit => recastUnit (trim unit)) =
      t.recast) :
    recastChildren t.print = childrenValue <$> t.recast := by
  have spans := spans_map_of (t := t.print) t [] rfl
  rw [recastChildren, tokens_children]
  simp only [childSpans_children]
  rw [← h, ← spans, List.map_map, Functor.map_map, bind_pure_comp]
  rfl

theorem recastCall_print (tag : Text) (kind : TagKind) (properties : Text) {children : Children}
    (h : recastChildren children.print = childrenValue <$> children.recast) :
    recastCall tag kind properties children.print =
      callFor tag kind properties children children.recast := by
  cases kind with
  | image => rw [recastCall]; rfl
  | container =>
    rw [recastCall, h]
    simp [callFor]
  | text =>
    rw [recastCall, splitChildren_print, callFor]
    simp only [any_isMarkupUnit]
    split
    · rw [h]
      simp
    · rename_i he
      rw [textValue_print (by simpa using he)]
      rfl
  | pressable =>
    rw [recastCall, splitChildren_print, callFor]
    simp only [any_isMarkupUnit]
    split
    · rw [h]
      simp
    · rename_i he
      have he : children.hasElement = false := by simpa using he
      rw [isEmpty_units he, textValue_print he]
      split <;> rfl

/-- A run of text gives its values to the children around it. -/
theorem recastUnits_gap (gap : TextRun) :
    ∃ found, Outcome.collect (gap.units.map fun unit => recastUnit (trim unit)) = pure found ∧
      found.reduceOption = gap.values := by
  rw [TextRun.units]
  cases h : gap.text with
  | nil =>
    refine ⟨[], rfl, ?_⟩
    rw [TextRun.values, h]
    rfl
  | cons c cs =>
    refine ⟨[gap.values.head?], ?_, ?_⟩
    · rw [← h, if_neg (by simp [h]), List.map_singleton, recastUnit_gap]
      rfl
    · rw [TextRun.values]
      split <;> rfl

theorem recastUnits_last (gap : TextRun) :
    List.reduceOption <$> Outcome.collect
      ((Children.last gap).units.map fun unit => recastUnit (trim unit)) =
      (Children.last gap).recast := by
  obtain ⟨found, hf, hv⟩ := recastUnits_gap gap
  rw [Children.units, hf, map_pure, hv, Children.recast]

/-- What is between the tags of a printed element. -/
theorem span_of_paired (tag : OpeningTag) (children : Children) :
    Span.of ⟨tag.print.length - 1, tag.print.length + children.print.length - 1⟩
      (Element.paired tag children).inside =
      children.print := by
  refine slice_eq (tag.name ++ (printAttributes tag.attributes ++ ['>'])) (closingTag tag.name)
    ?_ ?_ ?_
  · rw [Element.inside_paired]
    simp
  · simp [OpeningTag.print]
  · simp only [OpeningTag.print, List.length_cons, List.length_append, List.length_nil]
    omega

theorem recastElement_paired (tag : OpeningTag) (children : Children)
    (h : recastChildren children.print = childrenValue <$> children.recast) :
    recastElement (Element.paired tag children).inside = (Element.paired tag children).recast := by
  rw [recastElement, elementParts_paired, Element.recast, recastTag, Element.print_eq]
  cases hr : tagRule? tag.name with
  | none => simp only [hr]
  | some rule =>
    simp only [hr, span_of_paired, recastAttributes_print, recastCall_print _ _ _ h]

theorem recastElement_selfClosing (name : TagName) (attributes : List WrittenAttribute) :
    recastElement (Element.selfClosing name attributes).inside =
      (Element.selfClosing name attributes).recast := by
  have call := fun kind properties =>
    recastCall_print name.text kind properties
      (recastChildren_print (recastUnits_last ⟨[], by simp⟩))
  rw [recastElement, elementParts_selfClosing, Element.recast, recastTag, Element.print_eq]
  cases hr : tagRule? name.text with
  | none => simp only [hr]
  | some rule =>
    have none : Span.of ⟨0, 0⟩ (Element.selfClosing name attributes).inside = [] := by
      simp [Span.of, slice]
    simp only [hr, recastAttributes_print_blank, none]
    simp only [Children.print, Children.recast] at call
    simp only [call]
    rfl

mutual

/-- The text of an element becomes what the element becomes. -/
theorem recastElement_print : ∀ t : Element, recastElement t.inside = t.recast
  | .paired tag children =>
    recastElement_paired tag children (recastChildren_print (recastUnits_print children))
  | .selfClosing name attributes => recastElement_selfClosing name attributes

/-- The units of children become what the children become. -/
theorem recastUnits_print :
    ∀ t : Children, List.reduceOption <$> Outcome.collect
      (t.units.map fun unit => recastUnit (trim unit)) = t.recast
  | .last gap => recastUnits_last gap
  | .element gap child more => by
    obtain ⟨found, hf, hv⟩ := recastUnits_gap gap
    rw [Children.units, Children.recast, List.map_append, List.map_cons, Outcome.collect_append,
      Outcome.collect_cons, hf, trim_element, recastUnit_element, recastElement_print child,
      ← recastUnits_print more, ← hv]
    simp [List.reduceOption_append, List.reduceOption_cons_of_some]
  | .expression gap code more => by
    obtain ⟨found, hf, hv⟩ := recastUnits_gap gap
    have value : ∀ units, (code.values.head? :: units).reduceOption =
        code.values ++ units.reduceOption := by
      intro units
      rw [BraceCode.values]
      split <;> rfl
    rw [Children.units, Children.recast, List.map_append, List.map_cons, Outcome.collect_append,
      Outcome.collect_cons, hf, trim_expression, recastUnit_expression,
      ← recastUnits_print more, ← hv]
    simp [List.reduceOption_append, value]

end

/-! ## Whole texts -/

theorem constructorCall_ne_nil (constructor : Text) (parts : List Text) :
    constructorCall constructor parts ≠ [] := by
  rw [constructorCall]
  split <;> simp

theorem callFor_ensures (tag : Text) (kind : TagKind) (properties : Text) (children : Children)
    (values : Outcome (List Text)) :
    (callFor tag kind properties children values).Ensures (· ≠ []) := by
  have call : ∀ constructor parts,
      (pure (constructorCall constructor parts) : Outcome Text).Ensures (· ≠ []) :=
    fun constructor parts => Outcome.ensures_pure (constructorCall_ne_nil constructor parts)
  cases kind with
  | image => exact call _ _
  | container => exact Outcome.ensures_bind fun _ => call _ _
  | text =>
    rw [callFor]
    split
    · exact Outcome.ensures_bind fun _ => Outcome.ensures_bind fun _ => call _ _
    · exact call _ _
  | pressable =>
    rw [callFor]
    split
    · exact Outcome.ensures_bind fun _ => call _ _
    · split
      · exact call _ _
      · exact call _ _

theorem recastTag_ensures {written : Text} (h : written ≠ []) (tag : Text)
    (attributes : List WrittenAttribute) (children : Children) (values : Outcome (List Text)) :
    (recastTag written tag attributes children values).Ensures (· ≠ []) := by
  rw [recastTag]
  split
  · exact Outcome.ensures_bind fun _ => Outcome.ensures_pure h
  · rename_i rule _
    refine Outcome.ensures_bind fun _ => Outcome.ensures_bind fun properties =>
      Outcome.ensures_bind fun _ => ?_
    refine (callFor_ensures tag rule.kind properties children values).bind fun call hc =>
      Outcome.ensures_pure ?_
    cases rule.comment? with
    | none => exact hc
    | some comment => simp [annotated]

/-- No element becomes an empty text. -/
theorem Element.recast_ensures (t : Element) : t.recast.Ensures (· ≠ []) := by
  cases t with
  | paired tag children => exact recastTag_ensures (by simp [Element.print_eq]) _ _ _ _
  | selfClosing name attributes => exact recastTag_ensures (by simp [Element.print_eq]) _ _ _ _

/-- Markup text becomes what its tree becomes: the same value, and the same journal on the way. -/
theorem recastMarkup_print (t : Element) : recastMarkup t.print = t.recast := by
  -- An element alone is the only one of the children of a text.
  have text : t.print = (Children.element ⟨[], by simp⟩ t (.last ⟨[], by simp⟩)).print := by
    simp [Children.print]
  have alone : (Children.element ⟨[], by simp⟩ t (.last ⟨[], by simp⟩)).recast =
      (fun value => [value]) <$> t.recast := by
    simp [Children.recast, TextRun.values, isBlankText]
  have children : recastChildren t.print = t.recast := by
    rw [text, recastChildren_print (recastUnits_print _), alone, Functor.map_map]
    exact id_map _
  rw [recastMarkup, trim_element, children]
  simp only [t.print_eq, List.isEmpty_cons, List.contains_cons, beq_self_eq_true, Bool.true_or,
    Bool.not_true, Bool.false_eq_true, if_false]
  refine Outcome.bind_eq_self fun value hv => ?_
  have kept : ¬ List.isEmpty value := by simpa using t.recast_ensures value hv
  simp only [if_neg kept]

end Recast
