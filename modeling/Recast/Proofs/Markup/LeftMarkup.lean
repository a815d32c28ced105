import Recast.Proofs.Markup.TreeRecast
import Recast.Proofs.Scan.MarkupSearch

/-!
# Markup that is left over

An element of an unknown tag is left as written, and a warning says so. In what becomes of a tree
such an element is all the markup that there is: everything else of a call is plain code, a quoted
text, a comment or a template literal. So what an element becomes holds markup just if its journal
has the warning (`Element.yields`), and so does what a whole markup text becomes
(`yields_recastMarkup`).

Two kinds of attributes are written into a call without a quote around them, and have to be
`WrittenAttribute.Tame`: a class, which stands in a comment that it could end, and the keys of a
style.
-/

namespace Recast

/-! ## Warnings of left markup -/

/-- Whether the warning says that an element is left as written. -/
def Warning.leavesMarkup : Warning → Bool
  | .unmatchedTag _ => true
  | .unsupportedElement _ => true
  | _ => false

/-- Whether a warning of the journal says that an element is left as written. -/
def Journal.leavesMarkup (journal : Journal) : Bool :=
  journal.warnings.any Warning.leavesMarkup

theorem leavesMarkup_append (a b : Journal) :
    Journal.leavesMarkup (a ++ b) = (a.leavesMarkup || b.leavesMarkup) := by
  simp [Journal.leavesMarkup, Journal.warnings]

namespace Outcome

variable {α β : Type}

/-- The outcome ends with a value, of which the property holds together with what its journal says
of left markup. -/
def Yields (P : Bool → α → Prop) (x : Outcome α) : Prop :=
  ∃ a, x.result = .ok a ∧ P x.journal.leavesMarkup a

theorem yields_pure {P : Bool → α → Prop} {a : α} (h : P false a) : (pure a : Outcome α).Yields P :=
  ⟨a, rfl, h⟩

theorem Yields.bind {P : Bool → β → Prop} {Q : Bool → α → Prop} {x : Outcome α} {f : α → Outcome β}
    (hx : x.Yields Q)
    (hf : ∀ left a, Q left a → (f a).Yields fun more b => P (left || more) b) :
    (x >>= f).Yields P := by
  obtain ⟨a, ha, hq⟩ := hx
  obtain ⟨b, hb, hp⟩ := hf _ a hq
  refine ⟨b, ?_, ?_⟩
  · rw [bind_of_ok ha]
    exact hb
  · rw [bind_of_ok ha, leavesMarkup_append]
    exact hp

theorem yields_warn (warning : Warning) :
    (warn warning).Yields fun left _ => left = warning.leavesMarkup :=
  ⟨(), rfl, by simp [warn, note, Journal.leavesMarkup, Journal.warnings]⟩

/-- A list of outcomes without left markup. -/
theorem yields_collect {P : α → Prop} :
    ∀ {xs : List (Outcome α)}, (∀ x ∈ xs, x.Yields fun left a => left = false ∧ P a) →
    (collect xs).Yields fun left as => left = false ∧ ∀ a ∈ as, P a
  | [], _ => yields_pure ⟨rfl, by simp⟩
  | x :: xs, h => by
    rw [collect_cons]
    refine (h x (by simp)).bind ?_
    rintro _ a ⟨rfl, ha⟩
    refine (yields_collect fun y hy => h y (by simp [hy])).bind ?_
    rintro _ as ⟨rfl, has⟩
    exact yields_pure ⟨rfl, by simpa using ⟨ha, has⟩⟩

end Outcome

/-! ## Attributes -/

/-- An attribute that leaves no code of its own in a call: a class does not end its comment, and the
keys of a style are plain. -/
def WrittenAttribute.Tame (given : WrittenAttribute) : Prop :=
  match given.value, attributeRule? given.name.text with
  | .quoted value, some .placeholder => endsComment value.text = false
  | .quoted value, some .style =>
    ∀ declaration ∈ splitOn ';' value.text, ∀ parts, cutAt? ':' declaration = some parts →
      ∀ c ∈ camelCase parts.1, isPlainCode c
  | _, _ => True

theorem isPlainCode_of_isTagNameChar {c : Char} (h : isTagNameChar c) : isPlainCode c := by
  have differs : ∀ d, isTagNameChar d = false → c ≠ d := fun d hd => ne_of_isTagNameChar h hd
  simp [isPlainCode, isQuote, differs '\'' (by decide), differs '"' (by decide),
    differs '`' (by decide), differs '/' (by decide), differs '<' (by decide)]

theorem TagName.carries (name : TagName) : Carries false name.text :=
  carries_plain fun c hc => isPlainCode_of_isTagNameChar (name.all_isTagNameChar c hc)

theorem BraceCode.carries_trim (code : BraceCode) : Carries false (trim code.text) :=
  carries_plain fun c hc => code.plain c (mem_of_mem_trim hc)

theorem WrittenAttribute.carries_code (given : WrittenAttribute) :
    Carries false given.attribute.code := by
  obtain ⟨name, value⟩ := given
  cases value with
  | quoted value => exact carries_quote value.text
  | braced code => exact code.carries_trim

theorem carries_keyed {key value : Text} (hk : Carries false key) (hv : Carries false value)
    (slot : Slot) : ∀ property ∈ keyed slot key value, Carries false property.text := by
  intro property hm
  obtain rfl := List.mem_singleton.1 hm
  exact (hk.append (carries_plain (by decide))).append hv

theorem endsComment_eq_false : ∀ {t : Text}, '/' ∉ t → endsComment t = false
  | [], _ => rfl
  | c :: cs, h => by
    simp only [List.mem_cons, not_or] at h
    have first : (cs.head? == some '/') = false := by
      rw [beq_eq_false_iff_ne]
      exact fun hs => h.2 (List.mem_of_mem_head? hs)
    rw [endsComment, first, endsComment_eq_false h.2, Bool.and_false, Bool.or_false]

/-- Text around a value that ends no comment does not end one either. -/
theorem endsComment_around {before value after : Text} (hb : '*' ∉ before)
    (hv : endsComment value = false)
    (ha : endsComment after = false) (first : after.head? ≠ some '/') :
    endsComment (before ++ value ++ after) = false := by
  rw [List.append_assoc, endsComment_append_plain hb, endsComment_append first, hv, ha]
  rfl

/-- A comment around a value that does not end it. -/
theorem carries_comment_around {before value after : Text} (hb : '*' ∉ before)
    (hv : endsComment value = false)
    (ha : endsComment after = false) (first : after.head? ≠ some '/') :
    Carries false ("/*".toList ++ before ++ value ++ (after ++ "*/".toList)) := by
  have comment := carries_comment (endsComment_around hb hv ha first)
  rwa [← List.append_assoc, ← List.append_assoc, List.append_assoc _ after] at comment

/-- The placeholder of a class that ends no comment is one comment. -/
theorem classPlaceholder_eq {value : Text} (h : endsComment value = false) :
    ∃ note, endsComment note = false ∧
      classPlaceholder value = "/*".toList ++ note ++ "*/".toList := by
  have opening : "/* TODO: Convert className \"".toList =
      "/*".toList ++ " TODO: Convert className \"".toList := by
    decide +kernel
  have closing : "\" to Horizon style */".toList =
      "\" to Horizon style ".toList ++ "*/".toList := by decide +kernel
  have quiet : endsComment
      (" TODO: Convert className \"".toList ++ value ++ "\" to Horizon style ".toList) = false :=
    endsComment_around (by decide) h (by decide) (by decide)
  refine ⟨_, quiet, ?_⟩
  unfold classPlaceholder
  rw [opening, closing, List.append_assoc, List.append_assoc, List.append_assoc, List.append_assoc,
    List.append_assoc]

theorem carries_classPlaceholder {value : Text} (h : endsComment value = false) :
    Carries false (classPlaceholder value) := by
  obtain ⟨note, quiet, same⟩ := classPlaceholder_eq h
  rw [same]
  exact carries_comment quiet

theorem carries_styleObject {css : Text}
    (h : ∀ declaration ∈ splitOn ';' css, ∀ parts, cutAt? ':' declaration = some parts →
    ∀ c ∈ camelCase parts.1, isPlainCode c) : Carries false (styleObject css) := by
  have entries : ∀ entry ∈ (splitOn ';' css).filterMap styleProperty?, Carries false entry := by
    intro entry hm
    obtain ⟨declaration, hd, he⟩ := List.mem_filterMap.1 hm
    rw [styleProperty?] at he
    split at he
    · rename_i property value cut
      obtain ⟨-, made⟩ := Option.ite_none_left_eq_some.1 he
      obtain rfl := Option.some.inj made
      exact ((carries_plain (h declaration hd _ cut)).append (carries_plain (by decide))).append
        (carries_quote _)
    · simp at he
  have leads : Leads "\x7b ".toList := ⟨carries_plain (by decide), fun _ => rfl⟩
  rw [styleObject]
  split
  · exact carries_plain (by decide)
  · rename_i kept
    exact (leads.append (ReadsAll.of_carries entries).joinComma).append (carries_plain (by decide))

/-- Property texts that hold no markup, with a journal that tells of none. -/
def Calm (left : Bool) (properties : List Property) : Prop :=
  left = false ∧ ∀ property ∈ properties, Carries false property.text

theorem calm_keyed {key value : Text} (hk : Carries false key) (hv : Carries false value)
    (slot : Slot) : (pure (keyed slot key value) : Outcome (List Property)).Yields Calm :=
  Outcome.yields_pure ⟨rfl, carries_keyed hk hv slot⟩

/-- The name under which the rule lets an attribute go on; empty if it has none. -/
def AttributeRule.target : AttributeRule → Text
  | .rename target => target
  | _ => []

theorem carries_target {name : Text} {rule : AttributeRule} (h : attributeRule? name = some rule) :
    Carries false rule.target := by
  have all : ∀ entry ∈ attributeRules, ∀ c ∈ entry.2.target, isPlainCode c := by decide
  obtain ⟨before, after, he, -⟩ := List.lookup_eq_some_iff.1 h
  refine carries_plain (all (name, rule) ?_)
  rw [he]
  simp

/-- A tame attribute becomes properties without markup. -/
theorem WrittenAttribute.Tame.yields {given : WrittenAttribute} (h : given.Tame) :
    (recastAttribute given.attribute).Yields Calm := by
  have code := given.carries_code
  have named : recastAttribute given.attribute = recastNamed given.name.text given.attribute := by
    obtain ⟨name, value⟩ := given
    cases value <;> rfl
  rw [named, recastNamed]
  split
  · exact calm_keyed given.name.carries code _
  · rename_i rule
    have value : endsComment given.attribute.value = false := by
      rw [WrittenAttribute.Tame, rule] at h
      obtain ⟨name, value⟩ := given
      cases value with
      | quoted value => exact h
      | braced inner =>
        exact endsComment_eq_false fun hm =>
          absurd (inner.plain '/' (mem_of_mem_trim hm)) (by decide)
    refine (Outcome.yields_warn _).bind ?_
    rintro _ _ rfl
    refine Outcome.yields_pure ⟨rfl, fun property hm => ?_⟩
    obtain rfl := List.mem_singleton.1 hm
    exact carries_classPlaceholder value
  · rename_i rule
    have value : Carries false (styleValue given.attribute) := by
      rw [WrittenAttribute.Tame, rule] at h
      obtain ⟨name, value⟩ := given
      cases value with
      | quoted value => exact carries_styleObject h
      | braced _ => exact code
    exact calm_keyed (carries_plain (by decide)) value _
  · exact calm_keyed (carries_plain (by decide)) code _
  · rename_i target rule
    exact calm_keyed (carries_target rule) code _
  · refine (Outcome.yields_warn _).bind ?_
    rintro _ _ rfl
    exact ⟨[], rfl, rfl, by simp⟩

/-- Tame attributes become a property list without markup. -/
theorem yields_recastWritten {attributes : List WrittenAttribute}
    (h : ∀ given ∈ attributes, given.Tame) :
    (recastWritten attributes).Yields fun left properties => left = false ∧
      Reads false properties := by
  have each : (Outcome.collect (attributes.map fun given => recastAttribute given.attribute)).Yields
      fun left found =>
        left = false ∧ ∀ properties ∈ found, ∀ property ∈ properties,
          Carries false property.text := by
    refine Outcome.yields_collect fun x hx => ?_
    obtain ⟨given, hg, rfl⟩ := List.mem_map.1 hx
    exact (h given hg).yields
  refine each.bind ?_
  rintro _ found ⟨rfl, hf⟩
  refine Outcome.yields_pure ⟨rfl, ReadsAll.joinComma (ReadsAll.of_carries fun text hm => ?_)⟩
  have kept : ∀ slot, text ∈ inSlot slot found.flatten → Carries false text := by
    intro slot hs
    obtain ⟨property, hp, rfl⟩ := List.mem_map.1 hs
    obtain ⟨properties, hl, hm⟩ := List.mem_flatten.1 (List.mem_filter.1 hp).1
    exact hf properties hl property hm
  simp only [List.mem_append] at hm
  rcases hm with ((hm | hm) | hm) | hm
  · exact kept _ hm
  · exact kept _ hm
  · exact kept _ hm
  · exact kept _ hm

/-! ## Calls -/

theorem ReadsAll.filter {found : Bool} {parts : List Text} (h : ReadsAll found parts) :
    ReadsAll found (parts.filter (!·.isEmpty)) := by
  induction h with
  | nil => exact .nil
  | @cons a b value values first _ ih =>
    cases value with
    | nil =>
      rw [first.eq_false]
      exact ih
    | cons c cs => exact .cons first ih

/-- A call holds the markup of its parts. -/
theorem carries_constructorCall (kind : TagKind) {found : Bool} {parts : List Text}
    (h : ReadsAll found parts) : Carries found (constructorCall kind.constructor parts) := by
  have name : ∀ c ∈ kind.constructor, isPlainCode c := by cases kind <;> decide
  have kept := h.filter
  rw [constructorCall]
  split
  · rename_i none
    rw [none] at kept
    cases kept
    exact (carries_plain name).append (carries_plain (by decide))
  · rename_i present _
    have brace : Leads "(\x7b ".toList := ⟨carries_plain (by decide), fun _ => rfl⟩
    have call := ((brace.prepend (carries_plain name)).append kept.joinComma).append
      (carries_plain (t := " \x7d)".toList) (by decide))
    rwa [Bool.or_false] at call

theorem reads_childrenValue {found : Bool} {values : List Text} (h : ReadsAll found values) :
    Reads found (childrenValue values) := by
  cases h with
  | nil => exact carries_nil.reads
  | @cons a b value values first rest =>
    cases values with
    | nil =>
      cases rest
      simpa [childrenValue] using first
    | cons next values =>
      have list := (leads_bracket.append (ReadsAll.cons first rest).joinComma).append
        (carries_plain (t := "]".toList) (by decide))
      rw [Bool.or_false] at list
      exact list.reads

/-- The part of a call that holds the children. -/
theorem carries_childrenPart {found : Bool} {values : List Text} (h : ReadsAll found values) :
    Carries found (childrenPart (childrenValue values)) := by
  have label : Leads "children: ".toList := ⟨carries_plain (by decide), fun _ => rfl⟩
  have value := reads_childrenValue h
  rw [childrenPart]
  split
  · rename_i empty
    rw [List.isEmpty_iff.1 empty] at value
    rw [value.eq_false]
    exact carries_nil
  · exact label.append value

/-! ## Text content -/

/-- A piece of content that has its own braces only. -/
def ContentPiece.IsPlain : ContentPiece → Prop
  | .literal t => '{' ∉ t
  | .expression t => (∀ c ∈ t, isPlainCode c) ∧ closesFrom .curly 0 t

theorem closesFrom_append_blank (kind : Bracket) {blanks : Text} (h : isBlankText blanks) (t : Text)
    (depth : Nat) : closesFrom kind depth (blanks ++ t) = closesFrom kind depth t := by
  have opener : isBlank kind.opener = false := by cases kind <;> decide
  have closer : isBlank kind.closer = false := by cases kind <;> decide
  induction blanks with
  | nil => rfl
  | cons c blanks ih =>
    rw [isBlankText, List.all_cons, Bool.and_eq_true] at h
    have ho : c ≠ kind.opener := fun hc => by simp [hc, opener] at h
    have hc : c ≠ kind.closer := fun hc => by simp [hc, closer] at h
    rw [List.cons_append, closesFrom, if_neg ho, if_neg hc, ih h.2]

theorem closesFrom_blank_end {kind : Bracket} {blanks : Text} (h : isBlankText blanks) :
    ∀ (t : Text) (depth : Nat), closesFrom kind depth (t ++ blanks) = closesFrom kind depth t
  | [], depth => by
    have only := closesFrom_append_blank kind h [] depth
    rwa [List.append_nil] at only
  | c :: cs, depth => by
    rw [List.cons_append, closesFrom, closesFrom, closesFrom_blank_end h, closesFrom_blank_end h,
      closesFrom_blank_end h]

/-- Blanks at the ends close no bracket. -/
theorem closesFrom_trim (kind : Bracket) (t : Text) (depth : Nat) :
    closesFrom kind depth (trim t) = closesFrom kind depth t := by
  obtain ⟨before, after, hb, ha, same⟩ := exists_append_trim t
  conv_rhs => rw [same, closesFrom_blank_end ha, closesFrom_append_blank kind hb]

theorem TextRun.isPlain (gap : TextRun) : ∀ piece ∈ gap.pieces, piece.IsPlain := by
  rw [TextRun.pieces]
  split
  · simp
  · intro piece hm
    obtain rfl := List.mem_singleton.1 hm
    exact fun hb => (gap.valid _ hb).2 rfl

theorem Children.isPlain (children : Children) : ∀ piece ∈ children.pieces, piece.IsPlain := by
  cases children with
  | last gap => exact gap.isPlain
  | element gap child rest =>
    intro piece hm
    rcases List.mem_append.1 hm with hm | hm
    · exact gap.isPlain piece hm
    · exact rest.isPlain piece hm
  | expression gap code rest =>
    intro piece hm
    rcases List.mem_append.1 hm with hm | hm
    · rcases List.mem_append.1 hm with hm | hm
      · exact gap.isPlain piece hm
      · obtain ⟨value, hv, rfl⟩ := List.mem_map.1 hm
        rw [BraceCode.values] at hv
        split at hv
        · simp at hv
        · obtain rfl := List.mem_singleton.1 hv
          exact ⟨fun c hc => code.plain c (mem_of_mem_trim hc),
            by rw [closesFrom_trim]; exact code.closed⟩
    · exact rest.isPlain piece hm

/-- Of the blanks of a text only spaces are left. -/
theorem mem_of_mem_collapseBlanks {t : Text} {c : Char} (h : c ∈ collapseBlanks t) :
    c ∈ t ∧ isBlank c = false ∨ c = ' ' := by
  fun_induction collapseBlanks t with
  | case1 => simp at h
  | case2 => grind
  | case3 => grind
  | case4 => grind
  | case5 => grind

theorem isTemplate_escapeTemplate {t : Text} (h : '{' ∉ t) : IsTemplate (escapeTemplate t) := by
  fun_induction escapeTemplate t with
  | case1 => exact isTemplate_nil
  | case2 cs _ => simp at h
  | case3 cs _ ih =>
    have unit : IsTemplateUnit ['\\', '\\'] := .escape (by decide)
    exact unit.isTemplate.append (ih fun hm => h (by simp [hm]))
  | case4 cs _ _ ih =>
    have unit : IsTemplateUnit ['\\', '`'] := .escape (by decide)
    exact unit.isTemplate.append (ih fun hm => h (by simp [hm]))
  | case5 c cs _ backslash quote ih =>
    simp only [List.mem_cons, not_or] at h
    exact (IsTemplateUnit.char backslash quote (Ne.symm h.1)).isTemplate.append (ih h.2)

theorem ContentPiece.IsPlain.isTemplate {piece : ContentPiece} (h : piece.IsPlain) :
    IsTemplate (templatePiece piece) := by
  cases piece with
  | literal t =>
    refine isTemplate_escapeTemplate fun hm => ?_
    rcases mem_of_mem_collapseBlanks hm with hm | hm
    · exact h hm.1
    · cases hm
  | expression t =>
    have unit := (IsTemplateUnit.code h.1 h.2).isTemplate
    exact unit

theorem isTemplate_pieces : ∀ {pieces : List ContentPiece}, (∀ piece ∈ pieces, piece.IsPlain) →
    IsTemplate (pieces.flatMap templatePiece)
  | [], _ => isTemplate_nil
  | piece :: pieces, h => by
    rw [List.flatMap_cons]
    exact (h piece (by simp)).isTemplate.append
      (isTemplate_pieces fun other hm => h other (by simp [hm]))

theorem carries_contentValue {pieces : List ContentPiece} (h : ∀ piece ∈ pieces, piece.IsPlain) :
    Carries false (contentValue pieces) := by
  have template : Carries false (contentValue.template pieces) :=
    carries_template (isTemplate_pieces h)
  rw [contentValue]
  split
  · exact carries_quote _
  · rename_i expression only
    split
    · have hm : expression ∈ contentExpressions pieces := by
        rw [only]
        exact List.mem_cons_self
      obtain ⟨piece, hp, he⟩ := List.mem_filterMap.1 hm
      cases piece with
      | literal => cases he
      | expression t =>
        cases he
        exact carries_plain (h _ hp).1
    · exact template
  · exact template

/-! ## Trees -/

mutual

/-- An element whose attributes leave no code of their own where it becomes a call. -/
def Element.Tame : Element → Prop
  | .paired tag children =>
    tagRule? tag.name = none ∨ (∀ given ∈ tag.attributes, given.Tame) ∧ children.Tame
  | .selfClosing name attributes => tagRule? name.text = none ∨ ∀ given ∈ attributes, given.Tame

/-- Children that are tame. -/
def Children.Tame : Children → Prop
  | .last _ => True
  | .element _ child rest => child.Tame ∧ rest.Tame
  | .expression _ _ rest => rest.Tame

end

/-- A call holds the markup of its children, if it has any of them. -/
theorem yields_callFor (tag : Text) (kind : TagKind) {properties : Text}
    (hp : Reads false properties) (children : Children)
    {values : Outcome (List Text)} (hv : values.Yields ReadsAll) :
    (callFor tag kind properties children values).Yields Carries := by
  have parts : ∀ {left : Bool} {found : List Text}, ReadsAll left found →
      ReadsAll left [properties, childrenPart (childrenValue found)] := by
    intro left found hf
    have last : ReadsAll (left || false) [childrenPart (childrenValue found)] :=
      .cons (carries_childrenPart hf).reads .nil
    rw [Bool.or_false] at last
    exact .cons hp last
  have text : Leads "text: ".toList := ⟨carries_plain (by decide), fun _ => rfl⟩
  have content := text.append (carries_contentValue children.isPlain).reads
  have alone : ReadsAll false [properties] := .cons hp .nil
  cases kind with
  | image => exact Outcome.yields_pure (carries_constructorCall .image alone)
  | container =>
    refine hv.bind fun left found hf => Outcome.yields_pure ?_
    rw [Bool.or_false]
    exact carries_constructorCall .container (parts hf)
  | text =>
    rw [callFor]
    split
    · refine (Outcome.yields_warn _).bind ?_
      rintro _ _ rfl
      refine hv.bind fun left found hf => Outcome.yields_pure ?_
      rw [Bool.or_false]
      exact carries_constructorCall .container (parts hf)
    · exact Outcome.yields_pure
        (carries_constructorCall .text (.cons content.reads (.cons hp .nil)))
  | pressable =>
    rw [callFor]
    split
    · refine hv.bind fun left found hf => Outcome.yields_pure ?_
      rw [Bool.or_false]
      exact carries_constructorCall .pressable (parts hf)
    · split
      · exact Outcome.yields_pure (carries_constructorCall .pressable alone)
      · have label := carries_constructorCall .text (.cons content.reads .nil)
        exact Outcome.yields_pure
          (carries_constructorCall .pressable (parts (.cons label.reads .nil)))

/-- What a known tag is worth says nothing of left markup, and the comment of a landmark hides its
tag. -/
theorem tagRule?_eq_some {tag : Text} {rule : TagRule} (h : tagRule? tag = some rule) :
    (∀ warning, rule.warning? = some warning → warning.leavesMarkup = false) ∧
      ∀ comment, rule.comment? = some comment → Carries false comment := by
  have landmark : tag ∈ landmarkTags →
      Carries false ("/* TODO: <".toList ++ tag ++ "> has no Horizon equivalent */".toList) := by
    intro known
    have quiet : ∀ tag ∈ landmarkTags, endsComment tag = false := by decide
    exact @carries_comment_around " TODO: <".toList tag "> has no Horizon equivalent ".toList
      (by decide) (quiet tag known)
      (by decide) (by decide)
  rw [tagRule?] at h
  split_ifs at h with _ known
  all_goals
    obtain rfl := Option.some.inj h
  · simp
  · exact ⟨by rintro _ ⟨⟩; rfl, by rintro _ ⟨⟩; exact landmark (List.contains_iff_mem.1 known)⟩
  · simp
  · simp [Warning.leavesMarkup]
  · simp
  · simp [Warning.leavesMarkup]
  · simp

theorem yields_warn? {warning? : Option Warning}
    (h : ∀ warning, warning? = some warning → warning.leavesMarkup = false) :
    (Outcome.warn? warning?).Yields fun left _ => left = false := by
  cases warning? with
  | none => exact ⟨(), rfl, rfl⟩
  | some warning =>
    have same := Outcome.yields_warn warning
    rwa [h warning rfl] at same

/-- An element is left as written with a warning, or becomes a call with the markup of its
children. -/
theorem yields_recastTag {written tag : Text} {attributes : List WrittenAttribute}
    {children : Children} {values : Outcome (List Text)} (raw : Reads true written)
    (tame : tagRule? tag = none ∨ (∀ given ∈ attributes, given.Tame) ∧ values.Yields ReadsAll) :
    (recastTag written tag attributes children values).Yields Reads := by
  rw [recastTag]
  split
  · refine (Outcome.yields_warn _).bind ?_
    rintro _ _ rfl
    exact Outcome.yields_pure raw
  · rename_i rule known
    obtain ⟨ha, hv⟩ := tame.resolve_left (by simp [known])
    obtain ⟨warning, comment⟩ := tagRule?_eq_some known
    refine (yields_warn? warning).bind ?_
    rintro _ _ rfl
    refine (yields_recastWritten ha).bind ?_
    rintro _ properties ⟨rfl, hp⟩
    refine Outcome.Yields.bind (Q := fun left _ => left = false) ⟨(), rfl, rfl⟩ ?_
    rintro _ _ rfl
    refine (yields_callFor tag rule.kind hp children hv).bind fun left call hc =>
      Outcome.yields_pure ?_
    rw [Bool.or_false]
    cases hr : rule.comment? with
    | none => exact hc.reads
    | some text => exact (((comment text hr).append (carries_plain (by decide))).append hc).reads

/-- The text of a tag after its `<` starts with a name or with the `>` of a fragment. -/
theorem OpeningTag.print_eq (tag : OpeningTag) :
    ∃ c cs, tag.print = '<' :: c :: cs ∧ (isNameStart c ∨ c = '>') := by
  cases tag with
  | fragment => exact ⟨'>', [], rfl, .inr rfl⟩
  | named name attributes =>
    obtain ⟨c, cs, hname, hc⟩ := name.eq_cons
    refine ⟨c, cs ++ printAttributes attributes ++ ['>'], ?_, .inl hc⟩
    simp [OpeningTag.print, OpeningTag.name, OpeningTag.attributes, hname]

theorem Element.print_starts (t : Element) :
    ∃ c cs, t.print = '<' :: c :: cs ∧ (isNameStart c ∨ c = '>') := by
  cases t with
  | paired tag children =>
    obtain ⟨c, cs, same, hc⟩ := tag.print_eq
    exact ⟨c, cs ++ children.print ++ closingTag tag.name, by simp [Element.print, same], hc⟩
  | selfClosing name attributes =>
    obtain ⟨c, cs, hname, hc⟩ := name.eq_cons
    exact ⟨c, cs ++ printAttributes attributes ++ [' ', '/', '>'],
      by simp [Element.print, hname], .inl hc⟩

/-- An element as it is written is markup, and so is what starts with one. -/
theorem reads_written (t : Element) (rest : Text) : Reads true (t.print ++ rest) := by
  obtain ⟨c, cs, same, hc⟩ := t.print_starts
  rw [same]
  exact reads_markup hc (cs ++ rest)

theorem TextRun.readsAll (gap : TextRun) : ReadsAll false gap.values := by
  refine ReadsAll.of_carries fun value hm => ?_
  rw [TextRun.values] at hm
  split at hm
  · simp at hm
  · obtain rfl := List.mem_singleton.1 hm
    exact carries_quote _

theorem BraceCode.readsAll (code : BraceCode) : ReadsAll false code.values := by
  refine ReadsAll.of_carries fun value hm => ?_
  rw [BraceCode.values] at hm
  split at hm
  · simp at hm
  · obtain rfl := List.mem_singleton.1 hm
    exact code.carries_trim

mutual

/-- What an element becomes holds markup just if its journal says that some was left. -/
theorem Element.yields : ∀ t : Element, t.Tame → t.recast.Yields Reads
  | .paired tag children, h => by
    rw [Element.Tame] at h
    have written := reads_written (.paired tag children) []
    rw [List.append_nil] at written
    rw [Element.recast]
    exact yields_recastTag written (h.imp_right fun tame => ⟨tame.1, children.yields tame.2⟩)
  | .selfClosing name attributes, h => by
    rw [Element.Tame] at h
    have written := reads_written (.selfClosing name attributes) []
    rw [List.append_nil] at written
    rw [Element.recast]
    exact yields_recastTag written (h.imp_right fun tame => ⟨tame, Outcome.yields_pure .nil⟩)

/-- The values of children hold markup just if their journal says that some was left. -/
theorem Children.yields : ∀ children : Children, children.Tame → children.recast.Yields ReadsAll
  | .last gap, _ => Outcome.yields_pure gap.readsAll
  | .element gap child rest, h => by
    rw [Children.Tame] at h
    rw [Children.recast]
    refine (child.yields h.1).bind fun left value hv => (rest.yields h.2).bind
      fun more values hr => ?_
    refine Outcome.yields_pure ?_
    rw [Bool.or_false]
    exact gap.readsAll.append (.cons hv hr)
  | .expression gap code rest, h => by
    rw [Children.Tame] at h
    rw [Children.recast]
    refine (rest.yields h).bind fun more values hr => Outcome.yields_pure ?_
    rw [Bool.or_false]
    exact (gap.readsAll.append code.readsAll).append hr

end

/-! ## Whole texts -/

/-- The run without the blanks at its start. -/
def TextRun.trimStart (gap : TextRun) : TextRun :=
  ⟨Recast.trimStart gap.text, fun c hc => gap.valid c (mem_of_mem_trimStart hc)⟩

/-- The run without the blanks at its end. -/
def TextRun.trimEnd (gap : TextRun) : TextRun :=
  ⟨Recast.trimEnd gap.text, fun c hc => gap.valid c (mem_of_mem_trimEnd hc)⟩

/-- The children without the blanks before the first one. -/
def Children.trimStart : Children → Children
  | .last gap => .last gap.trimStart
  | .element gap child rest => .element gap.trimStart child rest
  | .expression gap code rest => .expression gap.trimStart code rest

/-- The children without the blanks after the last one. -/
def Children.trimEnd : Children → Children
  | .last gap => .last gap.trimEnd
  | .element gap child rest => .element gap child rest.trimEnd
  | .expression gap code rest => .expression gap code rest.trimEnd

theorem print_trimStart (children : Children) :
    children.trimStart.print = trimStart children.print := by
  cases children with
  | last gap => rfl
  | element gap child rest =>
    have first : ∀ c, (child.print ++ rest.print).head? = some c → isBlank c = false := by
      rw [child.print_eq]
      rintro c ⟨⟩
      decide
    rw [Children.trimStart, Children.print, Children.print, List.append_assoc, List.append_assoc,
      trimStart_append first]
    rfl
  | expression gap code rest =>
    have first : ∀ c, (code.print ++ rest.print).head? = some c → isBlank c = false := by
      rintro c ⟨⟩
      decide
    rw [Children.trimStart, Children.print, Children.print, List.append_assoc, List.append_assoc,
      trimStart_append first]
    rfl

theorem print_trimEnd (children : Children) : children.trimEnd.print = trimEnd children.print := by
  cases children with
  | last gap => rfl
  | element gap child rest =>
    have last : ∀ c, (gap.text ++ child.print).getLast? = some c → isBlank c = false := by
      rw [List.getLast?_append, child.getLast?_print]
      rintro c ⟨⟩
      decide
    rw [Children.trimEnd, Children.print, Children.print, trimEnd_append last, print_trimEnd rest]
  | expression gap code rest =>
    have last : ∀ c, (gap.text ++ code.print).getLast? = some c → isBlank c = false := by
      rw [BraceCode.print, ← List.append_assoc, List.getLast?_concat]
      rintro c ⟨⟩
      decide
    rw [Children.trimEnd, Children.print, Children.print, trimEnd_append last, print_trimEnd rest]

theorem Children.tame_trimStart (children : Children) (h : children.Tame) :
    children.trimStart.Tame := by
  cases children <;> exact h

theorem Children.tame_trimEnd : ∀ children : Children, children.Tame → children.trimEnd.Tame
  | .last _, _ => trivial
  | .element _ _ rest, h => ⟨h.1, rest.tame_trimEnd h.2⟩
  | .expression _ _ rest, h => rest.tame_trimEnd h

/-- Children without a `<` are text and expressions. -/
theorem hasElement_eq_false :
    ∀ {children : Children}, '<' ∉ children.print → children.hasElement = false
  | .last _, _ => rfl
  | .element gap child rest, h => by simp [Children.print, child.print_eq] at h
  | .expression gap code rest, h => by
    rw [Children.print, List.mem_append, not_or] at h
    rw [Children.hasElement]
    exact hasElement_eq_false h.2

/-- What a markup text becomes holds markup just if its journal says that some was left. -/
theorem yields_recastMarkup {children : Children} (h : children.Tame) :
    (recastMarkup children.print).Yields Reads := by
  have trimmed : trim children.print = children.trimStart.trimEnd.print := by
    rw [print_trimEnd, print_trimStart, trim]
  have tame := children.trimStart.tame_trimEnd (children.tame_trimStart h)
  have empty : Reads false "\"\"".toList := (carries_quote []).reads
  rw [recastMarkup, trimmed]
  generalize children.trimStart.trimEnd = inner at tame
  split
  · exact Outcome.yields_pure empty
  · split
    · rename_i plain
      have none : '<' ∉ inner.print := by simpa using plain
      rw [textValue_print (hasElement_eq_false none)]
      exact Outcome.yields_pure (carries_contentValue inner.isPlain).reads
    · rw [recastChildren_print (recastUnits_print inner), bind_map_left]
      refine (inner.yields tame).bind fun left values hv => Outcome.yields_pure ?_
      have value := reads_childrenValue hv
      rw [Bool.or_false]
      split
      · rename_i nothing
        rw [List.isEmpty_iff.1 nothing] at value
        rw [value.eq_false]
        exact empty
      · exact value

/-- A value at the start of a text. -/
theorem Reads.containsMarkup_eq {found : Bool} {value : Text} (h : Reads found value) :
    containsMarkup value = found := by
  have whole := h [] 0 [] rfl
  rw [List.append_nil] at whole
  rw [containsMarkup, whole, containsMarkupFrom, Bool.or_false]

end Recast
