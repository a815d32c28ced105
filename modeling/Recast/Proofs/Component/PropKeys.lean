import Recast.Component.ClassShape
import Recast.Proofs.Component.TypeTree
import Recast.Proofs.Scope.LocalNames

/-!
# The keys of a props type

The props of a class are read off its props type by cutting the members apart at commas and
semicolons, and taking what stands before the first colon of each. The cut knows round, square and
curly brackets, and not angle brackets: the arguments of a generic come apart at their commas,
unless other brackets are around them (`TypeTree.hasOuterComma`).

So the props are the keys exactly if no member has such a type (`classProps_eq_keys_iff`). The last
of the torn pieces always shows: before its first colon stands the end of the generic, or a bracket,
and neither is part of a key.
-/

namespace Recast

/-! ## Words without repetition -/

theorem mem_firstOccurrences {xs : List Text} {x : Text} : x ∈ firstOccurrences xs ↔ x ∈ xs := by
  have fold : ∀ (xs seen : List Text),
      x ∈ xs.foldl (fun seen x => if seen.contains x then seen else x :: seen) seen ↔ x ∈ seen ∨
        x ∈ xs := by
    intro xs
    induction xs with
    | nil => simp
    | cons y ys ih =>
      intro seen
      rw [List.foldl_cons, ih]
      split
      · rename_i known
        have known : y ∈ seen := by simpa using known
        grind
      · grind
  rw [firstOccurrences, List.mem_reverse, fold xs []]
  simp

/-- Words that are all different stay as they are. -/
theorem firstOccurrences_of_nodup {xs : List Text} (distinct : xs.Nodup) :
    firstOccurrences xs = xs := by
  have fold : ∀ (xs seen : List Text), (seen.reverse ++ xs).Nodup →
      (xs.foldl (fun seen x => if seen.contains x then seen else x :: seen) seen).reverse =
        seen.reverse ++ xs := by
    intro xs
    induction xs with
    | nil => simp
    | cons y ys ih =>
      intro seen distinct
      have new : y ∉ seen := fun known =>
        (List.nodup_append.1 distinct).2.2 y (List.mem_reverse.2 known) y List.mem_cons_self rfl
      rw [List.foldl_cons, if_neg (by simpa using new), ih (y :: seen) (by simpa using distinct)]
      simp
  exact fold xs [] distinct

/-! ## Angle brackets of types -/

/-- Every `<` follows a name, and not `return`: it is no markup. -/
def AnglesFollowNames (t : Text) : Prop :=
  ∀ before ahead, t = before ++ '<' :: ahead →
    before.reverse.takeWhile isNameChar ≠ [] ∧
      before.reverse.takeWhile isNameChar ≠ "return".toList.reverse

/-- Text of types: its brackets are closed, and its angle brackets are those of generics. -/
structure IsTypeCode (t : Text) : Prop where
  closed : Closed (fun _ => true) t
  angles : AnglesFollowNames t

section TypeCode

variable {t u : Text}

theorem opensMarkup_behind_name {behind : Text} (word : behind.takeWhile isNameChar ≠ [])
    (other : behind.takeWhile isNameChar ≠ "return".toList.reverse) (ahead : Text) :
    opensMarkup behind ahead = false := by
  cases behind with
  | nil => exact absurd rfl word
  | cons last before =>
    have name : isNameChar last := by
      by_contra stop
      exact word (List.takeWhile_cons_of_neg stop)
    have solid : isLayout last = false := by
      by_contra layout
      have marks : ∀ c ∈ [' ', '\t', '\r', '\n'], isNameChar c = false := by decide
      have none := marks last (by simpa [isLayout, or_assoc] using Bool.of_not_eq_false layout)
      rw [none] at name
      cases name
    have noMark : precedesMarkup last = false := by
      by_contra mark
      have marks : ∀ c ∈ "([=,\x7b:?;!&|%^+-*/~<>".toList, isNameChar c = false := by decide
      have none := marks last (List.contains_iff_mem.1 (Bool.of_not_eq_false mark))
      rw [none] at name
      cases name
    cases ahead with
    | nil => rfl
    | cons next rest =>
      rw [opensMarkup, List.dropWhile_cons_of_neg (by simp [solid])]
      simp only [noMark, beq_eq_false_iff_ne.2 other, Bool.and_false, Bool.or_self]

theorem AnglesFollowNames.unmarked (h : AnglesFollowNames t) : Unmarked t := by
  rintro before kind passed ahead rfl
  have name : isNameChar kind.opener = false := by cases kind <;> decide
  obtain ⟨word, other⟩ := h (before ++ kind.opener :: passed) ahead (by simp)
  have behind : (before ++ kind.opener :: passed).reverse.takeWhile isNameChar =
      (passed.reverse ++ [kind.opener]).takeWhile isNameChar := by
    rw [List.reverse_append, List.reverse_cons, List.append_assoc, List.singleton_append,
      takeWhile_append_cons_of_neg name, takeWhile_append_cons_of_neg name]
  rw [behind] at word other
  exact opensMarkup_behind_name word other ahead

theorem anglesFollowNames_of_not_mem (h : '<' ∉ t) : AnglesFollowNames t := by
  rintro before ahead rfl
  exact absurd h (by simp)

/-- Words do not run together where two texts meet: one of them has a mark there. -/
def MeetsApart (t u : Text) : Prop :=
  (∃ front c, t = front ++ [c] ∧ isNameChar c = false) ∨
    (∃ c rest, u = c :: rest ∧ isNameChar c = false)

theorem AnglesFollowNames.append (ht : AnglesFollowNames t) (hu : AnglesFollowNames u)
    (apart : MeetsApart t u) : AnglesFollowNames (t ++ u) := by
  intro before ahead split
  rcases List.append_eq_append_iff.1 split with ⟨passed, rfl, rest⟩ | ⟨rest, rfl, here⟩
  · have word : (t ++ passed).reverse.takeWhile isNameChar =
        passed.reverse.takeWhile isNameChar := by
      rw [List.reverse_append]
      rcases apart with ⟨front, c, rfl, stop⟩ | ⟨c, more, rfl, stop⟩
      · rw [List.reverse_append, List.reverse_singleton, List.singleton_append,
          takeWhile_append_cons_of_neg stop]
      · cases passed with
        | nil => exact absurd rfl (hu [] ahead rest).1
        | cons d passed =>
          obtain ⟨rfl, -⟩ := List.cons.inj rest
          rw [List.reverse_cons, List.append_assoc, List.singleton_append,
            takeWhile_append_cons_of_neg stop, takeWhile_append_cons_of_neg stop]
    rw [word]
    exact hu passed ahead rest
  · cases rest with
    | nil => exact absurd rfl (hu [] ahead here.symm).1
    | cons c cs =>
      obtain ⟨rfl, -⟩ := List.cons.inj here
      exact ht before cs rfl

theorem IsTypeCode.append (ht : IsTypeCode t) (hu : IsTypeCode u) (apart : MeetsApart t u) :
    IsTypeCode (t ++ u) :=
  ⟨ht.closed.append hu.closed, ht.angles.append hu.angles apart⟩

theorem isTypeCode_plain (plain : ∀ c ∈ t, isPlainMark c) : IsTypeCode t where
  closed := closed_of_plain fun c hc => ⟨plain c hc, rfl⟩
  angles := anglesFollowNames_of_not_mem fun h => Bool.noConfusion (plain '<' h)

theorem isTypeCode_group (kind : Bracket) (h : IsTypeCode t) :
    IsTypeCode (kind.opener :: (t ++ [kind.closer])) where
  closed := .group kind h.closed .nil
  angles := by
    have opener : isNameChar kind.opener = false := by cases kind <;> decide
    have closer : isNameChar kind.closer = false := by cases kind <;> decide
    have brackets : kind.opener ≠ '<' ∧ kind.closer ≠ '<' := by cases kind <;> decide
    have first : AnglesFollowNames [kind.opener] :=
      anglesFollowNames_of_not_mem (by simpa using Ne.symm brackets.1)
    have last : AnglesFollowNames [kind.closer] :=
      anglesFollowNames_of_not_mem (by simpa using Ne.symm brackets.2)
    exact first.append (h.angles.append last (.inr ⟨_, _, rfl, closer⟩)) (.inl ⟨[], _, rfl, opener⟩)

/-- A mark between two texts keeps them apart. -/
theorem IsTypeCode.joined (ht : IsTypeCode t) (hu : IsTypeCode u) {c : Char}
    (mark : isPlainMark c ∧ isNameChar c = false) : IsTypeCode (t ++ c :: u) := by
  have single : IsTypeCode [c] := isTypeCode_plain (by simpa using mark.1)
  exact ht.append (single.append hu (.inl ⟨[], _, rfl, mark.2⟩)) (.inr ⟨_, _, rfl, mark.2⟩)

theorem isTypeCode_nil : IsTypeCode [] :=
  isTypeCode_plain (by simp)

theorem IsTypeCode.cons (hu : IsTypeCode u) {c : Char}
    (mark : isPlainMark c ∧ isNameChar c = false) : IsTypeCode (c :: u) :=
  isTypeCode_nil.joined hu mark

end TypeCode

theorem TypeName.isPlainMark (name : TypeName) : ∀ c ∈ name.text, isPlainMark c := by
  intro c hc
  rcases name.isNameChar_or_dot c hc with h | rfl
  · exact isPlainMark_of_isNameChar h
  · decide

theorem TypeName.isTypeCode (name : TypeName) : IsTypeCode name.text :=
  isTypeCode_plain name.isPlainMark

theorem modulePath_ends :
    ∀ words : List Word, modulePath words = [] ∨ ∃ front, modulePath words = front ++ ['.']
  | [] => .inl rfl
  | word :: words => by
    refine .inr ?_
    rcases modulePath_ends words with path | ⟨front, path⟩
    · exact ⟨word.text, by rw [modulePath, path]⟩
    · exact ⟨word.text ++ '.' :: front,
        by rw [modulePath, path, List.append_assoc, List.cons_append]⟩

/-- The last word of a name is its own. -/
theorem TypeName.takeWhile_reverse (name : TypeName) :
    name.text.reverse.takeWhile isNameChar = name.word.text.reverse := by
  have word : name.word.text.reverse.takeWhile isNameChar = name.word.text.reverse :=
    List.takeWhile_eq_self_iff.2 fun c hc =>
      isNameChar_of_isIdentifier name.word.valid c (List.mem_reverse.1 hc)
  rw [TypeName.text, List.reverse_append]
  rcases modulePath_ends name.modules with path | ⟨front, path⟩
  · rw [path, List.reverse_nil, List.append_nil, word]
  · rw [path, List.reverse_append, List.reverse_singleton, List.singleton_append,
      takeWhile_append_cons_of_neg (by decide), word]

/-- The start of a generic. -/
theorem TypeName.isTypeCode_angle (name : TypeName) : IsTypeCode (name.text ++ ['<']) where
  closed :=
    name.isTypeCode.closed.append (.mark rfl (by decide) (by decide) (by decide) (by simp) .nil)
  angles := by
    intro before ahead split
    have unangled : '<' ∉ name.text := fun h => Bool.noConfusion (name.isPlainMark '<' h)
    obtain rfl : name.text = before := by
      rcases List.append_eq_append_iff.1 split with ⟨passed, rfl, rest⟩ | ⟨rest, same, here⟩
      · cases passed with
        | nil => simp
        | cons c cs => simp at rest
      · cases rest with
        | nil => simpa using same
        | cons c cs =>
          obtain ⟨rfl, -⟩ := List.cons.inj here
          exact absurd (by simp [same]) unangled
    rw [name.takeWhile_reverse]
    refine ⟨?_, fun same => name.free (List.reverse_injective same)⟩
    simpa using ne_nil_of_isWord (isWord_of_isIdentifier name.word.valid)

theorem Word.isTypeCode (word : Word) : IsTypeCode word.text :=
  isTypeCode_plain fun c hc =>
    isPlainMark_of_isNameChar (isNameChar_of_isIdentifier word.valid c hc)

theorem isTypeCode_brackets : IsTypeCode ['[', ']'] :=
  isTypeCode_group .square isTypeCode_nil

theorem IsTypeCode.member {u : Text} (hu : IsTypeCode u) (key : Word) (optional : Bool) :
    IsTypeCode (memberHead key optional ++ u) := by
  have colon : IsTypeCode ([':', ' '] ++ u) := (hu.cons (by decide)).cons (by decide)
  have mark : IsTypeCode (optionalMark optional ++ ([':', ' '] ++ u)) := by
    cases optional with
    | false => exact colon
    | true => exact colon.cons (by decide)
  have apart : MeetsApart key.text (optionalMark optional ++ ([':', ' '] ++ u)) := by
    cases optional with
    | false => exact .inr ⟨_, _, rfl, by decide⟩
    | true => exact .inr ⟨_, _, rfl, by decide⟩
  have whole : IsTypeCode (' ' :: (key.text ++ (optionalMark optional ++ ([':', ' '] ++ u)))) :=
    (key.isTypeCode.append mark apart).cons (by decide)
  simpa [memberHead] using whole

theorem IsTypeCode.param {u : Text} (hu : IsTypeCode u) (name : Word) :
    IsTypeCode (paramHead name ++ u) := by
  have whole : IsTypeCode (name.text ++ ':' :: ' ' :: u) :=
    name.isTypeCode.joined (hu.cons (by decide)) (by decide)
  simpa [paramHead] using whole

mutual

theorem TypeTree.isTypeCode : ∀ type : TypeTree, IsTypeCode type.print
  | .name name => name.isTypeCode
  | .generic name arguments => by
    have inner := name.isTypeCode_angle.append arguments.isTypeCode (.inl ⟨_, _, rfl, by decide⟩)
    have whole : IsTypeCode (((name.text ++ ['<']) ++ arguments.print) ++ ['>']) :=
      inner.joined isTypeCode_nil (by decide)
    simpa [TypeTree.print] using whole
  | .object members => isTypeCode_group .curly members.isTypeCode
  | .array element => element.isTypeCode.append isTypeCode_brackets (.inr ⟨_, _, rfl, by decide⟩)
  | .emptyTuple => isTypeCode_brackets
  | .tuple items => isTypeCode_group .square items.isTypeCode
  | .group inner => isTypeCode_group .round inner.isTypeCode
  | .function params result => by
    have arrow : IsTypeCode ('=' :: '>' :: ' ' :: result.print) :=
      ((result.isTypeCode.cons (by decide)).cons (by decide)).cons (by decide)
    exact (isTypeCode_group .round params.isTypeCode).joined arrow (by decide)

theorem TypeItems.isTypeCode : ∀ items : TypeItems, IsTypeCode items.print
  | .last type => type.isTypeCode
  | .more type rest =>
    type.isTypeCode.joined (rest.isTypeCode.cons (by decide)) (by decide)

theorem TypeMembers.isTypeCode : ∀ members : TypeMembers, IsTypeCode members.print
  | .done => isTypeCode_nil.cons (by decide)
  | .last key optional type =>
    (type.isTypeCode.joined isTypeCode_nil (by decide)).member key optional
  | .more key optional type mark rest =>
    (type.isTypeCode.joined rest.isTypeCode (by cases mark <;> decide)).member key optional

theorem TypeParams.isTypeCode : ∀ params : TypeParams, IsTypeCode params.print
  | .done => isTypeCode_nil
  | .last name type => type.isTypeCode.param name
  | .more name type rest =>
    (type.isTypeCode.joined (rest.isTypeCode.cons (by decide)) (by decide)).param name

end

/-! ## Commas outside brackets -/

mutual

/-- Whether a type has a comma outside round, square and curly brackets. -/
def TypeTree.hasOuterComma : TypeTree → Bool
  | .name _ => false
  | .generic _ arguments => arguments.hasOuterComma
  | .object _ => false
  | .array element => element.hasOuterComma
  | .emptyTuple => false
  | .tuple _ => false
  | .group _ => false
  | .function _ result => result.hasOuterComma

/-- Whether items have a comma outside round, square and curly brackets. -/
def TypeItems.hasOuterComma : TypeItems → Bool
  | .last type => type.hasOuterComma
  | .more _ _ => true

end

/-- Whether the type of a member has a comma outside round, square and curly brackets. -/
def TypeMembers.hasOuterComma : TypeMembers → Bool
  | .done => false
  | .last _ _ type => type.hasOuterComma
  | .more _ _ type _ rest => type.hasOuterComma || rest.hasOuterComma

/-- A character that does not end a member. -/
def isMemberChar (c : Char) : Bool :=
  !isMemberSeparator c

/-- A character that is not in a key, and shows where a piece of a type was torn off. -/
def isTearMark (c : Char) : Bool :=
  c == '>' || isOpener c

/-- A piece of a type: no separator is outside brackets, and every colon has a bracket before it. -/
structure IsTypePiece (t : Text) : Prop where
  closed : Closed isMemberChar t
  colons : ∀ before after, t = before ++ ':' :: after → ∃ c ∈ before, isTearMark c

section Pieces

variable {t u : Text}

theorem IsTypePiece.append (ht : IsTypePiece t) (hu : IsTypePiece u) : IsTypePiece (t ++ u) where
  closed := ht.closed.append hu.closed
  colons before after split := by
    rcases List.append_eq_append_iff.1 split with ⟨passed, rfl, rest⟩ | ⟨rest, rfl, here⟩
    · obtain ⟨c, hc, mark⟩ := hu.colons passed after rest
      exact ⟨c, List.mem_append_right _ hc, mark⟩
    · cases rest with
      | nil =>
        obtain ⟨c, hc, mark⟩ := hu.colons [] after here.symm
        cases hc
      | cons c cs =>
        obtain ⟨rfl, -⟩ := List.cons.inj here
        exact ht.colons before cs rfl

theorem isTypePiece_plain (plain : ∀ c ∈ t, isPlainMark c ∧ isMemberChar c ∧ c ≠ ':') :
    IsTypePiece t where
  closed := closed_of_plain fun c hc => ⟨(plain c hc).1, (plain c hc).2.1⟩
  colons before after split := absurd rfl (plain ':' (by simp [split])).2.2

theorem isTypePiece_group (kind : Bracket) (h : IsTypeCode t) :
    IsTypePiece (kind.opener :: (t ++ [kind.closer])) where
  closed := .group kind h.closed .nil
  colons before after split := by
    have opener : isTearMark kind.opener ∧ kind.opener ≠ ':' := by cases kind <;> decide
    cases before with
    | nil => exact absurd (List.cons.inj split).1 opener.2
    | cons c cs =>
      obtain ⟨rfl, -⟩ := List.cons.inj split
      exact ⟨_, List.mem_cons_self, opener.1⟩

/-- What is behind the last outer comma of a text; all of it, if there is none. -/
inductive LastPiece (last : Text) : Bool → Text → Prop where
  | whole (piece : IsTypePiece last) : LastPiece last false last
  | behind {front : Text} (closed : Closed (fun _ => true) front) (piece : IsTypePiece last) :
    LastPiece last true (front ++ ',' :: last)

variable {last : Text} {several : Bool}

theorem LastPiece.append (h : LastPiece last several t) (hu : IsTypePiece u) :
    LastPiece (last ++ u) several (t ++ u) := by
  cases h with
  | whole piece => exact .whole (piece.append hu)
  | behind closed piece =>
    rw [List.append_assoc, List.cons_append]
    exact .behind closed (piece.append hu)

theorem LastPiece.prepend (h : LastPiece last several t) (hu : IsTypePiece u) :
    ∃ longer, LastPiece longer several (u ++ t) ∧ last <:+ longer := by
  cases h with
  | whole piece => exact ⟨u ++ t, .whole (hu.append piece), List.suffix_append u t⟩
  | @behind front closed piece =>
    refine ⟨last, ?_, List.suffix_rfl⟩
    rw [← List.append_assoc]
    exact .behind ((hu.closed.mono fun _ _ => rfl).append closed) piece

/-- Code with a comma before a text. -/
theorem LastPiece.listed (h : LastPiece last several t) (closed : Closed (fun _ => true) u) :
    LastPiece last true (u ++ ',' :: t) := by
  cases h with
  | whole piece => exact .behind closed piece
  | @behind front inner piece =>
    have comma : Closed (fun _ => true) [','] := closed_of_plain (by decide)
    have whole := LastPiece.behind (closed.append (comma.append inner)) piece
    simpa using whole

end Pieces

theorem isTypePiece_of_names {t : Text} (names : ∀ c ∈ t, isNameChar c ∨ c = '.') :
    IsTypePiece t := by
  have marks : ∀ d ∈ [',', ';', ':'], isNameChar d = false := by decide
  refine isTypePiece_plain fun c hc => ?_
  rcases names c hc with h | rfl
  · have other : c ∉ [',', ';', ':'] := by
      intro mark
      rw [marks c mark] at h
      cases h
    simp only [List.mem_cons, List.not_mem_nil, or_false, not_or] at other
    exact ⟨isPlainMark_of_isNameChar h, by simp [isMemberChar, isMemberSeparator, other], other.2.2⟩
  · decide

theorem TypeName.isTypePiece (name : TypeName) : IsTypePiece name.text :=
  isTypePiece_of_names name.isNameChar_or_dot

theorem Word.isTypePiece (word : Word) : IsTypePiece word.text :=
  isTypePiece_of_names fun c hc => .inl (isNameChar_of_isIdentifier word.valid c hc)

theorem TypeName.isTypePiece_angle (name : TypeName) : IsTypePiece (name.text ++ ['<']) := by
  refine name.isTypePiece.append
    ⟨.mark (by decide) (by decide) (by decide) (by decide) (by simp) .nil, ?_⟩
  intro before after split
  have colon : ':' ∈ ['<'] := by simp [split]
  simp at colon

theorem isTypePiece_brackets : IsTypePiece ['[', ']'] :=
  isTypePiece_group .square isTypeCode_nil

mutual

/-- The last piece of a type that has an outer comma ends a generic. -/
theorem TypeTree.exists_lastPiece :
    ∀ type : TypeTree, ∃ last, LastPiece last type.hasOuterComma type.print ∧
    (type.hasOuterComma → '>' ∈ last)
  | .name name => ⟨_, .whole name.isTypePiece, Bool.noConfusion⟩
  | .generic name arguments => by
    obtain ⟨last, piece⟩ := arguments.exists_lastPiece
    have closing : IsTypePiece ['>'] := isTypePiece_plain (by decide)
    obtain ⟨longer, whole, suffix⟩ := (piece.append closing).prepend name.isTypePiece_angle
    refine ⟨longer, ?_, fun _ => suffix.mem (by simp)⟩
    simpa [TypeTree.print, TypeTree.hasOuterComma] using whole
  | .object members => ⟨_, .whole (isTypePiece_group .curly members.isTypeCode), Bool.noConfusion⟩
  | .array element => by
    obtain ⟨last, piece, closing⟩ := element.exists_lastPiece
    exact ⟨last ++ ['[', ']'], piece.append isTypePiece_brackets,
      fun several => List.mem_append_left _ (closing several)⟩
  | .emptyTuple => ⟨_, .whole isTypePiece_brackets, Bool.noConfusion⟩
  | .tuple items => ⟨_, .whole (isTypePiece_group .square items.isTypeCode), Bool.noConfusion⟩
  | .group inner => ⟨_, .whole (isTypePiece_group .round inner.isTypeCode), Bool.noConfusion⟩
  | .function params result => by
    obtain ⟨last, piece, closing⟩ := result.exists_lastPiece
    have arrow : IsTypePiece " => ".toList := isTypePiece_plain (by decide)
    obtain ⟨longer, whole, suffix⟩ :=
      piece.prepend ((isTypePiece_group .round params.isTypeCode).append arrow)
    refine ⟨longer, ?_, fun several => suffix.mem (closing several)⟩
    rwa [List.append_assoc] at whole

theorem TypeItems.exists_lastPiece :
    ∀ items : TypeItems, ∃ last, LastPiece last items.hasOuterComma items.print
  | .last type => by
    obtain ⟨last, piece, -⟩ := type.exists_lastPiece
    exact ⟨last, piece⟩
  | .more type rest => by
    obtain ⟨last, piece⟩ := rest.exists_lastPiece
    have blank : IsTypePiece [' '] := isTypePiece_plain (by decide)
    obtain ⟨longer, tail, -⟩ := piece.prepend blank
    exact ⟨longer, tail.listed type.isTypeCode.closed⟩

end

theorem TypeTree.isTypePiece {type : TypeTree} (plain : type.hasOuterComma = false) :
    IsTypePiece type.print := by
  obtain ⟨last, piece, -⟩ := type.exists_lastPiece
  rw [plain] at piece
  cases piece with
  | whole piece => exact piece

/-- A type with an outer comma, cut at its last one. -/
theorem TypeTree.exists_torn {type : TypeTree} (several : type.hasOuterComma) :
    ∃ before last, type.print = before ++ ',' :: last ∧ Closed (fun _ => true) before ∧
      IsTypePiece last ∧ '>' ∈ last := by
  obtain ⟨last, piece, closing⟩ := type.exists_lastPiece
  rw [several] at piece
  generalize print : type.print = t at piece
  cases piece with
  | @behind before closed piece => exact ⟨before, last, rfl, closed, piece, closing several⟩

/-! ## The pieces of members -/

/-- The keys of members, in order. -/
def TypeMembers.keys : TypeMembers → List Text
  | .done => []
  | .last key _ _ => [key.text]
  | .more key _ _ _ rest => key.text :: rest.keys

/-- The members as they are written, without the marks between them. -/
def TypeMembers.pieces : TypeMembers → List Text
  | .done => [[' ']]
  | .last key optional type => [memberHead key optional ++ (type.print ++ [' '])]
  | .more key optional type _ rest => (memberHead key optional ++ type.print) :: rest.pieces

theorem closed_memberHead (key : Word) (optional : Bool) :
    Closed isMemberChar (memberHead key optional) := by
  have name := key.isTypePiece.closed
  have mark : Closed isMemberChar (optionalMark optional ++ [':', ' ']) := by
    cases optional <;> exact closed_of_plain (by decide)
  have blank : Closed isMemberChar [' '] := closed_of_plain (by decide)
  exact blank.append (name.append mark)

theorem MemberMark.separates (mark : MemberMark) :
    isOpener mark.char = false ∧ isQuote mark.char = false ∧ isMemberSeparator mark.char := by
  cases mark <;> decide

/-- The pieces of a text behind another one. -/
def piecesBehind (front t : Text) : List Text :=
  (pieceSpans isMemberSeparator front.length front.length 0 t).map (·.of (front ++ t))

section Behind

variable {t rest : Text}

theorem piecesBehind_last (closed : Closed isMemberChar t) (unmarked : Unmarked t) (front : Text) :
    piecesBehind front t = [t] := by
  have whole : ∀ c, isMemberChar c → isMemberSeparator c = false := fun c hc => by
    simpa [isMemberChar] using hc
  have spans :=
    pieceSpans_closed closed whole front.length front.length [] (by simpa using unmarked)
  rw [List.append_nil] at spans
  rw [piecesBehind, spans, pieceSpans, List.map_singleton]
  exact congrArg (fun piece => [piece]) (slice_eq front [] (by simp) rfl rfl)

theorem piecesBehind_first (closed : Closed isMemberChar t) (mark : MemberMark)
    (unmarked : Unmarked (t ++ mark.char :: rest)) (front : Text) :
    piecesBehind front (t ++ mark.char :: rest) =
      t :: piecesBehind (front ++ (t ++ [mark.char])) rest := by
  have whole : ∀ c, isMemberChar c → isMemberSeparator c = false := fun c hc => by
    simpa [isMemberChar] using hc
  obtain ⟨opener, quote, separates⟩ := mark.separates
  rw [piecesBehind, pieceSpans_closed closed whole _ _ _ unmarked,
    pieceSpans_separator opener quote separates, List.map_cons]
  refine congrArg₂ List.cons (slice_eq front _ rfl rfl rfl) ?_
  simp [piecesBehind, Nat.add_assoc]

theorem Unmarked.tail {c : Char} (h : Unmarked (t ++ c :: rest)) : Unmarked rest :=
  h.part (t ++ [c]) [] (by simp)

/-- Behind closed code and a mark there are the pieces of the rest. -/
theorem mem_piecesBehind (closed : Closed (fun _ => true) t) (mark : MemberMark)
    (unmarked : Unmarked (t ++ mark.char :: rest)) {front piece : Text}
    (mem : piece ∈ piecesBehind (front ++ (t ++ [mark.char])) rest) :
    piece ∈ piecesBehind front (t ++ mark.char :: rest) := by
  obtain ⟨opener, quote, separates⟩ := mark.separates
  obtain ⟨span, found, rfl⟩ := List.mem_map.1 mem
  refine List.mem_map.2 ⟨span, mem_pieceSpans_behind closed opener quote separates _ _ unmarked ?_,
    by simp⟩
  simpa [Nat.add_assoc] using found

end Behind

/-- Members whose types have no outer commas come apart as they are written. -/
theorem TypeMembers.piecesBehind_print :
    ∀ (members : TypeMembers) (front : Text), members.hasOuterComma = false →
    piecesBehind front members.print = members.pieces
  | .done, front, _ => piecesBehind_last (closed_of_plain (by decide))
    TypeMembers.done.isTypeCode.angles.unmarked front
  | .last key optional type, front, plain => by
    have blank : Closed isMemberChar [' '] := closed_of_plain (by decide)
    have closed :=
      (closed_memberHead key optional).append ((TypeTree.isTypePiece plain).closed.append blank)
    exact piecesBehind_last closed (TypeMembers.last key optional type).isTypeCode.angles.unmarked
      front
  | .more key optional type mark rest, front, plain => by
    obtain ⟨first, later⟩ := Bool.or_eq_false_iff.1 plain
    have closed := (closed_memberHead key optional).append (TypeTree.isTypePiece first).closed
    have unmarked := (TypeMembers.more key optional type mark rest).isTypeCode.angles.unmarked
    rw [TypeMembers.print, ← List.append_assoc] at unmarked ⊢
    rw [piecesBehind_first closed mark unmarked front, rest.piecesBehind_print _ later,
      TypeMembers.pieces]

/-- Where the type of a member has an outer comma, a piece that ends a generic is torn off. -/
theorem TypeMembers.exists_torn : ∀ (members : TypeMembers) (front : Text), members.hasOuterComma →
    ∃ piece ∈ piecesBehind front members.print, IsTypePiece piece ∧ '>' ∈ piece
  | .last key optional type, front, several => by
    obtain ⟨before, last, print, closed, piece, closing⟩ := TypeTree.exists_torn several
    have blank : IsTypePiece [' '] := isTypePiece_plain (by decide)
    have head := ((closed_memberHead key optional).mono fun _ _ => rfl).append closed
    have split : TypeMembers.print (.last key optional type) =
        (memberHead key optional ++ before) ++ MemberMark.comma.char :: (last ++ [' ']) := by
      rw [TypeMembers.print, print]
      simp [MemberMark.char]
    have unmarked := (TypeMembers.last key optional type).isTypeCode.angles.unmarked
    rw [split] at unmarked ⊢
    refine ⟨last ++ [' '], mem_piecesBehind head .comma unmarked ?_, piece.append blank,
      List.mem_append_left _ closing⟩
    rw [piecesBehind_last (piece.append blank).closed (unmarked.tail)]
    exact List.mem_singleton_self _
  | .more key optional type mark rest, front, several => by
    have unmarked := (TypeMembers.more key optional type mark rest).isTypeCode.angles.unmarked
    cases first : type.hasOuterComma with
    | true =>
      obtain ⟨before, last, print, closed, piece, closing⟩ := TypeTree.exists_torn first
      have head := ((closed_memberHead key optional).mono fun _ _ => rfl).append closed
      have split : TypeMembers.print (.more key optional type mark rest) =
          (memberHead key optional ++ before) ++
            MemberMark.comma.char :: (last ++ mark.char :: rest.print) := by
        rw [TypeMembers.print, print]
        simp [MemberMark.char]
      rw [split] at unmarked ⊢
      refine ⟨last, mem_piecesBehind head .comma unmarked ?_, piece, closing⟩
      rw [piecesBehind_first piece.closed mark (unmarked.tail)]
      exact List.mem_cons_self
    | false =>
      have later : rest.hasOuterComma := by simpa [TypeMembers.hasOuterComma, first] using several
      have head :=
        ((closed_memberHead key optional).mono fun _ _ => rfl).append type.isTypeCode.closed
      rw [TypeMembers.print, ← List.append_assoc] at unmarked ⊢
      obtain ⟨piece, mem, torn⟩ :=
        rest.exists_torn (front ++ (memberHead key optional ++ type.print ++ [mark.char])) later
      exact ⟨piece, mem_piecesBehind head mark unmarked mem, torn⟩

/-! ## The keys of pieces -/

theorem mem_dropWhile {p : Char → Bool} {t : Text} {c : Char} (mem : c ∈ t) (stop : p c = false) :
    c ∈ t.dropWhile p := by
  rw [← List.takeWhile_append_dropWhile (p := p) (l := t)] at mem
  refine (List.mem_append.1 mem).resolve_left fun taken => ?_
  have kept := List.mem_takeWhile_imp taken
  rw [stop] at kept
  cases kept

theorem mem_dropEndWhile {p : Char → Bool} {t : Text} {c : Char} (mem : c ∈ t)
    (stop : p c = false) : c ∈ dropEndWhile p t :=
  List.mem_reverse.2 (mem_dropWhile (List.mem_reverse.2 mem) stop)

theorem mem_trim {t : Text} {c : Char} (mem : c ∈ t) (solid : isBlank c = false) : c ∈ trim t :=
  mem_dropEndWhile (mem_dropWhile mem solid) solid

theorem isTearMark_solid {c : Char} (h : isTearMark c) :
    isBlank c = false ∧ (c == '?') = false ∧ isNameChar c = false := by
  have marks : ∀ d ∈ ['>', '(', '[', '{'], isBlank d = false ∧ (d == '?') = false ∧
      isNameChar d = false := by decide
  refine marks c ?_
  simp only [isTearMark, isOpener, Bool.or_eq_true, beq_iff_eq] at h
  simp only [List.mem_cons, List.not_mem_nil, or_false]
  tauto

/-- What is read off a torn piece is no key. -/
theorem exists_mem_memberKey {t : Text} (piece : IsTypePiece t) (closing : '>' ∈ t) :
    ∃ c ∈ memberKey (trim t), isTearMark c := by
  obtain ⟨c, mem, mark⟩ : ∃ c ∈ ((cutAt? ':' (trim t)).map (·.1)).getD (trim t), isTearMark c := by
    cases cut : cutAt? ':' (trim t) with
    | none => exact ⟨'>', mem_trim closing (by decide), by decide⟩
    | some parts =>
      obtain ⟨before, after⟩ := parts
      obtain ⟨lead, tail, blank, -, split⟩ := exists_append_trim t
      rw [eq_append_of_cutAt? cut] at split
      obtain ⟨c, mem, mark⟩ := piece.colons (lead ++ before) (after ++ tail) (by simpa using split)
      refine ⟨c, (List.mem_append.1 mem).resolve_left fun outside => ?_, mark⟩
      have solid := (isTearMark_solid mark).1
      rw [List.all_eq_true.1 blank c outside] at solid
      cases solid
  obtain ⟨solid, other, -⟩ := isTearMark_solid mark
  exact ⟨c, mem_dropEndWhile (mem_trim mem solid) other, mark⟩

/-- The key of a member with its mark. -/
theorem trimmed_key (key : Word) (optional : Bool) :
    Trimmed (key.text ++ optionalMark optional) := by
  have solid := trimmed_of_isIdentifier key.valid
  cases optional with
  | false => simpa [optionalMark] using solid
  | true => exact solid.around ⟨⟨'?', [], rfl, by decide⟩, [], '?', rfl, by decide⟩ []

theorem dropEndWhile_key (key : Word) (optional : Bool) :
    dropEndWhile (· == '?') (key.text ++ optionalMark optional) = key.text := by
  have word : ∀ c ∈ key.text, (c == '?') = false := by
    intro c hc
    rw [beq_eq_false_iff_ne]
    rintro rfl
    exact Bool.noConfusion (isNameChar_of_isIdentifier key.valid '?' hc)
  have stop : key.text.reverse.dropWhile (· == '?') = key.text.reverse :=
    dropWhile_eq_self fun c first => word c (List.mem_reverse.1 (List.mem_of_mem_head? first))
  rw [dropEndWhile, List.reverse_append]
  cases optional with
  | false =>
    rw [optionalMark, if_neg Bool.false_ne_true, List.reverse_nil, List.nil_append, stop,
      List.reverse_reverse]
  | true =>
    rw [optionalMark, if_pos rfl, List.reverse_singleton, List.singleton_append,
      List.dropWhile_cons_of_pos (by decide), stop, List.reverse_reverse]

/-- A member is read as its key. -/
theorem memberKey_member (key : Word) (optional : Bool) (type : TypeTree) {blanks : Text}
    (blank : isBlankText blanks) :
    memberKey (trim (memberHead key optional ++ (type.print ++ blanks))) = key.text := by
  have solid := (trimmed_key key optional).around type.trimmed [':', ' ']
  have split : memberHead key optional ++ (type.print ++ blanks) =
      [' '] ++ ((key.text ++ optionalMark optional ++ ([':', ' '] ++ type.print)) ++ blanks) := by
    simp [memberHead]
  have colon : ':' ∉ key.text ++ optionalMark optional := by
    have word : ':' ∉ key.text :=
      fun h => Bool.noConfusion (isNameChar_of_isIdentifier key.valid ':' h)
    cases optional <;> simp [optionalMark, word]
  rw [split, trim_around (by decide) solid, trimEnd_blank blank, List.append_nil, List.cons_append,
    memberKey, cutAt?_append _ colon]
  simp only [Option.map_some, Option.getD_some, (trimmed_key key optional).trim_eq,
    dropEndWhile_key]

/-- The keys that are read off pieces; a blank piece has none. -/
def keysOf (pieces : List Text) : List Text :=
  (pieces.map fun piece => memberKey (trim piece)).filter (!·.isEmpty)

theorem keysOf_member (key : Word) (optional : Bool) (type : TypeTree) {blanks : Text}
    (blank : isBlankText blanks) (pieces : List Text) :
    keysOf ((memberHead key optional ++ (type.print ++ blanks)) :: pieces) =
      key.text :: keysOf pieces := by
  have filled : key.text ≠ [] := ne_nil_of_isWord (isWord_of_isIdentifier key.valid)
  rw [keysOf, List.map_cons, memberKey_member key optional type blank,
    List.filter_cons_of_pos (by simpa using filled)]
  rfl

theorem TypeMembers.keysOf_pieces : ∀ members : TypeMembers, keysOf members.pieces = members.keys
  | .done => by decide
  | .last key optional type => keysOf_member key optional type (by decide) []
  | .more key optional type _ rest => by
    have first : keysOf ((memberHead key optional ++ (type.print ++ [])) :: rest.pieces) = _ :=
      keysOf_member key optional type rfl rest.pieces
    rw [List.append_nil] at first
    rw [TypeMembers.pieces, first, rest.keysOf_pieces, TypeMembers.keys]

theorem filter_map_memberKey (pieces : List Text) :
    (((pieces.map trim).filter (!·.isEmpty)).map memberKey).filter (!·.isEmpty) =
      keysOf pieces := by
  induction pieces with
  | nil => rfl
  | cons piece pieces ih =>
    rw [keysOf] at ih ⊢
    rw [List.map_cons, List.map_cons]
    by_cases blank : trim piece = []
    · rw [blank, List.filter_cons_of_neg (by simp), ih, List.filter_cons_of_neg (by decide)]
    · rw [List.filter_cons_of_pos (by simpa using blank), List.map_cons, List.filter_cons,
        List.filter_cons, ih]

theorem TypeMembers.isIdentifier_of_mem_keys :
    ∀ {members : TypeMembers} {key : Text}, key ∈ members.keys → isIdentifier key
  | .last word _ _, _, mem => List.mem_singleton.1 mem ▸ word.valid
  | .more word _ _ _ rest, key, mem => by
    rcases List.mem_cons.1 mem with rfl | mem
    · exact word.valid
    · exact rest.isIdentifier_of_mem_keys mem

/-! ## The props -/

/-- The props type of a class: an object type with distinct keys. -/
structure PropsType where
  members : TypeMembers
  distinct : members.keys.Nodup

/-- The type as written. -/
def PropsType.print (type : PropsType) : Text :=
  (TypeTree.object type.members).print

theorem PropsType.classProps_print (type : PropsType) :
    classProps type.print = firstOccurrences (keysOf (piecesBehind [] type.members.print)) := by
  have unmarked : Unmarked ([] ++ '{' :: (type.members.print ++ '}' :: [])) :=
    (TypeTree.object type.members).isTypeCode.angles.unmarked
  have stop : bracketEndAt? ('{' :: (type.members.print ++ ['}'])) 0 =
      some (0 + type.members.print.length + 2) :=
    bracketEndAt?_group type.members.isTypeCode.closed .curly [] unmarked
  have inner : slice ('{' :: (type.members.print ++ ['}'])) 1
      (0 + type.members.print.length + 2 - 1) =
      type.members.print :=
    slice_bracketed [] type.members.print [] '{' '}'
  have solid : trim type.print = '{' :: (type.members.print ++ ['}']) :=
    (TypeTree.object type.members).trimmed.trim_eq
  rw [classProps, solid]
  simp only [if_true, stop, inner]
  rw [splitTopLevel, piecesOf, ← filter_map_memberKey, piecesBehind, List.map_map, List.nil_append]
  rfl

/-- The props of a class are the keys of its props type exactly if no member has a type with a comma
outside round, square and curly brackets. -/
theorem classProps_eq_keys_iff (type : PropsType) :
    classProps type.print = type.members.keys ↔ type.members.hasOuterComma = false := by
  rw [type.classProps_print]
  constructor
  · intro same
    by_contra several
    obtain ⟨piece, mem, torn, closing⟩ := type.members.exists_torn [] (Bool.of_not_eq_false several)
    obtain ⟨c, inKey, mark⟩ := exists_mem_memberKey torn closing
    have filled : memberKey (trim piece) ≠ [] := List.ne_nil_of_mem inKey
    have key : memberKey (trim piece) ∈ type.members.keys := by
      rw [← same, mem_firstOccurrences, keysOf, List.mem_filter]
      exact ⟨List.mem_map.2 ⟨piece, mem, rfl⟩, by simpa using filled⟩
    have name := isNameChar_of_isIdentifier (TypeMembers.isIdentifier_of_mem_keys key) c inKey
    rw [(isTearMark_solid mark).2.2] at name
    cases name
  · intro plain
    rw [type.members.piecesBehind_print [] plain, type.members.keysOf_pieces,
      firstOccurrences_of_nodup type.distinct]

/-- The props type with a map from strings to numbers as its one member `m`. -/
def mapProps : PropsType where
  members :=
    .last ⟨"m".toList, by decide⟩ false
      (.generic ⟨[], ⟨"Map".toList, by decide⟩, by decide⟩
        (.more (.name ⟨[], ⟨"string".toList, by decide⟩, by decide⟩)
          (.last (.name ⟨[], ⟨"number".toList, by decide⟩, by decide⟩))))
  distinct := by decide

/-- The second argument of the map is taken for a prop. -/
theorem classProps_mapProps : mapProps.print = "\x7b m: Map<string, number> \x7d".toList ∧
    classProps mapProps.print = ["m".toList, "number>".toList] := by
  decide +kernel

end Recast
