import Recast.Proofs.Markup.ChainText
import Recast.Proofs.Markup.ElementExtent
import Recast.Proofs.Markup.EmbeddedCode
import Recast.Proofs.Scope.PatternNames
import Recast.Proofs.Scope.Undeclared

/-!
# The receiver of a rendered list

A receiver is a name with member accesses, calls and indexes behind it, and the code in the brackets
is anything with closed brackets and complete literals. In `receiver.map(x => <li>\x7bx\x7d</li>)`
the call of `map` is found forwards, by a scanner that passes over brackets and literals as wholes,
and the start of the receiver backwards, by a walk that counts brackets. The receiver is taken whole
exactly if both agree (`mapped_receiver_whole_iff`): no earlier call of `map` is in it, and the
brackets that count pair off, those in its literals included (`IsChainText`).
-/

namespace Recast

/-! ## Receivers -/

/-- The content of a literal that ends at its quote, whatever follows. -/
def IsComplete (quote : Char) (content : Text) : Prop :=
  ∀ pos rest, literalEnd quote pos 0 (content ++ quote :: rest) = pos + content.length + 1

/-- Code in brackets: closed brackets, complete literals, and neither `<` nor `/` outside them. -/
inductive IsArgumentCode : Text → Prop where
  | nil : IsArgumentCode []
  | mark {c : Char} {t : Text} (plain : isPlainMark c) (rest : IsArgumentCode t) :
    IsArgumentCode (c :: t)
  | literal {quote : Char} {content t : Text} (opens : isQuote quote)
    (complete : IsComplete quote content)
    (rest : IsArgumentCode t) : IsArgumentCode (quote :: (content ++ quote :: t))
  | group (kind : Bracket) {inner t : Text} (inside : IsArgumentCode inner)
    (rest : IsArgumentCode t) :
    IsArgumentCode (kind.opener :: (inner ++ kind.closer :: t))

/-- The arguments of a call, or the index of an access. -/
structure ArgumentCode where
  text : Text
  valid : IsArgumentCode text

/-- One step of a member chain. -/
inductive ChainLink where
  | member (optional : Bool) (name : Word)
  | call (arguments : ArgumentCode)
  | index (key : ArgumentCode)

/-- A name with the steps of a member chain behind it. -/
structure Receiver where
  root : Word
  links : List ChainLink

/-- The step as text. -/
def ChainLink.print : ChainLink → Text
  | .member false name => '.' :: name.text
  | .member true name => '?' :: '.' :: name.text
  | .call arguments => '(' :: (arguments.text ++ [')'])
  | .index key => '[' :: (key.text ++ [']'])

/-- The steps as text. -/
def printLinks (links : List ChainLink) : Text :=
  links.flatMap ChainLink.print

/-- The receiver as text. -/
def Receiver.print (receiver : Receiver) : Text :=
  receiver.root.text ++ printLinks receiver.links

/-- Whether the step is a call. -/
def ChainLink.isCall : ChainLink → Bool
  | .call _ => true
  | _ => false

/-- Whether the member `map` is called in the steps. -/
def callsMap : List ChainLink → Bool
  | [] => false
  | .member _ name :: links =>
    name.text == "map".toList && links.head?.any ChainLink.isCall || callsMap links
  | _ :: links => callsMap links

/-- The name `map`. -/
def mapWord : Word :=
  ⟨"map".toList, by decide⟩

/-- The text behind a receiver that maps it to an element. -/
def mapText (item : Word) (child : Element) : Text :=
  '.' :: (mapWord.text ++ '(' :: (item.text ++ (" => ".toList ++ (child.print ++ [')']))))

/-! ## Forwards: the call of `map` -/

/-- A bracket that is looked for goes on behind code in brackets. -/
theorem IsArgumentCode.bracketEnd_eq {t : Text} (code : IsArgumentCode t) (kind : Bracket) :
    ∀ (depth : Nat) (behind : Text) (pos : Nat) (rest : Text),
      bracketEnd kind depth behind pos 0 (t ++ rest) =
        bracketEnd kind depth (t.reverse ++ behind) (pos + t.length) 0 rest := by
  induction code with
  | nil => intros; rfl
  | @mark c t plain _ ih =>
    intro depth behind pos rest
    rw [List.cons_append, bracketEnd_plainChar (isPlainMark_iff.1 plain).1,
      if_neg (ne_opener_of_isPlainMark plain kind), if_neg (ne_closer_of_isPlainMark plain kind),
      ih]
    simp [Nat.add_assoc, Nat.add_comm 1]
  | @literal quote content t opens complete _ ih =>
    intro depth behind pos rest
    rw [List.cons_append, List.append_assoc, List.cons_append,
      bracketEnd_literal opens kind depth behind pos (complete (pos + 1) _), ih]
    simp only [List.reverse_cons, List.reverse_append, List.append_assoc, List.length_cons,
      List.length_append, List.singleton_append]
    congr 1
    omega
  | @group other inner t _ _ ihInner ih =>
    intro depth behind pos rest
    rw [List.cons_append, List.append_assoc, List.cons_append, bracketEnd_open, ihInner,
      bracketEnd_close, ih]
    simp only [List.reverse_cons, List.reverse_append, List.append_assoc, List.length_cons,
      List.length_append, List.singleton_append]
    congr 1
    omega

theorem isArgumentCode_plain : ∀ {t : Text}, (∀ c ∈ t, isPlainMark c) → IsArgumentCode t
  | [], _ => .nil
  | c :: _, plain => .mark (plain c List.mem_cons_self)
    (isArgumentCode_plain fun d hd => plain d (List.mem_cons_of_mem _ hd))

section TopLevel

variable {pattern : Pattern}

theorem topLevelFrom_of_le : ∀ (t : Text) {behind : Text} {pos resume : Nat}, resume ≤ pos →
    topLevelFrom pattern behind pos resume t = topLevelFrom pattern behind pos 0 t
  | [], _, _, _, _ => rfl
  | c :: cs, behind, pos, resume, le => by
    have tail : topLevelFrom pattern (c :: behind) (pos + 1) resume cs =
        topLevelFrom pattern (c :: behind) (pos + 1) 0 cs := topLevelFrom_of_le cs (by omega)
    rw [topLevelFrom, topLevelFrom]
    simp only [Nat.not_lt.2 le, Nat.not_lt_zero, if_false, tail]

theorem topLevelFrom_skip (rest : Text) : ∀ (t behind : Text) (pos : Nat),
    topLevelFrom pattern behind pos (pos + t.length) (t ++ rest) =
      topLevelFrom pattern (t.reverse ++ behind) (pos + t.length) 0 rest
  | [], behind, pos => topLevelFrom_of_le rest (Nat.le_refl _)
  | c :: cs, behind, pos => by
    have tail := topLevelFrom_skip rest cs (c :: behind) (pos + 1)
    rw [List.cons_append, topLevelFrom, if_pos (by simp), List.length_cons, ← Nat.add_assoc,
      Nat.add_right_comm, tail]
    simp

theorem unitEnd?_plain {c : Char} (plain : isPlainMark c) (pos : Nat) (behind cs : Text) :
    unitEnd? pos behind c cs = none := by
  obtain ⟨code, opener, -⟩ := isPlainMark_iff.1 plain
  rw [unitEnd?, nestedEnd?_eq_none opener]
  exact opaqueEndBy_plain code _ _ _ _ _

/-- A character without meaning that starts no match is passed over. -/
theorem topLevelFrom_mark {c : Char} (plain : isPlainMark c) {behind cs : Text}
    (none : pattern behind (c :: cs) = none)
    (pos : Nat) : topLevelFrom pattern behind pos 0 (c :: cs) =
      topLevelFrom pattern (c :: behind) (pos + 1) 0 cs := by
  rw [topLevelFrom, if_neg (Nat.not_lt_zero _), unitEnd?_plain plain, none]

/-- A match is listed. -/
theorem topLevelFrom_match {c : Char} (plain : isPlainMark c) {behind cs : Text} {size : Nat}
    (found : pattern behind (c :: cs) = some size) (pos : Nat) :
    topLevelFrom pattern behind pos 0 (c :: cs) =
      ⟨pos, pos + size⟩ :: topLevelFrom pattern (c :: behind) (pos + 1) (pos + size) cs := by
  rw [topLevelFrom, if_neg (Nat.not_lt_zero _), unitEnd?_plain plain, found]

/-- A group in brackets is passed over. -/
theorem topLevelFrom_group (kind : Bracket) (code : ArgumentCode) (behind rest : Text) (pos : Nat) :
    topLevelFrom pattern behind pos 0 (kind.opener :: (code.text ++ [kind.closer]) ++ rest) =
      topLevelFrom pattern ((kind.opener :: (code.text ++ [kind.closer])).reverse ++ behind)
        (pos + (kind.opener :: (code.text ++ [kind.closer])).length) 0 rest := by
  have skip : topLevelFrom pattern (kind.opener :: behind) (pos + 1)
      _ (code.text ++ [kind.closer] ++ rest) = _ :=
    topLevelFrom_skip rest (code.text ++ [kind.closer]) (kind.opener :: behind) (pos + 1)
  have stop : nestedEnd? pos kind.opener (code.text ++ [kind.closer] ++ rest) =
      some (pos + 1 + (code.text ++ [kind.closer]).length) := by
    rw [nestedEnd?, ofOpener?_opener, Option.map_some, List.append_assoc, List.singleton_append,
      code.valid.bracketEnd_eq, bracketEnd_closer]
    simp [Nat.add_assoc]
  rw [List.cons_append, topLevelFrom, if_neg (Nat.not_lt_zero _), unitEnd?, stop]
  dsimp only
  rw [skip]
  simp [Nat.add_assoc, Nat.add_comm 1]

end TopLevel

/-- The text goes on with no part of a name, and not with a blank. -/
def EndsName (rest : Text) : Prop :=
  ∀ c, rest.head? = some c → isNameChar c = false ∧ isBlank c = false

theorem EndsName.trimStart_eq {rest : Text} (ends : EndsName rest) : trimStart rest = rest :=
  trimStart_eq_self fun c head => (ends c head).2

/-- A call of `map` starts with a dot. -/
theorem mapCall_other {c : Char} (other : c ≠ '.') (behind cs : Text) :
    mapCall behind (c :: cs) = none := by
  have dot : dropHead? ".".toList (c :: cs) = none := dropHead?_eq_none other.symm [] cs
  rw [mapCall, dot]
  rfl

/-- A member is a call of `map` exactly if it is `map` and a call follows. -/
theorem mapCall_member (name : Word) {rest : Text} (ends : EndsName rest) (behind : Text) :
    mapCall behind ('.' :: (name.text ++ rest)) =
      if name.text = "map".toList ∧ rest.head? = some '(' then some 5 else none := by
  have names := isNameChar_of_isIdentifier name.valid
  have past : PastWord rest := fun c head => (ends c head).1
  have dot : dropHead? ".".toList ('.' :: (name.text ++ rest)) = some (name.text ++ rest) :=
    dropHead?_append ['.'] (name.text ++ rest)
  have solid : trimStart (name.text ++ rest) = name.text ++ rest := by
    obtain ⟨c, cs, cons, first⟩ := (trimmed_of_isIdentifier name.valid).first
    exact trimStart_eq_self (by simp [cons, first])
  rw [mapCall, dot, Option.bind_eq_bind, Option.bind_some, solid]
  by_cases call : name.text = "map".toList
  · have word : dropHead? "map".toList (name.text ++ rest) = some rest := by
      rw [call, dropHead?_append]
    rw [word, Option.bind_some, ends.trimStart_eq]
    cases rest with
    | nil => simp [dropHead?, call]
    | cons c cs =>
      by_cases bracket : c = '('
      · subst bracket
        have opens : dropHead? "(".toList ('(' :: cs) = some cs := dropHead?_append ['('] cs
        have size : ('.' :: ("map".toList ++ '(' :: cs)).length - cs.length = 5 := by
          rw [List.length_cons, List.length_append, List.length_cons,
            show "map".toList.length = 3 from rfl]
          omega
        rw [opens, if_pos ⟨call, rfl⟩, call, Option.bind_some, size]
      · have other : dropHead? "(".toList (c :: cs) = none :=
          dropHead?_eq_none (Ne.symm bracket) [] cs
        rw [other, if_neg (by simp [bracket])]
        rfl
  · rw [if_neg (call ·.1)]
    cases word : dropHead? "map".toList (name.text ++ rest) with
    | none => rfl
    | some tail =>
      -- the name is longer than `map`, so no bracket follows
      obtain ⟨c, cs, rfl, inside⟩ : ∃ c cs, tail = c :: cs ∧ isNameChar c := by
        by_contra none
        have stops : PastWord tail := by
          intro c head
          obtain ⟨cs, rfl⟩ := List.head?_eq_some_iff.1 head
          by_contra inside
          exact none ⟨c, cs, rfl, Bool.of_not_eq_false inside⟩
        exact call (dropHead?_keyword (by decide) names past word stops).1
      have solid : trimStart (c :: cs) = c :: cs :=
        trimStart_eq_self (by simp [not_isBlank_of_isNameChar inside])
      have other : c ≠ '(' := by
        rintro rfl
        cases inside
      have bracket : dropHead? "(".toList (c :: cs) = none := dropHead?_eq_none other.symm [] cs
      rw [Option.bind_some, solid, bracket]
      rfl

/-- Behind a name that is passed over there is the rest. -/
theorem topLevelFrom_word (word : Word) (behind rest : Text) (pos : Nat) :
    topLevelFrom mapCall behind pos 0 (word.text ++ rest) =
      topLevelFrom mapCall (word.text.reverse ++ behind) (pos + word.text.length) 0 rest := by
  have passed : ∀ (t : Text), (∀ c ∈ t, isNameChar c) → ∀ (behind : Text) (pos : Nat),
      topLevelFrom mapCall behind pos 0 (t ++ rest) =
        topLevelFrom mapCall (t.reverse ++ behind) (pos + t.length) 0 rest := by
    intro t
    induction t with
    | nil => intros; rfl
    | cons c cs ih =>
      intro names behind pos
      have name := names c List.mem_cons_self
      have other : c ≠ '.' := by
        rintro rfl
        cases name
      rw [List.cons_append,
        topLevelFrom_mark (isPlainMark_of_isNameChar name) (mapCall_other other _ _),
        ih fun d hd => names d (List.mem_cons_of_mem _ hd)]
      simp [Nat.add_assoc, Nat.add_comm 1]
  exact passed word.text (isNameChar_of_isIdentifier word.valid) behind pos

section Links

variable {rest : Text}

/-- The place of a member among other text: its dot is a match, or it is passed over. -/
theorem topLevelFrom_dot (name : Word) (ends : EndsName rest) (behind : Text) (pos : Nat) :
    topLevelFrom mapCall behind pos 0 ('.' :: (name.text ++ rest)) =
      if name.text = "map".toList ∧ rest.head? = some '(' then
        ⟨pos, pos + 5⟩ :: topLevelFrom mapCall ('.' :: behind) (pos + 1) (pos + 5)
          (name.text ++ rest)
      else
        topLevelFrom mapCall (('.' :: name.text).reverse ++ behind)
          (pos + ('.' :: name.text).length) 0 rest := by
  have here := mapCall_member name ends behind
  split
  · rename_i call
    rw [if_pos call] at here
    exact topLevelFrom_match (by decide) here pos
  · rename_i other
    rw [if_neg other] at here
    rw [topLevelFrom_mark (by decide) here, topLevelFrom_word]
    simp [Nat.add_assoc, Nat.add_comm 1]

theorem topLevelFrom_question (behind : Text) (pos : Nat) :
    topLevelFrom mapCall behind pos 0 ('?' :: rest) =
      topLevelFrom mapCall ('?' :: behind) (pos + 1) 0 rest :=
  topLevelFrom_mark (by decide) (mapCall_other (by decide) _ _) pos

/-- A step that is no call of `map` is passed over. -/
theorem topLevelFrom_link (ends : EndsName rest) : ∀ (link : ChainLink),
    (∀ optional name, link = .member optional name →
      ¬ (name.text = "map".toList ∧ rest.head? = some '(')) →
      ∀ (behind : Text) (pos : Nat), topLevelFrom mapCall behind pos 0 (link.print ++ rest) =
        topLevelFrom mapCall (link.print.reverse ++ behind) (pos + link.print.length) 0 rest
  | .member false name, other, behind, pos => by
    rw [ChainLink.print, List.cons_append, topLevelFrom_dot name ends,
      if_neg (other false name rfl)]
  | .member true name, other, behind, pos => by
    rw [ChainLink.print, List.cons_append, List.cons_append, topLevelFrom_question,
      topLevelFrom_dot name ends, if_neg (other true name rfl)]
    simp [Nat.add_assoc, Nat.add_comm 1]
  | .call arguments, _, behind, pos => topLevelFrom_group .round arguments behind rest pos
  | .index key, _, behind, pos => topLevelFrom_group .square key behind rest pos

/-- A call of `map` is the first match. -/
theorem exists_topLevelFrom_member (optional : Bool) (name : Word) (ends : EndsName rest)
    (call : name.text = "map".toList ∧ rest.head? = some '(') (behind : Text) (pos : Nat) :
    ∃ found others,
      topLevelFrom mapCall behind pos 0 ((ChainLink.member optional name).print ++ rest) =
        found :: others ∧
        found.start < pos + (ChainLink.member optional name).print.length := by
  cases optional with
  | false =>
    rw [ChainLink.print, List.cons_append, topLevelFrom_dot name ends, if_pos call]
    exact ⟨_, _, rfl, by simp⟩
  | true =>
    rw [ChainLink.print, List.cons_append, List.cons_append, topLevelFrom_question,
      topLevelFrom_dot name ends, if_pos call]
    exact ⟨_, _, rfl, by simp⟩

/-- What follows a receiver ends its last name, and is no call. -/
def EndsChain (rest : Text) : Prop :=
  EndsName rest ∧ rest.head? ≠ some '('

theorem ChainLink.print_starts : ∀ link : ChainLink, ∃ c cs, link.print = c :: cs ∧
    isNameChar c = false ∧ isBlank c = false ∧ (c = '(' ↔ link.isCall)
  | .member false name => ⟨'.', name.text, rfl, by decide, by decide, by simp [isCall]⟩
  | .member true name => ⟨'?', '.' :: name.text, rfl, by decide, by decide, by simp [isCall]⟩
  | .call arguments => ⟨'(', arguments.text ++ [')'], rfl, by decide, by decide, by simp [isCall]⟩
  | .index key => ⟨'[', key.text ++ [']'], rfl, by decide, by decide, by simp [isCall]⟩

theorem endsName_links (ends : EndsChain rest) (links : List ChainLink) :
    EndsName (printLinks links ++ rest) := by
  cases links with
  | nil => exact ends.1
  | cons link links =>
    obtain ⟨c, cs, print, name, blank, -⟩ := link.print_starts
    intro d head
    rw [printLinks, List.flatMap_cons, print] at head
    obtain rfl := Option.some.inj head
    exact ⟨name, blank⟩

/-- A bracket follows a name exactly if the step behind it is a call. -/
theorem head?_links (ends : EndsChain rest) (links : List ChainLink) :
    (printLinks links ++ rest).head? = some '(' ↔ links.head?.any ChainLink.isCall := by
  cases links with
  | nil => simpa [printLinks] using ends.2
  | cons link links =>
    obtain ⟨c, cs, print, -, -, call⟩ := link.print_starts
    rw [List.head?_cons, Option.any_some, ← call, printLinks, List.flatMap_cons, print]
    simp

/-- Steps without a call of `map` are passed over. -/
theorem topLevelFrom_links (ends : EndsChain rest) :
    ∀ (links : List ChainLink), callsMap links = false →
    ∀ (behind : Text) (pos : Nat), topLevelFrom mapCall behind pos 0 (printLinks links ++ rest) =
      topLevelFrom mapCall ((printLinks links).reverse ++ behind) (pos + (printLinks links).length)
        0 rest
  | [], _, _, _ => rfl
  | link :: links, other, behind, pos => by
    have here : ∀ optional name, link = .member optional name →
        ¬ (name.text = "map".toList ∧ (printLinks links ++ rest).head? = some '(') := by
      rintro optional name rfl ⟨same, call⟩
      rw [head?_links ends] at call
      simp [callsMap, same, call] at other
    have later : callsMap links = false := by
      cases link with
      | member optional name => exact (Bool.or_eq_false_iff.1 other).2
      | call arguments => exact other
      | index key => exact other
    have split : printLinks (link :: links) = link.print ++ printLinks links := List.flatMap_cons
    rw [split, List.append_assoc, topLevelFrom_link (endsName_links ends links) link here,
      topLevelFrom_links ends links later]
    simp [Nat.add_assoc]

/-- The first call of `map` in the steps is found before their end. -/
theorem exists_topLevelFrom_links (ends : EndsChain rest) :
    ∀ (links : List ChainLink), callsMap links →
    ∀ (behind : Text) (pos : Nat), ∃ found others,
      topLevelFrom mapCall behind pos 0 (printLinks links ++ rest) = found :: others ∧
        found.start < pos + (printLinks links).length
  | link :: links, maps, behind, pos => by
    have split : printLinks (link :: links) = link.print ++ printLinks links := List.flatMap_cons
    rw [split, List.append_assoc, List.length_append]
    by_cases here : ∃ optional name, link = .member optional name ∧ name.text = "map".toList ∧
        (printLinks links ++ rest).head? = some '('
    · obtain ⟨optional, name, rfl, call⟩ := here
      obtain ⟨found, others, first, before⟩ :=
        exists_topLevelFrom_member optional name (endsName_links ends links) call behind pos
      exact ⟨found, others, first, by omega⟩
    · have later : callsMap links := by
        cases link with
        | member optional name =>
          rcases Bool.or_eq_true_iff.1 maps with call | later
          · rw [Bool.and_eq_true, beq_iff_eq] at call
            exact absurd ⟨optional, name, rfl, call.1, (head?_links ends links).2 call.2⟩ here
          · exact later
        | call arguments => exact maps
        | index key => exact maps
      rw [topLevelFrom_link (endsName_links ends links) link fun optional name same call =>
        here ⟨optional, name, same, call⟩]
      obtain ⟨found, others, first, before⟩ := exists_topLevelFrom_links ends links later
        (link.print.reverse ++ behind) (pos + link.print.length)
      exact ⟨found, others, first, by omega⟩

end Links

section Mapped

variable (receiver : Receiver) (item : Word) (child : Element)

/-- A receiver that is mapped to an element. -/
def mappedText : Text :=
  receiver.print ++ mapText item child

theorem endsChain_mapText : EndsChain (mapText item child) := by
  refine ⟨fun c head => ?_, by simp [mapText]⟩
  obtain rfl := Option.some.inj head
  decide

/-- The calls of `map` are looked for behind the first name. -/
theorem topLevelMatches_mapped : topLevelMatches (mappedText receiver item child) mapCall 0 =
    topLevelFrom mapCall (receiver.root.text.reverse ++ []) (0 + receiver.root.text.length) 0
      (printLinks receiver.links ++ mapText item child) := by
  rw [topLevelMatches, List.drop_zero, mappedText, Receiver.print, List.append_assoc,
    topLevelFrom_word]
  rfl

/-- In a receiver without a call of `map` the first one is behind it. -/
theorem head?_topLevelMatches (once : callsMap receiver.links = false) :
    (topLevelMatches (mappedText receiver item child) mapCall 0).head? =
      some ⟨receiver.print.length, receiver.print.length + 5⟩ := by
  have ends : EndsName ('(' :: (item.text ++ (" => ".toList ++ (child.print ++ [')'])))) := by
    rintro c ⟨⟩
    decide
  rw [topLevelMatches_mapped, topLevelFrom_links (endsChain_mapText item child) _ once, mapText,
    topLevelFrom_dot mapWord ends, if_pos ⟨rfl, rfl⟩, List.head?_cons, Nat.zero_add,
    ← List.length_append]
  rfl

/-- A call of `map` in the receiver is the first one. -/
theorem exists_head?_topLevelMatches (maps : callsMap receiver.links) : ∃ found : Span,
    (topLevelMatches (mappedText receiver item child) mapCall 0).head? = some found ∧
      found.start < receiver.print.length := by
  obtain ⟨found, others, first, before⟩ :=
    exists_topLevelFrom_links (endsChain_mapText item child) receiver.links maps
    (receiver.root.text.reverse ++ []) (0 + receiver.root.text.length)
  refine ⟨found, by rw [topLevelMatches_mapped, first, List.head?_cons], ?_⟩
  rw [Receiver.print, List.length_append]
  omega

/-! ## Backwards: the receiver -/

/-- The last character of the text is part of a name or a closing bracket. -/
def EndsStep (t : Text) : Prop :=
  ∃ cs c, t = cs ++ [c] ∧ (isNameChar c ∨ isCloser c)

theorem EndsStep.prepend {t : Text} (h : EndsStep t) (front : Text) : EndsStep (front ++ t) := by
  obtain ⟨cs, c, rfl, last⟩ := h
  exact ⟨front ++ cs, c, (List.append_assoc ..).symm, last⟩

theorem Word.endsStep (word : Word) : EndsStep word.text := by
  have filled := ne_nil_of_isWord (isWord_of_isIdentifier word.valid)
  exact ⟨_, _, (List.dropLast_append_getLast filled).symm,
    .inl (isNameChar_of_isIdentifier word.valid _ (List.getLast_mem filled))⟩

theorem ChainLink.endsStep : ∀ link : ChainLink, EndsStep link.print
  | .member false name => name.endsStep.prepend ['.']
  | .member true name => name.endsStep.prepend ['?', '.']
  | .call arguments => ⟨'(' :: arguments.text, ')', rfl, .inr rfl⟩
  | .index key => ⟨'[' :: key.text, ']', rfl, .inr rfl⟩

theorem Receiver.endsStep : EndsStep receiver.print := by
  rcases List.eq_nil_or_concat receiver.links with none | ⟨front, link, some⟩
  · rw [print, none, printLinks, List.flatMap_nil, List.append_nil]
    exact receiver.root.endsStep
  · rw [print, some, List.concat_eq_append, printLinks, List.flatMap_append, List.flatMap_singleton,
      ← List.append_assoc]
    exact link.endsStep.prepend _

theorem solid_of_ends {c : Char} (last : isNameChar c ∨ isCloser c) :
    isBlank c = false ∧ isLayout c = false ∧ c ≠ '?' := by
  have marks : ∀ d ∈ ['?', ' ', '\t', '\r', '\n'], isNameChar d = false ∧ isCloser d = false := by
    decide
  have other : c ∉ ['?', ' ', '\t', '\r', '\n'] := by
    intro mark
    simp [marks c mark] at last
  simp only [List.mem_cons, List.not_mem_nil, or_false, not_or] at other
  refine ⟨?_, by simp [isLayout, other], other.1⟩
  rcases last with name | closer
  · exact not_isBlank_of_isNameChar name
  · have closers : ∀ d ∈ [')', ']', '}'], isBlank d = false := by decide
    exact closers c (by simpa [isCloser, or_assoc] using closer)

theorem Receiver.trimmed : Trimmed receiver.print := by
  obtain ⟨c, cs, cons, solid⟩ := (trimmed_of_isIdentifier receiver.root.valid).first
  obtain ⟨ds, d, snoc, last⟩ := receiver.endsStep
  exact ⟨⟨c, cs ++ printLinks receiver.links, by rw [print, cons, List.cons_append], solid⟩, ds,
    d, snoc,
    (solid_of_ends last).1⟩

/-- Where the walk from the call of `map` back over the receiver ends. -/
def Receiver.walkEnd : Nat :=
  chainStart (some '.') receiver.print.length receiver.print.reverse

theorem operandStart_mapped :
    operandStart (mappedText receiver item child) receiver.print.length = receiver.walkEnd := by
  obtain ⟨cs, c, snoc, last⟩ := receiver.endsStep
  have chain : receiver.print.reverse.dropWhile isLayout = receiver.print.reverse :=
    dropWhile_eq_self (by simp [snoc, (solid_of_ends last).2.1])
  rw [operandStart, mappedText, List.take_left]
  simp only [chain, List.length_reverse, List.drop_left]
  rfl

/-- The walk ends at the start of a receiver exactly if it is a chain to the walk, too. -/
theorem Receiver.walkEnd_eq_zero_iff : receiver.walkEnd = 0 ↔ IsChainText receiver.print := by
  rw [walkEnd, chainStart_eq_zero_iff receiver.print (some '.') (Nat.le_refl _), ChainsTo]
  refine or_iff_left ?_
  rintro ⟨-, u, split, -⟩
  obtain ⟨cs, c, snoc, last⟩ := receiver.endsStep
  rw [snoc] at split
  exact (solid_of_ends last).2.2 (List.singleton_inj.1 (List.append_inj' split rfl).2)

/-! ## The rendered list -/

theorem arrowHead?_item :
    arrowHead? (item.text ++ (" => ".toList ++ child.print)) = some (item.text, child.print) := by
  have names := isNameChar_of_isIdentifier item.valid
  have past : PastWord (" => ".toList ++ child.print) := by
    rintro c ⟨⟩
    decide
  obtain ⟨c, cs, cons, solid⟩ := (trimmed_of_isIdentifier item.valid).first
  have name : isNameChar c := names c (by simp [cons])
  have other : c ≠ '(' := by
    rintro rfl
    cases name
  have params : arrowParams? (item.text ++ (" => ".toList ++ child.print)) =
      some (item.text, " => ".toList ++ child.print) := by
    have word := wordAhead_append names past
    have after := afterWord_append names past
    rw [wordAhead] at word
    rw [afterWord] at after
    rw [arrowParams?.eq_def]
    simp only [cons, List.cons_append] at word after ⊢
    rw [if_neg other, if_pos name, word, after]
  have start : trimStart (item.text ++ (" => ".toList ++ child.print)) =
      item.text ++ (" => ".toList ++ child.print) :=
    trimStart_eq_self (by simp [cons, solid])
  have arrow : trimStart (" => ".toList ++ child.print) = "=>".toList ++ (' ' :: child.print) := rfl
  have body : trimStart (' ' :: child.print) = child.print := by
    rw [child.print_eq]
    rfl
  rw [arrowHead?, start, params]
  dsimp only
  rw [arrow, dropHead?_append, Option.map_some, body]

theorem callbackMarkup_element : callbackMarkup child.print = .ok (some child.print) := by
  have ends := elementEndAt_print child
  rw [child.print_eq, callbackMarkup, if_pos rfl, ends, ← child.print_eq]
  simp [Except.map]

theorem bracketEndAt?_mapped :
    bracketEndAt? (mappedText receiver item child) (receiver.print.length + 4) =
    some (mappedText receiver item child).length := by
  have here : (mappedText receiver item child).drop (receiver.print.length + 4) =
      '(' :: ((item.text ++ " => ".toList) ++ (child.print ++ [')'])) := by
    have split : mappedText receiver item child =
        (receiver.print ++ '.' :: mapWord.text) ++
          '(' :: ((item.text ++ " => ".toList) ++ (child.print ++ [')'])) := by
      simp [mappedText, mapText]
    rw [split]
    exact List.drop_left' (List.length_append.trans rfl)
  have lead : IsArgumentCode (item.text ++ " => ".toList) := by
    refine isArgumentCode_plain fun c hc => ?_
    have marks : ∀ d ∈ " => ".toList, isPlainMark d := by decide
    rcases List.mem_append.1 hc with hc | hc
    · exact isPlainMark_of_isNameChar (isNameChar_of_isIdentifier item.valid c hc)
    · exact marks c hc
  have value : opensValue ((item.text ++ " => ".toList).reverse ++ ['(']) := by
    rw [List.reverse_append]
    rfl
  have kind : Bracket.ofOpener? '(' = some .round := rfl
  have close : bracketEnd .round 0 _ _ 0 (')' :: []) = _ := bracketEnd_closer .round
    (child.print.reverse ++ ((item.text ++ " => ".toList).reverse ++ ['(']))
    (receiver.print.length + 4 + 1 + (item.text ++ " => ".toList).length + child.print.length) []
  rw [bracketEndAt?, here]
  dsimp only
  rw [kind, Option.bind_some, lead.bracketEnd_eq,
    child.isWhole.bracketEnd_eq .round 0 (child.isWhole.opensMarkup_eq value _), close, mappedText,
    mapText]
  simp only [List.length_append, List.length_cons, List.length_nil,
    show mapWord.text.length = 3 from rfl]
  congr 1
  omega

/-- The rendered list of a receiver without a call of `map`: its collection starts where the walk
ends. -/
theorem listCall?_mapped (once : callsMap receiver.links = false) :
    listCall? (mappedText receiver item child) = .ok
      (if (trim (receiver.print.drop receiver.walkEnd)).isEmpty then none
      else some ⟨receiver.print.take receiver.walkEnd, trim (receiver.print.drop receiver.walkEnd),
        item.text, child.print,
        []⟩) := by
  have short : receiver.walkEnd ≤ receiver.print.length := by
    have walk := chainStart_le receiver.print.reverse (some '.') receiver.print.length
    rwa [List.length_reverse] at walk
  have before : (mappedText receiver item child).take receiver.walkEnd =
      receiver.print.take receiver.walkEnd :=
    List.take_append_of_le_length short
  have collection : slice (mappedText receiver item child) receiver.walkEnd receiver.print.length =
      receiver.print.drop receiver.walkEnd := by
    rw [slice, mappedText, List.take_left]
  have body : slice (mappedText receiver item child) (receiver.print.length + 5)
      ((mappedText receiver item child).length - 1) =
        item.text ++ (" => ".toList ++ child.print) := by
    refine slice_eq (receiver.print ++ '.' :: (mapWord.text ++ ['('])) [')'] ?_ ?_ ?_
    · simp [mappedText, mapText]
    · rw [List.length_append]
      rfl
    · simp only [mappedText, mapText, List.length_append, List.length_cons, List.length_nil]
      omega
  have call : bracketEndAt? (mappedText receiver item child) (receiver.print.length + 5 - 1) =
      some (mappedText receiver item child).length := bracketEndAt?_mapped receiver item child
  have after : (mappedText receiver item child).drop (mappedText receiver item child).length = [] :=
    List.drop_length
  have continues : continuesChain [] = false := rfl
  rw [listCall?, head?_topLevelMatches receiver item child once]
  dsimp only
  rw [operandStart_mapped, collection, call]
  dsimp only
  rw [after, continues, Bool.or_false, body, arrowHead?_item, before]
  dsimp only
  rw [trim_element, callbackMarkup_element]
  split
  · rfl
  · rfl

end Mapped

/-- The collection of a rendered list stands before the first call of `map`. -/
theorem length_collection_le {t : Text} {found : Span}
    (first : (topLevelMatches t mapCall 0).head? = some found)
    {call : ListCall} (h : listCall? t = .ok (some call)) :
    call.collection.length ≤ found.start := by
  rw [listCall?, first] at h
  dsimp only at h
  split at h
  · cases h
  · split at h
    · cases h
    · split at h
      · cases h
      · rename_i params body _
        cases rendered : callbackMarkup (trim body) with
        | error fault =>
          rw [rendered] at h
          cases h
        | ok item? =>
          rw [rendered] at h
          obtain ⟨item, -, rfl⟩ := Option.map_eq_some_iff.1 (Except.ok.inj h)
          have short := length_trim_le (slice t (operandStart t found.start) found.start)
          have part : (slice t (operandStart t found.start) found.start).length ≤ found.start := by
            rw [slice, List.length_drop, List.length_take]
            omega
          exact Nat.le_trans short part

/-- A receiver is the collection of its rendered list exactly if no call of `map` is in it and the
walk back over it ends at its start. -/
theorem Receiver.listCall?_iff (receiver : Receiver) (item : Word) (child : Element) :
    listCall? (mappedText receiver item child) =
      .ok (some ⟨[], receiver.print, item.text, child.print, []⟩) ↔
      callsMap receiver.links = false ∧ IsChainText receiver.print := by
  cases maps : callsMap receiver.links with
  | true =>
    obtain ⟨found, first, before⟩ := exists_head?_topLevelMatches receiver item child maps
    simp only [Bool.true_eq_false, false_and, iff_false]
    intro whole
    exact Nat.not_le_of_lt before (length_collection_le first whole)
  | false =>
    obtain ⟨c, cs, cons, -⟩ := receiver.trimmed.first
    rw [listCall?_mapped receiver item child maps, ← receiver.walkEnd_eq_zero_iff]
    constructor
    · intro whole
      refine ⟨rfl, ?_⟩
      split at whole
      · cases whole
      · have before := congrArg ListCall.before (Option.some.inj (Except.ok.inj whole))
        exact (List.take_eq_nil_iff.1 before).resolve_right (by simp [cons])
    · rintro ⟨-, start⟩
      rw [start, List.drop_zero, List.take_zero, receiver.trimmed.trim_eq, if_neg (by simp [cons])]

/-! ## The call that is written -/

/-- The code of a name. -/
def Word.brace (word : Word) : BraceCode where
  text := word.text
  plain c hc :=
    (isPlainMark_iff.1 (isPlainMark_of_isNameChar (isNameChar_of_isIdentifier word.valid c hc))).1
  closed := closesFrom_of_not_mem
    (fun h => Bool.noConfusion (isNameChar_of_isIdentifier word.valid _ h))
    fun h => Bool.noConfusion (isNameChar_of_isIdentifier word.valid _ h)

/-- The markup of a list item that shows a name. -/
def itemMarkup (item : Word) : Text :=
  "<li>\x7b".toList ++ item.text ++ "\x7d</li>".toList

theorem emptyRun_valid : ∀ c ∈ ([] : Text), c ≠ '<' ∧ c ≠ '{' := by simp

/-- The list item as a tree. -/
def listItem (item : Word) : Element :=
  .paired (.named ⟨"li".toList, by decide⟩ [])
    (.expression ⟨[], emptyRun_valid⟩ item.brace (.last ⟨[], emptyRun_valid⟩))

theorem print_listItem (item : Word) : (listItem item).print = itemMarkup item := by
  unfold itemMarkup
  rw [listItem, Element.print, OpeningTag.print, Children.print, Children.print, BraceCode.print]
  simp only [List.nil_append, List.append_nil, List.cons_append, List.append_assoc]
  rfl

theorem values_brace (word : Word) : word.brace.values = [word.text] := by
  have solid := trimmed_of_isIdentifier word.valid
  obtain ⟨c, cs, cons, first⟩ := solid.first
  have filled : isBlankText word.text = false := by
    rw [cons, isBlankText, List.all_cons, first, Bool.false_and]
  rw [BraceCode.values, if_neg (by simp [Word.brace, filled])]
  exact congrArg (fun value => [value]) solid.trim_eq

/-- The view of a list item. -/
def itemView (item : Word) : Text :=
  "View(\x7b children: ".toList ++ item.text ++ " \x7d)".toList

theorem recast_listItem (item : Word) : (listItem item).recast.result = .ok (itemView item) := by
  have rule : tagRule? "li".toList = some ⟨.container, none, none⟩ := by decide
  have values :
      (Children.expression ⟨[], emptyRun_valid⟩ item.brace (.last ⟨[], emptyRun_valid⟩)).recast =
      pure [item.text] := by
    rw [Children.recast, Children.recast, values_brace]
    rfl
  have children : childrenPart (childrenValue [item.text]) = "children: ".toList ++ item.text := by
    have filled := ne_nil_of_isWord (isWord_of_isIdentifier item.valid)
    rw [childrenValue, childrenPart, if_neg (by simpa using filled)]
  have call : constructorCall TagKind.container.constructor [propertyList [],
      childrenPart (childrenValue [item.text])] =
      itemView item := by
    have present : [propertyList [], "children: ".toList ++ item.text].filter (!·.isEmpty) =
        ["children: ".toList ++ item.text] := rfl
    rw [children, constructorCall, present]
    rfl
  have properties : recastWritten [] = pure (propertyList []) := rfl
  rw [listItem, Element.recast, recastTag]
  dsimp only [OpeningTag.name, OpeningTag.attributes]
  rw [rule]
  dsimp only
  rw [values, properties]
  simp only [pure_bind, callFor, call]
  rfl

/-- The dynamic list of a collection, with a view of each item. -/
def listOf (collection : Text) (item : Word) : Text :=
  "DynamicList(\x7b data: ".toList ++ collection ++ ", renderItem: (".toList ++ item.text ++
    ") => ".toList ++
    itemView item ++ " \x7d)".toList

/-- What becomes of the rendered list that is read off a text, if no markup is before it. -/
theorem recastExpression_result {t before collection : Text} {item : Word}
    (found : listCall? t = .ok (some ⟨before, collection, item.text, itemMarkup item, []⟩))
    (plain : '<' ∉ before) :
    (recastExpression t).result = .ok (before ++ listOf collection item) := by
  have rendered : (recastMarkup (itemMarkup item)).result = .ok (itemView item) := by
    rw [← print_listItem, recastMarkup_print, recast_listItem]
  have value : before ++ dynamicList ⟨before, collection, item.text, itemMarkup item, []⟩
      (itemView item) ++ [] =
      before ++ listOf collection item := List.append_nil _
  rw [recastExpression_of_some found, Outcome.bind_result_eq_ok]
  refine ⟨(), rfl, ?_⟩
  rw [Outcome.bind_result_eq_ok]
  refine ⟨itemView item, rendered, ?_⟩
  rw [recastEmbedded_eq_pure plain, recastEmbedded_eq_pure (by simp), pure_bind, pure_bind, value]
  rfl

/-- The code that maps a receiver to list items. -/
def Receiver.mapped (receiver : Receiver) (item : Word) : Text :=
  receiver.print ++ ".map(".toList ++ item.text ++ " => ".toList ++ itemMarkup item ++ ")".toList

theorem Receiver.mapped_eq (receiver : Receiver) (item : Word) :
    receiver.mapped item = mappedText receiver item (listItem item) := by
  rw [mapped, mappedText, mapText, print_listItem]
  simp only [List.append_assoc]
  rfl

/-- The receiver of a rendered list is its collection exactly if no call of `map` is in the receiver
and all the brackets in it that count pair off, and then the list becomes the dynamic list of the
receiver. -/
theorem mapped_receiver_whole_iff (receiver : Receiver) (item : Word) :
    (listCall? (receiver.mapped item) =
      .ok (some ⟨[], receiver.print, item.text, itemMarkup item, []⟩) ↔
      callsMap receiver.links = false ∧ IsChainText receiver.print) ∧
    (callsMap receiver.links = false ∧ IsChainText receiver.print →
      (recastExpression (receiver.mapped item)).result = .ok (listOf receiver.print item)) := by
  have whole := receiver.listCall?_iff item (listItem item)
  rw [← receiver.mapped_eq, print_listItem] at whole
  exact ⟨whole, fun taken => recastExpression_result (whole.2 taken) (by simp)⟩

/-! ## Brackets that pair off -/

theorem IsChainText.names {t : Text} (chain : IsChainText t) :
    ∀ {u : Text}, (∀ c ∈ u, isNameChar c ∨ c = '.') →
    IsChainText (t ++ u)
  | [], _ => by simpa using chain
  | c :: cs, names => by
    have next := (chain.char (names c List.mem_cons_self)).names fun d hd =>
      names d (List.mem_cons_of_mem _ hd)
    simpa using next

/-- The brackets in a step pair off, those in its literals included. -/
def ChainLink.PairsOff : ChainLink → Prop
  | .member _ _ => True
  | .call arguments => IsLevel (fun _ => false) arguments.text
  | .index key => IsLevel (fun _ => false) key.text

theorem IsChainText.link {t : Text} (chain : IsChainText t) : ∀ {link : ChainLink}, link.PairsOff →
    IsChainText (t ++ link.print)
  | .member false name, _ => by
    refine chain.names fun c hc => ?_
    rcases List.mem_cons.1 hc with rfl | hc
    · exact .inr rfl
    · exact .inl (isNameChar_of_isIdentifier name.valid c hc)
  | .member true name, _ => by
    have access := chain.optional.names fun c hc =>
      .inl (isNameChar_of_isIdentifier name.valid c hc)
    simpa [ChainLink.print] using access
  | .call _, level => chain.group (by decide) level (.inl rfl)
  | .index _, level => chain.group (by decide) level (.inr rfl)

/-- A receiver is a chain to the walk, too, if the brackets in each of its steps pair off. -/
theorem Receiver.isChainText (receiver : Receiver)
    (level : ∀ link ∈ receiver.links, link.PairsOff) : IsChainText receiver.print := by
  have steps : ∀ (links : List ChainLink) (t : Text), IsChainText t →
      (∀ link ∈ links, link.PairsOff) →
      IsChainText (t ++ printLinks links) := by
    intro links
    induction links with
    | nil => intro t chain _; simpa [printLinks] using chain
    | cons link links ih =>
      intro t chain level
      have next := ih _ (chain.link (level link List.mem_cons_self)) fun other mem =>
        level other (List.mem_cons_of_mem _ mem)
      simpa [printLinks] using next
  have root : IsChainText ([] ++ receiver.root.text) :=
    IsChainText.nil.names fun c hc => .inl (isNameChar_of_isIdentifier receiver.root.valid c hc)
  exact steps receiver.links receiver.root.text root level

theorem isArgumentCode_string {content : Text} (valid : isContent '"' content) :
    IsArgumentCode ('"' :: (content ++ ['"'])) :=
  .literal (by decide) (fun pos rest => literalEnd_valid (by decide) valid rest pos) .nil

/-- The receiver `rows.filter("text")`. -/
def filteredRows (content : Text) (valid : isContent '"' content) : Receiver :=
  ⟨⟨"rows".toList, by decide⟩, [.member false ⟨"filter".toList, by decide⟩,
    .call ⟨_, isArgumentCode_string valid⟩]⟩

theorem isIdentifier_itemName : isIdentifier "x".toList := by decide

/-- The name `x`. -/
def itemName : Word :=
  ⟨"x".toList, isIdentifier_itemName⟩

theorem mapped_receiver_whole_parens :
    (recastExpression "rows.filter(\"()\").map(x => <li>\x7bx\x7d</li>)".toList).result =
      .ok (listOf "rows.filter(\"()\")".toList itemName) := by
  have level : ∀ link ∈ (filteredRows "()".toList (by decide)).links, link.PairsOff := by
    intro link mem
    rcases List.mem_cons.1 mem with rfl | mem
    · trivial
    · obtain rfl := List.mem_singleton.1 mem
      exact (by decide : IsLevel (fun _ => false) "\"()\"".toList)
  have result := (mapped_receiver_whole_iff (filteredRows "()".toList (by decide)) itemName).2
    ⟨by decide, Receiver.isChainText _ level⟩
  have text : (filteredRows "()".toList (by decide)).mapped itemName =
      "rows.filter(\"()\").map(x => <li>\x7bx\x7d</li>)".toList := rfl
  have print : (filteredRows "()".toList (by decide)).print = "rows.filter(\"()\")".toList := rfl
  rwa [text, print] at result

/-- A bracket in a string tears the receiver, and the one call of `map` hides the other. -/
theorem receivers_torn :
    (recastExpression "rows.filter(\"(\").map(x => <li>\x7bx\x7d</li>)".toList).result =
      .ok ("rows.filter(\"".toList ++ listOf "(\")".toList itemName) ∧
    (listCall? "rows.map(f).map(x => <li>\x7bx\x7d</li>)".toList).toOption = some none := by
  have walk : (filteredRows "(".toList (by decide)).walkEnd = 13 := by decide
  have found : listCall? ((filteredRows "(".toList (by decide)).mapped itemName) =
      .ok (some ⟨"rows.filter(\"".toList, "(\")".toList, itemName.text,
        itemMarkup itemName, []⟩) := by
    rw [Receiver.mapped_eq, listCall?_mapped _ _ _ (by decide), print_listItem, walk]
    rfl
  have result := recastExpression_result found (by decide)
  have text : (filteredRows "(".toList (by decide)).mapped itemName =
      "rows.filter(\"(\").map(x => <li>\x7bx\x7d</li>)".toList := rfl
  rw [text] at result
  exact ⟨result, by decide +kernel⟩

end Recast
