import Recast.Proofs.Scope.ClosedCode
import Recast.Proofs.Scope.ExpressionCode
import Recast.Proofs.Scope.Words

/-!
# Names bound by patterns

`Binds` says which names a parameter list or destructuring pattern binds, read off how it is
written: the elements of a list stand at its start and behind commas outside brackets, the entries
of an object pattern bind their own name, the names in what follows their key, or the rest of the
object. What comes behind an element, such as a type annotation or a default value, is any code.

`patternNames` cuts such a text into pieces, trims them, takes default values and keys off and goes
into brackets. It finds each name that is bound (`Binds.mem_patternNames`).
-/

namespace Recast

/-! ## Patterns -/

/-- A character that does not end an element. -/
def isElementChar (c : Char) : Bool :=
  !isComma c

/-- A character that neither ends an entry nor the key of one. -/
def isKeyChar (c : Char) : Bool :=
  !isComma c && c != ':' && c != '='

/-- The place before which a text ends is the start of an element: nothing comes before it, or code
with a comma. -/
def AtElement (before : Text) : Prop :=
  before = [] ∨ ∃ t, Closed (fun _ => true) t ∧ before = t ++ [',']

/-- The parts of a pattern. -/
inductive PatternPart where
  /-- The elements of a parameter list or array pattern. -/
  | list
  /-- One element with what follows it. -/
  | element
  /-- The entries of an object pattern. -/
  | entries

/-- The part of a pattern binds the name. -/
inductive Binds (name : Text) : PatternPart → Text → Prop where
  | item {before e : Text} (place : AtElement before) (here : Binds name .element e) :
    Binds name .list (before ++ e)
  | spread {before lead e : Text} (place : AtElement before) (blank : isBlankText lead)
    (here : Binds name .element e) :
    Binds name .list (before ++ (lead ++ ("...".toList ++ e)))
  | name {lead after : Text} (blank : isBlankText lead) (valid : isIdentifier name)
    (past : PastWord after) :
    Binds name .element (lead ++ (name ++ after))
  | array {lead inner after : Text} (blank : isBlankText lead)
    (closed : Closed (fun _ => true) inner)
    (level : IsLevel (fun _ => false) inner) (here : Binds name .list inner) :
    Binds name .element (lead ++ ('[' :: (inner ++ ']' :: after)))
  | object {lead inner after : Text} (blank : isBlankText lead)
    (closed : Closed (fun _ => true) inner)
    (level : IsLevel (fun _ => false) inner) (here : Binds name .entries inner) :
    Binds name .element (lead ++ ('{' :: (inner ++ '}' :: after)))
  /-- An entry that stands for its own key, with or without a default value. -/
  | shorthand {before lead gap after : Text} (place : AtElement before) (blank : isBlankText lead)
    (blank' : isBlankText gap) (valid : isIdentifier name)
    (ends : ∀ c, after.head? = some c →
      c = ',' ∨ c = '=' ∧ after.tail.head? ≠ some '=' ∧ after.tail.head? ≠ some '>') :
    Binds name .entries (before ++ (lead ++ (name ++ (gap ++ after))))
  | rest {before lead gap after : Text} (place : AtElement before) (blank : isBlankText lead)
    (blank' : isBlankText gap) (valid : isIdentifier name) (past : PastWord after) :
    Binds name .entries (before ++ (lead ++ ("...".toList ++ (gap ++ (name ++ after)))))
  | keyed {before lead key e : Text} (place : AtElement before) (blank : isBlankText lead)
    (first : ∃ c cs, key = c :: cs ∧ isBlank c = false ∧ c ≠ '.') (closed : Closed isKeyChar key)
    (level : IsLevel (fun c => c == ':' || c == '=') key) (here : Binds name .element e) :
    Binds name .entries (before ++ (lead ++ (key ++ ':' :: e)))

/-! ## Characters without meaning -/

/-- A character that means nothing to the scanners of patterns. -/
def IsQuiet (c : Char) : Prop :=
  isPlainMark c ∧ isKeyChar c

theorem isQuiet_of_isBlank {c : Char} (h : isBlank c) : IsQuiet c := by
  have table : ∀ n ∈ blankCodes, isPlainMark (Char.ofNat n) ∧ isKeyChar (Char.ofNat n) := by
    decide +kernel
  have quiet := table _ (mem_blankCodes h)
  rwa [Char.ofNat_toNat] at quiet

theorem isQuiet_of_isNameChar {c : Char} (h : isNameChar c) : IsQuiet c := by
  refine ⟨isPlainMark_of_isNameChar h, ?_⟩
  cases quiet : isKeyChar c with
  | true => rfl
  | false =>
    have marks : ∀ d ∈ [',', ':', '='], isNameChar d = false := by decide
    have mark : c ∈ [',', ':', '='] := by
      simp only [isKeyChar, isComma, Bool.and_eq_false_iff, Bool.not_eq_false', beq_iff_eq,
        bne_eq_false_iff_eq] at quiet
      simp only [List.mem_cons, List.not_mem_nil, or_false]
      tauto
    rw [marks c mark] at h
    cases h

theorem isQuiet_of_isBlankText {t : Text} (h : isBlankText t) : ∀ c ∈ t, IsQuiet c := fun c hc =>
  isQuiet_of_isBlank (List.all_eq_true.1 h c hc)

theorem isQuiet_of_isIdentifier {t : Text} (h : isIdentifier t) : ∀ c ∈ t, IsQuiet c := fun c hc =>
  isQuiet_of_isNameChar (isNameChar_of_isIdentifier h c hc)

theorem isQuiet_dots : ∀ c ∈ "...".toList, IsQuiet c := by
  have dots : ∀ c ∈ "...".toList, isPlainMark c ∧ isKeyChar c := by decide
  exact dots

section Quiet

variable {t : Text}

theorem closed_of_quiet (quiet : ∀ c ∈ t, IsQuiet c) : Closed isElementChar t := by
  refine closed_of_plain fun c hc => ⟨(quiet c hc).1, ?_⟩
  have key := (quiet c hc).2
  simp only [isKeyChar, Bool.and_eq_true] at key
  exact key.1.1

theorem isLevel_of_quiet (quiet : ∀ c ∈ t, IsQuiet c) :
    IsLevel (fun c => c == ':' || c == '=') t := by
  refine isLevel_plain fun c hc => ?_
  obtain ⟨plain, key⟩ := quiet c hc
  simp only [isKeyChar, Bool.and_eq_true, bne_iff_ne] at key
  exact ⟨(isPlainMark_iff.1 plain).2.1, (isPlainMark_iff.1 plain).2.2, by simp [key.1.2, key.2]⟩

/-- No equals sign is outside brackets where neither a colon nor an equals sign is. -/
theorem IsLevel.equals (h : IsLevel (fun c => c == ':' || c == '=') t) : IsLevel (· == '=') t :=
  h.mono fun c stop => by simp [stop]

theorem IsLevel.colon (h : IsLevel (fun c => c == ':' || c == '=') t) : IsLevel (· == ':') t :=
  h.mono fun c stop => by simp [stop]

end Quiet

/-! ## Trimming around a text -/

/-- A text with no blank at either end. -/
structure Trimmed (t : Text) : Prop where
  first : ∃ c cs, t = c :: cs ∧ isBlank c = false
  last : ∃ cs c, t = cs ++ [c] ∧ isBlank c = false

theorem Trimmed.around {s t : Text} (hs : Trimmed s) (ht : Trimmed t) (between : Text) :
    Trimmed (s ++ (between ++ t)) := by
  obtain ⟨c, cs, rfl, first⟩ := hs.first
  obtain ⟨ds, d, rfl, last⟩ := ht.last
  exact ⟨⟨c, cs ++ (between ++ (ds ++ [d])), rfl, first⟩, (c :: cs) ++ (between ++ ds), d,
    by simp, last⟩

theorem trimmed_of_isIdentifier {name : Text} (valid : isIdentifier name) : Trimmed name := by
  have chars := isNameChar_of_isIdentifier valid
  have filled := ne_nil_of_isWord (isWord_of_isIdentifier valid)
  obtain ⟨c, cs, rfl⟩ := List.exists_cons_of_ne_nil filled
  refine ⟨⟨c, cs, rfl, not_isBlank_of_isNameChar (chars c List.mem_cons_self)⟩,
    (c :: cs).dropLast, (c :: cs).getLast filled, (List.dropLast_append_getLast filled).symm, ?_⟩
  exact not_isBlank_of_isNameChar (chars _ (List.getLast_mem filled))

theorem trimmed_group (kind : Bracket) (inner : Text) :
    Trimmed (kind.opener :: (inner ++ [kind.closer])) := by
  have opener : isBlank kind.opener = false := by cases kind <;> decide
  have closer : isBlank kind.closer = false := by cases kind <;> decide
  exact ⟨⟨_, _, rfl, opener⟩, kind.opener :: inner, _, rfl, closer⟩

theorem trimEnd_isPrefix (t : Text) : trimEnd t <+: t := by
  obtain ⟨blanks, -, split⟩ := exists_trimEnd_append t
  exact ⟨blanks, split.symm⟩

theorem trim_around {lead front : Text} (blank : isBlankText lead) (solid : Trimmed front)
    (cut : Text) : trim (lead ++ (front ++ cut)) = front ++ trimEnd cut := by
  obtain ⟨c, cs, cons, first⟩ := solid.first
  obtain ⟨ds, d, snoc, last⟩ := solid.last
  have start : trimStart (lead ++ (front ++ cut)) = front ++ cut := by
    rw [trimStart_append, trimStart, List.dropWhile_eq_nil_iff.2 (List.all_eq_true.1 blank),
      List.nil_append]
    rintro e he
    rw [cons] at he
    obtain rfl := Option.some.inj he
    exact first
  rw [trim, start, trimEnd_append]
  rintro e he
  rw [snoc, List.getLast?_append] at he
  obtain rfl := Option.some.inj he
  exact last

theorem Trimmed.trim_eq {t : Text} (h : Trimmed t) : trim t = t := by
  have around : trim ([] ++ (t ++ [])) = t ++ trimEnd [] := trim_around rfl h []
  rwa [trimEnd_blank rfl, List.append_nil, List.nil_append] at around

/-- The default value of an element is behind what has no equals sign outside brackets. -/
theorem dropDefault_around {lead front : Text} (blank : isBlankText lead) (solid : Trimmed front)
    (level : IsLevel (· == '=') front) (cut : Text) :
    ∃ cut', cut' <+: cut ∧ dropDefault (lead ++ (front ++ cut)) = front ++ cut' := by
  have kept := dropDefaultFrom_append (trimEnd cut) none level
  have again : trim ([] ++ (front ++ dropDefaultFrom 0 (front.getLast?.or none) (trimEnd cut))) =
      _ :=
    trim_around rfl solid _
  refine ⟨trimEnd (dropDefaultFrom 0 (front.getLast?.or none) (trimEnd cut)), ?_, ?_⟩
  · exact (trimEnd_isPrefix _).trans ((dropDefaultFrom_isPrefix _ _ _).trans (trimEnd_isPrefix cut))
  · rw [dropDefault, trim_around blank solid]
    exact (congrArg trim kept).trans again

/-! ## Pieces -/

/-- The element at a place is a piece, with some of what follows it. -/
theorem exists_piece {before t after : Text} (place : AtElement before)
    (closed : Closed isElementChar t) (unmarked : Unmarked (before ++ (t ++ after))) :
    ∃ cut, cut <+: after ∧ cut.head? ≠ some ',' ∧
      ∃ span ∈ pieceSpans isComma 0 0 0 (before ++ (t ++ after)), span.of (before ++ (t ++ after)) =
        t ++ cut := by
  have none : ∀ c, isElementChar c → isComma c = false := fun c h => by
    simpa [isElementChar] using h
  have here : Unmarked (t ++ after) := unmarked.part before [] (by simp)
  have pieces := fun start => pieceSpans_closed closed none start start after here
  have found : ∃ cut, cut <+: after ∧ cut.head? ≠ some ',' ∧
      ⟨before.length, before.length + t.length + cut.length⟩ ∈
        pieceSpans isComma before.length before.length 0 (t ++ after) := by
    rw [pieces]
    by_cases comma : after.head? = some ','
    · obtain ⟨rest, rfl⟩ := List.head?_eq_some_iff.1 comma
      refine ⟨[], List.nil_prefix, by simp, ?_⟩
      rw [pieceSpans_separator (by decide) (by decide) (by decide)]
      exact List.mem_cons_self
    · obtain ⟨cut, start, mem⟩ :=
        exists_pieceSpan isComma before.length after (before.length + t.length) 0
      refine ⟨cut, start, fun head => comma ?_, mem⟩
      obtain ⟨rest, rfl⟩ := start
      rw [List.head?_append, head]
      rfl
  obtain ⟨cut, ⟨rest, rfl⟩, head, mem⟩ := found
  refine ⟨cut, List.prefix_append _ _, head, ⟨before.length, before.length + t.length + cut.length⟩,
    ?_, ?_⟩
  · rcases place with rfl | ⟨passed, closed', rfl⟩
    · exact mem
    · rw [List.append_assoc, List.singleton_append] at unmarked ⊢
      refine mem_pieceSpans_behind closed' (by decide) (by decide) (by decide) 0 0 unmarked ?_
      simpa using mem
  · exact slice_eq before rest (by simp) rfl (by simp [Nat.add_assoc])

/-! ## Targets -/

/-- The names that a target binds: a name itself, those of an array or object pattern. -/
def targetNames : Text → List Text
  | [] => []
  | c :: rest =>
    if c = '[' || c = '{' then
      match bracketEndAt? (c :: rest) 0 with
      | none => []
      | some stop =>
        if c = '[' then patternNames (slice rest 0 (stop - 2))
        else
          (pieceSpans isComma 0 0 0 (slice rest 0 (stop - 2))).flatMap fun entry =>
            patternNames (entryTarget (entry.of (slice rest 0 (stop - 2))))
    else (identifier? (c :: rest)).toList

theorem patternNames_eq (pattern : Text) :
    patternNames pattern =
      (pieceSpans isComma 0 0 0 pattern).flatMap fun element =>
        targetNames (bindingTarget (element.of pattern)) := by
  rw [patternNames]
  refine List.flatMap_congr fun element _ => ?_
  split
  · rename_i target
    rw [target]
    rfl
  · rename_i c rest target
    rw [target]
    rfl

/-- A name, or a group in brackets: what an element binds, without what is around it. -/
structure IsTarget (target : Text) : Prop where
  trimmed : Trimmed target
  dots : target.head? ≠ some '.'
  closed : Closed isElementChar target
  level : IsLevel (fun c => c == ':' || c == '=') target

theorem isTarget_name {name : Text} (valid : isIdentifier name) : IsTarget name where
  trimmed := trimmed_of_isIdentifier valid
  dots := by
    intro head
    have dot := isNameChar_of_isIdentifier valid '.' (List.mem_of_head? head)
    exact Bool.noConfusion dot
  closed := closed_of_quiet (isQuiet_of_isIdentifier valid)
  level := isLevel_of_quiet (isQuiet_of_isIdentifier valid)

theorem isTarget_group (kind : Bracket) {inner : Text} (closed : Closed (fun _ => true) inner)
    (level : IsLevel (fun _ => false) inner) :
    IsTarget (kind.opener :: (inner ++ [kind.closer])) where
  trimmed := trimmed_group kind inner
  dots := by cases kind <;> simp [Bracket.opener]
  closed := .group kind closed .nil
  level := isLevel_group _ kind level

/-- A target binds the name, whatever is left of the text behind it. -/
def TargetBinds (name target after : Text) : Prop :=
  IsTarget target ∧ ∀ cut, cut <+: after → name ∈ targetNames (target ++ cut)

theorem TargetBinds.mono {name target after after' : Text} (h : TargetBinds name target after)
    (part : after' <+: after) : TargetBinds name target after' :=
  ⟨h.1, fun cut less => h.2 cut (less.trans part)⟩

section Targets

variable {name target lead after : Text}

/-- What an element binds is its target. -/
theorem bindingTarget_around (isTarget : IsTarget target) (blank : isBlankText lead) (cut : Text) :
    ∃ cut', cut' <+: cut ∧ bindingTarget (lead ++ (target ++ cut)) = target ++ cut' := by
  obtain ⟨cut', part, dropped⟩ :=
    dropDefault_around blank isTarget.trimmed isTarget.level.equals cut
  obtain ⟨c, cs, cons, -⟩ := isTarget.trimmed.first
  have dot : '.' ≠ c := fun h => isTarget.dots (by rw [cons, h]; rfl)
  have spread : dropHead? "...".toList (target ++ cut') = none := by
    rw [cons]
    exact if_neg dot
  exact ⟨cut', part, by rw [bindingTarget, dropped, spread]⟩

/-- The dots of a spread element go with its target. -/
theorem spread_solid {gap : Text} (isTarget : IsTarget target) (blank : isBlankText gap) :
    Trimmed ("...".toList ++ (gap ++ target)) ∧
      Closed isElementChar ("...".toList ++ (gap ++ target)) ∧
      IsLevel (· == '=') ("...".toList ++ (gap ++ target)) := by
  have dots : Trimmed "...".toList :=
    ⟨⟨'.', ['.', '.'], rfl, by decide⟩, ['.', '.'], '.', rfl, by decide⟩
  refine ⟨dots.around isTarget.trimmed gap, ?_, ?_⟩
  · exact (closed_of_quiet isQuiet_dots).append
      ((closed_of_quiet (isQuiet_of_isBlankText blank)).append isTarget.closed)
  · exact ((isLevel_of_quiet isQuiet_dots).append
      ((isLevel_of_quiet (isQuiet_of_isBlankText blank)).append isTarget.level)).equals

/-- What a spread element binds is its target. -/
theorem bindingTarget_spread {gap : Text} (isTarget : IsTarget target) (blank : isBlankText lead)
    (blank' : isBlankText gap) (cut : Text) :
    ∃ cut', cut' <+: cut ∧ bindingTarget (lead ++ ("...".toList ++ (gap ++ (target ++ cut)))) =
      target ++ cut' := by
  obtain ⟨solid, -, level⟩ := spread_solid isTarget blank'
  obtain ⟨cut', part, dropped⟩ := dropDefault_around blank solid level cut
  have split : lead ++ ("...".toList ++ (gap ++ (target ++ cut))) =
      lead ++ (("...".toList ++ (gap ++ target)) ++ cut) := by
    simp only [List.append_assoc]
  have spread : dropHead? "...".toList ("...".toList ++ (gap ++ target) ++ cut') =
      some (gap ++ (target ++ cut')) := by
    rw [List.append_assoc, List.append_assoc, dropHead?_append]
  obtain ⟨c, cs, cons, first⟩ := isTarget.trimmed.first
  have start : trimStart (gap ++ (target ++ cut')) = target ++ cut' := by
    rw [trimStart_append, trimStart, List.dropWhile_eq_nil_iff.2 (List.all_eq_true.1 blank'),
      List.nil_append]
    rintro e he
    rw [cons] at he
    obtain rfl := Option.some.inj he
    exact first
  refine ⟨cut', part, ?_⟩
  rw [split, bindingTarget, dropped, spread]
  exact start

/-- The names of an element of a list are names of the list. -/
theorem TargetBinds.mem_patternNames {before : Text} (binds : TargetBinds name target after)
    (place : AtElement before)
    (blank : isBlankText lead) (unmarked : Unmarked (before ++ (lead ++ (target ++ after)))) :
    name ∈ patternNames (before ++ (lead ++ (target ++ after))) := by
  have closed := (closed_of_quiet (isQuiet_of_isBlankText blank)).append binds.1.closed
  have split : lead ++ (target ++ after) = (lead ++ target) ++ after := by rw [List.append_assoc]
  rw [split] at unmarked ⊢
  obtain ⟨cut, part, -, span, mem, piece⟩ := exists_piece place closed unmarked
  obtain ⟨cut', part', bound⟩ := bindingTarget_around binds.1 blank cut
  rw [patternNames_eq]
  refine List.mem_flatMap.2 ⟨span, mem, ?_⟩
  rw [piece, List.append_assoc, bound]
  exact binds.2 cut' (part'.trans part)

/-- The names of a spread element of a list are names of the list. -/
theorem TargetBinds.mem_patternNames_spread {before gap : Text}
    (binds : TargetBinds name target after)
    (place : AtElement before) (blank : isBlankText lead) (blank' : isBlankText gap)
    (unmarked : Unmarked (before ++ (lead ++ ("...".toList ++ (gap ++ (target ++ after)))))) :
    name ∈ patternNames (before ++ (lead ++ ("...".toList ++ (gap ++ (target ++ after))))) := by
  have closed :=
    (closed_of_quiet (isQuiet_of_isBlankText blank)).append (spread_solid binds.1 blank').2.1
  have split : lead ++ ("...".toList ++ (gap ++ (target ++ after))) =
      (lead ++ ("...".toList ++ (gap ++ target))) ++ after := by simp only [List.append_assoc]
  rw [split] at unmarked ⊢
  obtain ⟨cut, part, -, span, mem, piece⟩ := exists_piece place closed unmarked
  obtain ⟨cut', part', bound⟩ := bindingTarget_spread binds.1 blank blank' cut
  rw [patternNames_eq]
  refine List.mem_flatMap.2 ⟨span, mem, ?_⟩
  have whole : lead ++ ("...".toList ++ (gap ++ target)) ++ cut =
      lead ++ ("...".toList ++ (gap ++ (target ++ cut))) := by
    simp only [List.append_assoc]
  rw [piece, whole, bound]
  exact binds.2 cut' (part'.trans part)

theorem PastWord.of_isPrefix {cut : Text} (past : PastWord after) (part : cut <+: after) :
    PastWord cut := by
  obtain ⟨rest, rfl⟩ := part
  intro c head
  exact past c (by rw [List.head?_append, head]; rfl)

theorem identifier?_append (valid : isIdentifier name) (past : PastWord after) :
    identifier? (name ++ after) = some name := by
  cases name with
  | nil => exact Bool.noConfusion valid
  | cons c cs =>
    have chars := isNameChar_of_isIdentifier valid
    rw [isIdentifier, Bool.and_eq_true] at valid
    have word : (cs ++ after).takeWhile isNameChar = cs :=
      wordAhead_append (fun d mem => chars d (List.mem_cons_of_mem _ mem)) past
    rw [List.cons_append, identifier?, if_pos valid.1, word]

/-- A name binds itself. -/
theorem targetNames_name (valid : isIdentifier name) (past : PastWord after) :
    targetNames (name ++ after) = [name] := by
  have found := identifier?_append valid past
  have chars := isNameChar_of_isIdentifier valid
  cases name with
  | nil => exact Bool.noConfusion valid
  | cons c cs =>
    have brackets : (decide (c = '[') || decide (c = '{')) = false := by
      simp only [Bool.or_eq_false_iff, decide_eq_false_iff_not]
      constructor <;> rintro rfl
      · exact Bool.noConfusion (chars '[' List.mem_cons_self)
      · exact Bool.noConfusion (chars '{' List.mem_cons_self)
    rw [List.cons_append] at found ⊢
    rw [targetNames, if_neg (by rw [brackets]; decide), found]
    rfl

theorem targetBinds_name (valid : isIdentifier name) (past : PastWord after) :
    TargetBinds name name after := by
  refine ⟨isTarget_name valid, fun cut part => ?_⟩
  rw [targetNames_name valid (past.of_isPrefix part)]
  exact List.mem_cons_self

/-- The names of the entries of an object pattern. -/
def entryNames (inner : Text) : List Text :=
  (pieceSpans isComma 0 0 0 inner).flatMap fun entry => patternNames (entryTarget (entry.of inner))

/-- In brackets there are the names of a list, or of entries. -/
theorem targetNames_group (kind : Bracket) (hk : kind ≠ .round) {inner : Text}
    (closed : Closed (fun _ => true) inner)
    (cut : Text) (unmarked : Unmarked (kind.opener :: (inner ++ kind.closer :: cut))) :
    targetNames (kind.opener :: (inner ++ kind.closer :: cut)) =
      if kind = .square then patternNames inner else entryNames inner := by
  have stop : bracketEndAt? (kind.opener :: (inner ++ kind.closer :: cut)) 0 =
      some (inner.length + 2) := by
    simpa using bracketEndAt?_group closed kind [] unmarked
  have inside : slice (inner ++ kind.closer :: cut) 0 (inner.length + 2 - 2) = inner := by
    rw [slice, List.drop_zero, Nat.add_sub_cancel, List.take_left]
  rw [targetNames, stop]
  dsimp only
  rw [inside]
  cases kind with
  | round => exact absurd rfl hk
  | square => rfl
  | curly => rfl

theorem targetBinds_group (kind : Bracket) (hk : kind ≠ .round) {inner : Text}
    (closed : Closed (fun _ => true) inner)
    (level : IsLevel (fun _ => false) inner)
    (unmarked : Unmarked (kind.opener :: (inner ++ kind.closer :: after)))
    (mem : name ∈ if kind = .square then patternNames inner else entryNames inner) :
    TargetBinds name (kind.opener :: (inner ++ [kind.closer])) after := by
  refine ⟨isTarget_group kind closed level, fun cut part => ?_⟩
  obtain ⟨rest, rfl⟩ := part
  have here : Unmarked (kind.opener :: (inner ++ kind.closer :: cut)) :=
    unmarked.part [] rest (by simp)
  rw [List.cons_append, List.append_assoc, List.singleton_append,
    targetNames_group kind hk closed cut here]
  exact mem

end Targets

/-! ## Entries -/

section Entries

variable {name before lead after : Text}

theorem mem_entryNames {t : Text} {span : Span} (mem : span ∈ pieceSpans isComma 0 0 0 t)
    (bound : name ∈ patternNames (entryTarget (span.of t))) : name ∈ entryNames t :=
  List.mem_flatMap.2 ⟨span, mem, bound⟩

/-- A key goes with its target. -/
theorem keyed_solid {key gap target : Text}
    (first : ∃ c cs, key = c :: cs ∧ isBlank c = false ∧ c ≠ '.')
    (level : IsLevel (fun c => c == ':' || c == '=') key) (blank' : isBlankText gap)
    (isTarget : IsTarget target) :
    Trimmed (key ++ ':' :: (gap ++ target)) ∧
      IsLevel (· == '=') (key ++ ':' :: (gap ++ target)) := by
  obtain ⟨c, cs, cons, visible, -⟩ := first
  obtain ⟨ds, d, snoc, last⟩ := isTarget.trimmed.last
  constructor
  · refine ⟨⟨c, cs ++ ':' :: (gap ++ target), by rw [cons]; rfl, visible⟩,
      key ++ ':' :: (gap ++ ds), d, ?_, last⟩
    rw [snoc]
    simp
  · refine level.equals.append ?_
    rw [IsLevel, depthAfter_other (by decide) (by decide) (by decide)]
    exact ((isLevel_of_quiet (isQuiet_of_isBlankText blank')).append isTarget.level).equals

/-- What stands behind the key of an entry is what it binds, once the default value is off. -/
theorem entryTarget_of_dropDefault {entry key value : Text}
    (dropped : dropDefault entry = key ++ ':' :: value)
    (first : ∃ c cs, key = c :: cs ∧ isBlank c = false ∧ c ≠ '.')
    (level : IsLevel (fun c => c == ':' || c == '=') key) : entryTarget entry = value := by
  obtain ⟨c, cs, cons, -, dot⟩ := first
  have colon : expressionEnd (· == ':') (key ++ ':' :: value) 0 = key.length := by
    rw [expressionEnd, List.drop_zero, expressionEndFrom_append _ 0 level.colon, Nat.zero_add]
    rfl
  have spread : startsWith (key ++ ':' :: value) "...".toList = false := by
    rw [cons]
    simp only [startsWith, Option.isSome_eq_false_iff, Option.isNone_iff_eq_none]
    exact if_neg (Ne.symm dot)
  simp only [entryTarget, dropped, colon, spread, Bool.false_or, decide_eq_true_eq]
  rw [if_neg (by simp), ← List.drop_drop, List.drop_left]
  rfl

/-- An entry with a key binds what stands behind it. -/
theorem entryTarget_keyed {key gap target : Text} (blank : isBlankText lead)
    (first : ∃ c cs, key = c :: cs ∧ isBlank c = false ∧ c ≠ '.')
    (level : IsLevel (fun c => c == ':' || c == '=') key)
    (blank' : isBlankText gap) (isTarget : IsTarget target) (cut : Text) :
    ∃ cut', cut' <+: cut ∧
      entryTarget (lead ++ (key ++ ':' :: (gap ++ (target ++ cut)))) = gap ++ (target ++ cut') := by
  obtain ⟨solid, equals⟩ := keyed_solid first level blank' isTarget
  obtain ⟨cut', part, dropped⟩ := dropDefault_around blank solid equals cut
  have split : lead ++ (key ++ ':' :: (gap ++ (target ++ cut))) =
      lead ++ ((key ++ ':' :: (gap ++ target)) ++ cut) := by simp
  have entry : key ++ ':' :: (gap ++ target) ++ cut' = key ++ ':' :: (gap ++ (target ++ cut')) := by
    simp
  rw [← split, entry] at dropped
  exact ⟨cut', part, entryTarget_of_dropDefault dropped first level⟩

theorem mem_entryNames_keyed {key gap target : Text} (binds : TargetBinds name target after)
    (place : AtElement before)
    (blank : isBlankText lead) (first : ∃ c cs, key = c :: cs ∧ isBlank c = false ∧ c ≠ '.')
    (closed : Closed isKeyChar key)
    (level : IsLevel (fun c => c == ':' || c == '=') key) (blank' : isBlankText gap)
    (unmarked : Unmarked (before ++ (lead ++ (key ++ ':' :: (gap ++ (target ++ after)))))) :
    name ∈ entryNames (before ++ (lead ++ (key ++ ':' :: (gap ++ (target ++ after))))) := by
  have element : ∀ c, isKeyChar c → isElementChar c := fun c h => by
    simp only [isKeyChar, Bool.and_eq_true] at h
    exact h.1.1
  have colon : Closed isElementChar (':' :: (gap ++ target)) :=
    .mark (by decide) (by decide) (by decide) (by decide) (by simp)
      ((closed_of_quiet (isQuiet_of_isBlankText blank')).append binds.1.closed)
  have whole :=
    (closed_of_quiet (isQuiet_of_isBlankText blank)).append ((closed.mono element).append colon)
  have split : lead ++ (key ++ ':' :: (gap ++ (target ++ after))) =
      (lead ++ (key ++ ':' :: (gap ++ target))) ++ after := by
    simp
  rw [split] at unmarked ⊢
  obtain ⟨cut, part, -, span, mem, piece⟩ := exists_piece place whole unmarked
  obtain ⟨cut', part', bound⟩ := entryTarget_keyed blank first level blank' binds.1 cut
  refine mem_entryNames mem ?_
  have entry : lead ++ (key ++ ':' :: (gap ++ target)) ++ cut =
      lead ++ (key ++ ':' :: (gap ++ (target ++ cut))) := by simp
  rw [piece, entry, bound]
  have shorter := part'.trans part
  have here : Unmarked ([] ++ (gap ++ (target ++ cut'))) := by
    obtain ⟨rest, rfl⟩ := shorter
    exact unmarked.part (before ++ (lead ++ (key ++ [':']))) rest (by simp)
  exact (binds.mono shorter).mem_patternNames (.inl rfl) blank' here

/-- An equals sign is no comparison unless a part of one comes before or behind it. -/
theorem not_isCompoundEquals {t : Text} (last : ∀ c, t.getLast? = some c → c ∉ ['=', '!', '<', '>'])
    {next : Option Char}
    (equals : next ≠ some '=') (arrow : next ≠ some '>') :
    isCompoundEquals (t.getLast?.or none) next = false := by
  rw [isCompoundEquals.eq_def, Bool.or_eq_false_iff]
  constructor
  · cases next with
    | none => rfl
    | some c => simpa using ⟨fun h => equals (by rw [h]), fun h => arrow (by rw [h])⟩
  · cases final : t.getLast? with
    | none => rfl
    | some c => simpa [not_or, and_assoc] using last c final

theorem dropDefaultFrom_level {t : Text} (level : IsLevel (· == '=') t) (previous : Option Char) :
    dropDefaultFrom 0 previous t = t := by
  have kept := dropDefaultFrom_append [] previous level
  rw [List.append_nil] at kept
  exact kept.trans (List.append_nil t)

/-- The default value of a solid text is taken off, with the blanks around it. -/
theorem dropDefault_solid {front gap cut : Text} (blank : isBlankText lead)
    (blank' : isBlankText gap) (solid : Trimmed front) (level : IsLevel (· == '=') front)
    (last : ∀ c, front.getLast? = some c → c ∉ ['=', '!', '<', '>'])
    (ends : cut = [] ∨ ∃ value, cut = '=' :: value ∧ value.head? ≠ some '=' ∧
      value.head? ≠ some '>') :
    dropDefault (lead ++ (front ++ (gap ++ cut))) = front := by
  have trimmed : ∀ {t}, isBlankText t → trim (front ++ t) = front := by
    intro t h
    have around : trim ([] ++ (front ++ t)) = front ++ trimEnd t := trim_around rfl solid t
    rwa [trimEnd_blank h, List.append_nil] at around
  rw [dropDefault, trim_around blank solid]
  rcases ends with rfl | ⟨value, rfl, equals, arrow⟩
  · rw [List.append_nil, trimEnd_blank blank', List.append_nil, dropDefaultFrom_level level]
    simpa using trimmed (t := []) rfl
  · have whole : IsLevel (· == '=') (front ++ gap) :=
      level.append (isLevel_of_quiet (isQuiet_of_isBlankText blank')).equals
    have final : ∀ c, (front ++ gap).getLast? = some c → c ∉ ['=', '!', '<', '>'] := by
      intro c hc
      cases hg : gap.getLast? with
      | none =>
        rw [List.getLast?_eq_none_iff.1 hg, List.append_nil] at hc
        exact last c hc
      | some d =>
        have marks : ∀ e ∈ ['=', '!', '<', '>'], isBlank e = false := by decide
        obtain rfl : d = c := by simpa [List.getLast?_append, hg] using hc
        intro mark
        have := List.all_eq_true.1 blank' d (List.mem_of_getLast? hg)
        simp [marks d mark] at this
    have tail : trimEnd (gap ++ '=' :: value) = gap ++ '=' :: trimEnd value := by
      have last := trimEnd_append (s := gap ++ ['=']) (by simp; decide) value
      simpa using last
    have head : ∀ d, value.head? ≠ some d → (trimEnd value).head? ≠ some d := by
      intro d other same
      obtain ⟨rest, split⟩ := trimEnd_isPrefix value
      exact other (by rw [← split, List.head?_append, same]; rfl)
    have cut := dropDefaultFrom_append ('=' :: trimEnd value) none whole
    have stops : dropDefaultFrom ((0 : Nat) : Int) ((front ++ gap).getLast?.or none)
        ('=' :: trimEnd value) = [] := by
      rw [dropDefaultFrom, if_neg (by decide), if_neg (by decide),
        not_isCompoundEquals final (head _ equals) (head _ arrow)]
      rfl
    rw [stops, List.append_nil] at cut
    rw [tail, ← List.append_assoc]
    exact (congrArg trim cut).trans (trimmed blank')

/-- A name does not end like a comparison. -/
theorem last_of_isIdentifier (valid : isIdentifier name) :
    ∀ c, name.getLast? = some c → c ∉ ['=', '!', '<', '>'] := by
  have marks : ∀ d ∈ ['=', '!', '<', '>'], isNameChar d = false := by decide
  intro c hc mark
  have := isNameChar_of_isIdentifier valid c (List.mem_of_getLast? hc)
  simp [marks c mark] at this

/-- The default value of an entry that stands for its own key is taken off. -/
theorem dropDefault_shorthand {gap cut : Text} (blank : isBlankText lead) (blank' : isBlankText gap)
    (valid : isIdentifier name)
    (ends : cut = [] ∨ ∃ value, cut = '=' :: value ∧ value.head? ≠ some '=' ∧
      value.head? ≠ some '>') :
    dropDefault (lead ++ (name ++ (gap ++ cut))) = name :=
  dropDefault_solid blank blank' (trimmed_of_isIdentifier valid)
    (isLevel_of_quiet (isQuiet_of_isIdentifier valid)).equals
    (last_of_isIdentifier valid) ends

/-- An entry that stands for its own key binds its name. -/
theorem entryTarget_shorthand {gap cut : Text} (blank : isBlankText lead) (blank' : isBlankText gap)
    (valid : isIdentifier name)
    (ends : cut = [] ∨ ∃ value, cut = '=' :: value ∧ value.head? ≠ some '=' ∧
      value.head? ≠ some '>') :
    entryTarget (lead ++ (name ++ (gap ++ cut))) = name := by
  have level := (isLevel_of_quiet (isQuiet_of_isIdentifier valid)).colon
  have colon : expressionEnd (· == ':') name 0 = name.length := by
    have passed := expressionEndFrom_append [] 0 level
    rw [List.append_nil, Nat.zero_add] at passed
    exact passed
  simp only [entryTarget, dropDefault_shorthand blank blank' valid ends, colon, decide_true,
    Bool.or_true, if_true]

theorem mem_entryNames_shorthand {gap : Text} (place : AtElement before) (blank : isBlankText lead)
    (blank' : isBlankText gap) (valid : isIdentifier name)
    (ends : ∀ c, after.head? = some c → c = ',' ∨ c = '=' ∧ after.tail.head? ≠ some '=' ∧
      after.tail.head? ≠ some '>')
    (unmarked : Unmarked (before ++ (lead ++ (name ++ (gap ++ after))))) :
    name ∈ entryNames (before ++ (lead ++ (name ++ (gap ++ after)))) := by
  have closed := (closed_of_quiet (isQuiet_of_isBlankText blank)).append
    ((closed_of_quiet (isQuiet_of_isIdentifier valid)).append
      (closed_of_quiet (isQuiet_of_isBlankText blank')))
  have split : lead ++ (name ++ (gap ++ after)) = (lead ++ (name ++ gap)) ++ after := by simp
  rw [split] at unmarked ⊢
  obtain ⟨cut, part, comma, span, mem, piece⟩ := exists_piece place closed unmarked
  have default : cut = [] ∨ ∃ value, cut = '=' :: value ∧ value.head? ≠ some '=' ∧
      value.head? ≠ some '>' := by
    obtain ⟨rest, rfl⟩ := part
    cases cut with
    | nil => exact .inl rfl
    | cons c value =>
      rcases ends c rfl with rfl | ⟨rfl, equals, arrow⟩
      · exact absurd rfl comma
      · refine .inr ⟨value, rfl, fun h => equals ?_, fun h => arrow ?_⟩
        all_goals
          rw [List.cons_append, List.tail_cons, List.head?_append, h]
          rfl
  have entry : lead ++ (name ++ gap) ++ cut = lead ++ (name ++ (gap ++ cut)) := by simp
  have here : Unmarked ([] ++ ([] ++ (name ++ []))) := by
    rw [List.append_nil]
    exact unmarked.part (before ++ lead) (gap ++ after) (by simp)
  have binds : TargetBinds name name [] := targetBinds_name valid (by simp [PastWord])
  have bound := binds.mem_patternNames (.inl rfl) rfl here
  refine mem_entryNames mem ?_
  rw [piece, entry, entryTarget_shorthand blank blank' valid default]
  simpa using bound

/-- The rest of an object binds its name. -/
theorem mem_entryNames_rest {gap : Text} (place : AtElement before) (blank : isBlankText lead)
    (blank' : isBlankText gap) (valid : isIdentifier name) (past : PastWord after)
    (unmarked : Unmarked (before ++ (lead ++ ("...".toList ++ (gap ++ (name ++ after)))))) :
    name ∈ entryNames (before ++ (lead ++ ("...".toList ++ (gap ++ (name ++ after))))) := by
  have binds := targetBinds_name valid past
  obtain ⟨solid, closed, level⟩ := spread_solid binds.1 blank'
  have whole := (closed_of_quiet (isQuiet_of_isBlankText blank)).append closed
  have split : lead ++ ("...".toList ++ (gap ++ (name ++ after))) =
      (lead ++ ("...".toList ++ (gap ++ name))) ++ after := by
    simp only [List.append_assoc]
  rw [split] at unmarked ⊢
  obtain ⟨cut, part, -, span, mem, piece⟩ := exists_piece place whole unmarked
  obtain ⟨cut', part', dropped⟩ := dropDefault_around blank solid level cut
  have entry : entryTarget (lead ++ (("...".toList ++ (gap ++ name)) ++ cut)) =
      [] ++ ([] ++ ("...".toList ++ (gap ++ (name ++ cut')))) := by
    have dots : startsWith ("...".toList ++ (gap ++ name) ++ cut') "...".toList := by
      rw [startsWith, List.append_assoc, dropHead?_append]
      rfl
    simp only [entryTarget, dropped, dots, Bool.true_or, if_true]
    simp only [List.append_assoc, List.nil_append]
  have shorter := part'.trans part
  have here : Unmarked ([] ++ ([] ++ ("...".toList ++ (gap ++ (name ++ cut'))))) := by
    obtain ⟨rest, rfl⟩ := shorter
    exact unmarked.part (before ++ lead) rest (by simp)
  refine mem_entryNames mem ?_
  rw [piece, List.append_assoc, entry]
  exact (binds.mono shorter).mem_patternNames_spread (.inl rfl) rfl blank' here

end Entries

/-! ## Names of patterns -/

/-- What is found of a name that a part of a pattern binds. -/
def Finds (name : Text) : PatternPart → Text → Prop
  | .list, t => name ∈ patternNames t
  | .element, t => ∃ lead target after, t = lead ++ (target ++ after) ∧ isBlankText lead ∧
    TargetBinds name target after
  | .entries, t => name ∈ entryNames t

theorem Binds.finds {name : Text} {part : PatternPart} {t : Text} (h : Binds name part t) :
    Unmarked t → Finds name part t := by
  induction h with
  | item place _ ih =>
    intro unmarked
    obtain ⟨lead, target, after, rfl, blank, binds⟩ :=
      ih (unmarked.part _ [] (by rw [List.append_nil]))
    exact binds.mem_patternNames place blank unmarked
  | @spread before lead e place blank _ ih =>
    intro unmarked
    obtain ⟨gap, target, after, rfl, blank', binds⟩ :=
      ih (unmarked.part (before ++ (lead ++ "...".toList)) [] (by simp))
    exact binds.mem_patternNames_spread place blank blank' unmarked
  | name blank valid past =>
    intro unmarked
    exact ⟨_, _, _, rfl, blank, targetBinds_name valid past⟩
  | @array lead inner after blank closed level _ ih =>
    intro unmarked
    have names := ih (unmarked.part (lead ++ ['[']) (']' :: after) (by simp))
    have group : Unmarked ('[' :: (inner ++ ']' :: after)) := unmarked.part lead [] (by simp)
    exact ⟨lead, '[' :: (inner ++ [']']), after, by simp, blank,
      targetBinds_group .square (by decide) closed level group names⟩
  | @object lead inner after blank closed level _ ih =>
    intro unmarked
    have names := ih (unmarked.part (lead ++ ['{']) ('}' :: after) (by simp))
    have group : Unmarked ('{' :: (inner ++ '}' :: after)) := unmarked.part lead [] (by simp)
    exact ⟨lead, '{' :: (inner ++ ['}']), after, by simp, blank,
      targetBinds_group .curly (by decide) closed level group names⟩
  | shorthand place blank blank' valid ends =>
    exact mem_entryNames_shorthand place blank blank' valid ends
  | rest place blank blank' valid past => exact mem_entryNames_rest place blank blank' valid past
  | @keyed before lead key e place blank first closed level _ ih =>
    intro unmarked
    obtain ⟨gap, target, after, rfl, blank', binds⟩ :=
      ih (unmarked.part (before ++ (lead ++ (key ++ [':']))) [] (by simp))
    exact mem_entryNames_keyed binds place blank first closed level blank' unmarked

/-- A name that a list binds is found. -/
theorem Binds.mem_patternNames {name pattern : Text} (h : Binds name .list pattern)
    (unmarked : Unmarked pattern) : name ∈ patternNames pattern :=
  h.finds unmarked

end Recast
