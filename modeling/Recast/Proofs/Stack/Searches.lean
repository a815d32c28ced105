import Mathlib.Data.List.Infix
import Recast.Proofs.Component.HeadSearch
import Recast.Proofs.Component.HookScript
import Recast.Proofs.Scope.Binders
import Recast.Proofs.Stack.Nesting

/-!
# The scans of a conversion are defined

Every scan that a conversion makes has what it reads first (`AllDefined`). Most of them are made at
a character that was just seen. The others are made where a recogniser stopped: each of those goes
up to an opening bracket, or one character further (`EndsAt`).
-/

namespace Recast

/-- All scans of a list are defined. -/
def AllDefined (scans : List Scan) : Prop :=
  ∀ scan ∈ scans, scan.Defined

namespace AllDefined

variable {scan : Scan} {scans scans' : List Scan}

theorem nil : AllDefined [] :=
  List.forall_mem_nil _

theorem cons (first : scan.Defined) (rest : AllDefined scans) : AllDefined (scan :: scans) :=
  List.forall_mem_cons.2 ⟨first, rest⟩

theorem one (h : scan.Defined) : AllDefined [scan] :=
  cons h nil

theorem append (h : AllDefined scans) (h' : AllDefined scans') : AllDefined (scans ++ scans') :=
  List.forall_mem_append.2 ⟨h, h'⟩

theorem flatMap {α : Type} {items : List α} {make : α → List Scan}
    (h : ∀ item ∈ items, AllDefined (make item)) : AllDefined (items.flatMap make) := by
  intro scan mem
  obtain ⟨item, found, made⟩ := List.mem_flatMap.1 mem
  exact h item found scan made

theorem ite {p : Prop} [Decidable p] (h : p → AllDefined scans) (h' : ¬p → AllDefined scans') :
    AllDefined (if p then scans else scans') := by
  split
  · exact h ‹_›
  · exact h' ‹_›

end AllDefined

theorem Sound.allDefined {bound : Nat} {scans : List Scan} (h : Sound bound scans) :
    AllDefined scans :=
  fun scan mem => (h scan mem).1

theorem allDefined_pieceScans (t : Text) : AllDefined (pieceScans t) :=
  (sound_pieceScans (Nat.le_refl _)).allDefined

theorem allDefined_topLevelScans (t : Text) (pattern : Pattern) (one : Bool) (start : Nat) :
    AllDefined (topLevelScans t pattern one start) :=
  (sound_topLevelScans pattern one start (Nat.le_refl _)).allDefined

theorem defined_bracket {t : Text} {pos : Nat} {c : Char} (here : t[pos]? = some c)
    (opens : isOpener c) : (Scan.bracket t pos).Defined :=
  ⟨c, by rw [List.head?_drop, here], opens⟩

theorem defined_bracket_of_head? {t : Text} {pos : Nat} {c : Char}
    (here : (t.drop pos).head? = some c) (opens : isOpener c) : (Scan.bracket t pos).Defined :=
  ⟨c, here, opens⟩

theorem defined_element_of_head? {t : Text} {pos : Nat} {c : Char}
    (here : (t.drop pos).head? = some c) : (Scan.element t pos).Defined := by
  obtain ⟨rest, split⟩ := List.head?_eq_some_iff.1 here
  exact lt_length_of_drop split

/-! ## Where recognisers stop -/

/-- What the recogniser covers goes up to the mark, and `beyond` characters further. -/
def EndsAt {α : Type} (recognise : Recogniser α) (mark : Char) (beyond : Nat) : Prop :=
  ∀ behind ahead value size, recognise behind ahead = some (value, size) →
    ∃ front rest, ahead = front ++ mark :: rest ∧ size = front.length + beyond

section EndsAt

variable {α : Type} {recognise : Recogniser α} {mark : Char} {beyond : Nat}

/-- The mark stands where the recogniser stopped. -/
theorem EndsAt.getElem? (h : EndsAt recognise mark beyond) {t : Text} {found : Occurrence α}
    (mem : found ∈ occurrences recognise t) :
    beyond ≤ found.stop ∧ t[found.stop - beyond]? = some mark := by
  obtain ⟨passed, ahead, size, rfl, here, -, stop⟩ := exists_of_mem_occurrencesFrom mem
  obtain ⟨front, rest, rfl, size⟩ := h _ _ _ _ here
  have place : found.stop - beyond = (passed ++ front).length := by
    rw [List.length_append]
    omega
  refine ⟨by omega, ?_⟩
  rw [place, ← List.append_assoc, List.getElem?_append_right (Nat.le_refl _), Nat.sub_self]
  rfl

/-- A recogniser that covers the mark covers some text, and no more than there is. -/
theorem EndsAt.fits (h : EndsAt recognise mark 1) (behind ahead : Text) (value : α) (size : Nat)
    (here : recognise behind ahead = some (value, size)) : 0 < size ∧ size ≤ ahead.length := by
  obtain ⟨front, rest, rfl, rfl⟩ := h behind ahead value size here
  exact ⟨by omega, by simp⟩

theorem endsAt_of_head? {ahead rest : Text} {value found : α} {size : Nat} (suffix : rest <:+ ahead)
    (opens : rest.head? = some mark) (here : covers value ahead rest = (found, size)) :
    ∃ front rest, ahead = front ++ mark :: rest ∧ size = front.length + 0 := by
  obtain ⟨front, rfl⟩ := suffix
  obtain ⟨after, rfl⟩ := List.head?_eq_some_iff.1 opens
  obtain ⟨-, rfl⟩ := Prod.mk.inj here
  exact ⟨front, after, rfl, by simp⟩

theorem endsAt_of_suffix {ahead rest : Text} {value found : α} {size : Nat}
    (suffix : mark :: rest <:+ ahead) (here : covers value ahead rest = (found, size)) :
    ∃ front rest, ahead = front ++ mark :: rest ∧ size = front.length + 1 := by
  obtain ⟨front, rfl⟩ := suffix
  obtain ⟨-, rfl⟩ := Prod.mk.inj here
  exact ⟨front, rest, rfl, by simp only [List.length_append, List.length_cons]; omega⟩

end EndsAt

theorem trimStart_suffix (t : Text) : trimStart t <:+ t :=
  List.dropWhile_suffix _

theorem suffix_of_dropHead? {head t rest : Text} (h : dropHead? head t = some rest) : rest <:+ t :=
  ⟨head, (eq_append_of_dropHead? h).symm⟩

/-- What is left behind an optional head. -/
theorem getD_dropHead?_suffix (head t : Text) : (dropHead? head t).getD t <:+ t := by
  cases found : dropHead? head t with
  | none => exact List.suffix_rfl
  | some rest => exact suffix_of_dropHead? found

theorem suffix_of_word? {t name rest : Text} (h : word? t = some (name, rest)) : rest <:+ t :=
  ⟨name, (eq_append_of_word? h).symm⟩

theorem suffix_of_declarationKeyword? {t rest : Text} (h : declarationKeyword? t = some rest) :
    rest <:+ t := by
  obtain ⟨keyword, blanks, rfl, -⟩ := declarationKeyword?_needs h
  exact ⟨keyword ++ blanks, List.append_assoc _ _ _⟩

/-- A bracket after a mark, with blanks before it. -/
theorem cons_suffix_of_dropHead? {mark : Char} {t rest : Text}
    (h : dropHead? [mark] (trimStart t) = some rest) : mark :: rest <:+ t := by
  have split : trimStart t = mark :: rest := eq_append_of_dropHead? h
  exact split ▸ trimStart_suffix t

theorem suffix_of_typeArgument? {t argument rest : Text}
    (h : typeArgument? t = some (argument, rest)) : '(' :: rest <:+ t := by
  induction t generalizing argument with
  | nil => cases h
  | cons c cs ih =>
    rw [typeArgument?] at h
    split at h
    · cases h
    · split at h
      next after opened =>
        obtain ⟨-, rfl⟩ := Prod.mk.inj (Option.some.inj h)
        obtain ⟨-, opened⟩ := Option.ite_none_right_eq_some.1 opened
        exact (cons_suffix_of_dropHead? opened).trans (List.suffix_cons c cs)
      · obtain ⟨⟨_, _⟩, more, same⟩ := Option.map_eq_some_iff.1 h
        obtain ⟨-, rfl⟩ := Prod.mk.inj same
        exact (ih more).trans (List.suffix_cons c cs)

/-- A call is opened by a round bracket. -/
theorem suffix_of_callOpening? {t rest : Text} {argument? : Option Text}
    (h : callOpening? t = some (argument?, rest)) : '(' :: rest <:+ t := by
  rw [callOpening?] at h
  split at h
  next more opened =>
    obtain ⟨⟨_, _⟩, argument, same⟩ := Option.map_eq_some_iff.1 h
    obtain ⟨-, rfl⟩ := Prod.mk.inj same
    have behind : more <:+ t := (List.suffix_cons '<' more).trans (opened ▸ trimStart_suffix t)
    exact (suffix_of_typeArgument? argument).trans behind
  · obtain ⟨_, bracket, same⟩ := Option.map_eq_some_iff.1 h
    obtain ⟨-, rfl⟩ := Prod.mk.inj same
    exact cons_suffix_of_dropHead? bracket

theorem stateOpening_endsAt : EndsAt stateOpening '(' 1 := by
  intro behind ahead value size h
  simp only [stateOpening, Option.bind_eq_bind, Option.bind_eq_some_iff] at h
  obtain ⟨declared, declares, pattern, bracket, ⟨name, afterName⟩, named, afterComma, comma,
    ⟨setter, afterSetter⟩, set, afterPattern, closed, value, equals, after, hook,
    ⟨argument?, rest⟩, call, same⟩ := h
  refine endsAt_of_suffix ?_ (Option.some.inj same)
  calc '(' :: rest
      <:+ after := suffix_of_callOpening? call
    _ <:+ dropModule (trimStart value) := suffix_of_dropHead? hook
    _ <:+ trimStart value := getD_dropHead?_suffix _ _
    _ <:+ value := trimStart_suffix value
    _ <:+ afterPattern := (suffix_of_dropHead? equals).trans (trimStart_suffix _)
    _ <:+ afterSetter := (suffix_of_dropHead? closed).trans (trimStart_suffix _)
    _ <:+ afterComma := (suffix_of_word? set).trans (trimStart_suffix _)
    _ <:+ afterName := (suffix_of_dropHead? comma).trans (trimStart_suffix _)
    _ <:+ pattern := (suffix_of_word? named).trans (trimStart_suffix _)
    _ <:+ declared := suffix_of_dropHead? bracket
    _ <:+ ahead := suffix_of_declarationKeyword? declares

theorem effectOpening_endsAt : EndsAt effectOpening '(' 1 := by
  intro behind ahead value size h
  simp only [effectOpening, Option.bind_eq_bind, Option.bind_none, Option.ite_none_left_eq_some,
    Option.bind_eq_some_iff] at h
  obtain ⟨-, hook, used, after, effect, rest, opened, same⟩ := h
  refine endsAt_of_suffix ?_ (Option.some.inj same)
  calc '(' :: rest
      <:+ after := cons_suffix_of_dropHead? opened
    _ <:+ (dropHead? "Layout".toList hook).getD hook := suffix_of_dropHead? effect
    _ <:+ hook := getD_dropHead?_suffix _ _
    _ <:+ dropModule ahead := suffix_of_dropHead? used
    _ <:+ ahead := getD_dropHead?_suffix _ _

theorem otherHookOpening_endsAt : EndsAt otherHookOpening '(' 1 := by
  intro behind ahead value size h
  simp only [otherHookOpening, Option.bind_eq_bind, Option.bind_none, Option.ite_none_left_eq_some,
    Option.bind_eq_some_iff] at h
  obtain ⟨-, ⟨hook, after⟩, named, ⟨argument?, rest⟩, call, same⟩ := h
  obtain ⟨other, -, named⟩ := List.exists_of_findSome?_eq_some named
  obtain ⟨_, here, pair⟩ := Option.map_eq_some_iff.1 named
  obtain ⟨-, rfl⟩ := Prod.mk.inj pair
  refine endsAt_of_suffix ?_ (Option.some.inj same)
  calc '(' :: rest
      <:+ _ := suffix_of_callOpening? call
    _ <:+ dropModule ahead := suffix_of_dropHead? here
    _ <:+ ahead := getD_dropHead?_suffix _ _

theorem stateInit_endsAt : EndsAt stateInit '{' 0 := by
  intro behind ahead value size h
  simp only [stateInit, Option.bind_eq_bind, Option.bind_none, Option.ite_none_left_eq_some,
    Option.bind_eq_some_iff, Option.ite_none_right_eq_some] at h
  obtain ⟨-, name, state, after, equals, opens, same⟩ := h
  refine endsAt_of_head? ?_ opens (Option.some.inj same)
  calc trimStart after
      <:+ after := trimStart_suffix after
    _ <:+ name := (suffix_of_dropHead? equals).trans (trimStart_suffix name)
    _ <:+ (dropHead? "this.".toList ahead).getD ahead := suffix_of_dropHead? state
    _ <:+ ahead := getD_dropHead?_suffix _ _

theorem functionToken_endsAt : EndsAt functionToken '(' 0 := by
  intro behind ahead value size h
  obtain ⟨head, rest, split, -, same⟩ := functionToken_reaches h
  exact ⟨head, rest, split, same⟩

theorem functionComponent_endsAt : EndsAt functionComponent '(' 0 := by
  intro behind ahead value size h
  obtain ⟨rest, ⟨front, rfl, -⟩, rfl⟩ := functionComponent_needs h
  exact ⟨front, rest, rfl, by simp⟩

/-- The bracket of a call of `map` is the last character of the match. -/
theorem getElem?_mapCall {t : Text} {start : Nat} {call : Span}
    (mem : call ∈ topLevelMatches t mapCall start) : t[call.stop - 1]? = some '(' := by
  obtain ⟨passed, ahead, size, split, found, rfl⟩ := mem_topLevelFrom mem
  simp only [mapCall, Option.bind_eq_bind, Option.bind_eq_some_iff, Option.some.injEq] at found
  obtain ⟨name, dot, call, word, rest, opened, rfl⟩ := found
  have suffix : '(' :: rest <:+ ahead :=
    (cons_suffix_of_dropHead? opened).trans <| (suffix_of_dropHead? word).trans <|
      (trimStart_suffix name).trans (suffix_of_dropHead? dot)
  obtain ⟨front, rfl⟩ := suffix
  have size := congrArg List.length split
  have whole : t = t.take start ++ (passed ++ (front ++ '(' :: rest)) := by
    rw [← split, List.take_append_drop]
  have bound : start ≤ t.length := by
    by_contra beyond
    rw [List.drop_eq_nil_of_le (by omega)] at split
    simp at split
  simp only [List.length_append, List.length_cons]
  rw [whole, List.getElem?_append_right, List.getElem?_append_right, List.getElem?_append_right]
  all_goals simp only [List.length_take, Nat.min_eq_left bound]
  · rw [show _ - _ - _ - _ = 0 by omega]
    rfl
  all_goals omega

/-! ## Markup -/

theorem allDefined_partScans (rest : Text) : AllDefined (partScans rest) := by
  have start : 0 < ('<' :: rest).length := Nat.succ_pos _
  refine .cons start ?_
  split
  · exact .ite (fun _ => .nil) fun _ => .one start
  · exact .nil

theorem allDefined_unitScans : ∀ units : List Text, AllDefined (unitScans units)
  | [] => .nil
  | unit :: units => by
    rw [unitScans.eq_def]
    refine .append ?_ (.ite (fun _ => .nil) fun _ => allDefined_unitScans units)
    split
    · exact (sound_markupLook (Nat.le_refl _)).allDefined
    · exact .nil

theorem allDefined_listScans (t : Text) : AllDefined (listScans t) := by
  rw [listScans]
  refine .append (allDefined_topLevelScans t mapCall true 0) ?_
  split
  · exact .nil
  next call first =>
    refine .cons (defined_bracket (getElem?_mapCall (List.mem_of_mem_head? first)) rfl) ?_
    split
    · exact .nil
    · refine .ite (fun _ => .nil) fun _ => ?_
      split
      · exact .nil
      · exact .one trivial

/-- The elements in code are those that the scans of the code pass over. -/
theorem map_embeddedScans (t : Text) :
    ∀ (rest behind : Text) (pos resume : Nat) (passed : List Scan),
      (embeddedScans t behind pos resume passed rest).1.map (·.2) =
        embeddedElements behind pos resume rest
  | [], _, _, _, _ => rfl
  | c :: cs, behind, pos, resume, passed => by
    rw [embeddedScans, embeddedElements]
    split
    · exact map_embeddedScans t cs _ _ _ _
    · split
      · exact map_embeddedScans t cs _ _ _ _
      · split
        · dsimp only
          cases elementEnd pos c cs with
          | error fault => rfl
          | ok found =>
            cases found with
            | none => exact map_embeddedScans t cs _ _ _ _
            | some stop => exact congrArg (_ :: ·) (map_embeddedScans t cs _ _ _ _)
        · exact map_embeddedScans t cs _ _ _ _

/-- The scans before, between and behind the elements in code. -/
theorem allDefined_embeddedScans (t : Text) :
    ∀ (rest behind : Text) (pos resume : Nat) (passed : List Scan), t.drop pos = rest →
      AllDefined passed →
        (∀ found ∈ (embeddedScans t behind pos resume passed rest).1, AllDefined found.1) ∧
          AllDefined (embeddedScans t behind pos resume passed rest).2
  | [], _, _, _, _, _, before => ⟨List.forall_mem_nil _, before⟩
  | c :: cs, behind, pos, resume, passed, here, before => by
    have next : t.drop (pos + 1) = cs := by rw [← List.drop_drop, here]; rfl
    have inside := lt_length_of_drop here
    have go := fun resume passed h =>
      allDefined_embeddedScans t cs (c :: behind) (pos + 1) resume passed next h
    rw [embeddedScans]
    split
    · exact go _ _ before
    · split
      · exact go _ _ (before.append (.one inside))
      · split
        · have scans : AllDefined (passed ++ [.element t pos]) := before.append (.one inside)
          dsimp only
          cases elementEnd pos c cs with
          | error fault => exact ⟨List.forall_mem_singleton.2 scans, .nil⟩
          | ok found =>
            cases found with
            | none => exact go _ _ scans
            | some stop =>
              obtain ⟨between, behind⟩ := go stop [] .nil
              exact ⟨List.forall_mem_cons.2 ⟨scans, between⟩, behind⟩
        · exact go _ _ before

/-! ## Scopes -/

theorem allDefined_bodyScans (code : Text) (pos : Nat) : AllDefined (bodyScans code pos) :=
  .ite (fun opens => .one (defined_bracket_of_head? opens rfl)) fun _ => .nil

theorem allDefined_arrowScopeScans (code : Text) (arrow : Occurrence Unit) :
    AllDefined (arrowScopeScans code arrow) := by
  rw [arrowScopeScans]
  split
  · exact .nil
  · exact (allDefined_bodyScans code arrow.stop).append (.one trivial)

theorem allDefined_declarationScans (code : Text) (declaration : Occurrence Unit) :
    AllDefined (declarationScans code declaration) := by
  rw [declarationScans]
  refine .append (.ite (fun opens => .one ?_) fun _ => .nil) ?_
  · simp only [Bool.or_eq_true, decide_eq_true_eq] at opens
    rcases opens with curly | square
    · exact defined_bracket_of_head? curly rfl
    · exact defined_bracket_of_head? square rfl
  · split
    · exact .nil
    · refine .append (.ite (fun _ => ?_) fun _ => .nil) (.one trivial)
      exact allDefined_bodyScans code _

theorem getElem?_of_offsetOf? {p : Char → Bool} : ∀ {t : Text} {pos found : Nat},
    offsetOf? p pos t = some found → pos ≤ found ∧ ∃ c, t[found - pos]? = some c ∧ p c
  | c :: cs, pos, found, h => by
    rw [offsetOf?] at h
    split at h
    next holds =>
      obtain rfl := Option.some.inj h
      exact ⟨Nat.le_refl _, c, by rw [Nat.sub_self, List.getElem?_cons_zero], holds⟩
    · obtain ⟨behind, d, here, holds⟩ := getElem?_of_offsetOf? h
      refine ⟨by omega, d, ?_, holds⟩
      rw [show found - pos = found - (pos + 1) + 1 by omega, List.getElem?_cons_succ, here]

theorem allDefined_functionScopeScans {code : Text} {function : Occurrence Unit}
    (mem : function ∈ occurrences functionToken code) :
    AllDefined (functionScopeScans code function) := by
  refine .cons (defined_bracket (functionToken_endsAt.getElem? mem).2 rfl) ?_
  split
  · exact .nil
  next stop _ =>
    split
    · exact .nil
    next brace found =>
      obtain ⟨behind, c, here, holds⟩ := getElem?_of_offsetOf? found
      obtain rfl : c = '{' := by simpa using holds
      rw [List.getElem?_drop, Nat.add_sub_cancel' behind] at here
      exact .cons (defined_bracket here rfl) (.ite (fun _ => .one trivial) fun _ => .nil)

theorem allDefined_scopeScans (code : Text) : AllDefined (scopeScans code) :=
  .append
    (.append (.flatMap fun arrow _ => allDefined_arrowScopeScans code arrow)
      (.flatMap fun declaration _ => allDefined_declarationScans code declaration))
    (.flatMap fun _ mem => allDefined_functionScopeScans mem)

theorem allDefined_qualifyScans (body : Text) : AllDefined (qualifyScans body) :=
  .cons (Nat.le_refl _) (allDefined_scopeScans (mask body))

/-! ## Signatures and hooks -/

theorem drop_length_sub_of_suffix {t rest : Text} (h : rest <:+ t) :
    t.drop (t.length - rest.length) = rest :=
  (List.suffix_iff_eq_drop.1 h).symm

theorem allDefined_bindingScans (params : Text) : AllDefined (bindingScans params) := by
  refine .ite (fun opens => .cons ?_ ?_) fun _ => .nil
  · rw [← drop_length_sub_of_suffix (trimStart_suffix params)] at opens
    exact defined_bracket_of_head? opens rfl
  · split
    · exact allDefined_pieceScans _
    · exact .nil

theorem allDefined_stateScans (body : Text) : AllDefined (stateScans body) := by
  intro scan mem
  obtain ⟨found, here, rfl⟩ := List.mem_map.1 mem
  exact defined_bracket (stateOpening_endsAt.getElem? here).2 rfl

theorem allDefined_argumentScans {t : Text} {opening : Nat} {c : Char}
    (here : t[opening]? = some c) (opens : isOpener c) : AllDefined (argumentScans t opening) := by
  refine .cons (defined_bracket here opens) ?_
  split
  · exact allDefined_pieceScans _
  · exact .nil

theorem allDefined_effectBodyScans (callback : Text) : AllDefined (effectBodyScans callback) := by
  rw [effectBodyScans]
  split
  · exact .ite (fun opens => .one (defined_bracket_of_head? opens rfl)) fun _ => .nil
  · exact .nil

theorem allDefined_effectScans (body : Text) : AllDefined (effectScans body) := by
  refine .flatMap fun found mem => .append ?_ ?_
  · exact allDefined_argumentScans (effectOpening_endsAt.getElem? mem).2 rfl
  · split
    · exact allDefined_effectBodyScans _
    · exact .nil

/-! ## Definitions and returned values -/

theorem allDefined_arrowScans (source : Text) (head : Occurrence DefinitionHead) :
    AllDefined (arrowScans source head) := by
  rw [arrowScans]
  refine .append (.ite (fun opens => .one (defined_bracket_of_head? opens rfl)) fun _ => .nil) ?_
  split
  · exact .nil
  · split
    next here => exact .one (defined_element_of_head? here)
    next here => exact .one (defined_bracket_of_head? here rfl)
    next here => exact .one (defined_bracket_of_head? here rfl)
    · exact .nil

theorem fromBrace?_suffix {t block : Text} (h : fromBrace? t = some block) :
    block <:+ t ∧ block.head? = some '{' := by
  rw [fromBrace?] at h
  split at h
  next rest opens =>
    obtain rfl := Option.some.inj h
    exact ⟨opens ▸ trimStart_suffix t, rfl⟩
  next type colon =>
    obtain ⟨holds, same⟩ := Option.ite_none_right_eq_some.1 h
    obtain rfl := Option.some.inj same
    have behind : type <:+ t := (List.suffix_cons ':' type).trans (colon ▸ trimStart_suffix t)
    refine ⟨(List.dropWhile_suffix _).trans behind, ?_⟩
    have mem : '{' ∈ type := by simpa using holds
    have left : type.dropWhile (· != '{') ≠ [] := by
      intro none
      simpa using List.dropWhile_eq_nil_iff.1 none '{' mem
    obtain ⟨c, rest, split⟩ := List.exists_cons_of_ne_nil left
    have first := List.head_dropWhile_not (· != '{') left
    simp only [split, List.head_cons, bne_eq_false_iff_eq] at first
    rw [split, first]
    rfl
  · cases h

theorem allDefined_functionScans {source : Text} {head : Occurrence DefinitionHead}
    (mem : head ∈ occurrences functionComponent source) :
    AllDefined (functionScans source head) := by
  refine .cons (defined_bracket (functionComponent_endsAt.getElem? mem).2 rfl) ?_
  split
  next block found =>
    obtain ⟨stop, -, brace⟩ := Option.bind_eq_some_iff.1 found
    obtain ⟨suffix, opens⟩ := fromBrace?_suffix brace
    rw [← drop_length_sub_of_suffix (suffix.trans (List.drop_suffix stop source))] at opens
    exact .one (defined_bracket_of_head? opens rfl)
  · exact .nil

theorem allDefined_arrowHeadScans (source : Text) :
    ∀ heads : List (Occurrence DefinitionHead), AllDefined (arrowHeadScans source heads)
  | [] => .nil
  | head :: heads => by
    rw [arrowHeadScans]
    refine (allDefined_arrowScans source head).append ?_
    split
    · exact allDefined_arrowHeadScans source heads
    · exact .nil

theorem allDefined_definitionScans (source : Text) : AllDefined (definitionScans source) := by
  refine (allDefined_arrowHeadScans source _).append ?_
  split
  · exact .flatMap fun _ mem => allDefined_functionScans mem
  · exact .nil

theorem allDefined_returnScans (body : Text) : AllDefined (returnScans body) := by
  have semicolons := allDefined_topLevelScans body semicolon true
  rw [returnScans]
  refine (allDefined_topLevelScans body returnWord false 0).append ?_
  split
  · exact .nil
  · dsimp only
    split
    next opens =>
      refine .cons (defined_bracket_of_head? opens rfl) ?_
      exact .ite (fun _ => .nil) fun _ => semicolons _
    next opens =>
      refine .cons (defined_element_of_head? opens) ?_
      split
      · exact semicolons _
      · exact .nil
    · exact semicolons _

/-! ## Class components -/

theorem allDefined_classBodyScans (source : Text) (pos : Nat) :
    AllDefined (classBodyScans source pos) := by
  have braces : ∀ brace, AllDefined
      (if (source.drop brace).head? = some '{' then [.bracket source brace] else []) := fun brace =>
    .ite (fun opens => .one (defined_bracket_of_head? opens rfl)) fun _ => .nil
  refine .ite (fun _ => .append (sound_angleLook (Nat.le_refl _)).allDefined ?_) fun _ => braces _
  split
  · exact braces _
  · exact .nil

theorem allDefined_classPropScans (arguments : Text) : AllDefined (classPropScans arguments) := by
  rw [classPropScans]
  split
  · exact .cons ⟨'{', rfl, rfl⟩ (allDefined_pieceScans _)
  · exact .nil

theorem allDefined_classStateScans (body : Text) : AllDefined (classStateScans body) :=
  .flatMap fun _ mem => allDefined_argumentScans (stateInit_endsAt.getElem? mem).2 rfl

theorem allDefined_classScans (arguments body : Text) : AllDefined (classScans arguments body) :=
  ((allDefined_effectScans body).append (allDefined_classPropScans arguments)).append
    (allDefined_classStateScans body)

end Recast
