import Recast.Component.Functional
import Recast.Proofs.Scan.Found

/-!
# What splitting off the return keeps

`splitReturn` cuts the returned value out of a body in one of three ways, which `Cut` lists: a value
in brackets ends with its bracket, an element with its closing tag, and any other value with the
statement. The code up to the end of the value is all in the result (`splitReturn_cut`). The code
behind it is in no part of the result. So the split keeps the whole body just if what is left is the
end of the statement, which a value that only starts with a bracket or an element does not provide
for (`keepsAll_iff_isStatementTail`).
-/

namespace Recast

/-- The characters of a text that are not blank. -/
def solid (t : Text) : Text :=
  t.filter fun c => !isBlank c

/-- What may follow the value of a `return`: blanks and at most one semicolon. -/
def IsStatementTail (t : Text) : Prop :=
  solid t = [] ∨ solid t = [';']

instance (t : Text) : Decidable (IsStatementTail t) :=
  inferInstanceAs (Decidable (_ ∨ _))

/-- A value as it is written behind `return`: as it is, or in brackets that may have blanks
inside. -/
inductive WrittenAs (value : Text) : Text → Prop
  | bare : WrittenAs value value
  | bracketed {before after : Text} (hb : isBlankText before) (ha : isBlankText after) :
    WrittenAs value ('(' :: (before ++ value ++ after ++ [')']))

/-- A body is all there in the code before the `return` and the returned value. -/
def KeepsAll (body pre value : Text) : Prop :=
  ∃ gap written tail, isBlankText gap ∧ WrittenAs value written ∧ IsStatementTail tail ∧
    body = pre ++ "return".toList ++ gap ++ written ++ tail

/-- How a value is cut out of the code behind `return`: what is written for it, and what is left. -/
inductive Cut (value : Text) : Text → Text → Prop
  /-- Brackets are taken off, wherever they end. -/
  | brackets {before after : Text} (hb : isBlankText before) (ha : isBlankText after)
    (rest : Text) :
    Cut value ('(' :: (before ++ value ++ after ++ [')'])) rest
  /-- An element is taken, whatever follows it. -/
  | element (opens : value.head? = some '<') (rest : Text) : Cut value value rest
  /-- Any other value goes to a semicolon. -/
  | toSemicolon {blanks : Text} (opens : (solid value).head? ≠ some '(') (hb : isBlankText blanks)
    (rest : Text) :
    Cut value value (blanks ++ ';' :: rest)
  /-- Without a semicolon it goes to the end. -/
  | toEnd {blanks : Text} (hb : isBlankText blanks) : Cut value value blanks

theorem Cut.writtenAs {value written rest : Text} (h : Cut value written rest) :
    WrittenAs value written := by
  cases h with
  | brackets hb ha => exact .bracketed hb ha
  | element | toSemicolon | toEnd => exact .bare

/-! ## Blanks -/

theorem solid_append (a b : Text) : solid (a ++ b) = solid a ++ solid b :=
  List.filter_append a b

theorem solid_cons {c : Char} (h : isBlank c = false) (t : Text) : solid (c :: t) = c :: solid t :=
  List.filter_cons_of_pos (by simp [h])

theorem solid_eq_nil {t : Text} (h : isBlankText t) : solid t = [] := by
  rw [solid, List.filter_eq_nil_iff]
  intro c hc
  simp [List.all_eq_true.1 h c hc]

theorem head?_solid {t : Text} (first : trimStart t = t) : (solid t).head? = t.head? := by
  cases t with
  | nil => rfl
  | cons c t =>
    have hc : isBlank c = false := not_isBlank_of_head?_trimStart (by rw [first]; rfl)
    rw [solid_cons hc]
    rfl

/-! ## The ways to cut -/

theorem returnWord_found {behind ahead : Text} {size : Nat}
    (h : returnWord behind ahead = some size) :
    size = 6 ∧ ∃ rest, ahead = "return".toList ++ rest := by
  rw [returnWord] at h
  split at h
  · split at h
    · rename_i rest cut
      split at h
      · exact ⟨(Option.some.inj h).symm, rest, eq_append_of_dropHead? cut⟩
      · simp at h
    · simp at h
  · simp at h

theorem semicolon_found {behind ahead : Text} {size : Nat}
    (h : semicolon behind ahead = some size) : ∃ rest, ahead = ';' :: rest := by
  rw [semicolon] at h
  split at h
  · rename_i first
    exact List.head?_eq_some_iff.1 first
  · simp at h

/-- The part of a text between its front and an offset. -/
theorem slice_front (front code : Text) (stop : Nat) :
    slice (front ++ code) front.length (front.length + stop) = code.take stop := by
  rw [slice, List.take_length_add_append, List.drop_left]

/-- A value that is neither in brackets nor an element goes to the first semicolon of the top level,
or to the end. -/
theorem cut_statement {front code : Text} (first : trimStart code = code)
    (open? : code.head? = some '(' → topLevelMatches (front ++ code) semicolon front.length = []) :
    ∃ written rest, code = written ++ rest ∧
      Cut (trim (slice (front ++ code) front.length
        (((topLevelMatches (front ++ code) semicolon front.length).head?.map (·.start)).getD
          (front ++ code).length)))
        written rest := by
  cases found : (topLevelMatches (front ++ code) semicolon front.length).head? with
  | none =>
    obtain ⟨blanks, hb, right⟩ := exists_trimEnd_append code
    refine ⟨trimEnd code, blanks, right, ?_⟩
    rw [Option.map_none, Option.getD_none, List.length_append, slice_front, List.take_length, trim,
      first]
    exact .toEnd hb
  | some span =>
    have mem := List.mem_of_mem_head? found
    rw [topLevelMatches, List.take_left, List.drop_left] at mem
    obtain ⟨passed, ahead, size, rfl, found', rfl⟩ := mem_topLevelFrom mem
    obtain ⟨rest, rfl⟩ := semicolon_found found'
    rw [Option.map_some, Option.getD_some, slice_front, List.take_left]
    have hp : trimStart passed = passed := by
      cases passed with
      | nil => rfl
      | cons c passed =>
        refine trimStart_eq_self ?_
        rintro d ⟨⟩
        exact not_isBlank_of_head?_trimStart (by rw [first]; rfl)
    obtain ⟨blanks, hb, right⟩ := exists_trimEnd_append passed
    have opens : (solid (trimEnd passed)).head? ≠ some '(' := by
      have same : solid passed = solid (trimEnd passed) := by
        conv_lhs => rw [right, solid_append, solid_eq_nil hb, List.append_nil]
      rw [← same, head?_solid hp]
      intro bracket
      rw [open? (by rw [List.head?_append, bracket]; rfl)] at found
      simp at found
    refine ⟨trimEnd passed, blanks ++ ';' :: rest, ?_, ?_⟩
    · rw [← List.append_assoc, ← right]
    · rw [trim, hp]
      exact .toSemicolon opens hb rest

/-- Brackets end with the closing one, and what is inside them is the value between blanks. -/
theorem cut_brackets {front cs : Text} {stop : Nat}
    (h : bracketEndAt? (front ++ '(' :: cs) front.length = some stop) :
    ∃ written rest, '(' :: cs = written ++ rest ∧
      Cut (trim (slice (front ++ '(' :: cs) (front.length + 1) (stop - 1))) written rest := by
  rw [bracketEndAt?, List.drop_left] at h
  obtain ⟨inner, rest, rfl, rfl⟩ := bracketEnd_found .round h
  obtain ⟨before, after, hb, ha, split⟩ := exists_append_trim inner
  have inside : slice (front ++ '(' :: (inner ++ ')' :: rest)) (front.length + 1)
      (front.length + 1 + inner.length + 1 - 1) = inner := by
    refine slice_eq (front ++ ['(']) (')' :: rest) ?_ ?_ ?_ <;> simp
  refine ⟨'(' :: (inner ++ [')']), rest, by simp [Bracket.closer], ?_⟩
  rw [show Bracket.round.closer = ')' from rfl, inside]
  nth_rewrite 2 [split]
  exact .brackets hb ha rest

/-- An element is the value as it stands. -/
theorem cut_element {front cs : Text} {stop : Nat}
    (h : elementEndAt (front ++ '<' :: cs) front.length = .ok (some stop)) :
    ∃ written rest, '<' :: cs = written ++ rest ∧
      Cut (slice (front ++ '<' :: cs) front.length stop) written rest := by
  rw [elementEndAt, List.drop_left] at h
  obtain ⟨-, inner, rest, rfl, rfl⟩ := elementEnd_found h
  have taken : slice (front ++ '<' :: (inner ++ '>' :: rest)) front.length
      (front.length + 1 + inner.length + 1) =
      '<' :: (inner ++ ['>']) := by
    refine slice_eq front rest (by simp) rfl ?_
    simp only [List.length_cons, List.length_append, List.length_nil]
    omega
  refine ⟨'<' :: (inner ++ ['>']), rest, by simp, ?_⟩
  rw [taken]
  exact .element rfl rest

/-- The value that is cut out of a body from an offset on. -/
def returnedAt (body : Text) (start : Nat) : Except MarkupFault Text :=
  let toSemicolon := trim (slice body start
    (((topLevelMatches body semicolon start).head?.map (·.start)).getD body.length))
  if (body.drop start).head? = some '(' then
    .ok (match bracketEndAt? body start with
      | some stop => trim (slice body (start + 1) (stop - 1))
      | none => toSemicolon)
  else if (body.drop start).head? = some '<' then
    (elementEndAt body start).map fun
      | some stop => slice body start stop
      | none => toSemicolon
  else .ok toSemicolon

/-- A body is split at its last `return`, and the value is cut out from the first character behind
it on. -/
theorem splitReturn_eq {body : Text} {statement : Span}
    (h : (topLevelMatches body returnWord 0).getLast? = some statement) :
    splitReturn body =
      (returnedAt body (body.length - (trimStart (body.drop statement.stop)).length)).map
        fun value => (body.take statement.start, some value) := by
  rw [splitReturn, h, returnedAt]
  dsimp only
  generalize body.length - (trimStart (body.drop statement.stop)).length = start
  generalize bracketEndAt? body start = bracket
  generalize elementEndAt body start = element
  generalize (body.drop start).head? = first
  split
  · rw [if_pos rfl]
    cases bracket <;> rfl
  · rw [if_neg (by decide), if_pos rfl]
    cases element with
    | error fault => rfl
    | ok found => cases found <;> rfl
  · rename_i notBracket notElement
    rw [if_neg notBracket, if_neg notElement]
    rfl

/-- The value is cut out in one of the ways to cut. -/
theorem returnedAt_cut {front code value : Text} (first : trimStart code = code)
    (h : returnedAt (front ++ code) front.length = .ok value) :
    ∃ written rest, code = written ++ rest ∧ Cut value written rest := by
  rw [returnedAt, List.drop_left] at h
  split at h
  · rename_i bracket
    obtain ⟨cs, rfl⟩ := List.head?_eq_some_iff.1 bracket
    obtain rfl := Except.ok.inj h
    split
    · rename_i ends
      exact cut_brackets ends
    · rename_i unclosed
      rw [bracketEndAt?, List.drop_left] at unclosed
      refine cut_statement first fun _ => ?_
      rw [topLevelMatches, List.take_left, List.drop_left]
      exact topLevelFrom_unclosed .round unclosed
  rename_i bracket
  split at h
  · rename_i element
    obtain ⟨cs, rfl⟩ := List.head?_eq_some_iff.1 element
    cases ends : elementEndAt (front ++ '<' :: cs) front.length with
    | error fault => simp [ends, Except.map] at h
    | ok found =>
      rw [ends] at h
      obtain rfl := Except.ok.inj h
      cases found with
      | some stop => exact cut_element ends
      | none => exact cut_statement first fun bracket => by simp at bracket
  · obtain rfl := Except.ok.inj h
    exact cut_statement first fun h => absurd h bracket

/-- The code up to the end of the returned value is all in the result of a split. -/
theorem splitReturn_cut {body pre value : Text} (h : splitReturn body = .ok (pre, some value)) :
    ∃ gap written rest, isBlankText gap ∧ Cut value written rest ∧
      body = pre ++ "return".toList ++ gap ++ written ++ rest := by
  cases last : (topLevelMatches body returnWord 0).getLast? with
  | none =>
    rw [splitReturn, last] at h
    cases h
  | some statement =>
    have mem := List.mem_of_mem_getLast? last
    rw [topLevelMatches, List.drop_zero] at mem
    obtain ⟨before, ahead, size, rfl, found, rfl⟩ := mem_topLevelFrom mem
    obtain ⟨rfl, behind, rfl⟩ := returnWord_found found
    obtain ⟨gap, hg, split⟩ := exists_append_trimStart behind
    have first : trimStart (trimStart behind) = trimStart behind :=
      trimStart_eq_self fun c hc => not_isBlank_of_head?_trimStart hc
    -- the body in front of the value, and the value with what follows it
    have body : before ++ ("return".toList ++ behind) = before ++ "return".toList ++ gap ++
        trimStart behind := by
      conv_lhs => rw [split, ← List.append_assoc, ← List.append_assoc]
    have behind_return : (before ++ ("return".toList ++ behind)).drop (0 + before.length + 6) =
        behind := by
      rw [← List.append_assoc]
      exact List.drop_left' (by simp)
    have start : (before ++ ("return".toList ++ behind)).length - (trimStart behind).length =
        (before ++ "return".toList ++ gap).length := by
      rw [body, List.length_append, Nat.add_sub_cancel]
    rw [splitReturn_eq last, behind_return, start, Nat.zero_add, List.take_left, body] at h
    cases value' : returnedAt (before ++ "return".toList ++ gap ++ trimStart behind)
        (before ++ "return".toList ++ gap).length with
    | error fault =>
      rw [value'] at h
      cases h
    | ok found =>
      rw [value'] at h
      obtain ⟨rfl, same⟩ := Prod.mk.inj (Except.ok.inj h)
      obtain rfl := Option.some.inj same
      obtain ⟨written, rest, hw, cut⟩ := returnedAt_cut first value'
      exact ⟨gap, written, rest, hg, cut, by rw [body, hw, List.append_assoc _ written]⟩

/-! ## What is lost -/

theorem solid_brackets {before value after : Text} (hb : isBlankText before)
    (ha : isBlankText after) :
    solid ('(' :: (before ++ value ++ after ++ [')'])) = '(' :: (solid value ++ [')']) := by
  rw [solid_cons rfl, solid_append, solid_append, solid_append, solid_eq_nil hb, solid_eq_nil ha,
    List.nil_append, List.append_nil]
  rfl

theorem IsStatementTail.length_le {t : Text} (h : IsStatementTail t) : (solid t).length ≤ 1 := by
  rcases h with h | h <;> simp [h]

/-- Blanks aside, a value with the end of a statement behind it is read in one way only. -/
theorem Cut.solid_rest {value written rest written' tail : Text} (cut : Cut value written rest)
    (hw : WrittenAs value written') (ht : IsStatementTail tail)
    (same : solid written ++ solid rest = solid written' ++ solid tail) :
    solid rest = solid tail := by
  have short := ht.length_le
  cases hw with
  | bare =>
    cases cut with
    | brackets hb ha =>
      have := congrArg List.length same
      simp only [solid_brackets hb ha, List.length_append, List.length_cons, List.length_nil]
        at this
      omega
    | element | toSemicolon | toEnd => exact List.append_cancel_left same
  | bracketed hb ha =>
    rw [solid_brackets hb ha] at same
    cases cut with
    | brackets hb ha =>
      rw [solid_brackets hb ha] at same
      exact List.append_cancel_left same
    | element opens =>
      obtain ⟨cs, rfl⟩ := List.head?_eq_some_iff.1 opens
      rw [solid_cons rfl] at same
      simp at same
    | toSemicolon opens hb' =>
      rw [solid_append, solid_eq_nil hb', List.nil_append, solid_cons rfl] at same
      cases hv : solid value with
      | nil => simp [hv] at same
      | cons c cs => simp_all
    | toEnd hb' =>
      have := congrArg List.length same
      simp only [solid_eq_nil hb', List.length_append, List.length_cons, List.length_nil] at this
      omega

/-- Splitting off the return gives all code up to the end of the returned value, and the code behind
it is lost: the body is kept whole just if no more than blanks and a semicolon is left there. -/
theorem keepsAll_iff_isStatementTail {body pre value : Text}
    (h : splitReturn body = .ok (pre, some value)) :
    ∃ gap written rest, isBlankText gap ∧ Cut value written rest ∧
      body = pre ++ "return".toList ++ gap ++ written ++ rest ∧
      (KeepsAll body pre value ↔ IsStatementTail rest) := by
  obtain ⟨gap, written, rest, hg, cut, rfl⟩ := splitReturn_cut h
  refine ⟨gap, written, rest, hg, cut, rfl, ?_,
    fun ht => ⟨gap, written, rest, hg, cut.writtenAs, ht, rfl⟩⟩
  rintro ⟨gap', written', tail, hg', hw, ht, two⟩
  have two : gap ++ (written ++ rest) = gap' ++ (written' ++ tail) := by simpa using two
  have same : solid written ++ solid rest = solid written' ++ solid tail := by
    simpa [solid_append, solid_eq_nil hg, solid_eq_nil hg'] using congrArg solid two
  rw [IsStatementTail, cut.solid_rest hw ht same]
  exact ht

/-- Behind a value in brackets only the semicolon is left. -/
theorem isStatementTail_brackets :
    ∃ gap written rest, isBlankText gap ∧ Cut "a".toList written rest ∧
      "run();\nreturn ( a );".toList = "run();\n".toList ++ "return".toList ++ gap ++ written ++
        rest ∧
      IsStatementTail rest := by
  have split : splitReturn "run();\nreturn ( a );".toList =
      .ok ("run();\n".toList, some "a".toList) := by
    decide +kernel
  have kept : KeepsAll "run();\nreturn ( a );".toList "run();\n".toList "a".toList :=
    ⟨[' '], "( a )".toList, [';'], rfl, @WrittenAs.bracketed _ [' '] [' '] rfl rfl, .inr rfl, rfl⟩
  obtain ⟨gap, written, rest, hg, cut, body, iff⟩ := keepsAll_iff_isStatementTail split
  exact ⟨gap, written, rest, hg, cut, body, iff.1 kept⟩

/-- Of a sum that starts with a bracket only the first part is returned, and the rest is lost. -/
theorem not_keepsAll_sum :
    splitReturn "return (a) + b;".toList = .ok ([], some "a".toList) ∧
      ¬KeepsAll "return (a) + b;".toList [] "a".toList := by
  refine ⟨by decide +kernel, ?_⟩
  rintro ⟨gap, written, tail, hg, hw, ht, body⟩
  have body : " (a) + b;".toList = gap ++ (written ++ tail) := by
    rw [List.nil_append, List.append_assoc, List.append_assoc] at body
    exact @List.append_cancel_left _ "return".toList _ _ body
  have same : "(a)+b;".toList = solid written ++ solid tail := by
    have := congrArg solid body
    rwa [solid_append, solid_append, solid_eq_nil hg] at this
  have short := ht.length_le
  have length := congrArg List.length same
  rw [List.length_append] at length
  cases hw with
  | bare => exact absurd length (by change ¬6 = 1 + _; omega)
  | bracketed hb ha =>
    rw [solid_brackets hb ha] at length
    exact absurd length (by change ¬6 = 3 + _; omega)

end Recast
