import Recast.Proofs.Scope.ArrowParams
import Recast.Proofs.Text.Search

/-!
# The scopes of expressions

`Expr.scopes` reads the scopes off a tree: each arrow function binds its parameters from its first
character to its last one. They are what is found in the text of the expression
(`bindingScopes_expr`). The scopes of an expression lie inside its text (`Expr.inside`), so what a
name is bound to depends only on the arrow functions around it.
-/

namespace Recast

/-! ## Scopes of a tree -/

mutual

/-- The scopes in an expression whose text starts at `pos`. -/
def Expr.scopes (pos : Nat) : Expr → List BindingScope
  | .name _ => []
  | .number _ => []
  | .string _ => []
  | .template parts => parts.scopes (pos + 1)
  | .member root _ => root.scopes (pos + root.isArrow.toNat)
  | .call callee arguments =>
    callee.scopes (pos + callee.isArrow.toNat)
      ++ arguments.scopes (pos + (bracketed callee.isArrow (callee.write .masked)).length + 1) []
  | .array items => items.scopes (pos + 1) []
  | .object entries => entries.scopes (pos + 1) []
  | .sum left right =>
    left.scopes (pos + 1 + left.isArrow.toNat)
      ++ right.scopes (pos + 1 + (bracketed left.isArrow (left.write .masked)).length + 3 +
        right.isArrow.toNat)
  | .arrow params body =>
    ⟨pos, pos + (Expr.write .masked (.arrow params body)).length, params.names⟩
      :: body.scopes (pos + params.print.length + 4 + body.opensObject.toNat)

/-- The scopes in the parts of a template. -/
def Template.scopes (pos : Nat) : Template → List BindingScope
  | .last _ => []
  | .substitution content value rest =>
    value.scopes (pos + content.text.length + 2)
      ++ rest.scopes (pos + content.text.length + 2 + (value.write .masked).length + 1)

/-- The scopes in items. -/
def Items.scopes (pos : Nat) (lead : Text) : Items → List BindingScope
  | .done => []
  | .item spread value rest =>
    value.scopes (pos + lead.length + (spreadDots spread).length)
      ++ rest.scopes (pos + lead.length + (spreadDots spread).length + (value.write .masked).length)
        [',', ' ']

/-- The scopes in entries. -/
def ObjectEntries.scopes (pos : Nat) (lead : Text) : ObjectEntries → List BindingScope
  | .done => []
  | .keyed key value rest =>
    value.scopes (pos + lead.length + key.text.length + 2)
      ++ rest.scopes (pos + lead.length + key.text.length + 2 + (value.write .masked).length)
        [',', ' ']
  | .shorthand name rest => rest.scopes (pos + lead.length + name.text.length) [',', ' ']
  | .spread value rest =>
    value.scopes (pos + lead.length + 3) ++
      rest.scopes (pos + lead.length + 3 + (value.write .masked).length) [',', ' ']

end

/-! ## Arrows in a text -/

/-- The scopes of the arrows in a part of code, `behind` being the code before it. -/
def arrowsAfter (code behind : Text) : Text → List BindingScope
  | [] => []
  | c :: cs =>
    ((foundAt arrowToken ⟨behind.length, behind, c :: cs⟩).bind (arrowScope? code)).toList
      ++ arrowsAfter code (c :: behind) cs

theorem arrowToken_eq_none {c : Char} (h : c ≠ '=') (behind cs : Text) :
    arrowToken behind (c :: cs) = none := by
  simp [arrowToken, startsWith, dropHead?_eq_none (Ne.symm h)]

theorem isolated_arrowToken : Isolated arrowToken where
  atEnd _ := rfl
  inside := by
    intro behind passed rest value size hf hp hl
    rw [arrowToken, startsWith] at hf
    cases hd : dropHead? "=>".toList (passed ++ rest) with
    | none =>
      rw [hd] at hf
      cases hf
    | some after =>
      obtain ⟨c, cs, rfl⟩ := List.exists_cons_of_ne_nil hp
      have size : size = 2 := by
        simp only [hd, Option.isSome_some, if_true, Option.some.injEq, Prod.mk.injEq] at hf
        exact hf.2.symm
      obtain rfl : cs = [] :=
        List.length_eq_zero_iff.1 (by simp only [List.length_cons] at hl; omega)
      obtain ⟨rfl, rfl⟩ := List.cons.inj (eq_append_of_dropHead? hd)
      exact arrowToken_eq_none (by decide) _ _

theorem filterMap_arrows (code : Text) :
    ∀ t behind : Text, (placesFrom behind behind.length t).filterMap (fun place =>
      (foundAt arrowToken place).bind (arrowScope? code)) = arrowsAfter code behind t
  | [], _ => rfl
  | c :: cs, behind => by
    have ih := filterMap_arrows code cs (c :: behind)
    rw [List.length_cons] at ih
    rw [placesFrom, List.filterMap_cons, arrowsAfter, ih]
    split <;> simp_all

theorem occurrences_arrows (code : Text) :
    (occurrences arrowToken code).filterMap (arrowScope? code) = arrowsAfter code [] code := by
  rw [occurrences_eq_places isolated_arrowToken, List.filterMap_filterMap]
  exact filterMap_arrows code code []

/-- The scopes of the arrows in a text that stands between two others. -/
def ScopesIn (behind t rest : Text) (scopes : List BindingScope) : Prop :=
  arrowsAfter (behind.reverse ++ (t ++ rest)) behind (t ++ rest) =
    scopes ++ arrowsAfter (behind.reverse ++ (t ++ rest)) (t.reverse ++ behind) rest

theorem ScopesIn.append {behind t u rest : Text} {first second : List BindingScope}
    (ht : ScopesIn behind t (u ++ rest) first) (hu : ScopesIn (t.reverse ++ behind) u rest second) :
    ScopesIn behind (t ++ u) rest (first ++ second) := by
  simp only [ScopesIn, List.reverse_append, List.reverse_reverse, List.append_assoc] at *
  rw [ht, hu]

/-- Text without equals signs has no arrows. -/
theorem scopesIn_quiet (rest : Text) : ∀ (t behind : Text), '=' ∉ t → ScopesIn behind t rest []
  | [], _, _ => rfl
  | c :: cs, behind, h => by
    have ih := scopesIn_quiet rest cs (c :: behind) fun hm => h (List.mem_cons_of_mem c hm)
    have none : ∀ ahead, foundAt arrowToken ⟨behind.length, behind, c :: ahead⟩ = none :=
      fun ahead => by
      rw [foundAt, arrowToken_eq_none (by rintro rfl; simp at h)]
      rfl
    simp only [ScopesIn, List.reverse_cons, List.append_assoc, List.singleton_append] at *
    rw [List.cons_append, arrowsAfter, none]
    exact ih

theorem ScopesIn.cons {behind t rest : Text} {scope : BindingScope} {scopes : List BindingScope}
    (found : arrowScope? (behind.reverse ++ ('=' :: '>' :: (t ++ rest)))
      ⟨behind.length, behind.length + 2, ()⟩ = some scope)
    (h : ScopesIn ('>' :: '=' :: behind) t rest scopes) :
    ScopesIn behind ('=' :: '>' :: t) rest (scope :: scopes) := by
  have arrow : foundAt arrowToken ⟨behind.length, behind, '=' :: '>' :: (t ++ rest)⟩ =
      some ⟨behind.length, behind.length + 2, ()⟩ := rfl
  have head : foundAt arrowToken ⟨behind.length + 1, '=' :: behind, '>' :: (t ++ rest)⟩ = none :=
    rfl
  simp only [ScopesIn, List.reverse_cons, List.append_assoc, List.cons_append, List.nil_append] at *
  rw [arrowsAfter, arrow, Option.bind_some, found, arrowsAfter, List.length_cons, head, h]
  rfl

/-! ## Where expressions stand -/

theorem opens_nil : Opens [] where
  free := by rintro c ⟨⟩
  member := by rintro ⟨⟩
  annotation := by rintro before ⟨⟩
  entry := by rintro (⟨⟨⟩⟩ | ⟨⟨⟩⟩)

/-- An expression can stand after one of these marks. -/
theorem opens_of_trimStart {behind before : Text} {c : Char} (hc : c ∈ ['(', '[', '>', '+'])
    (h : trimStart behind = c :: before) (hd : behind.head? ≠ some '.') : Opens behind where
  free := by
    rw [h]
    rintro d ⟨⟩
    exact (by decide : ∀ d ∈ ['(', '[', '>', '+'], isNameChar d = false) c hc
  member hm := absurd hm hd
  annotation := by
    rw [h]
    rintro list ⟨⟩
    simp at hc
  entry := by
    rw [h]
    rintro (⟨⟨⟩⟩ | ⟨⟨⟩⟩) <;> simp at hc

theorem opens_mark {c : Char} (hc : c ∈ ['(', '[', '>', '+']) (behind : Text) :
    Opens (c :: behind) := by
  have marks : ∀ d ∈ ['(', '[', '>', '+'], isBlank d = false ∧ d ≠ '.' := by decide
  refine opens_of_trimStart hc (trimStart_eq_self ?_) ?_
  · rintro d ⟨⟩
    exact (marks c hc).1
  · rintro ⟨⟩
    exact (marks _ hc).2 rfl

theorem opens_blank {c : Char} (hc : c ∈ ['(', '[', '>', '+']) (behind : Text) :
    Opens (' ' :: c :: behind) := by
  have marks : ∀ d ∈ ['(', '[', '>', '+'], isBlank d = false := by decide
  have trimmed : trimStart (c :: behind) = c :: behind :=
    trimStart_eq_self (by rintro d ⟨⟩; exact marks c hc)
  exact opens_of_trimStart hc trimmed (by rintro ⟨⟩)

theorem opens_spread (behind : Text) : Opens ('.' :: '.' :: '.' :: behind) where
  free := by
    rintro c ⟨⟩
    decide
  member _ := rfl
  annotation := by rintro before ⟨⟩
  entry := by rintro (⟨⟨⟩⟩ | ⟨⟨⟩⟩)

theorem opens_comma {behind : Text} (h : openBracket? 0 behind ≠ some '{') :
    Opens (' ' :: ',' :: behind) where
  free := by
    rintro c ⟨⟩
    decide
  member := by rintro ⟨⟩
  annotation := by rintro before ⟨⟩
  entry _ := h

theorem opens_colon (key : Word) (behind : Text) :
    Opens (' ' :: ':' :: (key.text.reverse ++ behind)) where
  free := by
    rintro c ⟨⟩
    decide
  member := by rintro ⟨⟩
  annotation := by
    rintro before ⟨⟩
    obtain ⟨c, cs, last⟩ : ∃ c cs, key.text.reverse = c :: cs := by
      obtain ⟨d, ds, hw, _⟩ := key.eq_cons
      exact List.exists_cons_of_ne_nil (by simp [hw])
    have name : isNameChar c :=
      key.isNameChar c (List.mem_reverse.1 (by rw [last]; exact List.mem_cons_self))
    rw [last, List.cons_append, head?_trimStart (not_isBlank_of_isNameChar name)]
    rintro ⟨⟩
    exact Bool.noConfusion name
  entry := by rintro (⟨⟨⟩⟩ | ⟨⟨⟩⟩)

/-- The text before an item; `behind` is what stands before the comma or the first item. -/
structure BeforeItem (lead behind : Text) : Prop where
  isLead : IsLead lead
  opens : lead = [] → Opens behind
  bracket : openBracket? 0 behind ≠ some '{'

theorem BeforeItem.opensItem {lead behind : Text} (h : BeforeItem lead behind) (spread : Bool) :
    Opens ((spreadDots spread).reverse ++ (lead.reverse ++ behind)) := by
  cases spread with
  | true => exact opens_spread _
  | false =>
    rcases h.isLead with rfl | rfl
    · exact h.opens rfl
    · exact opens_comma h.bracket

theorem beforeItem_first {c : Char} (hc : c ∈ ['(', '[']) (behind : Text) :
    BeforeItem [] (c :: behind) where
  isLead := .inl rfl
  opens _ := opens_mark (by revert c; decide) behind
  bracket := by
    simp only [List.mem_cons, List.not_mem_nil, or_false] at hc
    rcases hc with rfl | rfl <;> rintro ⟨⟩

/-- A further item stands after the one before it. -/
theorem BeforeItem.next {lead behind t : Text} (h : BeforeItem lead behind) (ht : Balanced t) :
    BeforeItem [',', ' '] (t.reverse ++ behind) where
  isLead := .inr rfl
  opens := by rintro ⟨⟩
  bracket := by
    rw [ht.openBracket?]
    exact h.bracket

theorem ends_mark {c : Char} (hc : c ∈ [',', ')', ']', '}']) (rest : Text) : Ends (c :: rest) := by
  rintro d ⟨⟩
  exact hc

theorem Items.ends (m : Manner) (more : Items) {rest : Text} (h : Ends rest) :
    Ends (more.write m [',', ' '] ++ rest) := by
  cases more with
  | done => exact h
  | item spread value more => exact ends_mark (by decide) _

theorem ObjectEntries.ends (m : Manner) (more : ObjectEntries) {rest : Text} (h : Ends rest) :
    Ends (more.write m [',', ' '] ++ rest) := by
  cases more with
  | done => exact h
  | keyed key value more => exact ends_mark (by decide) _
  | shorthand name more => exact ends_mark (by decide) _
  | spread value more => exact ends_mark (by decide) _

/-- The first character of an expression is not blank, and is a brace just if an object comes
first. -/
theorem Expr.first (m : Manner) :
    ∀ e : Expr, ∃ c cs, e.write m = c :: cs ∧ isBlank c = false ∧ (c = '{' → e.opensObject)
  | .name x => by
    obtain ⟨c, cs, hw, start, _⟩ := x.eq_cons
    have name := isNameChar_of_isNameStart start
    refine ⟨c, cs, hw, not_isBlank_of_isNameChar name, ?_⟩
    rintro rfl
    exact Bool.noConfusion start
  | .number value => by
    obtain ⟨text, valid⟩ := value
    cases text with
    | nil => exact Bool.noConfusion valid
    | cons c cs =>
      rw [isNumber, Bool.and_eq_true] at valid
      refine ⟨c, cs, rfl, not_isBlank_of_isNameChar (isNameChar_of_isAsciiDigit valid.1), ?_⟩
      rintro rfl
      exact Bool.noConfusion valid.1
  | .string content => ⟨'"', _, rfl, by decide, by rintro ⟨⟩⟩
  | .template parts => ⟨'`', _, rfl, by decide, by rintro ⟨⟩⟩
  | .member root key => by
    obtain ⟨c, cs, hw, blank, brace⟩ := root.first m
    cases ha : root.isArrow with
    | true => exact ⟨'(', _, by rw [Expr.write, ha]; rfl, by decide, by rintro ⟨⟩⟩
    | false =>
      exact ⟨c, _, by rw [Expr.write, ha, hw]; rfl, blank,
        fun hc => by simp [Expr.opensObject, ha, brace hc]⟩
  | .call callee arguments => by
    obtain ⟨c, cs, hw, blank, brace⟩ := callee.first m
    cases ha : callee.isArrow with
    | true => exact ⟨'(', _, by rw [Expr.write, ha]; rfl, by decide, by rintro ⟨⟩⟩
    | false =>
      exact ⟨c, _, by rw [Expr.write, ha, hw]; rfl, blank,
        fun hc => by simp [Expr.opensObject, ha, brace hc]⟩
  | .array items => ⟨'[', _, rfl, by decide, by rintro ⟨⟩⟩
  | .object entries => ⟨'{', _, rfl, by decide, fun _ => rfl⟩
  | .sum left right => ⟨'(', _, rfl, by decide, by rintro ⟨⟩⟩
  | .arrow (.one x) body => by
    obtain ⟨c, cs, hw, start, _⟩ := x.eq_cons
    refine ⟨c, _, by rw [Expr.write, Params.print, hw]; rfl,
      not_isBlank_of_isNameChar (isNameChar_of_isNameStart start), ?_⟩
    rintro rfl
    exact Bool.noConfusion start
  | .arrow (.list names) body => ⟨'(', _, rfl, by decide, by rintro ⟨⟩⟩

/-- The body of an arrow function does not start with a blank or a brace. -/
theorem Expr.first_bracketed (m : Manner) (e : Expr) :
    ∃ c cs, bracketed e.opensObject (e.write m) = c :: cs ∧ isBlank c = false ∧ c ≠ '{' := by
  obtain ⟨c, cs, hw, blank, brace⟩ := e.first m
  cases ho : e.opensObject with
  | true => exact ⟨'(', _, rfl, by decide, by decide⟩
  | false =>
    refine ⟨c, cs, hw, blank, ?_⟩
    rintro rfl
    rw [brace rfl] at ho
    cases ho

/-! ## Scopes in the text of an expression -/

theorem equals_not_mem {t : Text} (h : ∀ c ∈ t, isNameChar c ∨ c = '.') : '=' ∉ t := by
  intro hm
  rcases h '=' hm with hn | he
  · exact Bool.noConfusion hn
  · cases he

theorem Word.equals_not_mem (word : Word) : '=' ∉ word.text :=
  Recast.equals_not_mem fun c hc => .inl (word.isNameChar c hc)

theorem equals_not_mem_hide (t : Text) : '=' ∉ t.map hide := by
  intro hm
  obtain ⟨c, _, hc⟩ := List.mem_map.1 hm
  rw [hide] at hc
  split at hc <;> cases hc

theorem IsLead.equals_not_mem {lead : Text} (h : IsLead lead) : '=' ∉ lead := by
  rcases h with rfl | rfl <;> decide

theorem equals_not_mem_spreadDots (spread : Bool) : '=' ∉ spreadDots spread := by
  cases spread <;> decide

theorem equals_not_mem_joinComma : ∀ names : List Name, '=' ∉ joinComma (names.map (·.text))
  | [] => by simp [joinComma, joinWith]
  | [name] => name.equals_not_mem
  | name :: other :: names => by
    have ih := equals_not_mem_joinComma (other :: names)
    have join : joinComma ((name :: other :: names).map (·.text)) =
        name.text ++ [',', ' '] ++ joinComma ((other :: names).map (·.text)) := rfl
    rw [join, List.mem_append, List.mem_append]
    rintro ((hm | hm) | hm)
    · exact name.equals_not_mem hm
    · exact absurd hm (by decide)
    · exact ih hm

theorem Params.equals_not_mem (params : Params) : '=' ∉ params.print := by
  cases params with
  | one name => exact name.equals_not_mem
  | list names =>
    have inner := equals_not_mem_joinComma names
    rw [Params.print, List.mem_cons, List.mem_append]
    rintro (⟨⟨⟩⟩ | hm | hm)
    · exact inner hm
    · exact absurd hm (by decide)

/-- Quiet text after a text adds no scopes. -/
theorem ScopesIn.append_quiet {behind t u rest : Text} {scopes : List BindingScope}
    (ht : ScopesIn behind t (u ++ rest) scopes)
    (hu : '=' ∉ u) : ScopesIn behind (t ++ u) rest scopes := by
  rw [← List.append_nil scopes]
  exact ht.append (scopesIn_quiet rest u _ hu)

/-- Quiet text before a text adds no scopes. -/
theorem ScopesIn.quiet_append {behind u rest : Text} {scopes : List BindingScope} (t : Text)
    (ht : '=' ∉ t)
    (hu : ScopesIn (t.reverse ++ behind) u rest scopes) : ScopesIn behind (t ++ u) rest scopes :=
  (scopesIn_quiet (u ++ rest) t behind ht).append hu

theorem scopesIn_bracketed {needed : Bool} {behind t rest : Text} {scopes : List BindingScope}
    (inside : needed = true → ScopesIn ('(' :: behind) t (')' :: rest) scopes)
    (bare : needed = false → ScopesIn behind t rest scopes) :
    ScopesIn behind (bracketed needed t) rest scopes := by
  cases needed with
  | false => exact bare rfl
  | true => exact .quiet_append ['('] (by decide) (.append_quiet (inside rfl) (by decide))

/-- The scopes of an arrow function are its own and those of its body. -/
theorem scopesIn_arrow (params : Params) {behind t rest : Text} {scopes : List BindingScope}
    (h : Opens behind)
    (first : ∃ c cs, t = c :: cs ∧ isBlank c = false ∧ c ≠ '{') (passed : Passed t)
    (ends : Ends rest)
    (body : ScopesIn (' ' :: '>' :: '=' :: ' ' :: (params.print.reverse ++ behind)) t rest scopes) :
    ScopesIn behind (params.print ++ ' ' :: '=' :: '>' :: ' ' :: t) rest
      (⟨behind.length, behind.length + (params.print ++ ' ' :: '=' :: '>' :: ' ' :: t).length,
        params.names⟩ :: scopes) := by
  obtain ⟨c, cs, hw, blank, brace⟩ := first
  have found := arrowScope?_arrow params h hw blank brace passed ends
  refine .quiet_append params.print params.equals_not_mem (.quiet_append [' '] (by decide) (.cons ?_
    (.quiet_append [' '] (by decide) body)))
  simp only [List.reverse_cons, List.reverse_nil, List.nil_append, List.reverse_append,
    List.reverse_reverse, List.append_assoc, List.cons_append, List.length_cons, List.length_append,
    List.length_reverse] at found ⊢
  rw [Nat.add_comm params.print.length behind.length, found]
  congr 2
  omega

theorem Manner.length_content (m : Manner) (t : Text) : (m.content t).length = t.length := by
  cases m with
  | plain => rfl
  | masked => exact List.length_map hide

theorem IsLead.balanced {lead : Text} (h : IsLead lead) : Balanced lead :=
  balanced_of_plain lead fun c hc => (isPlainMark_iff.1 (h.isPlainMark c hc)).2

theorem balanced_spreadDots (spread : Bool) : Balanced (spreadDots spread) :=
  balanced_of_plain _ fun c hc => (isPlainMark_iff.1 (isPlainMark_spreadDots spread c hc)).2

mutual

/-- The scopes that are found in the text of an expression are those of the tree. -/
theorem Expr.scopesIn :
    ∀ (e : Expr) {behind rest : Text} {pos : Nat}, behind.length = pos → Opens behind →
    (e.isArrow → Ends rest) → ScopesIn behind (e.write .masked) rest (e.scopes pos)
  | .name x, behind, rest, _, _, _, _ => scopesIn_quiet rest _ behind x.equals_not_mem
  | .number value, behind, rest, _, _, _, _ =>
    scopesIn_quiet rest _ behind (equals_not_mem value.mem)
  | .string content, behind, rest, _, _, _, _ =>
    .quiet_append ['"'] (by decide)
      (.quiet_append _ (equals_not_mem_hide content.text) (scopesIn_quiet _ _ _ (by decide)))
  | .template parts, behind, rest, pos, hp, _, _ =>
    .quiet_append ['`'] (by decide) (.append_quiet (parts.scopesIn (by simp [hp])) (by decide))
  | .member root key, behind, rest, pos, hp, ho, _ => by
    refine .append_quiet (scopesIn_bracketed (fun ha => ?_) fun ha => ?_) ?_
    · rw [Expr.scopes, ha]
      exact root.scopesIn (by simp [hp]) (opens_mark (by decide) _) fun _ => ends_mark (by decide) _
    · rw [Expr.scopes, ha]
      exact root.scopesIn hp ho (by simp [ha])
    · exact equals_not_mem fun c hc => (List.mem_cons.1 hc).elim .inr fun hc =>
        .inl (key.isNameChar c hc)
  | .call callee arguments, behind, rest, pos, hp, ho, _ => by
    refine .append (scopesIn_bracketed (fun ha => ?_) fun ha => ?_)
      (.quiet_append ['('] (by decide) (.append_quiet ?_ (by decide)))
    · rw [ha]
      exact callee.scopesIn (by simp [hp]) (opens_mark (by decide) _) fun _ =>
        ends_mark (by decide) _
    · rw [ha]
      exact callee.scopesIn hp ho (by simp [ha])
    · refine arguments.scopesIn ?_ (beforeItem_first (by decide) _) (ends_mark (by decide) _)
      rw [length_reverse_append, length_reverse_append, hp]
      rfl
  | .array items, behind, rest, pos, hp, _, _ => by
    refine .quiet_append ['['] (by decide) (.append_quiet ?_ (by decide))
    exact items.scopesIn (by simp [hp]) (beforeItem_first (by decide) _) (ends_mark (by decide) _)
  | .object entries, behind, rest, pos, hp, _, _ => by
    refine .quiet_append ['{'] (by decide) (.append_quiet ?_ (by decide))
    exact entries.scopesIn (by simp [hp]) (.inl rfl) (ends_mark (by decide) _)
  | .sum left right, behind, rest, pos, hp, _, _ => by
    refine .quiet_append ['('] (by decide) (.append (scopesIn_bracketed (fun ha => ?_) fun ha => ?_)
      (.quiet_append [' ', '+',
        ' '] (by decide)
          (.append_quiet (scopesIn_bracketed (fun ha => ?_) fun ha => ?_) (by decide))))
    · rw [ha]
      exact left.scopesIn (by simp [hp]) (opens_mark (by decide) _) fun _ => ends_mark (by decide) _
    · rw [ha]
      exact left.scopesIn (by simp [hp]) (opens_mark (by decide) _) (by simp [ha])
    · rw [ha]
      refine right.scopesIn ?_ (opens_mark (by decide) _) fun _ => ends_mark (by decide) _
      rw [List.length_cons, length_reverse_append, length_reverse_append, length_reverse_append, hp]
      rfl
    · rw [ha]
      refine right.scopesIn ?_ (opens_blank (by decide) _) (by simp [ha])
      rw [length_reverse_append, length_reverse_append, length_reverse_append, hp]
      rfl
  | .arrow params body, behind, rest, pos, hp, ho, he => by
    subst hp
    refine scopesIn_arrow params ho (body.first_bracketed .masked)
      (passed_bracketed body.balanced body.passed) (he rfl)
      (scopesIn_bracketed (fun hb => ?_) fun hb => ?_)
    · rw [hb]
      refine body.scopesIn ?_ (opens_mark (by decide) _) fun _ => ends_mark (by decide) _
      simp only [List.length_cons, length_reverse_append]
      rfl
    · rw [hb]
      refine body.scopesIn ?_ (opens_blank (by decide) _) fun _ => he rfl
      simp only [List.length_cons, length_reverse_append]
      rfl

theorem Template.scopesIn : ∀ (t : Template) {behind rest : Text} {pos : Nat}, behind.length = pos →
    ScopesIn behind (t.write .masked) rest (t.scopes pos)
  | .last content, behind, rest, _, _ =>
    scopesIn_quiet rest _ behind (equals_not_mem_hide content.text)
  | .substitution content value more, behind, rest, pos, hp => by
    refine .quiet_append _ (equals_not_mem_hide content.text)
      (.quiet_append [' ', '('] (by decide) (.append ?_
      (.quiet_append [')'] (by decide) ?_)))
    · refine value.scopesIn ?_ (opens_mark (by decide) _) fun _ => ends_mark (by decide) _
      rw [length_reverse_append, length_reverse_append, hp, Manner.length_content]
      rfl
    · refine more.scopesIn ?_
      simp only [length_reverse_append, hp, Manner.length_content]
      rfl

theorem Items.scopesIn :
    ∀ (items : Items) {lead behind rest : Text} {pos : Nat}, behind.length = pos →
    BeforeItem lead behind → Ends rest →
      ScopesIn behind (items.write .masked lead) rest (items.scopes pos lead)
  | .done, _, _, _, _, _, _, _ => rfl
  | .item spread value more, lead, behind, rest, pos, hp, hb, hr => by
    refine .quiet_append _ hb.isLead.equals_not_mem
      (.quiet_append _ (equals_not_mem_spreadDots spread) (.append ?_ ?_))
    · refine value.scopesIn ?_ (hb.opensItem spread) fun _ => more.ends .masked hr
      rw [length_reverse_append, length_reverse_append, hp]
    · refine more.scopesIn ?_ ?_ hr
      · simp only [length_reverse_append, hp]
      · simpa using hb.next
          (hb.isLead.balanced.append ((balanced_spreadDots spread).append value.balanced))

theorem ObjectEntries.scopesIn :
    ∀ (entries : ObjectEntries) {lead behind rest : Text} {pos : Nat}, behind.length = pos →
    IsLead lead → Ends rest →
      ScopesIn behind (entries.write .masked lead) rest (entries.scopes pos lead)
  | .done, _, _, _, _, _, _, _ => rfl
  | .keyed key value more, lead, behind, rest, pos, hp, hl, hr => by
    refine .quiet_append _ hl.equals_not_mem
      (.quiet_append _ key.equals_not_mem (.quiet_append [':', ' '] (by decide)
      (.append ?_ ?_)))
    · refine value.scopesIn ?_ (opens_colon key _) fun _ => more.ends .masked hr
      simp only [length_reverse_append, hp]
      rfl
    · refine more.scopesIn ?_ (.inr rfl) hr
      simp only [length_reverse_append, hp]
      rfl
  | .shorthand name more, lead, behind, rest, pos, hp, hl, hr => by
    refine .quiet_append _ hl.equals_not_mem
      (.quiet_append _ name.equals_not_mem (more.scopesIn ?_ (.inr rfl) hr))
    simp only [length_reverse_append, hp]
  | .spread value more, lead, behind, rest, pos, hp, hl, hr => by
    refine .quiet_append _ hl.equals_not_mem
      (.quiet_append ['.', '.', '.'] (by decide) (.append ?_ ?_))
    · refine value.scopesIn ?_ (opens_spread _) fun _ => more.ends .masked hr
      simp only [length_reverse_append, hp]
      rfl
    · refine more.scopesIn ?_ (.inr rfl) hr
      simp only [length_reverse_append, hp]
      rfl

end

/-! ## All local bindings -/

/-- The scopes of the functions in code, found by their keyword. -/
def functionScopes (code : Text) : List BindingScope :=
  (occurrences functionToken code).filterMap (functionScope? code)

theorem Expr.undeclaredIn (e : Expr) :
    UndeclaredIn (NoFunctionHead (e.called .value)) [] (e.write .masked) [] :=
  e.undeclared .value (by rintro c ⟨⟩) (fun _ => rfl) id

/-- The local bindings in the text of an expression are those of its arrow functions, and of the
functions that are seen in it. -/
theorem bindingScopes_expr (e : Expr) :
    bindingScopes e.shown = e.scopes 0 ++ functionScopes e.shown := by
  have arrows : ScopesIn [] (e.write .masked) [] (e.scopes 0) :=
    e.scopesIn rfl opens_nil fun _ => by rintro c ⟨⟩
  have declarations : occurrences declarationToken e.shown = [] := by
    refine occurrencesFrom_eq_nil (fun behind => ?_) _ [] 0 fun passed more he hm => ?_
    · rw [declarationToken]
      cases startsUnqualified behind <;> rfl
    · simpa using (e.undeclaredIn passed more he hm).1
  rw [bindingScopes, declarations, occurrences_arrows, functionScopes]
  simp only [ScopesIn, List.reverse_nil, List.nil_append, List.append_nil, arrowsAfter] at arrows
  simp only [Expr.shown, arrows, List.filterMap_nil, List.append_nil]

/-- No function is seen in an expression without a called name that reads like the head of one. -/
theorem functionScopes_expr {e : Expr} (h : NoFunctionHead (e.called .value)) :
    functionScopes e.shown = [] := by
  have functions : occurrences functionToken e.shown = [] := by
    refine occurrencesFrom_eq_nil (fun behind => ?_) _ [] 0 fun passed more he hm => ?_
    · rw [functionToken]
      cases startsUnqualified behind <;> rfl
    · simpa using (e.undeclaredIn passed more he hm).2 h
  rw [functionScopes, functions]
  rfl

/-! ## Scopes lie inside their expression -/

/-- The scopes lie in a range. -/
def Inside (start stop : Nat) (scopes : List BindingScope) : Prop :=
  ∀ scope ∈ scopes, start ≤ scope.start ∧ scope.stop ≤ stop

theorem Inside.nil (start stop : Nat) : Inside start stop [] := by
  intro scope h
  cases h

theorem Inside.mono {start stop start' stop' : Nat} {scopes : List BindingScope}
    (h : Inside start stop scopes)
    (hs : start' ≤ start) (he : stop ≤ stop') : Inside start' stop' scopes := fun scope hm =>
  ⟨Nat.le_trans hs (h scope hm).1, Nat.le_trans (h scope hm).2 he⟩

theorem Inside.append {start stop : Nat} {first second : List BindingScope}
    (hf : Inside start stop first)
    (hs : Inside start stop second) : Inside start stop (first ++ second) := fun scope hm =>
  (List.mem_append.1 hm).elim (hf scope) (hs scope)

theorem length_bracketed (needed : Bool) (t : Text) :
    (bracketed needed t).length = t.length + 2 * needed.toNat := by
  cases needed <;> simp [bracketed]

mutual

/-- The scopes of an expression lie inside its text. -/
theorem Expr.inside :
    ∀ (e : Expr) (pos : Nat), Inside pos (pos + (e.write .masked).length) (e.scopes pos)
  | .name _, _ => .nil _ _
  | .number _, _ => .nil _ _
  | .string _, _ => .nil _ _
  | .template parts, pos => by
    refine (parts.inside _).mono (by omega) ?_
    simp only [Expr.write, List.length_cons, List.length_append]
    omega
  | .member root key, pos => by
    refine (root.inside _).mono (by omega) ?_
    simp only [Expr.write, List.length_append, length_bracketed]
    omega
  | .call callee arguments, pos => by
    refine ((callee.inside _).mono (by omega) ?_).append
      ((arguments.inside _ _).mono (by omega) ?_) <;>
      simp only [Expr.write, List.length_append, List.length_cons, length_bracketed] <;> omega
  | .array items, pos => by
    refine (items.inside _ _).mono (by omega) ?_
    simp only [Expr.write, List.length_cons, List.length_append]
    omega
  | .object entries, pos => by
    refine (entries.inside _ _).mono (by omega) ?_
    simp only [Expr.write, List.length_cons, List.length_append]
    omega
  | .sum left right, pos => by
    refine ((left.inside _).mono (by omega) ?_).append ((right.inside _).mono (by omega) ?_) <;>
      simp only [Expr.write, List.length_append, List.length_cons, length_bracketed] <;> omega
  | .arrow params body, pos => by
    have inner := body.inside (pos + params.print.length + 4 + body.opensObject.toNat)
    intro scope hm
    rcases List.mem_cons.1 hm with rfl | hm
    · exact ⟨Nat.le_refl _, Nat.le_refl _⟩
    · refine inner.mono (by omega) ?_ scope hm
      simp only [Expr.write, List.length_append, List.length_cons, length_bracketed]
      omega

theorem Template.inside :
    ∀ (t : Template) (pos : Nat), Inside pos (pos + (t.write .masked).length) (t.scopes pos)
  | .last _, _ => .nil _ _
  | .substitution content value more, pos => by
    refine ((value.inside _).mono (by omega) ?_).append ((more.inside _).mono (by omega) ?_) <;>
      simp only [Template.write, List.length_append, List.length_cons, Manner.length_content,
        Manner.opening] <;> omega

theorem Items.inside : ∀ (items : Items) (pos : Nat) (lead : Text),
    Inside pos (pos + (items.write .masked lead).length) (items.scopes pos lead)
  | .done, _, _ => .nil _ _
  | .item spread value more, pos, lead => by
    refine ((value.inside _).mono (by omega) ?_).append ((more.inside _ _).mono (by omega) ?_) <;>
      simp only [Items.write, List.length_append] <;> omega

theorem ObjectEntries.inside : ∀ (entries : ObjectEntries) (pos : Nat) (lead : Text),
    Inside pos (pos + (entries.write .masked lead).length) (entries.scopes pos lead)
  | .done, _, _ => .nil _ _
  | .keyed key value more, pos, lead => by
    refine ((value.inside _).mono (by omega) ?_).append ((more.inside _ _).mono (by omega) ?_) <;>
      simp only [ObjectEntries.write, List.length_append, List.length_cons] <;> omega
  | .shorthand name more, pos, lead => by
    refine (more.inside _ _).mono (by omega) ?_
    simp only [ObjectEntries.write, List.length_append]
    omega
  | .spread value more, pos, lead => by
    refine ((value.inside _).mono (by omega) ?_).append ((more.inside _ _).mono (by omega) ?_) <;>
      simp only [ObjectEntries.write, List.length_append, List.length_cons] <;> omega

end

end Recast
