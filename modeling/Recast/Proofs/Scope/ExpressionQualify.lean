import Recast.Proofs.Scope.ExpressionWords

/-!
# Qualifying expressions

Qualifying the text of an expression is qualifying its tree, as long as no reference is missed
(`qualify_print`). A reference is missed where a called name such as `function$` reads like the head
of a function and so seems to bind the names among its arguments, up to the end of the next block;
`Expr.missed` says whether this happens.
-/

namespace Recast

/-! ## Missed references -/

section

variable (state : List Word) (props : List (Word × Word)) (others : List BindingScope)

mutual

/-- Whether a reference in an expression whose text starts at `pos` is missed, because one of the
other scopes binds it. -/
def Expr.missed (bound : List Text) (use : Use) (pos : Nat) : Expr → Bool
  | .name x => x.missed state props others bound use pos
  | .number _ => false
  | .string _ => false
  | .template parts => parts.missed bound (pos + 1)
  | .member root _ => root.missed bound .object (pos + root.isArrow.toNat)
  | .call callee arguments =>
    callee.missed bound .callee (pos + callee.isArrow.toNat)
      || arguments.missed bound (pos + (bracketed callee.isArrow (callee.write .masked)).length + 1)
        []
  | .array items => items.missed bound (pos + 1) []
  | .object entries => entries.missed bound (pos + 1) []
  | .sum left right =>
    left.missed bound .value (pos + 1 + left.isArrow.toNat)
      || right.missed bound .value
        (pos + 1 + (bracketed left.isArrow (left.write .masked)).length + 3 + right.isArrow.toNat)
  | .arrow params body =>
    body.missed (params.names ++ bound) .value
      (pos + params.print.length + 4 + body.opensObject.toNat)

/-- Whether a reference in the parts of a template is missed. -/
def Template.missed (bound : List Text) (pos : Nat) : Template → Bool
  | .last _ => false
  | .substitution content value rest =>
    value.missed bound .value (pos + content.text.length + 2)
      || rest.missed bound (pos + content.text.length + 2 + (value.write .masked).length + 1)

/-- Whether a reference in items is missed. -/
def Items.missed (bound : List Text) (pos : Nat) (lead : Text) : Items → Bool
  | .done => false
  | .item spread value rest =>
    value.missed bound .value (pos + lead.length + (spreadDots spread).length)
      || rest.missed bound
        (pos + lead.length + (spreadDots spread).length + (value.write .masked).length) [',', ' ']

/-- Whether a reference in entries is missed. -/
def ObjectEntries.missed (bound : List Text) (pos : Nat) (lead : Text) : ObjectEntries → Bool
  | .done => false
  | .keyed key value rest =>
    value.missed bound .value (pos + lead.length + key.text.length + 2)
      || rest.missed bound (pos + lead.length + key.text.length + 2 + (value.write .masked).length)
        [',', ' ']
  | .shorthand name rest =>
    name.missed state props others bound .value (pos + lead.length)
      || rest.missed bound (pos + lead.length + name.text.length) [',', ' ']
  | .spread value rest =>
    value.missed bound .value (pos + lead.length + 3)
      || rest.missed bound (pos + lead.length + 3 + (value.write .masked).length) [',', ' ']

end

end

variable {state : List Word} {props : List (Word × Word)} {others scopes : List BindingScope}
  {bound : List Text}

mutual

/-- Nothing is missed without other scopes. -/
theorem Expr.missed_nil : ∀ (e : Expr) (bound : List Text) (use : Use) (pos : Nat),
    e.missed state props [] bound use pos = false
  | .name x, bound, use, pos => by simp [Expr.missed, Name.missed, isBound]
  | .number _, _, _, _ => rfl
  | .string _, _, _, _ => rfl
  | .template parts, _, _, _ => parts.missed_nil _ _
  | .member root _, _, _, _ => root.missed_nil _ _ _
  | .call callee arguments, _, _, _ => by
    rw [Expr.missed, callee.missed_nil, arguments.missed_nil, Bool.or_self]
  | .array items, _, _, _ => items.missed_nil _ _ _
  | .object entries, _, _, _ => entries.missed_nil _ _ _
  | .sum left right, _, _, _ => by rw [Expr.missed, left.missed_nil, right.missed_nil, Bool.or_self]
  | .arrow _ body, _, _, _ => body.missed_nil _ _ _

theorem Template.missed_nil :
    ∀ (t : Template) (bound : List Text) (pos : Nat), t.missed state props [] bound pos = false
  | .last _, _, _ => rfl
  | .substitution _ value rest, _, _ => by
    rw [Template.missed, value.missed_nil, rest.missed_nil, Bool.or_self]

theorem Items.missed_nil : ∀ (items : Items) (bound : List Text) (pos : Nat) (lead : Text),
    items.missed state props [] bound pos lead = false
  | .done, _, _, _ => rfl
  | .item _ value rest, _, _, _ => by
    rw [Items.missed, value.missed_nil, rest.missed_nil, Bool.or_self]

theorem ObjectEntries.missed_nil :
    ∀ (entries : ObjectEntries) (bound : List Text) (pos : Nat) (lead : Text),
    entries.missed state props [] bound pos lead = false
  | .done, _, _, _ => rfl
  | .keyed _ value rest, _, _, _ => by
    rw [ObjectEntries.missed, value.missed_nil, rest.missed_nil, Bool.or_self]
  | .shorthand name rest, _, _, _ => by
    rw [ObjectEntries.missed, rest.missed_nil, Name.missed]
    simp [isBound]
  | .spread value rest, _, _, _ => by
    rw [ObjectEntries.missed, value.missed_nil, rest.missed_nil, Bool.or_self]

end

/-! ## The shape of what becomes of an expression -/

theorem Name.shape_access? {x : Name} {access : Expr} (h : x.access? state props = some access) :
    access.isArrow = false ∧ access.opensObject = false := by
  rw [Name.access?] at h
  split at h
  · cases h
    exact ⟨rfl, rfl⟩
  · obtain ⟨entry, _, rfl⟩ := Option.map_eq_some_iff.1 h
    exact ⟨rfl, rfl⟩

theorem Name.shape_qualify (x : Name) (use : Use) :
    (x.qualify state props bound use).isArrow = false ∧
      (x.qualify state props bound use).opensObject = false := by
  rw [Name.qualify]
  split
  · exact ⟨rfl, rfl⟩
  · cases ha : x.access? state props with
    | some access => exact Name.shape_access? ha
    | none =>
      dsimp only
      split
      · exact ⟨rfl, rfl⟩
      · split <;> exact ⟨rfl, rfl⟩

theorem Expr.isArrow_qualify (e : Expr) (use : Use) :
    (e.qualify state props bound use).isArrow = e.isArrow := by
  cases e with
  | name x => exact (x.shape_qualify use).1
  | _ => rfl

theorem Expr.opensObject_qualify :
    ∀ (e : Expr) (bound : List Text) (use : Use), (e.qualify state props bound use).opensObject =
      e.opensObject
  | .name x, _, use => (x.shape_qualify use).2
  | .number _, _, _ => rfl
  | .string _, _, _ => rfl
  | .template _, _, _ => rfl
  | .member root _, bound, _ => by
    rw [Expr.qualify, Expr.opensObject, Expr.opensObject, root.isArrow_qualify,
      root.opensObject_qualify]
  | .call callee _, bound, _ => by
    rw [Expr.qualify, Expr.opensObject, Expr.opensObject, callee.isArrow_qualify,
      callee.opensObject_qualify]
  | .array _, _, _ => rfl
  | .object _, _, _ => rfl
  | .sum _ _, _, _ => rfl
  | .arrow _ _, _, _ => rfl

theorem Expr.qualify_of_isArrow {e : Expr} (h : e.isArrow) (use : Use) :
    e.qualify state props bound use = e.qualify state props bound .value := by
  cases e <;> first | rfl | exact Bool.noConfusion h

theorem Expr.missed_of_isArrow {e : Expr} (h : e.isArrow) (use : Use) (pos : Nat) :
    e.missed state props others bound use pos = e.missed state props others bound .value pos := by
  cases e <;> first | rfl | exact Bool.noConfusion h

/-! ## Ends of expressions -/

theorem Word.getLast?_ne_dot (word : Word) : word.text.getLast? ≠ some '.' := fun h =>
  Bool.noConfusion (word.isNameChar '.' (List.mem_of_getLast? h))

theorem numberTail_getLast?_ne_dot : ∀ t : Text, isNumberTail t → t.getLast? ≠ some '.'
  | [], _ => by rintro ⟨⟩
  | [c], h => by
    rintro ⟨⟩
    exact Bool.noConfusion h
  | c :: d :: ds, h => by
    rw [isNumberTail, Bool.and_eq_true] at h
    rw [List.getLast?_cons_cons]
    exact numberTail_getLast?_ne_dot (d :: ds) h.2

theorem NumberText.getLast?_ne_dot (value : NumberText) : value.text.getLast? ≠ some '.' := by
  obtain ⟨text, valid⟩ := value
  match text, valid with
  | [c], valid =>
    rintro ⟨⟩
    exact Bool.noConfusion valid
  | c :: d :: ds, valid =>
    rw [isNumber, Bool.and_eq_true] at valid
    rw [List.getLast?_cons_cons]
    exact numberTail_getLast?_ne_dot (d :: ds) valid.2

theorem getLast?_append_cons (t u : Text) (c : Char) :
    (t ++ c :: u).getLast? = (c :: u).getLast? := by
  rw [List.getLast?_append_of_ne_nil _ (List.cons_ne_nil c u)]

theorem bracketed_getLast?_ne_dot (needed : Bool) {t : Text} (h : t.getLast? ≠ some '.') :
    (bracketed needed t).getLast? ≠ some '.' := by
  cases needed with
  | false => exact h
  | true =>
    rw [bracketed, if_pos rfl, ← List.cons_append, getLast?_append_cons]
    rintro ⟨⟩

/-- No expression ends in a dot. -/
theorem Expr.getLast?_ne_dot (m : Manner) : ∀ e : Expr, (e.write m).getLast? ≠ some '.'
  | .name x => x.getLast?_ne_dot
  | .number value => value.getLast?_ne_dot
  | .string content => by
    rw [Expr.write, ← List.cons_append, getLast?_append_cons]
    rintro ⟨⟩
  | .template parts => by
    rw [Expr.write, ← List.cons_append, getLast?_append_cons]
    rintro ⟨⟩
  | .member root key => by
    obtain ⟨c, cs, hw, _⟩ := key.eq_cons
    have last := key.getLast?_ne_dot
    rw [Expr.write, getLast?_append_cons, hw, List.getLast?_cons_cons, ← hw]
    exact last
  | .call callee arguments => by
    rw [Expr.write, getLast?_append_cons, ← List.cons_append, getLast?_append_cons]
    rintro ⟨⟩
  | .array items => by
    rw [Expr.write, ← List.cons_append, getLast?_append_cons]
    rintro ⟨⟩
  | .object entries => by
    rw [Expr.write, ← List.cons_append, getLast?_append_cons]
    rintro ⟨⟩
  | .sum left right => by
    rw [Expr.write, ← List.cons_append, getLast?_append_cons, ← List.cons_append,
      ← List.cons_append, ← List.cons_append, getLast?_append_cons]
    rintro ⟨⟩
  | .arrow params body => by
    obtain ⟨c, cs, hw, _⟩ := body.first_bracketed m
    have last := bracketed_getLast?_ne_dot body.opensObject (body.getLast?_ne_dot m)
    rw [Expr.write, getLast?_append_cons, List.getLast?_cons_cons, List.getLast?_cons_cons,
      List.getLast?_cons_cons, hw, List.getLast?_cons_cons, ← hw]
    exact last

/-- No dot comes before the dot of a member. -/
theorem Expr.head?_reverse_ne_dot (e : Expr) (needed : Bool) (behind : Text) :
    ((bracketed needed (e.write .masked)).reverse ++ behind).head? ≠ some '.' := by
  have last := bracketed_getLast?_ne_dot needed (e.getLast?_ne_dot .masked)
  rw [← List.head?_reverse] at last
  obtain ⟨c, cs, hw⟩ : ∃ c cs, (bracketed needed (e.write .masked)).reverse = c :: cs := by
    obtain ⟨c, cs, hw, _⟩ := e.first .masked
    refine List.exists_cons_of_ne_nil ?_
    cases needed <;> simp [bracketed, hw]
  rw [hw] at last ⊢
  exact last

/-! ## Parameters -/

theorem turns_joinComma {refs : References} (hn : ∀ entry ∈ refs, isWord entry.1)
    (rest rest' : Text) :
    ∀ (names : List Name) (behind : Text), PastWord behind →
      (∀ x ∈ names, ∀ pos, behind.length ≤ pos →
        pos < behind.length + (joinComma (names.map (·.text))).length →
        isBound scopes x.text pos) →
      Turns refs scopes behind (joinComma (names.map (·.text))) (joinComma (names.map (·.text)))
        (joinComma (names.map (·.text))) false (')' :: rest) (')' :: rest')
  | [], behind, _, _ => ⟨[], rfl, rfl⟩
  | [x], behind, hf, hb => by
    obtain ⟨c, cs, hw, _⟩ := x.eq_cons
    refine x.turns_bound hn hf ?_ (sameDot_cons (by decide) _) (hb x (by simp) _ (Nat.le_refl _) ?_)
    · rintro d ⟨⟩
      decide
    · simp [joinComma, joinWith, hw]
  | x :: y :: names, behind, hf, hb => by
    have join : joinComma ((x :: y :: names).map (·.text)) =
        x.text ++ ',' :: ' ' :: joinComma ((y :: names).map (·.text)) :=
      List.append_assoc x.text [',', ' '] _
    rw [join] at hb ⊢
    simp only [List.length_append, List.length_cons] at hb
    have ih := turns_joinComma hn rest rest' (y :: names) (' ' :: ',' :: (x.text.reverse ++ behind))
    have first : Turns refs scopes behind x.text x.text x.text false
        (',' :: ' ' :: joinComma ((y :: names).map (·.text)) ++ ')' :: rest)
        (',' :: ' ' :: joinComma ((y :: names).map (·.text)) ++ ')' :: rest') := by
      refine x.turns_bound hn hf ?_ (sameDot_cons (by decide) _)
        (hb x (by simp) _ (Nat.le_refl _) (by omega))
      rintro d ⟨⟩
      decide
    refine first.prepend
      (.mark hn (by decide) (.mark hn (by decide) (ih ?_ fun n hm pos hs he => ?_)))
    · rintro d ⟨⟩
      decide
    · simp only [List.length_cons, length_reverse_append] at hs he
      exact hb n (by simp [List.mem_cons.1 hm]) pos (by omega) (by omega)

/-- Parameters are copied. -/
theorem Params.turns {refs : References} (hn : ∀ entry ∈ refs, isWord entry.1) (params : Params)
    {behind rest rest' : Text} (hf : PastWord behind)
    (hb : ∀ name ∈ params.names, ∀ pos, behind.length ≤ pos →
      pos < behind.length + params.print.length →
      isBound scopes name pos) :
    Turns refs scopes behind params.print params.print params.print false (' ' :: rest)
      (' ' :: rest') := by
  cases params with
  | one x =>
    obtain ⟨c, cs, hw, _⟩ := x.eq_cons
    refine x.turns_bound hn hf ?_ (sameDot_cons (by decide) _)
      (hb x.text (by simp [Params.names]) _ (Nat.le_refl _) ?_)
    · rintro d ⟨⟩
      decide
    · simp [Params.print, hw]
  | list names =>
    refine .mark hn (by decide)
      (.append_quiet hn (turns_joinComma hn _ _ names _ ?_ fun x hm pos hs he => ?_) (by decide))
    · rintro d ⟨⟩
      decide
    · simp only [List.length_cons] at hs he
      refine hb x.text (List.mem_map_of_mem hm) pos (by omega) ?_
      simp only [Params.print, List.length_cons, List.length_append]
      omega

/-! ## Expressions -/

/-- An operand, a callee or the root of a member turns into what becomes of it, in brackets if it is
an arrow function. -/
theorem Expr.turns_operand {e : Expr} {use : Use} {behind rest rest' : Text} {pos : Nat}
    (turns : ∀ (use : Use) {behind rest rest' : Text} {pos : Nat}, behind.length = pos →
      Opens behind → Follows use rest →
      (e.isArrow → use = .value ∧ Ends rest) → SameDot rest rest' →
      BoundIn scopes others bound (e.scopes pos) pos (pos + (e.write .masked).length) →
      Turns (wordReferences state props) scopes behind (e.write .masked) (e.write .plain)
        ((e.qualify state props bound use).write .plain)
    (e.missed state props others bound use pos) rest rest')
    (hp : behind.length = pos) (ho : Opens behind) (hf : Follows use rest) (hd : SameDot rest rest')
    (hb : BoundIn scopes others bound (e.scopes (pos + e.isArrow.toNat)) pos
      (pos + (bracketed e.isArrow (e.write .masked)).length)) :
    Turns (wordReferences state props) scopes behind (bracketed e.isArrow (e.write .masked))
      (bracketed e.isArrow (e.write .plain))
      (bracketed (e.qualify state props bound use).isArrow
        ((e.qualify state props bound use).write .plain))
      (e.missed state props others bound use (pos + e.isArrow.toNat)) rest rest' := by
  rw [e.isArrow_qualify]
  rw [length_bracketed] at hb
  refine turns_bracketed isWord_of_mem_wordReferences (fun ha => ?_) fun ha => ?_
  · rw [e.qualify_of_isArrow ha, e.missed_of_isArrow ha]
    refine turns .value ?_ (opens_mark (by decide) _) (follows_value (by decide) _)
      (fun _ => ⟨rfl, ends_mark (by decide) _⟩)
      (sameDot_cons (by decide) _) (hb.mono (by omega) (by omega))
    simp [hp, ha]
  · refine turns use ?_ ho hf (by simp [ha]) hd (hb.mono (by omega) (by omega))
    simp [hp, ha]

theorem IsLead.not_isNameChar {lead : Text} (h : IsLead lead) :
    ∀ c ∈ lead, isNameChar c = false := by
  rcases h with rfl | rfl <;> decide

theorem not_isNameChar_spreadDots (spread : Bool) :
    ∀ c ∈ spreadDots spread, isNameChar c = false := by
  cases spread <;> decide

/-- After the name of an entry that is its own key comes a comma or the closing brace. -/
theorem ObjectEntries.head? (more : ObjectEntries) {rest : Text} (h : rest.head? = some '}') :
    (more.write .masked [',', ' '] ++ rest).head? = some ',' ∨
      (more.write .masked [',', ' '] ++ rest).head? = some '}' := by
  cases more with
  | done => exact .inr h
  | keyed key value more => exact .inl rfl
  | shorthand name more => exact .inl rfl
  | spread value more => exact .inl rfl

theorem ends_of_brace {rest : Text} (h : rest.head? = some '}') : Ends rest := by
  intro c hc
  rw [h] at hc
  cases hc
  decide

theorem follows_of_brace {rest : Text} (h : rest.head? = some '}') : Follows .value rest := by
  obtain ⟨t, rfl⟩ := List.head?_eq_some_iff.1 h
  exact follows_value (by decide) t

mutual

/-- The text of an expression turns into the text of what becomes of the expression. -/
theorem Expr.turns :
    ∀ (e : Expr) (use : Use) {bound : List Text} {behind rest rest' : Text} {pos : Nat},
    behind.length = pos → Opens behind → Follows use rest → (e.isArrow → use = .value ∧ Ends rest) →
      SameDot rest rest' →
    BoundIn scopes others bound (e.scopes pos) pos (pos + (e.write .masked).length) →
    Turns (wordReferences state props) scopes behind (e.write .masked) (e.write .plain)
      ((e.qualify state props bound use).write .plain) (e.missed state props others bound use pos)
        rest rest'
  | .name x, use, bound, behind, rest, rest', pos, hp, ho, hf, _, hd, hb => by
    obtain ⟨c, cs, hw, _⟩ := x.eq_cons
    have here := hb x.text pos (Nat.le_refl _) (by simp [Expr.write, hw])
    rw [Expr.scopes, show isBound [] x.text pos = false from rfl, Bool.or_false] at here
    exact x.turns hp ho hf hd here
  | .number value, use, bound, behind, rest, rest', pos, _, _, _, _, _, _ =>
    value.turns isIdentifier_of_mem_wordReferences behind rest rest'
  | .string content, use, bound, behind, rest, rest', pos, _, _, _, _, _, _ =>
    .mark isWord_of_mem_wordReferences (by decide)
      (.append_quiet isWord_of_mem_wordReferences (turns_hide isWord_of_mem_wordReferences _ _ _ _)
        (by decide))
  | .template parts, use, bound, behind, rest, rest', pos, hp, _, _, _, _, hb => by
    refine .mark isWord_of_mem_wordReferences (by decide)
      (.append_quiet isWord_of_mem_wordReferences
      (parts.turns (by simp [hp]) (hb.mono (by omega) ?_)) (by decide))
    simp only [Expr.write, List.length_cons, List.length_append]
    omega
  | .member root key, use, bound, behind, rest, rest', pos, hp, ho, hf, _, hd, hb => by
    rw [Expr.missed, ← Bool.or_false (root.missed _ _ _ _ _ _)]
    refine .append
      (Expr.turns_operand (fun use => root.turns use) hp ho rfl (fun _ => rfl)
        (hb.mono (Nat.le_refl _) ?_))
      (key.turns_member isWord_of_mem_wordReferences (root.head?_reverse_ne_dot _ _)
        (pastWord_of_follows hf) hd)
    simp only [Expr.write, List.length_append]
    omega
  | .call callee arguments, use, bound, behind, rest, rest', pos, hp, ho, hf, _, hd, hb => by
    refine .append (Expr.turns_operand (fun use => callee.turns use) hp ho rfl (by rintro ⟨⟩)
      (hb.left (arguments.inside _ _) (Nat.le_refl _) ?_ (Nat.le_succ _)))
      (.mark isWord_of_mem_wordReferences (by decide)
        (.append_quiet isWord_of_mem_wordReferences (arguments.turns ?_
        (beforeItem_first (by decide) _) (follows_value (by decide) _) (ends_mark (by decide) _)
        (hb.right (callee.inside _) ?_ ?_ ?_)) (by decide)))
    · simp only [Expr.write, List.length_append]
      omega
    · rw [List.length_cons, length_reverse_append, hp]
    · omega
    · simp only [Expr.write, List.length_append, List.length_cons]
      omega
    · rw [length_bracketed]
      omega
  | .array items, use, bound, behind, rest, rest', pos, hp, _, _, _, _, hb => by
    refine .mark isWord_of_mem_wordReferences (by decide)
      (.append_quiet isWord_of_mem_wordReferences
      (items.turns (by simp [hp]) (beforeItem_first (by decide) _) (follows_value (by decide) _)
        (ends_mark (by decide) _)
        (hb.mono (by omega) ?_)) (by decide))
    simp only [Expr.write, List.length_cons, List.length_append]
    omega
  | .object entries, use, bound, behind, rest, rest', pos, hp, _, _, _, _, hb => by
    refine .mark isWord_of_mem_wordReferences (by decide)
      (.append_quiet isWord_of_mem_wordReferences
      (entries.turns (by simp [hp]) (beforeEntry_first _) rfl (hb.mono (by omega) ?_)) (by decide))
    simp only [Expr.write, List.length_cons, List.length_append]
    omega
  | .sum left right, use, bound, behind, rest, rest', pos, hp, ho, hf, _, hd, hb => by
    have size : (Expr.write .masked (.sum left right)).length =
        1 + (bracketed left.isArrow (left.write .masked)).length + 3
          + (bracketed right.isArrow (right.write .masked)).length + 1 := by
      simp only [Expr.write, List.length_cons, List.length_append, List.length_nil]
      omega
    refine .mark isWord_of_mem_wordReferences (by decide)
      (.append (Expr.turns_operand (fun use => left.turns use) ?_
      (opens_mark (by decide) _) (follows_plus _) (sameDot_cons (by decide) _)
        (hb.left (right.inside _) (Nat.le_succ _) ?_ (by omega))) ?_)
    · rw [List.length_cons, hp]
    · omega
    · refine .mark isWord_of_mem_wordReferences (by decide)
        (.mark isWord_of_mem_wordReferences (by decide)
        (.mark isWord_of_mem_wordReferences (by decide) (.append_quiet isWord_of_mem_wordReferences
          (Expr.turns_operand (fun use => right.turns use) ?_ (opens_blank (by decide) _)
            (follows_value (by decide) _)
            (sameDot_cons (by decide) _) (hb.right (left.inside _) ?_ ?_ ?_)) (by decide))))
      · simp only [List.length_cons, length_reverse_append, hp]
      · omega
      · omega
      · rw [length_bracketed]
        omega
  | .arrow params body, use, bound, behind, rest, rest', pos, hp, ho, hf, he, hd, hb => by
    obtain ⟨rfl, hr⟩ := he rfl
    have inner := hb.arrow
    have size : (Expr.write .masked (.arrow params body)).length =
        params.print.length + 4 + (body.write .masked).length + 2 * body.opensObject.toNat := by
      simp only [Expr.write, List.length_append, List.length_cons, length_bracketed]
      omega
    rw [Expr.qualify, Expr.write, Expr.write, Expr.write, body.opensObject_qualify]
    refine .prepend (params.turns isWord_of_mem_wordReferences ho.pastWord fun name hm p hs hq =>
      hb.param hm (by omega) (by omega)) ?_
    refine .mark isWord_of_mem_wordReferences (by decide)
      (.mark isWord_of_mem_wordReferences (by decide)
      (.mark isWord_of_mem_wordReferences (by decide)
        (.mark isWord_of_mem_wordReferences (by decide)
        (turns_bracketed isWord_of_mem_wordReferences (fun ho => ?_) fun ho => ?_))))
    · refine body.turns .value ?_ (opens_mark (by decide) _) (follows_value (by decide) _)
        (fun _ => ⟨rfl, ends_mark (by decide) _⟩) (sameDot_cons (by decide) _)
          (inner.mono (by omega) (by omega))
      simp only [List.length_cons, length_reverse_append, hp, ho, Bool.toNat_true]
    · refine body.turns .value ?_ (opens_blank (by decide) _) hf (fun _ => ⟨rfl, hr⟩) hd
        (inner.mono (by omega) (by omega))
      simp only [List.length_cons, length_reverse_append, hp, ho, Bool.toNat_false]

theorem Template.turns :
    ∀ (t : Template) {bound : List Text} {behind rest rest' : Text} {pos : Nat},
      behind.length = pos →
    BoundIn scopes others bound (t.scopes pos) pos (pos + (t.write .masked).length) →
    Turns (wordReferences state props) scopes behind (t.write .masked) (t.write .plain)
      ((t.qualify state props bound).write .plain) (t.missed state props others bound pos)
        rest rest'
  | .last content, bound, behind, rest, rest', pos, _, _ =>
    turns_hide isWord_of_mem_wordReferences content.text behind rest rest'
  | .substitution content value more, bound, behind, rest, rest', pos, hp, hb => by
    have size : (Template.write .masked (.substitution content value more)).length =
        content.text.length + 2 + (value.write .masked).length + 1 +
          (more.write .masked).length := by
      simp only [Template.write, List.length_append, List.length_cons, Manner.length_content,
        Manner.opening, List.length_nil]
      omega
    simp only [Template.qualify, Template.write, Template.missed, Manner.content, Manner.opening,
      Manner.closing, List.cons_append, List.nil_append]
    refine .prepend (turns_hide isWord_of_mem_wordReferences content.text _ _ _)
      (.mark isWord_of_mem_wordReferences (by decide)
      (.mark isWord_of_mem_wordReferences (by decide)
        (.append (value.turns .value ?_ (opens_mark (by decide) _)
        (follows_value (by decide) _) (fun _ => ⟨rfl, ends_mark (by decide) _⟩)
          (sameDot_cons (by decide) _)
          (hb.left (more.inside _) (by omega) (by omega) (by omega)))
        (.mark isWord_of_mem_wordReferences (by decide)
          (more.turns ?_ (hb.right (value.inside _) (by omega) (by omega) (by omega)))))))
    · simp only [List.length_cons, length_reverse_append, List.length_map, hp]
    · simp only [List.length_cons, length_reverse_append, List.length_map, hp]

theorem Items.turns :
    ∀ (items : Items) {bound : List Text} {lead behind rest rest' : Text} {pos : Nat},
      behind.length = pos →
    BeforeItem lead behind → Follows .value rest → Ends rest →
    BoundIn scopes others bound (items.scopes pos lead) pos
      (pos + (items.write .masked lead).length) →
    Turns (wordReferences state props) scopes behind (items.write .masked lead)
      (items.write .plain lead)
      ((items.qualify state props bound).write .plain lead)
        (items.missed state props others bound pos lead) rest rest'
  | .done, _, _, _, _, _, _, _, _, _, _, _ => ⟨[], rfl, rfl⟩
  | .item spread value more, bound, lead, behind, rest, rest', pos, hp, hi, hf, hr, hb => by
    have size : (Items.write .masked lead (.item spread value more)).length =
        lead.length + (spreadDots spread).length + (value.write .masked).length +
          (more.write .masked [',', ' ']).length := by
      simp only [Items.write, List.length_append]
      omega
    refine .prepend (turns_quiet isWord_of_mem_wordReferences rfl hi.isLead.not_isNameChar _ _ _)
      (.prepend
        (turns_quiet isWord_of_mem_wordReferences rfl (not_isNameChar_spreadDots spread) _ _ _)
        (.append (value.turns .value ?_ (hi.opensItem spread) (more.follows .masked hf)
          (fun _ => ⟨rfl, more.ends .masked hr⟩) ((more.ends .masked hr).sameDot _)
            (hb.left (more.inside _ _) (by omega) (by omega) (by omega)))
          (more.turns ?_ ?_ hf hr (hb.right (value.inside _) (by omega) (by omega) (by omega)))))
    · simp only [length_reverse_append, hp]
    · simp only [length_reverse_append, hp]
    · simpa using hi.next
        (hi.isLead.balanced.append ((balanced_spreadDots spread).append value.balanced))

theorem ObjectEntries.turns :
    ∀ (entries : ObjectEntries) {bound : List Text} {lead behind rest rest' : Text} {pos : Nat},
    behind.length = pos → BeforeEntry lead behind → rest.head? = some '}' →
    BoundIn scopes others bound (entries.scopes pos lead) pos
      (pos + (entries.write .masked lead).length) →
    Turns (wordReferences state props) scopes behind (entries.write .masked lead)
      (entries.write .plain lead)
      ((entries.qualify state props bound).write .plain lead)
        (entries.missed state props others bound pos lead) rest rest'
  | .done, _, _, _, _, _, _, _, _, _, _ => ⟨[], rfl, rfl⟩
  | .keyed key value more, bound, lead, behind, rest, rest', pos, hp, hi, hr, hb => by
    have size : (ObjectEntries.write .masked lead (.keyed key value more)).length =
        lead.length + key.text.length + 2 + (value.write .masked).length +
          (more.write .masked [',', ' ']).length := by
      simp only [ObjectEntries.write, List.length_append, List.length_cons]
      omega
    have ends := more.ends .masked (ends_of_brace hr)
    refine .prepend (turns_quiet isWord_of_mem_wordReferences rfl hi.isLead.not_isNameChar _ _ _)
      (.prepend (key.turns_key isWord_of_mem_wordReferences hi)
        (.mark isWord_of_mem_wordReferences (by decide)
        (.mark isWord_of_mem_wordReferences (by decide)
          (.append (value.turns .value ?_ (opens_colon key _)
          (more.follows .masked (follows_of_brace hr)) (fun _ => ⟨rfl, ends⟩) (ends.sameDot _)
            (hb.left (more.inside _ _) (by omega) (by omega) (by omega)))
          (more.turns ?_ ?_ hr (hb.right (value.inside _) (by omega) (by omega) (by omega)))))))
    · simp only [List.length_cons, length_reverse_append, hp]
    · simp only [List.length_cons, length_reverse_append, hp]
    · have colon : Balanced [':', ' '] := balanced_of_plain _ (by decide)
      have keyed : Balanced key.text :=
        balanced_of_plain _ fun c hc => (isPlainMark_iff.1 (key.isPlainMark c hc)).2
      simpa using hi.next (hi.isLead.balanced.append (keyed.append (colon.append value.balanced)))
  | .shorthand x more, bound, lead, behind, rest, rest', pos, hp, hi, hr, hb => by
    obtain ⟨c, cs, hw, _⟩ := x.eq_cons
    have size : (ObjectEntries.write .masked lead (.shorthand x more)).length =
        lead.length + x.text.length + (more.write .masked [',', ' ']).length := by
      simp only [ObjectEntries.write, List.length_append]
      omega
    have positive : 0 < x.text.length := by simp [hw]
    have here := hb x.text (pos + lead.length) (by omega) (by omega)
    rw [ObjectEntries.scopes, (more.inside _ _).isBound_eq_false x.text (.inl (by omega)),
      Bool.or_false] at here
    rw [write_shorthand]
    refine .prepend (turns_quiet isWord_of_mem_wordReferences rfl hi.isLead.not_isNameChar _ _ _)
      (.append (x.turns_shorthand ?_ hi (more.head? hr) here)
        (more.turns ?_ ?_ hr (hb.mono (by omega) (by omega))))
    · rw [length_reverse_append, hp]
    · simp only [length_reverse_append, hp]
    · have named : Balanced x.text :=
        balanced_of_plain _ fun c hc => (isPlainMark_iff.1 (x.isPlainMark c hc)).2
      simpa using hi.next (hi.isLead.balanced.append named)
  | .spread value more, bound, lead, behind, rest, rest', pos, hp, hi, hr, hb => by
    have size : (ObjectEntries.write .masked lead (.spread value more)).length =
        lead.length + 3 + (value.write .masked).length +
          (more.write .masked [',', ' ']).length := by
      simp only [ObjectEntries.write, List.length_append, List.length_cons]
      omega
    have ends := more.ends .masked (ends_of_brace hr)
    refine .prepend (turns_quiet isWord_of_mem_wordReferences rfl hi.isLead.not_isNameChar _ _ _)
      (.mark isWord_of_mem_wordReferences (by decide)
        (.mark isWord_of_mem_wordReferences (by decide)
        (.mark isWord_of_mem_wordReferences (by decide)
          (.append (value.turns .value ?_ (opens_spread _)
          (more.follows .masked (follows_of_brace hr)) (fun _ => ⟨rfl, ends⟩) (ends.sameDot _)
            (hb.left (more.inside _ _) (by omega) (by omega) (by omega)))
          (more.turns ?_ ?_ hr (hb.right (value.inside _) (by omega) (by omega) (by omega)))))))
    · simp only [List.length_cons, length_reverse_append, hp]
    · simp only [List.length_cons, length_reverse_append, hp]
    · have dots : Balanced ['.', '.', '.'] := balanced_of_plain _ (by decide)
      simpa using hi.next (hi.isLead.balanced.append (dots.append value.balanced))

end

theorem boundIn_expr (e : Expr) :
    BoundIn (bindingScopes e.shown) (functionScopes e.shown) [] (e.scopes 0) 0
      (0 + (e.write .masked).length) := by
  intro name pos _ _
  rw [bindingScopes_expr, isBound_append]
  rfl

theorem Made.eq_iff {missed : Bool} {made out : Text} (h : Made missed made out) :
    made = out ↔ missed = false := by
  cases missed with
  | false => exact ⟨fun _ => rfl, fun _ => h⟩
  | true =>
    refine ⟨?_, by rintro ⟨⟩⟩
    rintro rfl
    exact absurd h (Nat.lt_irrefl _)

/-- Qualifying the text of an expression makes the text of the tree in which just the free
references are qualified, if no name is called that reads like the head of a function. In general it
does so just if no reference is missed. -/
theorem qualify_print (state : List Word) (props : List (Word × Word)) (e : Expr) :
    (NoFunctionHead (e.called .value) →
        Recast.qualify (state.map (·.text)) (props.map fun entry => (entry.1.text, entry.2.text))
          e.print =
          (e.qualify state props [] .value).print) ∧
      (Recast.qualify (state.map (·.text)) (props.map fun entry => (entry.1.text, entry.2.text))
        e.print =
          (e.qualify state props [] .value).print ↔
        e.missed state props (functionScopes e.shown) [] .value 0 = false) := by
  obtain ⟨made, hm, walked⟩ : Turns (wordReferences state props) (bindingScopes e.shown) []
      _ _ _ _ [] [] :=
    e.turns .value rfl opens_nil (by rintro c ⟨⟩) (fun _ => ⟨rfl, by rintro c ⟨⟩⟩) (by rintro ⟨⟩)
      (boundIn_expr e)
  have whole : Recast.qualify (state.map (·.text))
      (props.map fun entry => (entry.1.text, entry.2.text)) e.print = made := by
    rw [qualify_eq_walk isWord_of_mem_wordReferences, mask_expr]
    simp only [List.append_nil] at walked
    exact walked.trans (List.append_nil made)
  rw [whole]
  refine ⟨fun h => hm.eq_iff.2 ?_, hm.eq_iff⟩
  rw [functionScopes_expr h, e.missed_nil]

/-- A call that reads like the head of a function: `[function$x(y), {a: y}]`. -/
def headLikeCall : Expr :=
  .array (.item false (.call (.name ⟨⟨"function$x".toList, by decide⟩, by decide⟩)
      (.item false (.name ⟨⟨"y".toList, by decide⟩, by decide⟩) .done))
    (.item false (.object (.keyed ⟨"a".toList, by decide⟩
      (.name ⟨⟨"y".toList, by decide⟩, by decide⟩) .done)) .done))

/-- The references in it are missed. -/
theorem qualify_headLikeCall :
    headLikeCall.print = "[function$x(y), {a: y}]".toList ∧
      Recast.qualify ["y".toList] [] headLikeCall.print = "[function$x(y), {a: y}]".toList ∧
      (headLikeCall.qualify [⟨"y".toList, by decide⟩] [] [] .value).print =
        "[function$x(this.y), {a: this.y}]".toList := by
  have names : ∀ entry ∈ references ["y".toList] [], isWord entry.1 := by decide
  rw [qualify_eq_walk names]
  decide +kernel

end Recast
