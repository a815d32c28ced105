import Recast.Proofs.Scope.ExpressionCode
import Recast.Proofs.Text.Sweep

/-!
# Expressions declare nothing

No declaration and no function with the keyword `function` is found in the shown text of an
expression, so the only local bindings are the parameters of arrow functions (`bindingScopes_expr`).
There is one exception: the keyword `function` is looked for as a word without dollar signs, and so
a called name such as `function$` reads like the head of a function. `Expr.called` lists the names
that are called; that none of them reads so is the proposition `plain` of the lemmas.
-/

namespace Recast

/-! ## Places without declarations -/

/-- No declaration starts here, and no function if the names are plain. -/
def Undeclared (plain : Prop) (behind ahead : Text) : Prop :=
  declarationToken behind ahead = none ∧ (plain → functionToken behind ahead = none)

/-- No declaration starts in a text that stands between two others, and no function if the names are
plain. -/
def UndeclaredIn (plain : Prop) (behind t rest : Text) : Prop :=
  ∀ passed more, t = passed ++ more → more ≠ [] →
    Undeclared plain (passed.reverse ++ behind) (more ++ rest)

variable {plain : Prop}

theorem UndeclaredIn.nil (behind rest : Text) : UndeclaredIn plain behind [] rest := by
  intro passed more h hm
  exact absurd (List.append_eq_nil_iff.1 h.symm).2 hm

theorem UndeclaredIn.cons {behind t rest : Text} {c : Char}
    (hc : Undeclared plain behind (c :: (t ++ rest)))
    (ht : UndeclaredIn plain (c :: behind) t rest) : UndeclaredIn plain behind (c :: t) rest := by
  intro passed more h hm
  cases passed with
  | nil =>
    rw [List.nil_append] at h
    rw [← h]
    exact hc
  | cons d passed =>
    obtain ⟨rfl, he⟩ := List.cons.inj h
    simpa using ht passed more he hm

theorem UndeclaredIn.append {u rest : Text} :
    ∀ {behind : Text} (t : Text), UndeclaredIn plain behind t (u ++ rest) →
      UndeclaredIn plain (t.reverse ++ behind) u rest →
      UndeclaredIn plain behind (t ++ u) rest
  | _, [], _, hu => hu
  | behind, c :: cs, ht, hu => by
    refine UndeclaredIn.cons ?_ (UndeclaredIn.append cs ?_ (by simpa using hu))
    · simpa using ht [] (c :: cs) rfl (by simp)
    · intro passed more h hm
      simpa using ht (c :: passed) more (by rw [h]; rfl) hm

theorem startsUnqualified_eq_false {c : Char} (h : isNameChar c ∨ c = '.') (behind : Text) :
    startsUnqualified (c :: behind) = false := by
  rcases h with h | rfl
  · simp [startsUnqualified, h]
  · simp [startsUnqualified]

/-- Nothing starts inside a word or after a dot. -/
theorem undeclared_inside {c : Char} (h : isNameChar c ∨ c = '.') (behind ahead : Text) :
    Undeclared plain (c :: behind) ahead := by
  simp [Undeclared, declarationToken, functionToken, startsUnqualified_eq_false h]

theorem dropHead?_eq_none {h c : Char} (hne : h ≠ c) (hs cs : Text) :
    dropHead? (h :: hs) (c :: cs) = none := by
  rw [dropHead?, if_neg hne]

/-- A declaration and a function start with the first letter of their keyword. -/
theorem undeclared_of_ne {c : Char} (hc : c ≠ 'c') (hl : c ≠ 'l') (hv : c ≠ 'v') (hf : c ≠ 'f')
    (behind cs : Text) : Undeclared plain behind (c :: cs) := by
  constructor
  · have keyword : declarationKeyword? (c :: cs) = none := by
      simp [declarationKeyword?, dropHead?_eq_none (Ne.symm hc), dropHead?_eq_none (Ne.symm hl),
        dropHead?_eq_none (Ne.symm hv)]
    simp [declarationToken, keyword]
  · simp [functionToken, dropHead?_eq_none (Ne.symm hf)]

/-- Nothing starts where no name starts. -/
theorem undeclared_of_not_isNameChar {c : Char} (h : isNameChar c = false) (behind cs : Text) :
    Undeclared plain behind (c :: cs) := by
  apply undeclared_of_ne <;> rintro rfl <;> exact Bool.noConfusion h

theorem undeclaredIn_quiet (rest : Text) :
    ∀ (t behind : Text), (∀ c ∈ t, isNameChar c = false) → UndeclaredIn plain behind t rest
  | [], behind, _ => .nil behind rest
  | c :: cs, behind, h =>
    .cons (undeclared_of_not_isNameChar (h c (by simp)) _ _)
      (undeclaredIn_quiet rest cs (c :: behind) fun d hd => h d (by simp [hd]))

theorem undeclaredIn_inside (rest : Text) :
    ∀ (t behind : Text) {c : Char}, isNameChar c ∨ c = '.' → (∀ d ∈ t, isNameChar d ∨ d = '.') →
      UndeclaredIn plain (c :: behind) t rest
  | [], behind, c, _, _ => .nil (c :: behind) rest
  | d :: ds, behind, c, hc, ht =>
    .cons (undeclared_inside hc _ _)
      (undeclaredIn_inside rest ds (c :: behind) (ht d (by simp)) fun x hx => ht x (by simp [hx]))

/-- In a word only its first character counts. -/
theorem undeclaredIn_word {behind t rest : Text} (ht : ∀ c ∈ t, isNameChar c ∨ c = '.')
    (h : Undeclared plain behind (t ++ rest)) : UndeclaredIn plain behind t rest := by
  cases t with
  | nil => exact .nil behind rest
  | cons c cs =>
    exact .cons h
      (undeclaredIn_inside rest cs behind (ht c (by simp)) fun d hd => ht d (by simp [hd]))

/-! ## Words that declare nothing -/

/-- What follows a word that is not the head of a function. -/
def NotCalled (rest : Text) : Prop :=
  ∀ c, (trimStart rest).head? = some c → c ≠ '(' ∧ c ≠ '*' ∧ isNameChar c = false

theorem pastWord_of_notCalled {rest : Text} (h : NotCalled rest) : PastWord rest := by
  intro c hc
  by_contra hn
  have hn : isNameChar c := by simpa using hn
  have kept : trimStart rest = rest := trimStart_eq_self fun d hd => by
    rw [hc] at hd
    rw [← Option.some.inj hd]
    exact not_isBlank_of_isNameChar hn
  rw [(h c (by rw [kept]; exact hc)).2.2] at hn
  exact Bool.noConfusion hn

theorem dropHead?_keyword {kw w rest r : Text} (hkw : ∀ c ∈ kw, isNameChar c)
    (hw : ∀ c ∈ w, isNameChar c)
    (hr : PastWord rest) (hd : dropHead? kw (w ++ rest) = some r) (past : PastWord r) :
    w = kw ∧ rest = r := by
  obtain ⟨hword, hafter⟩ := (dropHead?_word hkw).1 ⟨hd, past⟩
  rw [wordAhead_append hw hr] at hword
  rw [afterWord_append hw hr] at hafter
  exact ⟨hword, hafter⟩

/-- A word declares nothing unless it is a keyword with a blank after it. -/
theorem declarationToken_eq_none {w behind rest : Text} (hw : ∀ c ∈ w, isNameChar c)
    (hr : PastWord rest)
    (h : w ∉ declaringKeywords ∨ rest.head?.any isBlank = false) :
    declarationToken behind (w ++ rest) = none := by
  have keyword : ∀ kw ∈ declaringKeywords, (∀ c ∈ kw, isNameChar c) → ∀ r,
      dropHead? kw (w ++ rest) = some r →
      r.head?.any isBlank = false := by
    intro kw hkw chars r hd
    by_contra hb
    have past : PastWord r := by
      intro c hc
      rw [hc] at hb
      exact not_isNameChar_of_isBlank (by simpa using hb)
    obtain ⟨rfl, rfl⟩ := dropHead?_keyword chars hw hr hd past
    exact h.elim (· hkw) hb
  have none : declarationKeyword? (w ++ rest) = none := by
    rw [declarationKeyword?]
    cases hc : dropHead? "const".toList (w ++ rest) with
    | some r =>
      have := keyword _ (by decide) (by decide) r hc
      simp [this]
    | none =>
      cases hl : dropHead? "let".toList (w ++ rest) with
      | some r =>
        have := keyword _ (by decide) (by decide) r hl
        simp [this]
      | none =>
        cases hv : dropHead? "var".toList (w ++ rest) with
        | some r =>
          have := keyword _ (by decide) (by decide) r hv
          simp [this]
        | none => rfl
  rw [declarationToken, none]
  cases startsUnqualified behind <;> rfl

theorem trimStart_trimStart (t : Text) : trimStart (trimStart t) = trimStart t :=
  trimStart_eq_self fun _ hc => not_isBlank_of_head?_trimStart hc

theorem eq_dollar {c : Char} (hn : isNameChar c) (hw : isWordChar c = false) : c = '$' := by
  simpa [isNameChar, hw] using hn

theorem dropHead?_star {t : Text} (h : t.head? ≠ some '*') : (dropHead? ['*'] t).getD t = t := by
  cases t with
  | nil => rfl
  | cons c cs =>
    rw [dropHead?_eq_none]
    · rfl
    · rintro rfl
      exact h rfl

/-- A word is the head of a function just if it is the keyword, or a called name that looks like
it. -/
theorem functionToken_eq_none {w behind rest : Text} (hw : ∀ c ∈ w, isNameChar c)
    (hr : PastWord rest)
    (h : NotCalled rest ∨ w ∉ declaringKeywords ∧ startsWith w "function$".toList = false) :
    functionToken behind (w ++ rest) = none := by
  have chars : ∀ c ∈ "function".toList, isNameChar c := by decide
  rw [functionToken]
  cases startsUnqualified behind with
  | false => rfl
  | true =>
    cases hd : dropHead? "function".toList (w ++ rest) with
    | none => rfl
    | some r =>
      have after : r.dropWhile isNameChar = rest := by
        have := afterWord_append hw hr
        rwa [eq_append_of_dropHead? hd, afterWord, List.dropWhile_append_of_pos chars] at this
      simp only [Bool.not_true, Bool.false_eq_true, if_false, Option.bind_eq_bind, Option.bind_some]
      cases he : wordEnds r with
      | false => rfl
      | true =>
        by_cases past : PastWord r
        · obtain ⟨rfl, rfl⟩ := dropHead?_keyword chars hw hr hd past
          rcases h with h | h
          · have plain : (trimStart rest).dropWhile isNameChar = trimStart rest :=
              dropWhile_eq_self fun c hc => (h c hc).2.2
            rw [dropHead?_star fun hs => (h _ hs).2.1 rfl, trimStart_trimStart, plain,
              trimStart_trimStart]
            exact if_neg fun hp => (h _ hp).1 rfl
          · exact absurd (by decide) h.1
        · obtain ⟨c, cs, rfl⟩ : ∃ c cs, r = c :: cs := by
            cases r with
            | nil => exact absurd (by rintro c ⟨⟩) past
            | cons c cs => exact ⟨c, cs, rfl⟩
          have name : isNameChar c := by
            by_contra hn
            exact past (by rintro d ⟨⟩; simpa using hn)
          obtain rfl : c = '$' := eq_dollar name (by simpa [wordEnds] using he)
          rcases h with h | h
          · have kept : trimStart ('$' :: cs) = '$' :: cs :=
              trimStart_eq_self (by rintro d ⟨⟩; decide)
            rw [kept, dropHead?_star (by simp), kept, after]
            exact if_neg fun hp => (h _ hp).1 rfl
          · have word := wordAhead_append hw hr
            rw [eq_append_of_dropHead? hd, wordAhead_of_cover chars] at word
            have starts : dropHead? "function$".toList w = some (wordAhead cs) := by
              rw [dropHead?_eq_some, ← word]
              simp [wordAhead, name]
            rw [startsWith, starts] at h
            exact Bool.noConfusion h.2

/-! ## Expressions -/

/-- What can follow an expression, by its use. -/
def Follows : Use → Text → Prop
  | .value, rest => ∀ c, (trimStart rest).head? = some c → c ∈ [',', ')', ']', '}', '+']
  | .object, rest => rest.head? = some '.'
  | .callee, rest => rest.head? = some '('

theorem head?_trimStart {c : Char} {t : Text} (hc : isBlank c = false) :
    (trimStart (c :: t)).head? = some c := by
  rw [trimStart_eq_self (by rintro d ⟨⟩; exact hc)]
  rfl

theorem head?_trimStart_of_head? {c : Char} {t : Text} (hb : isBlank c = false)
    (h : t.head? = some c) : (trimStart t).head? = some c := by
  obtain ⟨cs, rfl⟩ := List.head?_eq_some_iff.1 h
  exact head?_trimStart hb

theorem follows_value {c : Char} (h : c ∈ [',', ')', ']', '}', '+']) (t : Text) :
    Follows .value (c :: t) := by
  have blank : isBlank c = false := by
    revert c
    decide
  intro d hd
  rw [head?_trimStart blank] at hd
  rwa [← Option.some.inj hd]

theorem follows_plus (t : Text) : Follows .value (' ' :: '+' :: t) :=
  follows_value (c := '+') (by decide) t

theorem notCalled_of_value {rest : Text} (h : Follows .value rest) : NotCalled rest := by
  intro c hc
  have following := h c hc
  clear hc
  revert c
  decide

theorem notCalled_cons {c : Char} (hb : isBlank c = false) (hp : c ≠ '(') (hs : c ≠ '*')
    (hn : isNameChar c = false) (t : Text) : NotCalled (c :: t) := by
  intro d hd
  rw [head?_trimStart hb] at hd
  rw [← Option.some.inj hd]
  exact ⟨hp, hs, hn⟩

theorem undeclaredIn_name (x : Name) {behind rest : Text} (hr : NotCalled rest) :
    UndeclaredIn plain behind x.text rest :=
  undeclaredIn_word (fun c hc => .inl (x.isNameChar c hc))
    ⟨declarationToken_eq_none x.isNameChar (pastWord_of_notCalled hr) (.inl x.free),
      fun _ => functionToken_eq_none x.isNameChar (pastWord_of_notCalled hr) (.inl hr)⟩

theorem undeclaredIn_key (key : Word) {behind rest : Text} :
    UndeclaredIn plain behind key.text (':' :: rest) := by
  have hr : NotCalled (':' :: rest) :=
    notCalled_cons (by decide) (by decide) (by decide) (by decide) rest
  exact undeclaredIn_word (fun c hc => .inl (key.isNameChar c hc))
    ⟨declarationToken_eq_none key.isNameChar (pastWord_of_notCalled hr) (.inr (by simp; decide)),
      fun _ => functionToken_eq_none key.isNameChar (pastWord_of_notCalled hr) (.inl hr)⟩

theorem undeclaredIn_member (key : Word) {behind rest : Text} :
    UndeclaredIn plain behind ('.' :: key.text) rest :=
  .cons (undeclared_of_not_isNameChar (by decide) _ _)
    (undeclaredIn_inside rest key.text behind (.inr rfl) fun c hc => .inl (key.isNameChar c hc))

theorem undeclaredIn_callee (x : Name) (h : plain → startsWith x.text "function$".toList = false)
    {behind rest : Text} (hr : rest.head? = some '(') : UndeclaredIn plain behind x.text rest := by
  have past : PastWord rest := by
    intro c hc
    rw [hr] at hc
    rw [← Option.some.inj hc]
    decide
  exact undeclaredIn_word (fun c hc => .inl (x.isNameChar c hc))
    ⟨declarationToken_eq_none x.isNameChar past (.inl x.free),
      fun hp => functionToken_eq_none x.isNameChar past (.inr ⟨x.free, h hp⟩)⟩

theorem undeclaredIn_number (value : NumberText) {behind rest : Text} :
    UndeclaredIn plain behind value.text rest := by
  refine undeclaredIn_word value.mem ?_
  obtain ⟨text, valid⟩ := value
  cases text with
  | nil => exact Bool.noConfusion valid
  | cons c cs =>
    rw [isNumber, Bool.and_eq_true] at valid
    apply undeclared_of_ne <;> rintro rfl <;> exact Bool.noConfusion valid.1

theorem undeclaredIn_joinComma (rest : Text) :
    ∀ (names : List Name) (behind : Text),
      UndeclaredIn plain behind (joinComma (names.map (·.text))) (')' :: rest)
  | [], behind => .nil behind _
  | [name], behind =>
    undeclaredIn_name name (notCalled_cons (by decide) (by decide) (by decide) (by decide) rest)
  | name :: other :: names, behind => by
    have ih := undeclaredIn_joinComma rest (other :: names)
    have join : joinComma ((name :: other :: names).map (·.text)) =
        name.text ++ ([',', ' '] ++ joinComma ((other :: names).map (·.text))) :=
      List.append_assoc name.text [',', ' '] _
    rw [join]
    refine .append _ (undeclaredIn_name name ?_)
      (.append [',', ' '] (undeclaredIn_quiet _ _ _ (by decide)) (ih _))
    exact notCalled_cons (by decide) (by decide) (by decide) (by decide) _

theorem undeclaredIn_params (params : Params) (behind rest : Text) :
    UndeclaredIn plain behind params.print (' ' :: '=' :: rest) := by
  cases params with
  | one name =>
    exact undeclaredIn_name name
      (notCalled_cons (c := '=') (by decide) (by decide) (by decide) (by decide) rest)
  | list names =>
    refine .cons (undeclared_of_not_isNameChar (by decide) _ _)
      (.append _ (undeclaredIn_joinComma _ names _) ?_)
    exact undeclaredIn_quiet _ _ _ (by decide)

theorem undeclaredIn_bracketed {needed : Bool} {behind t rest : Text}
    (inside : needed = true → UndeclaredIn plain ('(' :: behind) t (')' :: rest))
    (bare : needed = false → UndeclaredIn plain behind t rest) :
    UndeclaredIn plain behind (bracketed needed t) rest := by
  cases needed with
  | false => exact bare rfl
  | true =>
    refine .cons (undeclared_of_not_isNameChar (by decide) _ _) (.append t (inside rfl) ?_)
    exact undeclaredIn_quiet _ _ _ (by decide)

theorem undeclaredIn_hide (t : Text) (behind rest : Text) :
    UndeclaredIn plain behind (t.map hide) rest := by
  refine undeclaredIn_quiet rest _ behind fun c hc => ?_
  obtain ⟨d, _, rfl⟩ := List.mem_map.1 hc
  rw [hide]
  split <;> decide

theorem Expr.called_of_isArrow {e : Expr} (h : e.isArrow) (use : Use) :
    e.called use = e.called .value := by
  cases e <;> first | rfl | exact Bool.noConfusion h

/-- No name is called that reads like the head of a function. -/
def NoFunctionHead (called : List Name) : Prop :=
  ∀ x ∈ called, startsWith x.text "function$".toList = false

theorem noFunctionHead_left {xs ys : List Name} (h : plain → NoFunctionHead (xs ++ ys)) :
    plain → NoFunctionHead xs :=
  fun hp x hx => h hp x (List.mem_append_left _ hx)

theorem noFunctionHead_right {xs ys : List Name} (h : plain → NoFunctionHead (xs ++ ys)) :
    plain → NoFunctionHead ys :=
  fun hp x hx => h hp x (List.mem_append_right _ hx)

theorem Items.follows (m : Manner) (more : Items) {rest : Text} (h : Follows .value rest) :
    Follows .value (more.write m [',', ' '] ++ rest) := by
  cases more with
  | done => exact h
  | item spread value more => exact follows_value (by decide) _

theorem ObjectEntries.follows (m : Manner) (more : ObjectEntries) {rest : Text}
    (h : Follows .value rest) : Follows .value (more.write m [',', ' '] ++ rest) := by
  cases more with
  | done => exact h
  | keyed key value more => exact follows_value (by decide) _
  | shorthand name more => exact follows_value (by decide) _
  | spread value more => exact follows_value (by decide) _

theorem undeclaredIn_lead {lead : Text} (h : IsLead lead) (behind rest : Text) :
    UndeclaredIn plain behind lead rest := by
  refine undeclaredIn_quiet rest lead behind ?_
  rcases h with rfl | rfl <;> decide

theorem undeclaredIn_spreadDots (spread : Bool) (behind rest : Text) :
    UndeclaredIn plain behind (spreadDots spread) rest := by
  refine undeclaredIn_quiet rest _ behind ?_
  cases spread <;> decide

mutual

/-- Nothing is declared in an expression. -/
theorem Expr.undeclared :
    ∀ (e : Expr) (use : Use) {behind rest : Text}, Follows use rest → (e.isArrow → use = .value) →
    (plain → NoFunctionHead (e.called use)) → UndeclaredIn plain behind (e.write .masked) rest
  | .name x, use, behind, rest, hr, _, hc => by
    cases use with
    | value => exact undeclaredIn_name x (notCalled_of_value hr)
    | object =>
      obtain ⟨t, rfl⟩ := List.head?_eq_some_iff.1 hr
      exact undeclaredIn_name x (notCalled_cons (by decide) (by decide) (by decide) (by decide) t)
    | callee => exact undeclaredIn_callee x (fun hp => hc hp x (by simp [Expr.called])) hr
  | .number value, _, _, _, _, _, _ => undeclaredIn_number value
  | .string content, _, behind, rest, _, _, _ => by
    refine .cons (undeclared_of_not_isNameChar (by decide) _ _)
      (.append _ (undeclaredIn_hide content.text _ _) ?_)
    exact undeclaredIn_quiet _ _ _ (by decide)
  | .template parts, _, behind, rest, _, _, hc => by
    refine .cons (undeclared_of_not_isNameChar (by decide) _ _) (.append _ (parts.undeclared hc) ?_)
    exact undeclaredIn_quiet _ _ _ (by decide)
  | .member root key, _, behind, rest, _, _, hc => by
    refine .append _ (undeclaredIn_bracketed (fun ha => ?_) fun ha => ?_) (undeclaredIn_member key)
    · exact root.undeclared .value (follows_value (by decide) _) (fun _ => rfl)
        (root.called_of_isArrow ha .object ▸ hc)
    · exact root.undeclared .object rfl (fun h => by simp [ha] at h) hc
  | .call callee arguments, _, behind, rest, _, _, hc => by
    refine .append _ (undeclaredIn_bracketed (fun ha => ?_) fun ha => ?_)
      (.cons (undeclared_of_not_isNameChar (by decide) _ _)
        (.append _ ?_ (undeclaredIn_quiet _ _ _ (by decide))))
    · exact callee.undeclared .value (follows_value (by decide) _) (fun _ => rfl)
        (callee.called_of_isArrow ha .callee ▸ (noFunctionHead_left hc))
    · exact callee.undeclared .callee rfl (fun h => by simp [ha] at h) (noFunctionHead_left hc)
    · exact arguments.undeclared (.inl rfl) (noFunctionHead_right hc) (follows_value (by decide) _)
  | .array items, _, behind, rest, _, _, hc => by
    refine .cons (undeclared_of_not_isNameChar (by decide) _ _)
      (.append _ ?_ (undeclaredIn_quiet _ _ _ (by decide)))
    exact items.undeclared (.inl rfl) hc (follows_value (by decide) _)
  | .object entries, _, behind, rest, _, _, hc => by
    refine .cons (undeclared_of_not_isNameChar (by decide) _ _)
      (.append _ ?_ (undeclaredIn_quiet _ _ _ (by decide)))
    exact entries.undeclared (.inl rfl) hc (follows_value (by decide) _)
  | .sum left right, _, behind, rest, _, _, hc => by
    refine .cons (undeclared_of_not_isNameChar (by decide) _ _)
      (.append _ (undeclaredIn_bracketed (fun _ => ?_) fun _ => ?_)
      (.append [' ', '+', ' '] (undeclaredIn_quiet _ _ _ (by decide))
        (.append _ (undeclaredIn_bracketed (fun _ => ?_) fun _ => ?_)
          (undeclaredIn_quiet _ _ _ (by decide)))))
    · exact left.undeclared .value (follows_value (by decide) _) (fun _ => rfl)
        (noFunctionHead_left hc)
    · exact left.undeclared .value (follows_plus _) (fun _ => rfl) (noFunctionHead_left hc)
    · exact right.undeclared .value (follows_value (by decide) _) (fun _ => rfl)
        (noFunctionHead_right hc)
    · exact right.undeclared .value (follows_value (by decide) _) (fun _ => rfl)
        (noFunctionHead_right hc)
  | .arrow params body, use, behind, rest, hr, hu, hc => by
    obtain rfl := hu rfl
    refine .append _ (undeclaredIn_params params _ _)
      (.append [' ', '=', '>', ' '] (undeclaredIn_quiet _ _ _ (by decide))
      (undeclaredIn_bracketed (fun _ => ?_) fun _ => ?_))
    · exact body.undeclared .value (follows_value (by decide) _) (fun _ => rfl) hc
    · exact body.undeclared .value hr (fun _ => rfl) hc

theorem Template.undeclared :
    ∀ (t : Template) {behind rest : Text}, (plain → NoFunctionHead t.called) →
    UndeclaredIn plain behind (t.write .masked) rest
  | .last content, behind, rest, _ => undeclaredIn_hide content.text behind rest
  | .substitution content value more, behind, rest, hc => by
    refine .append _ (undeclaredIn_hide content.text _ _)
      (.append [' ', '('] (undeclaredIn_quiet _ _ _ (by decide))
      (.append _ (value.undeclared .value (follows_value (by decide) _) (fun _ => rfl)
        (noFunctionHead_left hc)) ?_))
    exact .cons (undeclared_of_not_isNameChar (by decide) _ _)
      (more.undeclared (noFunctionHead_right hc))

theorem Items.undeclared : ∀ (items : Items) {lead behind rest : Text}, IsLead lead →
    (plain → NoFunctionHead items.called) →
    Follows .value rest → UndeclaredIn plain behind (items.write .masked lead) rest
  | .done, _, behind, rest, _, _, _ => .nil behind rest
  | .item spread value more, lead, behind, rest, hl, hc, hr => by
    refine .append _ (undeclaredIn_lead hl _ _)
      (.append _ (undeclaredIn_spreadDots spread _ _) (.append _ ?_ ?_))
    · exact value.undeclared .value (more.follows .masked hr) (fun _ => rfl)
        (noFunctionHead_left hc)
    · exact more.undeclared (.inr rfl) (noFunctionHead_right hc) hr

theorem ObjectEntries.undeclared :
    ∀ (entries : ObjectEntries) {lead behind rest : Text}, IsLead lead →
    (plain → NoFunctionHead entries.called) → Follows .value rest →
      UndeclaredIn plain behind (entries.write .masked lead) rest
  | .done, _, behind, rest, _, _, _ => .nil behind rest
  | .keyed key value more, lead, behind, rest, hl, hc, hr => by
    refine .append _ (undeclaredIn_lead hl _ _) (.append _ (undeclaredIn_key key)
      (.append [':', ' '] (undeclaredIn_quiet _ _ _ (by decide)) (.append _ ?_ ?_)))
    · exact value.undeclared .value (more.follows .masked hr) (fun _ => rfl)
        (noFunctionHead_left hc)
    · exact more.undeclared (.inr rfl) (noFunctionHead_right hc) hr
  | .shorthand name more, lead, behind, rest, hl, hc, hr => by
    refine .append _ (undeclaredIn_lead hl _ _) (.append _ ?_ (more.undeclared (.inr rfl) hc hr))
    exact undeclaredIn_name name (notCalled_of_value (more.follows .masked hr))
  | .spread value more, lead, behind, rest, hl, hc, hr => by
    refine .append _ (undeclaredIn_lead hl _ _)
      (.append ['.', '.', '.'] (undeclaredIn_quiet _ _ _ (by decide))
      (.append _ ?_ (more.undeclared (.inr rfl) (noFunctionHead_right hc) hr)))
    exact value.undeclared .value (more.follows .masked hr) (fun _ => rfl) (noFunctionHead_left hc)

end

end Recast
