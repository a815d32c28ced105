import Recast.Scan.Word
import Recast.Text.Length

/-!
# Rendered lists

A call of `map` whose callback renders markup is a rendered list. `listCall?` reads it off an
expression: the collection (`chainStart`), the parameters of the callback (`arrowHead?`) and the
markup of an item (`callbackMarkup`).
-/

namespace Recast

/-- Where the member chain that ends at the end of a text begins; the text is read backwards, and
`next` is the character after it. Names, dots and balanced call and index brackets belong to a
chain; nothing past `resume` is looked at. -/
def chainStart (next : Option Char) (resume : Nat) : Text → Nat
  | [] => 0
  | c :: before =>
    if resume < before.length + 1 then chainStart (some c) resume before
    else if isNameChar c || c = '.' then chainStart (some c) resume before
    else if c = '?' && next = some '.' then chainStart (some c) resume before
    else if c = ')' || c = ']' then
      match openerBehind? 0 (c :: before) with
      | some opening => chainStart (some c) opening before
      | none => before.length + 1
    else before.length + 1

/-- Where the member chain that ends before the offset `stop` begins. -/
def operandStart (t : Text) (stop : Nat) : Nat :=
  let chain := (t.take stop).reverse.dropWhile isLayout
  chainStart (t.drop chain.length).head? chain.length chain

/-- The parameters of an arrow function, a bracketed list or one name, and the text after them. -/
def arrowParams? (t : Text) : Option (Text × Text) :=
  match t with
  | [] => none
  | c :: cs =>
    if c = '(' then (cutAt? ')' cs).map fun (params, rest) => (trim params, rest)
    else if isNameChar c then some (t.takeWhile isNameChar, t.dropWhile isNameChar)
    else none

/-- The parameters of an arrow function and the text after its arrow. -/
def arrowHead? (t : Text) : Option (Text × Text) :=
  match arrowParams? (trimStart t) with
  | none => none
  | some (params, rest) =>
    (dropHead? "=>".toList (trimStart rest)).map fun body => (params, trimStart body)

/-- The markup that the body of a callback renders: an element, a bracketed element, or what the
last `return` of a block renders. -/
def callbackMarkup (body : Text) : Except MarkupFault (Option Text) :=
  match body with
  | [] => .ok none
  | c :: rest =>
    if c = '<' then (elementEndAt body 0).map fun found => found.map body.take
    else
      match bracketEndAt? body 0 with
      | none => .ok none
      | some stop =>
        let inner := slice rest 0 (stop - 2)
        if c = '(' then .ok (if (trim inner).head? = some '<' then some (trim inner) else none)
        else if c = '{' then
          match (topLevelMatches inner returnWord 0).getLast? with
          | some statement => callbackMarkup (trim (inner.drop statement.stop))
          | none => .ok none
        else .ok none
termination_by body.length
decreasing_by
  have := length_slice_le rest 0 (stop - 2)
  have := (List.drop_sublist statement.stop (slice rest 0 (stop - 2))).length_le
  have := length_trim_le ((slice rest 0 (stop - 2)).drop statement.stop)
  simp only [List.length_cons]
  omega

/-- A call of `map` that renders a list. -/
structure ListCall where
  /-- The code before the collection. -/
  before : Text
  collection : Text
  /-- The parameters of the callback. -/
  params : Text
  /-- The markup of one item. -/
  item : Text
  /-- The code after the call. -/
  after : Text
  deriving DecidableEq, Repr

/-- Whether code goes on with a member, an index or a call. -/
def continuesChain (after : Text) : Bool :=
  match (trimStart after).head? with
  | some c => c == '.' || c == '[' || c == '('
  | none => false

/-- The rendered list that an expression holds at its top level. -/
def listCall? (t : Text) : Except MarkupFault (Option ListCall) :=
  match (topLevelMatches t mapCall 0).head? with
  | none => .ok none
  | some call =>
    let start := operandStart t call.start
    let collection := trim (slice t start call.start)
    match bracketEndAt? t (call.stop - 1) with
    | none => .ok none
    | some stop =>
      if collection.isEmpty || continuesChain (t.drop stop) then .ok none
      else
        match arrowHead? (slice t call.stop (stop - 1)) with
        | none => .ok none
        | some (params, body) =>
          (callbackMarkup (trim body)).map fun found =>
            found.map fun item => ⟨t.take start, collection, params, item, t.drop stop⟩

/-! ## Bounds -/

theorem length_callbackMarkup_le {body item : Text} (h : callbackMarkup body = .ok (some item)) :
    item.length ≤ body.length := by
  induction hn : body.length using Nat.strongRecOn generalizing body with
  | ind n ih =>
    subst hn
    match body with
    | [] => simp [callbackMarkup] at h
    | c :: rest =>
      rw [callbackMarkup] at h
      split at h
      · cases hf : elementEndAt (c :: rest) 0 with
        | error fault => simp [hf, Except.map] at h
        | ok found =>
          cases found with
          | none => simp [hf, Except.map] at h
          | some stop =>
            simp only [hf, Except.map, Option.map, Except.ok.injEq, Option.some.injEq] at h
            exact h ▸ (List.take_sublist _ _).length_le
      · split at h
        · simp at h
        · rename_i stop _
          dsimp only at h
          have := length_slice_le rest 0 (stop - 2)
          split at h
          · simp only [Except.ok.injEq, Option.ite_none_right_eq_some, Option.some.injEq] at h
            have := length_trim_le (slice rest 0 (stop - 2))
            rw [← h.2, List.length_cons]
            omega
          · split at h
            · split at h
              · rename_i statement _
                have := length_trim_le ((slice rest 0 (stop - 2)).drop statement.stop)
                have := (List.drop_sublist statement.stop (slice rest 0 (stop - 2))).length_le
                have := ih _ (by simp only [List.length_cons]; omega) h rfl
                rw [List.length_cons]
                omega
              · simp at h
            · simp at h

theorem length_arrowParams?_le {t params rest : Text} (h : arrowParams? t = some (params, rest)) :
    rest.length ≤ t.length := by
  rw [arrowParams?.eq_def] at h
  split at h
  · simp at h
  · rename_i c cs
    split at h
    · obtain ⟨⟨inner, after⟩, hc, hb⟩ := Option.map_eq_some_iff.1 h
      obtain ⟨rfl, rfl⟩ := Prod.mk.inj hb
      have := length_cutAt?_le hc
      simp only [List.length_cons]
      omega
    · split at h
      · simp only [Option.some.injEq, Prod.mk.injEq] at h
        exact h.2 ▸ (List.dropWhile_sublist _).length_le
      · simp at h

theorem length_arrowHead?_le {t params body : Text} (h : arrowHead? t = some (params, body)) :
    body.length ≤ t.length := by
  rw [arrowHead?] at h
  have := length_trimStart_le t
  split at h
  · simp at h
  · rename_i found rest hp
    obtain ⟨after, ha, hb⟩ := Option.map_eq_some_iff.1 h
    obtain ⟨rfl, rfl⟩ := Prod.mk.inj hb
    have := length_arrowParams?_le hp
    have := length_dropHead?_le ha
    have := length_trimStart_le rest
    have := length_trimStart_le after
    omega

theorem listCall?_bounds {t : Text} {call : ListCall} (h : listCall? t = .ok (some call)) :
    call.before.length ≤ t.length ∧ call.item.length ≤ t.length ∧ call.after.length ≤ t.length := by
  rw [listCall?] at h
  split at h
  · simp at h
  · rename_i found _
    dsimp only at h
    split at h
    · simp at h
    · rename_i stop _
      split at h
      · simp at h
      · split at h
        · simp at h
        · rename_i params body ha
          cases hc : callbackMarkup (trim body) with
          | error fault => simp [hc, Except.map] at h
          | ok item =>
            cases item with
            | none => simp [hc, Except.map] at h
            | some item =>
              simp only [hc, Except.map, Option.map, Except.ok.injEq, Option.some.injEq] at h
              subst h
              have := length_callbackMarkup_le hc
              have := length_trim_le body
              have := length_arrowHead?_le ha
              have := length_slice_le t found.stop (stop - 1)
              exact ⟨(List.take_sublist _ _).length_le,
                by dsimp only; omega, (List.drop_sublist _ _).length_le⟩

end Recast
