import Recast.Proofs.Scan.Passage

/-!
# Scanning at another offset

What a scanner finds does not depend on where its text stands: at an offset that lies `n` further it
finds the same end, `n` further (`literalEnd_shift`, `bracketEnd_shift`, `tagEnd_shift`,
`childrenEnd_shift`), and reports the same fault, `n` further. So putting a text in front of another
one moves what is found in it and changes nothing else (`literalEndAt_append`,
`bracketEndAt?_append`, `tokens_append`, `elementEndAt_append`).
-/

namespace Recast

/-! ## Offsets -/

/-- The fault at an offset that lies `n` further. -/
def MarkupFault.shift (n : Nat) (fault : MarkupFault) : MarkupFault :=
  { fault with offset := fault.offset + n }

/-- The tag that ends `n` further. -/
def TagEnd.shift (n : Nat) (tag : TagEnd) : TagEnd :=
  { tag with stop := tag.stop + n }

/-- The token that stands `n` further. -/
def Token.shift (n : Nat) (token : Token) : Token :=
  { token with start := token.start + n, stop := token.stop + n }

/-- What is found, or the fault, `n` further; `move` says what that means for what is found. -/
def shiftResult {α : Type} (n : Nat) (move : α → α) : Except MarkupFault α → Except MarkupFault α
  | .ok found => .ok (move found)
  | .error fault => .error (fault.shift n)

/-- A scan that resumes at `resume'` from `pos + n` passes over what one that resumes at `resume`
from `pos` does. -/
def Aligned (n pos resume resume' : Nat) : Prop :=
  resume' = resume + n ∨ (resume ≤ pos ∧ resume' ≤ pos + n)

theorem Aligned.shift (n pos resume : Nat) : Aligned n pos resume (resume + n) :=
  .inl rfl

theorem Aligned.none (n pos : Nat) : Aligned n pos 0 0 :=
  .inr ⟨Nat.zero_le _, Nat.zero_le _⟩

theorem Aligned.succ {n pos resume resume' : Nat} (h : Aligned n pos resume resume') :
    Aligned n (pos + 1) resume resume' := by
  unfold Aligned at *
  omega

theorem Aligned.lt_iff {n pos resume resume' : Nat} (h : Aligned n pos resume resume') :
    pos + n < resume' ↔ pos < resume := by
  unfold Aligned at h
  omega

/-! ## Pieces -/

theorem offsetOf?_shift (p : Char → Bool) (n : Nat) : ∀ (t : Text) (pos : Nat),
    offsetOf? p (pos + n) t = (offsetOf? p pos t).map (· + n)
  | [], _ => rfl
  | c :: cs, pos => by
    rw [offsetOf?, offsetOf?, Nat.add_right_comm, offsetOf?_shift p n cs (pos + 1)]
    split <;> rfl

theorem blockCommentEnd_shift (n : Nat) : ∀ (t : Text) (pos : Nat),
    blockCommentEnd (pos + n) t = blockCommentEnd pos t + n
  | [], _ => rfl
  | c :: cs, pos => by
    have ih := blockCommentEnd_shift n cs (pos + 1)
    rw [blockCommentEnd.eq_def, blockCommentEnd.eq_def pos, Nat.add_right_comm pos n 1]
    split
    · rfl
    · exact Nat.add_right_comm pos n 2
    · rename_i same
      obtain ⟨rfl, rfl⟩ := List.cons.inj same
      exact ih

theorem commentEnd?_shift (n pos : Nat) (c : Char) (cs : Text) :
    commentEnd? (pos + n) c cs = (commentEnd? pos c cs).map (· + n) := by
  unfold commentEnd?
  split
  · split
    · rename_i rest
      rw [Nat.add_right_comm pos n 2, offsetOf?_shift]
      cases offsetOf? (· == '\n') (pos + 2) rest with
      | none => simp only [Option.map_none, Option.getD_none, Option.map_some, Nat.add_right_comm]
      | some stop => rfl
    · rw [Nat.add_right_comm, blockCommentEnd_shift, Option.map_some]
    · rfl
  · rfl

theorem opaqueEndBy_shift (n pos : Nat) (c : Char) (behind cs : Text) {literal literal' : Nat}
    {element element' : Except MarkupFault (Option Nat)} (hl : literal' = literal + n)
    (he : element' = shiftResult n (Option.map (· + n)) element) :
    opaqueEndBy (pos + n) c behind cs (fun _ => literal') (fun _ => element') =
      (opaqueEndBy pos c behind cs (fun _ => literal) fun _ => element).map (· + n) := by
  subst hl he
  unfold opaqueEndBy
  rw [commentEnd?_shift]
  split
  · rfl
  · split
    · rfl
    · split
      · cases element <;> rfl
      · rfl

theorem markBy_shift (n pos : Nat) (c : Char) (cs : Text) {brace brace' : Option Nat}
    {tag tag' : Text → Except MarkupFault TagEnd} (hb : brace' = brace.map (· + n))
    (ht : ∀ name, tag' name = shiftResult n (TagEnd.shift n) (tag name)) :
    markBy (pos + n) c cs (fun _ => brace') tag' =
      (markBy pos c cs (fun _ => brace) tag).map (shiftResult n (Token.shift n)) := by
  subst hb
  unfold markBy
  rw [ht]
  split
  · cases brace <;> rfl
  · split
    · split
      · split
        · simp only [Option.map_some, shiftResult, Token.shift]
          congr 3
          omega
        · rfl
      · cases tag (tagName cs) <;> rfl
    · rfl

theorem elementEndBy_shift (n : Nat) {tag tag' : Except MarkupFault TagEnd}
    {children children' : Nat → Except MarkupFault (Option Nat)}
    (ht : tag' = shiftResult n (TagEnd.shift n) tag)
    (hc : ∀ stop, children' (stop + n) = shiftResult n (Option.map (· + n)) (children stop)) :
    elementEndBy tag' children' =
      shiftResult n (Option.map (· + n)) (elementEndBy tag children) := by
  subst ht
  cases tag with
  | error fault => rfl
  | ok tag =>
    simp only [elementEndBy, shiftResult, TagEnd.shift, hc]
    split <;> rfl

/-! ## Scanners -/

mutual

theorem literalEnd_shift (n : Nat) (quote : Char) : ∀ (t : Text) {pos resume resume' : Nat},
    Aligned n pos resume resume' →
      literalEnd quote (pos + n) resume' t = literalEnd quote pos resume t + n
  | [], _, _, _, _ => rfl
  | c :: cs, pos, resume, resume', h => by
    have next : ∀ {resume resume'}, Aligned n (pos + 1) resume resume' →
        literalEnd quote (pos + n + 1) resume' cs = literalEnd quote (pos + 1) resume cs + n := by
      intro resume resume' h
      rw [Nat.add_right_comm]
      exact literalEnd_shift n quote cs h
    rw [literalEnd.eq_def, literalEnd.eq_def quote pos]
    simp only [h.lt_iff, next h.succ]
    split
    · rfl
    split
    · rw [Nat.add_right_comm pos n 2, next (Aligned.shift n _ _)]
    split
    · omega
    split
    · split
      · rename_i inner
        have inside : bracketEnd .curly 0 ['{'] (pos + 2 + n) 0 inner = _ :=
          bracketEnd_shift n .curly inner (Aligned.none n (pos + 2))
        rw [Nat.add_right_comm pos n 2, inside]
        cases bracketEnd .curly 0 ['{'] (pos + 2) 0 inner with
        | none => exact Nat.add_right_comm _ _ _
        | some stop => exact literalEnd_shift n quote inner (Aligned.shift n _ _)
      · exact next h.succ
    · rfl
termination_by t => t.length

theorem bracketEnd_shift (n : Nat) (kind : Bracket) :
    ∀ (t : Text) {depth : Nat} {behind : Text} {pos resume resume' : Nat},
    Aligned n pos resume resume' →
      bracketEnd kind depth behind (pos + n) resume' t =
        (bracketEnd kind depth behind pos resume t).map (· + n)
  | [], _, _, _, _, _, _ => rfl
  | c :: cs, depth, behind, pos, resume, resume', h => by
    have next : ∀ {depth resume resume'}, Aligned n (pos + 1) resume resume' →
        bracketEnd kind depth (c :: behind) (pos + n + 1) resume' cs =
          (bracketEnd kind depth (c :: behind) (pos + 1) resume cs).map (· + n) := by
      intro depth resume resume' h
      rw [Nat.add_right_comm]
      exact bracketEnd_shift n kind cs h
    have literal : literalEnd c (pos + n + 1) 0 cs = literalEnd c (pos + 1) 0 cs + n := by
      rw [Nat.add_right_comm]
      exact literalEnd_shift n c cs (Aligned.none n _)
    have tag : tagEnd (tagName cs) (pos + n) '<' (pos + n + 1)
        (pos + n + 1 + (tagName cs).length) cs =
        shiftResult n (TagEnd.shift n)
          (tagEnd (tagName cs) pos '<' (pos + 1) (pos + 1 + (tagName cs).length) cs) := by
      rw [Nat.add_right_comm pos n 1, Nat.add_right_comm (pos + 1) n]
      exact tagEnd_shift n (tagName cs) pos cs (Aligned.shift n _ _)
    have children : ∀ stop, childrenEnd (tagName cs) 0 (pos + n + 1) (stop + n) cs =
        shiftResult n (Option.map (· + n)) (childrenEnd (tagName cs) 0 (pos + 1) stop cs) := by
      intro stop
      rw [Nat.add_right_comm]
      exact childrenEnd_shift n (tagName cs) cs (Aligned.shift n _ _)
    rw [bracketEnd, bracketEnd,
      opaqueEndBy_shift n pos c behind cs literal (elementEndBy_shift n tag children)]
    simp only [h.lt_iff]
    split
    · exact next h.succ
    cases opaqueEndBy pos c behind cs _ _ with
    | some stop => exact next (Aligned.shift n _ _)
    | none =>
      simp only [Option.map_none, next h.succ]
      split
      · rfl
      split
      · split
        · rw [Option.map_some, Nat.add_right_comm]
        · rfl
      · rfl
termination_by t => t.length

theorem tagEnd_shift (n : Nat) (name : Text) (start : Nat) :
    ∀ (t : Text) {previous : Char} {pos resume resume' : Nat},
    Aligned n pos resume resume' →
      tagEnd name (start + n) previous (pos + n) resume' t =
        shiftResult n (TagEnd.shift n) (tagEnd name start previous pos resume t)
  | [], _, _, _, _, _ => rfl
  | c :: cs, previous, pos, resume, resume', h => by
    have next : ∀ {resume resume'}, Aligned n (pos + 1) resume resume' →
        tagEnd name (start + n) c (pos + n + 1) resume' cs =
          shiftResult n (TagEnd.shift n) (tagEnd name start c (pos + 1) resume cs) := by
      intro resume resume' h
      rw [Nat.add_right_comm]
      exact tagEnd_shift n name start cs h
    have literal : literalEnd c (pos + n + 1) 0 cs = literalEnd c (pos + 1) 0 cs + n := by
      rw [Nat.add_right_comm]
      exact literalEnd_shift n c cs (Aligned.none n _)
    have value : bracketEnd .curly 0 ['{'] (pos + n + 1) 0 cs =
        (bracketEnd .curly 0 ['{'] (pos + 1) 0 cs).map (· + n) := by
      rw [Nat.add_right_comm]
      exact bracketEnd_shift n .curly cs (Aligned.none n _)
    rw [tagEnd, tagEnd, literal, value]
    simp only [h.lt_iff, next h.succ]
    split
    · rfl
    split
    · exact next (Aligned.shift n _ _)
    split
    · cases bracketEnd .curly 0 ['{'] (pos + 1) 0 cs with
      | none => rfl
      | some stop => exact next (Aligned.shift n _ _)
    split
    · rw [Nat.add_right_comm]
      rfl
    · rfl
termination_by t => t.length

theorem childrenEnd_shift (n : Nat) (name : Text) : ∀ (t : Text) {depth pos resume resume' : Nat},
    Aligned n pos resume resume' →
      childrenEnd name depth (pos + n) resume' t =
        shiftResult n (Option.map (· + n)) (childrenEnd name depth pos resume t)
  | [], _, _, _, _, _ => rfl
  | c :: cs, depth, pos, resume, resume', h => by
    have next : ∀ {depth resume resume'}, Aligned n (pos + 1) resume resume' →
        childrenEnd name depth (pos + n + 1) resume' cs =
          shiftResult n (Option.map (· + n)) (childrenEnd name depth (pos + 1) resume cs) := by
      intro depth resume resume' h
      rw [Nat.add_right_comm]
      exact childrenEnd_shift n name cs h
    have brace : bracketEnd .curly 0 ['{'] (pos + n + 1) 0 cs =
        (bracketEnd .curly 0 ['{'] (pos + 1) 0 cs).map (· + n) := by
      rw [Nat.add_right_comm]
      exact bracketEnd_shift n .curly cs (Aligned.none n _)
    have tag : ∀ tag, tagEnd tag (pos + n) '<' (pos + n + 1) (pos + n + 1 + tag.length) cs =
        shiftResult n (TagEnd.shift n)
          (tagEnd tag pos '<' (pos + 1) (pos + 1 + tag.length) cs) := by
      intro tag
      rw [Nat.add_right_comm pos n 1, Nat.add_right_comm (pos + 1) n]
      exact tagEnd_shift n tag pos cs (Aligned.shift n _ _)
    rw [childrenEnd, childrenEnd, markBy_shift n pos c cs brace tag]
    simp only [h.lt_iff]
    split
    · exact next h.succ
    cases markBy pos c cs _ _ with
    | none => exact next h.succ
    | some mark =>
      cases mark with
      | error fault => rfl
      | ok token =>
        obtain ⟨kind, start, stop, tagName⟩ := token
        cases kind with
        | closing =>
          simp only [Option.map_some, shiftResult, Token.shift]
          split
          · split <;> rfl
          · exact next (Aligned.shift n _ _)
        | _ => exact next (Aligned.shift n _ _)
termination_by t => t.length

end

theorem markAt_shift (n pos : Nat) (c : Char) (cs : Text) :
    markAt (pos + n) c cs = (markAt pos c cs).map (shiftResult n (Token.shift n)) := by
  apply markBy_shift
  · rw [Nat.add_right_comm]
    exact bracketEnd_shift n .curly cs (Aligned.none n _)
  · intro tag
    rw [Nat.add_right_comm pos n 1, Nat.add_right_comm (pos + 1) n]
    exact tagEnd_shift n tag pos cs (Aligned.shift n _ _)

theorem elementEnd_shift (n pos : Nat) (c : Char) (cs : Text) :
    elementEnd (pos + n) c cs = shiftResult n (Option.map (· + n)) (elementEnd pos c cs) := by
  rw [elementEnd, elementEnd, markAt_shift]
  cases markAt pos c cs with
  | none => rfl
  | some mark =>
    cases mark with
    | error fault => rfl
    | ok token =>
      obtain ⟨kind, start, stop, name⟩ := token
      cases kind with
      | opening =>
        simp only [Option.map_some, shiftResult, Token.shift]
        rw [Nat.add_right_comm]
        exact childrenEnd_shift n name cs (Aligned.shift n _ _)
      | _ => rfl

theorem textToken_shift (n start stop : Nat) :
    textToken (start + n) (stop + n) = (textToken start stop).map (Token.shift n) := by
  unfold textToken
  simp only [Nat.add_lt_add_iff_right]
  split <;> rfl

/-- The tokens of a text that stands `n` further are its tokens, `n` further. -/
theorem tokensFrom_shift (n : Nat) :
    ∀ (t : Text) {textStart pos resume resume' : Nat}, Aligned n pos resume resume' →
    tokensFrom (textStart + n) (pos + n) resume' t =
      shiftResult n (List.map (Token.shift n)) (tokensFrom textStart pos resume t)
  | [], textStart, pos, _, _, _ => congrArg Except.ok (textToken_shift n textStart pos)
  | c :: cs, textStart, pos, resume, resume', h => by
    have next : ∀ textStart {resume resume'}, Aligned n (pos + 1) resume resume' →
        tokensFrom (textStart + n) (pos + n + 1) resume' cs =
          shiftResult n (List.map (Token.shift n)) (tokensFrom textStart (pos + 1) resume cs) := by
      intro textStart resume resume' h
      rw [Nat.add_right_comm]
      exact tokensFrom_shift n cs h
    rw [tokensFrom, tokensFrom, markAt_shift]
    simp only [h.lt_iff, next textStart h.succ]
    split
    · rfl
    rcases markAt pos c cs with _ | _ | token
    · rfl
    · rfl
    · have behind := next token.stop (Aligned.shift n (pos + 1) token.stop)
      simp only [Option.map_some, shiftResult, Token.shift] at behind ⊢
      rw [behind, textToken_shift]
      cases tokensFrom token.stop (pos + 1) token.stop cs with
      | error fault => rfl
      | ok rest => exact congrArg Except.ok (by rw [List.map_append]; rfl)

/-! ## A text behind another one -/

theorem drop_append_shift (front t : Text) (pos : Nat) :
    (front ++ t).drop (pos + front.length) = t.drop pos := by
  rw [Nat.add_comm, List.drop_length_add_append]

theorem slice_append_shift (front t : Text) (start stop : Nat) :
    slice (front ++ t) (start + front.length) (stop + front.length) = slice t start stop := by
  rw [slice, slice, Nat.add_comm stop, List.take_length_add_append, drop_append_shift]

theorem bracketEndAt?_append (front t : Text) (pos : Nat) :
    bracketEndAt? (front ++ t) (pos + front.length) =
      (bracketEndAt? t pos).map (· + front.length) := by
  rw [bracketEndAt?, bracketEndAt?, drop_append_shift]
  cases t.drop pos with
  | nil => rfl
  | cons c cs =>
    dsimp only
    cases Bracket.ofOpener? c with
    | none => rfl
    | some kind =>
      rw [Option.bind_some, Option.bind_some, Nat.add_right_comm]
      exact bracketEnd_shift front.length kind cs (Aligned.none _ _)

theorem literalEndAt_append (front t : Text) (pos : Nat) :
    literalEndAt (front ++ t) (pos + front.length) = literalEndAt t pos + front.length := by
  rw [literalEndAt, literalEndAt, drop_append_shift]
  cases t.drop pos with
  | nil => exact (List.length_append).trans (Nat.add_comm _ _)
  | cons quote cs =>
    dsimp only
    rw [Nat.add_right_comm]
    exact literalEnd_shift front.length quote cs (Aligned.none _ _)

theorem tokens_append (front t : Text) (start : Nat) :
    tokens (front ++ t) (start + front.length) =
      shiftResult front.length (List.map (Token.shift front.length)) (tokens t start) := by
  rw [tokens, tokens, drop_append_shift]
  exact tokensFrom_shift front.length (t.drop start) (Aligned.none _ _)

theorem elementEndAt_append (front t : Text) (pos : Nat) :
    elementEndAt (front ++ t) (pos + front.length) =
      shiftResult front.length (Option.map (· + front.length)) (elementEndAt t pos) := by
  rw [elementEndAt, elementEndAt, drop_append_shift]
  cases t.drop pos with
  | nil => rfl
  | cons c cs => exact elementEnd_shift front.length pos c cs

end Recast
