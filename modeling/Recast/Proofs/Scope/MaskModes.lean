import Recast.Proofs.Scope.Code

/-!
# Masking without offsets

Masking asks where a literal or comment ends and hides the characters up to that offset. A text
without template literals can be masked character by character instead: `maskIn` keeps only in which
kind of text the next character stands (`MaskMode`) and looks one character ahead. The two agree
(`mask_eq_maskIn`), and `maskIn` does not depend on offsets, so it can be followed through a text in
which words are replaced.
-/

namespace Recast

/-! ## Modes -/

/-- The kind of text that a character stands in. -/
inductive MaskMode where
  | code
  /-- A string literal, after its opening quote. -/
  | string (quote : Char) (valid : quote = '"' ∨ quote = '\'')
  /-- A string literal, after a backslash. -/
  | escaped (quote : Char) (valid : quote = '"' ∨ quote = '\'')
  /-- A comment to the end of the line. -/
  | line
  /-- The star that opens a block comment. -/
  | opening
  | block
  /-- The slash that closes a block comment. -/
  | closing

/-- The mode after a character; `ahead` is the next one. -/
def MaskMode.next (c : Char) (ahead : Option Char) : MaskMode → MaskMode
  | .code =>
    if h : c = '"' ∨ c = '\'' then .string c h
    else if c = '/' ∧ ahead = some '/' then .line
    else if c = '/' ∧ ahead = some '*' then .opening
    else .code
  | .string quote valid =>
    if c = '\\' then .escaped quote valid
    else if c = quote then .code
    else .string quote valid
  | .escaped quote valid => .string quote valid
  | .line => if c = '\n' then .code else .line
  | .opening => .block
  | .block => if c = '*' ∧ ahead = some '/' then .closing else .block
  | .closing => .code

/-- What a character is shown as. A quote that ends the text is shown also after a backslash. -/
def MaskMode.shows (c : Char) (ahead : Option Char) : MaskMode → Char
  | .code => if c = '/' ∧ (ahead = some '/' ∨ ahead = some '*') then hide c else c
  | .string quote _ => if c = quote then c else hide c
  | .escaped quote _ => if c = quote ∧ ahead = none then c else hide c
  | .line | .opening | .block | .closing => hide c

/-- The text masked character by character. -/
def maskIn (mode : MaskMode) : Text → Text
  | [] => []
  | c :: cs => mode.shows c cs.head? :: maskIn (mode.next c cs.head?) cs

/-! ## Ends -/

variable {quote : Char} {stop : Nat}

/-- A literal ends behind what is passed over, inside the text. -/
theorem literalEnd_bounds (quote : Char) : ∀ (t : Text) (pos resume : Nat),
    pos ≤ literalEnd quote pos resume t ∧ literalEnd quote pos resume t ≤ pos + t.length
  | [], pos, resume => ⟨Nat.le_refl _, Nat.le_refl _⟩
  | c :: cs, pos, resume => by
    have tail := fun resume => literalEnd_bounds quote cs (pos + 1) resume
    rw [List.length_cons, Nat.add_comm cs.length, ← Nat.add_assoc, literalEnd.eq_def]
    dsimp only
    split
    · exact ⟨by have := tail resume; omega, (tail resume).2⟩
    · split
      · exact ⟨by have := tail (pos + 2); omega, (tail (pos + 2)).2⟩
      · split
        · exact ⟨by omega, by omega⟩
        · split
          · split
            · rename_i inner
              split
              · rename_i stop _
                have := literalEnd_bounds quote inner (pos + 2) stop
                rw [List.length_cons]
                omega
              · rw [List.length_cons]
                omega
            · have := tail resume
              omega
          · have := tail resume
            omega

theorem lt_literalEnd (quote c : Char) (cs : Text) (pos : Nat) :
    pos < literalEnd quote pos 0 (c :: cs) := by
  have tail := fun resume => (literalEnd_bounds quote cs (pos + 1) resume).1
  rw [literalEnd.eq_def]
  simp only [Nat.not_lt_zero, if_false]
  split
  · exact tail _
  · split
    · exact Nat.lt_succ_self pos
    · split
      · split
        · rename_i inner
          split
          · have := (literalEnd_bounds quote inner (pos + 2) ‹_›).1
            omega
          · omega
        · exact tail 0
      · exact tail 0

theorem le_blockCommentEnd (t : Text) (pos : Nat) :
    pos ≤ blockCommentEnd pos t ∧ blockCommentEnd pos t ≤ pos + t.length := by
  fun_induction blockCommentEnd pos t with
  | case1 => simp
  | case2 => simp
  | case3 pos c cs h ih =>
    rw [List.length_cons]
    omega

theorem le_lineEnd : ∀ (t : Text) (pos : Nat),
    pos ≤ (offsetOf? (· == '\n') pos t).getD (pos + t.length) ∧
      (offsetOf? (· == '\n') pos t).getD (pos + t.length) ≤ pos + t.length
  | [], _ => ⟨Nat.le_refl _, Nat.le_refl _⟩
  | c :: cs, pos => by
    have ih := le_lineEnd cs (pos + 1)
    rw [offsetOf?, List.length_cons, Nat.add_comm cs.length, ← Nat.add_assoc]
    split
    · rw [Option.getD_some]
      omega
    · omega

/-! ## One character -/

theorem maskFrom_hidden (region : Region) (outer : List Region) {pos hidden : Nat}
    (h : pos < hidden) (shown : Nat) (c : Char) (cs : Text) :
    maskFrom region outer pos hidden shown (c :: cs) =
      hide c :: maskFrom region outer (pos + 1) hidden shown cs := by
  rw [maskFrom.eq_def]
  simp only [if_pos h]

theorem maskFrom_shown (region : Region) (outer : List Region) {pos hidden shown : Nat}
    (h : hidden ≤ pos) (hs : pos < shown) (c : Char) (cs : Text) :
    maskFrom region outer pos hidden shown (c :: cs) =
      c :: maskFrom region outer (pos + 1) hidden shown cs := by
  rw [maskFrom.eq_def]
  simp only [if_neg (Nat.not_lt.2 h), if_pos hs]

theorem hiddenEnd_cons {pos close : Nat} (h : pos + 1 < close) (c : Char) (cs : Text) :
    hiddenEnd quote pos close (c :: cs) = hiddenEnd quote (pos + 1) close cs := by
  have index : close - 1 - pos = close - 1 - (pos + 1) + 1 := by omega
  rw [hiddenEnd, hiddenEnd, index, List.getElem?_cons_succ, decide_eq_true h,
    decide_eq_true (show pos < close by omega)]

theorem hiddenEnd_last (pos : Nat) (c : Char) (cs : Text) :
    hiddenEnd quote pos (pos + 1) (c :: cs) = if c = quote then pos else pos + 1 := by
  have index : pos + 1 - 1 - pos = 0 := by omega
  rw [hiddenEnd, index, List.getElem?_cons_zero]
  simp

theorem le_hiddenEnd (pos close : Nat) (t : Text) : close ≤ hiddenEnd quote pos close t + 1 := by
  rw [hiddenEnd]
  split
  · omega
  · omega

/-! ## Literals and comments -/

/-- Code of at most `n` characters is masked as `maskIn` says. -/
def MasksCode (stop n : Nat) : Prop :=
  ∀ (t : Text) (pos : Nat), t.length ≤ n → stop = pos + t.length → '`' ∉ t →
    maskFrom (.code stop) [] pos 0 0 t = maskIn .code t

theorem maskFrom_inString (valid : quote = '"' ∨ quote = '\'') {n : Nat} (code : MasksCode stop n) :
    ∀ (m : Nat) (t : Text) (pos : Nat), t.length ≤ m → t.length ≤ n → stop = pos + t.length →
      '`' ∉ t →
      maskFrom (.code stop) [] pos (hiddenEnd quote pos (literalEnd quote pos 0 t) t)
        (literalEnd quote pos 0 t) t =
        maskIn (.string quote valid) t
  | _, [], _, _, _, _, _ => rfl
  | m + 1, c :: cs, pos, hm, hn, hs, ht => by
    have hb : quote ≠ '\\' := by rcases valid with rfl | rfl <;> decide
    have hq' : quote ≠ '`' := by rcases valid with rfl | rfl <;> decide
    have htail : '`' ∉ cs := fun h => ht (List.mem_cons_of_mem c h)
    rw [List.length_cons] at hm hn hs
    by_cases hc : c = '\\'
    · subst hc
      cases cs with
      | nil =>
        have close : literalEnd quote pos 0 ['\\'] = pos + 1 := by
          rw [literalEnd.eq_def]
          simp [literalEnd]
        rw [close, hiddenEnd_last, if_neg hb.symm, maskFrom_hidden _ _ (by omega), maskIn,
          MaskMode.shows, if_neg hb.symm]
        rfl
      | cons d ds =>
        have bounds := literalEnd_bounds quote ds (pos + 2) 0
        rw [literalEnd_escape]
        cases ds with
        | nil =>
          have close : literalEnd quote (pos + 2) 0 [] = pos + 1 + 1 := rfl
          rw [close, hiddenEnd_cons (by omega), hiddenEnd_last, maskIn, MaskMode.shows,
            if_neg hb.symm, MaskMode.next, if_pos rfl, maskIn, MaskMode.shows]
          by_cases hq : d = quote
          · rw [if_pos hq, maskFrom_hidden _ _ (by omega), maskFrom_shown _ _ (by omega) (by omega),
              if_pos ⟨hq, rfl⟩]
            rfl
          · rw [if_neg hq, maskFrom_hidden _ _ (by omega), maskFrom_hidden _ _ (by omega),
              if_neg fun h => hq h.1]
            rfl
        | cons e es =>
          have later := lt_literalEnd quote e es (pos + 2)
          have ends := @le_hiddenEnd quote (pos + 1 + 1) (literalEnd quote (pos + 2) 0 (e :: es))
            (e :: es)
          have ih := maskFrom_inString valid code m (e :: es) (pos + 2) (by simp at hm ⊢; omega)
            (by simp at hn ⊢; omega)
            (by simp at hs ⊢; omega) fun h => htail (List.mem_cons_of_mem d h)
          rw [hiddenEnd_cons (by omega), hiddenEnd_cons (by omega), maskFrom_hidden _ _ (by omega),
            maskFrom_hidden _ _ (by omega), maskIn, MaskMode.shows, if_neg hb.symm, MaskMode.next,
            if_pos rfl, maskIn, MaskMode.shows, if_neg (by simp), MaskMode.next]
          rw [← ih]
    · by_cases hq : c = quote
      · subst hq
        rw [literalEnd_close hb, hiddenEnd_last, if_pos rfl,
          maskFrom_shown _ _ (by omega) (by omega), maskFrom_of_le _ _ (by omega) (by omega),
          code cs (pos + 1) (by omega) (by omega) htail, maskIn, MaskMode.shows, if_pos rfl,
          MaskMode.next, if_neg hc, if_pos rfl]
      · have bounds := literalEnd_bounds quote cs (pos + 1) 0
        rw [literalEnd_ordinary hc hq (.inl hq'), maskIn, MaskMode.shows, if_neg hq, MaskMode.next,
          if_neg hc, if_neg hq]
        cases cs with
        | nil =>
          have close : literalEnd quote (pos + 1) 0 [] = pos + 1 := rfl
          rw [close, hiddenEnd_last, if_neg hq, maskFrom_hidden _ _ (by omega)]
          rfl
        | cons d ds =>
          have later := lt_literalEnd quote d ds (pos + 1)
          have ends := @le_hiddenEnd quote (pos + 1) (literalEnd quote (pos + 1) 0 (d :: ds))
            (d :: ds)
          have ih := maskFrom_inString valid code m (d :: ds) (pos + 1) (by omega) (by omega)
            (by omega) htail
          rw [hiddenEnd_cons (by omega), maskFrom_hidden _ _ (by omega), ih]

theorem maskFrom_inLine {n : Nat} (code : MasksCode stop n) :
    ∀ (t : Text) (pos : Nat), t.length ≤ n → stop = pos + t.length → '`' ∉ t →
      maskFrom (.code stop) [] pos ((offsetOf? (· == '\n') pos t).getD (pos + t.length)) 0 t =
        maskIn .line t
  | [], _, _, _, _ => rfl
  | c :: cs, pos, hn, hs, ht => by
    have htail : '`' ∉ cs := fun h => ht (List.mem_cons_of_mem c h)
    rw [offsetOf?, maskIn, MaskMode.shows, MaskMode.next]
    by_cases hc : c = '\n'
    · subst hc
      rw [if_pos (beq_self_eq_true _), if_pos rfl, Option.getD_some,
        maskFrom_of_le _ _ (Nat.le_refl _) (Nat.zero_le _), code _ pos hn hs ht]
      rfl
    · rw [List.length_cons] at hn hs ⊢
      have bounds := le_lineEnd cs (pos + 1)
      have ih := maskFrom_inLine code cs (pos + 1) (by omega) (by omega) htail
      rw [if_neg (by simpa using hc), if_neg hc, Nat.add_comm cs.length, ← Nat.add_assoc,
        maskFrom_hidden _ _ (by omega), ih]

theorem maskFrom_inBlock {n : Nat} (code : MasksCode stop n) (t : Text) (pos : Nat)
    (hn : t.length ≤ n) (hs : stop = pos + t.length) (ht : '`' ∉ t) :
    maskFrom (.code stop) [] pos (blockCommentEnd pos t) 0 t = maskIn .block t := by
  fun_induction blockCommentEnd pos t with
  | case1 => rfl
  | case2 pos rest =>
    simp only [List.length_cons, List.mem_cons, not_or] at hn hs ht
    rw [maskFrom_hidden _ _ (by omega), maskFrom_hidden _ _ (by omega),
      maskFrom_of_le _ _ (by omega) (by omega),
      code rest (pos + 1 + 1) (by omega) (by omega) ht.2.2]
    rfl
  | case3 pos c cs h ih =>
    have bounds := le_blockCommentEnd cs (pos + 1)
    have inside : ¬(c = '*' ∧ cs.head? = some '/') := by
      rintro ⟨rfl, hd⟩
      obtain ⟨rest, rfl⟩ := List.head?_eq_some_iff.1 hd
      exact h rest rfl rfl
    simp only [List.length_cons, List.mem_cons, not_or] at hn hs ht
    rw [maskFrom_hidden _ _ (by omega), ih (by omega) (by omega) ht.2, maskIn, MaskMode.shows,
      MaskMode.next, if_neg inside]

/-! ## Code -/

theorem masksCode (stop : Nat) : ∀ n, MasksCode stop n
  | 0, [], _, _, _, _ => rfl
  | n + 1, [], _, _, _, _ => rfl
  | n + 1, c :: cs, pos, hn, hs, ht => by
    have code := masksCode stop n
    simp only [List.length_cons, List.mem_cons, not_or] at hn hs ht
    have tick : c ≠ '`' := fun h => ht.1 h.symm
    rw [maskFrom.eq_def]
    simp only [Nat.not_lt_zero, if_false, Nat.not_le.2 (show pos < stop by omega), tick]
    by_cases hq : c = '"' ∨ c = '\''
    · have bounds := literalEnd_bounds c cs (pos + 1) 0
      have inString :=
        maskFrom_inString hq code n cs (pos + 1) (by omega) (by omega) (by omega) ht.2
      have slash : c ≠ '/' := by rcases hq with rfl | rfl <;> decide
      rw [if_pos (by simpa using hq), Nat.min_eq_left (by omega), inString, maskIn, MaskMode.shows,
        if_neg fun h => slash h.1, MaskMode.next, dif_pos hq]
    · rw [if_neg (by simpa using hq)]
      by_cases line : c = '/' ∧ cs.head? = some '/'
      · obtain ⟨rfl, hd⟩ := line
        obtain ⟨rest, rfl⟩ := List.head?_eq_some_iff.1 hd
        have bounds := le_lineEnd ('/' :: rest) (pos + 1)
        have inLine := maskFrom_inLine code ('/' :: rest) (pos + 1) (by omega) (by omega) ht.2
        have close : commentEnd? pos '/' ('/' :: rest) =
            some ((offsetOf? (· == '\n') (pos + 1) ('/' :: rest)).getD
              (pos + 1 + ('/' :: rest).length)) := by
          rw [List.length_cons, Nat.add_comm rest.length, ← Nat.add_assoc]
          rfl
        simp only [close]
        rw [Nat.min_eq_left (by omega), inLine]
        rfl
      · by_cases block : c = '/' ∧ cs.head? = some '*'
        · obtain ⟨rfl, hd⟩ := block
          obtain ⟨rest, rfl⟩ := List.head?_eq_some_iff.1 hd
          rw [List.length_cons] at hn hs
          have bounds := le_blockCommentEnd rest (pos + 2)
          have inBlock := maskFrom_inBlock code rest (pos + 2) (by omega) (by omega) fun h =>
            ht.2 (List.mem_cons_of_mem _ h)
          have close : commentEnd? pos '/' ('*' :: rest) = some (blockCommentEnd (pos + 2) rest) :=
            rfl
          simp only [close]
          rw [Nat.min_eq_left (by omega), maskFrom_hidden _ _ (by omega), inBlock]
          rfl
        · have none : commentEnd? pos c cs = none := by
            rw [commentEnd?.eq_def]
            split
            · rename_i hc
              split
              · exact absurd ⟨hc, rfl⟩ line
              · exact absurd ⟨hc, rfl⟩ block
              · rfl
            · rfl
          simp only [none]
          rw [code cs (pos + 1) (by omega) (by omega) ht.2, maskIn, MaskMode.shows, MaskMode.next,
            dif_neg hq, if_neg line, if_neg block, if_neg]
          rintro ⟨hc, hd | hd⟩
          · exact line ⟨hc, hd⟩
          · exact block ⟨hc, hd⟩

/-- A text without template literals is masked character by character. -/
theorem mask_eq_maskIn {t : Text} (h : '`' ∉ t) : mask t = maskIn .code t :=
  masksCode t.length t.length t 0 (Nat.le_refl _) (Nat.zero_add _).symm h

end Recast
