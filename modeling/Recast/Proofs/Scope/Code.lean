import Recast.Proofs.Scan.Passage
import Recast.Proofs.Scope.Masked
import Recast.Proofs.Text.Part
import Recast.Scope.Qualify

/-!
# Bracketed code

Code whose brackets close one another is a sequence of single characters, strings, template literals
and groups in brackets, and the substitutions of a template hold code again: `Code` with its
template parts `TemplateParts`. Its text is `Code.print`, and masking shows of it just `Code.shown`
(`mask_print`): strings and the text of templates are hidden, and a substitution reads as a group in
round brackets.

What is shown is `Balanced`, and the scanners that count brackets pass over it as a whole.
-/

namespace Recast

/-! ## Code -/

/-- Whether a text can stand in a literal of a quote: no quote ends it, no escape is left open, and
no substitution opens in a template. -/
def isContent (quote : Char) : Text → Bool
  | [] => true
  | c :: cs =>
    if c = '\\' then
      match cs with
      | _ :: rest => isContent quote rest
      | [] => false
    else c != quote && !(quote == '`' && c == '$' && cs.head? == some '{') && isContent quote cs

/-- The content of a literal. -/
structure LiteralText (quote : Char) where
  text : Text
  valid : isContent quote text

/-- A character of code that opens no literal, comment, element or bracket, and closes no
bracket. -/
def isPlainMark (c : Char) : Bool :=
  isPlainCode c && !isOpener c && !isCloser c

mutual

/-- Code whose brackets close one another. -/
inductive Code where
  | done
  | mark (c : Char) (valid : isPlainMark c) (rest : Code)
  | string (content : LiteralText '"') (rest : Code)
  | template (parts : TemplateParts) (rest : Code)
  | group (kind : Bracket) (inner rest : Code)

/-- The static text and the substitutions of a template literal. -/
inductive TemplateParts where
  | last (content : LiteralText '`')
  | substitution (content : LiteralText '`') (inner : Code) (rest : TemplateParts)

end

mutual

/-- The code as text. -/
def Code.print : Code → Text
  | .done => []
  | .mark c _ rest => c :: rest.print
  | .string content rest => '"' :: (content.text ++ '"' :: rest.print)
  | .template parts rest => '`' :: (parts.print ++ '`' :: rest.print)
  | .group kind inner rest => kind.opener :: (inner.print ++ kind.closer :: rest.print)

/-- The parts of a template as text. -/
def TemplateParts.print : TemplateParts → Text
  | .last content => content.text
  | .substitution content inner rest =>
    content.text ++ '$' :: '{' :: (inner.print ++ '}' :: rest.print)

end

mutual

/-- What masking shows of code. -/
def Code.shown : Code → Text
  | .done => []
  | .mark c _ rest => c :: rest.shown
  | .string content rest => '"' :: (content.text.map hide ++ '"' :: rest.shown)
  | .template parts rest => '`' :: (parts.shown ++ '`' :: rest.shown)
  | .group kind inner rest => kind.opener :: (inner.shown ++ kind.closer :: rest.shown)

/-- What masking shows of the parts of a template. -/
def TemplateParts.shown : TemplateParts → Text
  | .last content => content.text.map hide
  | .substitution content inner rest =>
    content.text.map hide ++ ' ' :: '(' :: (inner.shown ++ ')' :: rest.shown)

end

/-! ## Literals -/

/-- The content of a literal is passed over. -/
theorem literalEnd_content {quote : Char} {rest : Text} (hr : rest.head? ≠ some '{') (t : Text)
    (pos : Nat)
    (h : isContent quote t) :
    literalEnd quote pos 0 (t ++ rest) = literalEnd quote (pos + t.length) 0 rest := by
  fun_induction isContent quote t generalizing pos with
  | case1 => rfl
  | case2 d ds ih =>
    have skip := literalEnd_skip quote (ds ++ rest) [d] (pos + 1)
    rw [List.length_singleton, Nat.add_assoc, List.singleton_append] at skip
    rw [List.cons_append, List.cons_append, literalEnd.eq_def]
    simp only [Nat.not_lt_zero, if_false, if_true, skip, ih _ h, List.length_cons]
    rw [Nat.add_assoc, Nat.add_comm 2]
  | case3 => simp at h
  | case4 c cs hc ih =>
    simp only [Bool.and_eq_true, bne_iff_ne, Bool.not_eq_true'] at h
    rw [List.cons_append, List.length_cons, Nat.add_comm cs.length, ← Nat.add_assoc, ← ih _ h.2]
    by_cases hd : quote = '`' ∧ c = '$'
    · obtain ⟨rfl, rfl⟩ := hd
      have next : (cs ++ rest).head? ≠ some '{' := by
        cases cs with
        | nil => exact hr
        | cons d ds => simpa using h.1.2
      rw [literalEnd.eq_def]
      simp only [Nat.not_lt_zero, if_false, hc, h.1.1, decide_true, Bool.and_self, if_true]
      split
      · simp_all
      · rfl
    · exact literalEnd_ordinary hc h.1.1 (Classical.not_and_iff_not_or_not.1 hd) pos _

/-- A string ends right after its content. -/
theorem literalEnd_string (content : LiteralText '"') (rest : Text) (pos : Nat) :
    literalEnd '"' pos 0 (content.text ++ '"' :: rest) = pos + content.text.length + 1 := by
  rw [literalEnd_content (by simp) content.text pos content.valid, literalEnd_close (by decide)]

/-! ## Scanning code -/

theorem isPlainCode_opener (kind : Bracket) : isPlainCode kind.opener := by cases kind <;> decide

theorem isPlainCode_closer (kind : Bracket) : isPlainCode kind.closer := by cases kind <;> decide

theorem bracketEnd_plainChar {c : Char} (h : isPlainCode c) (kind : Bracket) (depth : Nat)
    (behind : Text) (pos : Nat) (cs : Text) :
    bracketEnd kind depth behind pos 0 (c :: cs) =
      if c = kind.opener then bracketEnd kind (depth + 1) (c :: behind) (pos + 1) 0 cs
      else if c = kind.closer then
        if depth = 0 then some (pos + 1)
        else bracketEnd kind (depth - 1) (c :: behind) (pos + 1) 0 cs
      else bracketEnd kind depth (c :: behind) (pos + 1) 0 cs := by
  rw [bracketEnd, if_neg (Nat.not_lt_zero _), opaqueEndBy_plain h]

/-- A bracket that is looked for goes on behind a literal. -/
theorem bracketEnd_literal {quote : Char} (hq : isQuote quote) (kind : Bracket) (depth : Nat)
    (behind : Text) (pos : Nat)
    {t rest : Text}
    (h : literalEnd quote (pos + 1) 0 (t ++ quote :: rest) = pos + 1 + t.length + 1) :
    bracketEnd kind depth behind pos 0 (quote :: (t ++ quote :: rest)) =
      bracketEnd kind depth (quote :: (t.reverse ++ quote :: behind)) (pos + 1 + t.length + 1) 0
        rest := by
  have skip := bracketEnd_skip kind depth rest (t ++ [quote]) (quote :: behind) (pos + 1)
  simp only [List.append_assoc, List.length_append, List.length_singleton, List.reverse_append,
    List.reverse_singleton, List.cons_append, List.nil_append, ← Nat.add_assoc] at skip
  rw [bracketEnd, if_neg (Nat.not_lt_zero _), opaqueEndBy, if_pos hq]
  dsimp only
  rw [h, skip]

theorem isPlainMark_iff {c : Char} :
    isPlainMark c ↔ isPlainCode c ∧ isOpener c = false ∧ isCloser c = false := by
  simp [isPlainMark, and_assoc]

theorem ne_opener_of_isPlainMark {c : Char} (h : isPlainMark c) (kind : Bracket) :
    c ≠ kind.opener := by
  rintro rfl
  cases kind <;> exact Bool.noConfusion h

theorem ne_closer_of_isPlainMark {c : Char} (h : isPlainMark c) (kind : Bracket) :
    c ≠ kind.closer := by
  rintro rfl
  cases kind <;> exact Bool.noConfusion h

theorem closer_ne_opener (kind other : Bracket) : kind.closer ≠ other.opener := by
  cases kind <;> cases other <;> decide

theorem opener_ne_closer (kind other : Bracket) : kind.opener ≠ other.closer :=
  fun h => closer_ne_opener other kind h.symm

theorem opener_inj {kind other : Bracket} : kind.opener = other.opener ↔ kind = other := by
  cases kind <;> cases other <;> decide

theorem closer_inj {kind other : Bracket} : kind.closer = other.closer ↔ kind = other := by
  cases kind <;> cases other <;> decide

/-- A bracket ends at the closing one. -/
theorem bracketEnd_closer (kind : Bracket) (behind : Text) (pos : Nat) (rest : Text) :
    bracketEnd kind 0 behind pos 0 (kind.closer :: rest) = some (pos + 1) := by
  rw [bracketEnd_plainChar (isPlainCode_closer kind), if_neg (closer_ne_opener kind kind),
    if_pos rfl, if_pos rfl]

/-- The depth inside a group: it counts only if the group is of the kind that is looked for. -/
def depthInside (kind other : Bracket) (depth : Nat) : Nat :=
  if other = kind then depth + 1 else depth

theorem bracketEnd_open (kind other : Bracket) (depth : Nat) (behind : Text) (pos : Nat)
    (cs : Text) :
    bracketEnd kind depth behind pos 0 (other.opener :: cs) =
      bracketEnd kind (depthInside kind other depth) (other.opener :: behind) (pos + 1) 0 cs := by
  rw [bracketEnd_plainChar (isPlainCode_opener other), depthInside]
  by_cases h : other = kind
  · rw [if_pos (opener_inj.2 h), if_pos h]
  · rw [if_neg (fun he => h (opener_inj.1 he)), if_neg (opener_ne_closer _ _), if_neg h]

theorem bracketEnd_close (kind other : Bracket) (depth : Nat) (behind : Text) (pos : Nat)
    (cs : Text) :
    bracketEnd kind (depthInside kind other depth) behind pos 0 (other.closer :: cs) =
      bracketEnd kind depth (other.closer :: behind) (pos + 1) 0 cs := by
  rw [bracketEnd_plainChar (isPlainCode_closer other), if_neg (closer_ne_opener _ _), depthInside]
  by_cases h : other = kind
  · rw [if_pos (closer_inj.2 h), if_pos h, if_neg (Nat.succ_ne_zero _), Nat.add_sub_cancel]
  · rw [if_neg (fun he => h (closer_inj.1 he)), if_neg h]

mutual

/-- A bracket that is looked for in code goes on behind it. -/
theorem bracketEnd_code (kind : Bracket) (rest : Text) :
    ∀ (code : Code) (depth : Nat) (behind : Text) (pos : Nat),
      bracketEnd kind depth behind pos 0 (code.print ++ rest) =
        bracketEnd kind depth (code.print.reverse ++ behind) (pos + code.print.length) 0 rest
  | .done, _, _, _ => rfl
  | .mark c valid more, depth, behind, pos => by
    have ih := bracketEnd_code kind rest more depth (c :: behind) (pos + 1)
    rw [Code.print, List.cons_append, bracketEnd_plainChar (isPlainMark_iff.1 valid).1,
      if_neg (ne_opener_of_isPlainMark valid kind), if_neg (ne_closer_of_isPlainMark valid kind),
      ih]
    simp [Nat.add_assoc, Nat.add_comm 1]
  | .string content more, depth, behind, pos => by
    have ih := bracketEnd_code kind rest more depth ('"' :: (content.text.reverse ++ '"' :: behind))
      (pos + 1 + content.text.length + 1)
    rw [Code.print, List.cons_append, List.append_assoc, List.cons_append,
      bracketEnd_literal (by decide) kind depth behind pos (literalEnd_string content _ _), ih]
    simp only [List.reverse_cons, List.reverse_append, List.append_assoc, List.length_cons,
      List.length_append, List.singleton_append]
    congr 1
    omega
  | .template parts more, depth, behind, pos => by
    have ih := bracketEnd_code kind rest more depth ('`' :: (parts.print.reverse ++ '`' :: behind))
      (pos + 1 + parts.print.length + 1)
    rw [Code.print, List.cons_append, List.append_assoc, List.cons_append,
      bracketEnd_literal (by decide) kind depth behind pos (literalEnd_parts _ parts _), ih]
    simp only [List.reverse_cons, List.reverse_append, List.append_assoc, List.length_cons,
      List.length_append, List.singleton_append]
    congr 1
    omega
  | .group other inner more, depth, behind, pos => by
    have ihInner := bracketEnd_code kind (other.closer :: (more.print ++ rest)) inner
      (depthInside kind other depth)
      (other.opener :: behind) (pos + 1)
    have ih := bracketEnd_code kind rest more depth
      (other.closer :: (inner.print.reverse ++ other.opener :: behind))
        (pos + 1 + inner.print.length + 1)
    rw [Code.print, List.cons_append, List.append_assoc, List.cons_append, bracketEnd_open, ihInner,
      bracketEnd_close, ih]
    simp only [List.reverse_cons, List.reverse_append, List.append_assoc, List.length_cons,
      List.length_append, List.singleton_append]
    congr 1
    omega

/-- A template literal ends right after its parts. -/
theorem literalEnd_parts (rest : Text) :
    ∀ (parts : TemplateParts) (pos : Nat),
      literalEnd '`' pos 0 (parts.print ++ '`' :: rest) = pos + parts.print.length + 1
  | .last content, pos => by
    rw [TemplateParts.print, literalEnd_content (by simp) content.text pos content.valid,
      literalEnd_close (by decide)]
  | .substitution content inner more, pos => by
    have ih := literalEnd_parts rest more (pos + content.text.length + 2 + inner.print.length + 1)
    have stop := (bracketEnd_code .curly ('}' :: (more.print ++ '`' :: rest)) inner 0 ['{']
      (pos + content.text.length + 2)).trans (bracketEnd_closer .curly _ _ _)
    have skip := literalEnd_skip '`' (more.print ++ '`' :: rest) (inner.print ++ ['}'])
      (pos + content.text.length + 2)
    simp only [List.append_assoc, List.singleton_append, List.length_append, List.length_singleton,
      ← Nat.add_assoc] at skip
    simp only [TemplateParts.print, List.append_assoc, List.cons_append]
    rw [literalEnd_content (by simp) content.text pos content.valid, literalEnd.eq_def]
    simp only [Nat.not_lt_zero, if_false, decide_true, Bool.and_self, if_true, stop, skip, ih,
      List.length_append, List.length_cons, Char.reduceEq]
    omega

end

/-- The substitution of a template ends right after its code. -/
theorem bracketEnd_substitution (inner : Code) (pos : Nat) (rest : Text) :
    bracketEnd .curly 0 ['{'] pos 0 (inner.print ++ '}' :: rest) =
      some (pos + inner.print.length + 1) :=
  (bracketEnd_code .curly ('}' :: rest) inner 0 ['{'] pos).trans (bracketEnd_closer .curly _ _ _)

/-! ## Masking -/

theorem maskFrom_of_le (region : Region) (outer : List Region) {pos hidden shown : Nat}
    (hh : hidden ≤ pos)
    (hs : shown ≤ pos) (t : Text) :
    maskFrom region outer pos hidden shown t = maskFrom region outer pos 0 0 t := by
  cases t with
  | nil => rfl
  | cons c cs =>
    rw [maskFrom.eq_def, maskFrom.eq_def region outer pos 0 0]
    simp only [Nat.not_lt.2 hh, Nat.not_lt.2 hs, Nat.not_lt_zero, if_false]

theorem maskFrom_hide (region : Region) (outer : List Region) (shown : Nat) (rest : Text) :
    ∀ (t : Text) (pos hidden : Nat), hidden = pos + t.length →
      maskFrom region outer pos hidden shown (t ++ rest) =
        t.map hide ++ maskFrom region outer (pos + t.length) hidden shown rest
  | [], _, _, _ => rfl
  | c :: cs, pos, hidden, h => by
    rw [List.length_cons] at h
    have ih := maskFrom_hide region outer shown rest cs (pos + 1) hidden (by omega)
    rw [List.cons_append, maskFrom.eq_def]
    simp only [if_pos (show pos < hidden by omega), ih, List.map_cons, List.cons_append,
      List.length_cons]
    rw [Nat.add_assoc, Nat.add_comm 1]

/-- A character that opens no literal, comment or element is shown. -/
theorem maskFrom_plain {c : Char} (h : isPlainCode c) {stop pos : Nat} (hp : pos < stop)
    (outer : List Region) (cs : Text) :
    maskFrom (.code stop) outer pos 0 0 (c :: cs) =
      c :: maskFrom (.code stop) outer (pos + 1) 0 0 cs := by
  simp only [isPlainCode, isQuote, Bool.and_eq_true, Bool.not_eq_true', Bool.or_eq_false_iff,
    bne_iff_ne, beq_eq_false_iff_ne] at h
  have comment : commentEnd? pos c cs = none := by simp [commentEnd?, h.1.2]
  rw [maskFrom.eq_def]
  simp only [Nat.not_lt_zero, if_false, Nat.not_le.2 hp, h.1.1.1.1, h.1.1.1.2, h.1.1.2,
    decide_false, Bool.or_self, Bool.false_eq_true, comment]

/-- A string is hidden between its quotes. -/
theorem maskFrom_string (content : LiteralText '"') {stop pos : Nat}
    (hp : pos + content.text.length + 2 ≤ stop) (outer : List Region) (rest : Text) :
    maskFrom (.code stop) outer pos 0 0 ('"' :: (content.text ++ '"' :: rest)) =
      '"' :: (content.text.map hide ++
        '"' :: maskFrom (.code stop) outer (pos + content.text.length + 2) 0 0 rest) := by
  have close : min (literalEnd '"' (pos + 1) 0 (content.text ++ '"' :: rest)) stop =
      pos + content.text.length + 2 := by
    rw [literalEnd_string]
    omega
  have hidden : hiddenEnd '"' (pos + 1) (pos + content.text.length + 2)
      (content.text ++ '"' :: rest) =
      pos + 1 + content.text.length := by
    have quote : (content.text ++ '"' :: rest)[pos + content.text.length + 2 - 1 - (pos + 1)]? =
        some '"' := by
      rw [show pos + content.text.length + 2 - 1 - (pos + 1) = content.text.length by omega]
      simp
    rw [hiddenEnd, quote, if_pos (by rw [Bool.and_eq_true]; exact ⟨decide_eq_true (by omega), rfl⟩)]
    omega
  have shown := maskFrom_hide (.code stop) outer (pos + content.text.length + 2) ('"' :: rest)
    content.text (pos + 1)
    (pos + 1 + content.text.length) rfl
  rw [maskFrom.eq_def]
  simp only [Nat.not_lt_zero, if_false, Nat.not_le.2 (show pos < stop by omega), decide_true,
    Bool.true_or, if_true, close, hidden, shown]
  rw [maskFrom.eq_def]
  simp only [Nat.lt_irrefl, if_false,
    if_pos (show pos + 1 + content.text.length < pos + content.text.length + 2 by omega)]
  rw [maskFrom_of_le _ _ (by omega) (by omega),
      show pos + 1 + content.text.length + 1 = pos + content.text.length + 2 by
    omega]

/-- The static text of a template is hidden. -/
theorem maskFrom_static {stop : Nat} (outer : List Region) {rest : Text}
    (hr : rest.head? ≠ some '{') (t : Text)
    (pos : Nat) (h : isContent '`' t) (hp : pos + t.length ≤ stop) :
    maskFrom (.template stop) outer pos 0 0 (t ++ rest) =
      t.map hide ++ maskFrom (.template stop) outer (pos + t.length) 0 0 rest := by
  generalize hq : '`' = quote at h
  fun_induction isContent quote t generalizing pos with
  | case1 => rfl
  | case2 d ds ih =>
    simp only [List.length_cons] at hp
    have escaped :=
      maskFrom_hide (.template stop) outer 0 (ds ++ rest) [d] (pos + 1) (min (pos + 2) stop)
      (by rw [List.length_singleton]; omega)
    rw [List.singleton_append] at escaped
    rw [List.cons_append, List.cons_append, maskFrom.eq_def]
    simp only [Nat.not_lt_zero, if_false, Nat.not_le.2 (show pos < stop by omega), if_true, escaped]
    rw [maskFrom_of_le _ _ (by rw [List.length_singleton]; omega) (Nat.zero_le _),
      List.length_singleton, Nat.add_assoc, ih (pos + 2) (by omega) h]
    simp only [List.map_cons, List.map_nil, List.cons_append, List.nil_append, List.length_cons]
    rw [Nat.add_assoc, Nat.add_comm 2]
  | case3 => simp at h
  | case4 c cs hc ih =>
    subst hq
    simp only [List.length_cons] at hp
    simp only [Bool.and_eq_true, bne_iff_ne, Bool.not_eq_true'] at h
    have ih := ih (pos + 1) (by omega) h.2
    rw [Nat.add_assoc, Nat.add_comm 1] at ih
    rw [List.cons_append, maskFrom.eq_def]
    simp only [Nat.not_lt_zero, if_false, Nat.not_le.2 (show pos < stop by omega), hc, h.1.1, ih,
      List.map_cons, List.cons_append, List.length_cons]
    have next : c = '$' → (cs ++ rest).head? ≠ some '{' := by
      rintro rfl
      cases cs with
      | nil => exact hr
      | cons d ds => simpa using h.1.2
    split
    · rename_i hd
      rw [Bool.and_eq_true, decide_eq_true_eq] at hd
      split
      · rename_i inner he
        exact absurd (by rw [he]; rfl) (next hd.1)
      · rw [ih]
    · rfl

mutual

/-- What masking shows of code. -/
theorem maskFrom_code (stop : Nat) (outer : List Region) (rest : Text) :
    ∀ (code : Code) (pos : Nat), pos + code.print.length ≤ stop →
      maskFrom (.code stop) outer pos 0 0 (code.print ++ rest) =
        code.shown ++ maskFrom (.code stop) outer (pos + code.print.length) 0 0 rest
  | .done, _, _ => rfl
  | .mark c valid more, pos, h => by
    simp only [Code.print, List.length_cons] at h
    have inside : pos < stop := by omega
    have ih := maskFrom_code stop outer rest more (pos + 1) (by omega)
    rw [Code.print, Code.shown, List.cons_append, maskFrom_plain (isPlainMark_iff.1 valid).1 inside,
      ih, List.cons_append, List.length_cons, Nat.add_comm more.print.length, Nat.add_assoc]
  | .string content more, pos, h => by
    simp only [Code.print, List.length_cons, List.length_append] at h
    have inside : pos + content.text.length + 2 ≤ stop := by omega
    have ih := maskFrom_code stop outer rest more (pos + content.text.length + 2) (by omega)
    rw [Code.print, Code.shown, List.cons_append, List.append_assoc, List.cons_append,
      maskFrom_string content inside, ih]
    simp only [List.cons_append, List.append_assoc, List.length_cons, List.length_append]
    congr 5
    omega
  | .template parts more, pos, h => by
    simp only [Code.print, List.length_cons, List.length_append] at h
    have inside : pos < stop := by omega
    have shown := maskFrom_parts stop (.code stop) outer (more.print ++ rest) parts (pos + 1)
      (by omega)
    have ih := maskFrom_code stop outer rest more (pos + 1 + parts.print.length + 1) (by omega)
    rw [Code.print, Code.shown, List.cons_append, List.append_assoc, List.cons_append,
      maskFrom.eq_def]
    simp only [Nat.not_lt_zero, if_false, Nat.not_le.2 inside, Char.reduceEq, decide_false,
      Bool.or_self, Bool.false_eq_true, if_true, shown, ih, List.cons_append, List.append_assoc,
      List.length_cons, List.length_append]
    congr 5
    omega
  | .group kind inner more, pos, h => by
    simp only [Code.print, List.length_cons, List.length_append] at h
    have opened : pos < stop := by omega
    have closed : pos + 1 + inner.print.length < stop := by omega
    have shown := maskFrom_code stop outer (kind.closer :: (more.print ++ rest)) inner (pos + 1)
      (by omega)
    have ih := maskFrom_code stop outer rest more (pos + 1 + inner.print.length + 1) (by omega)
    rw [Code.print, Code.shown, List.cons_append, List.append_assoc, List.cons_append,
      maskFrom_plain (isPlainCode_opener kind) opened, shown,
      maskFrom_plain (isPlainCode_closer kind) closed, ih]
    simp only [List.cons_append, List.append_assoc, List.length_cons, List.length_append]
    congr 5
    omega

/-- What masking shows of the parts of a template up to the closing quote. -/
theorem maskFrom_parts (stop : Nat) (around : Region) (outer : List Region) (rest : Text) :
    ∀ (parts : TemplateParts) (pos : Nat), pos + parts.print.length < stop →
      maskFrom (.template stop) (around :: outer) pos 0 0 (parts.print ++ '`' :: rest) =
        parts.shown ++ '`' :: maskFrom around outer (pos + parts.print.length + 1) 0 0 rest
  | .last content, pos, h => by
    rw [TemplateParts.print] at h ⊢
    rw [maskFrom_static _ (by simp) content.text pos content.valid (Nat.le_of_lt h),
      TemplateParts.shown, maskFrom.eq_def]
    simp only [Nat.not_lt_zero, if_false, Nat.not_le.2 h, Char.reduceEq, if_true]
  | .substitution content inner more, pos, h => by
    simp only [TemplateParts.print, List.length_cons, List.length_append] at h
    obtain ⟨start, hs⟩ : ∃ start, start = pos + content.text.length := ⟨_, rfl⟩
    have stopped := bracketEnd_substitution inner (start + 2) (more.print ++ '`' :: rest)
    have shown := maskFrom_code (start + 2 + inner.print.length) (.template stop :: around :: outer)
      ('}' :: (more.print ++ '`' :: rest)) inner (start + 2) (Nat.le_refl _)
    have ih := maskFrom_parts stop around outer rest more (start + 2 + inner.print.length + 1)
      (by omega)
    have close : maskFrom (.code (start + 2 + inner.print.length))
        (.template stop :: around :: outer)
        (start + 2 + inner.print.length) 0 0 ('}' :: (more.print ++ '`' :: rest)) =
        ')' :: maskFrom (.template stop) (around :: outer) (start + 2 + inner.print.length + 1) 0 0
          (more.print ++ '`' :: rest) := by
      rw [maskFrom.eq_def]
      simp only [Nat.not_lt_zero, if_false, Nat.le_refl, if_true]
    simp only [TemplateParts.print, TemplateParts.shown, List.append_assoc, List.cons_append]
    rw [maskFrom_static _ (by simp) content.text pos content.valid (by omega), ← hs,
      maskFrom.eq_def]
    simp only [Nat.not_lt_zero, if_false, Nat.not_le.2 (show start < stop by omega), Char.reduceEq,
      show start + 1 < stop by omega, decide_true, Bool.and_self, if_true, stopped,
      show start + 2 + inner.print.length + 1 ≤ stop by
        omega, Nat.add_sub_cancel, shown, close, ih, List.length_append,
      List.length_cons]
    rw [show start + 2 + inner.print.length + 1 + more.print.length + 1 =
      pos + (content.text.length + (inner.print.length + (more.print.length + 1) + 1 + 1)) + 1
      by omega]

end

/-- Masking shows of code what can be seen of it. -/
theorem mask_print (code : Code) : mask code.print = code.shown := by
  have whole :=
    maskFrom_code code.print.length [] [] code 0 (Nat.le_of_eq (Nat.zero_add code.print.length))
  rw [List.append_nil] at whole
  rw [mask, whole]
  simp [maskFrom]

/-! ## Balanced text -/

/-- Text whose brackets close one another. -/
inductive Balanced : Text → Prop where
  | nil : Balanced []
  | plain {c : Char} {t : Text} (opens : isOpener c = false) (closes : isCloser c = false)
    (rest : Balanced t) :
    Balanced (c :: t)
  | group (kind : Bracket) {inner t : Text} (inside : Balanced inner) (rest : Balanced t) :
    Balanced (kind.opener :: (inner ++ kind.closer :: t))

theorem Balanced.append {t u : Text} (ht : Balanced t) (hu : Balanced u) : Balanced (t ++ u) := by
  induction ht with
  | nil => exact hu
  | plain opens closes _ ih => exact .plain opens closes ih
  | group kind inside _ _ ih =>
    rw [List.cons_append, List.append_assoc, List.cons_append]
    exact .group kind inside ih

theorem balanced_of_plain :
    ∀ t : Text, (∀ c ∈ t, isOpener c = false ∧ isCloser c = false) → Balanced t
  | [], _ => .nil
  | c :: cs, h =>
    .plain (h c (by simp)).1 (h c (by simp)).2 (balanced_of_plain cs fun d hd => h d (by simp [hd]))

theorem balanced_hide (t : Text) : Balanced (t.map hide) := by
  refine balanced_of_plain _ fun c hc => ?_
  obtain ⟨d, _, rfl⟩ := List.mem_map.1 hc
  rw [hide]
  split <;> decide

mutual

/-- What can be seen of code is balanced. -/
theorem Code.balanced_shown : ∀ code : Code, Balanced code.shown
  | .done => .nil
  | .mark _ valid rest =>
    .plain (isPlainMark_iff.1 valid).2.1 (isPlainMark_iff.1 valid).2.2 rest.balanced_shown
  | .string content rest =>
    .plain (by decide) (by decide)
      ((balanced_hide content.text).append (.plain (by decide) (by decide) rest.balanced_shown))
  | .template parts rest =>
    .plain (by decide) (by decide)
      (parts.balanced_shown.append (.plain (by decide) (by decide) rest.balanced_shown))
  | .group kind inner rest => .group kind inner.balanced_shown rest.balanced_shown

theorem TemplateParts.balanced_shown : ∀ parts : TemplateParts, Balanced parts.shown
  | .last content => balanced_hide content.text
  | .substitution content inner rest =>
    (balanced_hide content.text).append
      (.plain (by decide) (by decide) (.group .round inner.balanced_shown rest.balanced_shown))

end

theorem isOpener_opener (kind : Bracket) : isOpener kind.opener := by cases kind <;> decide

theorem isCloser_closer (kind : Bracket) : isCloser kind.closer := by cases kind <;> decide

theorem isCloser_opener (kind : Bracket) : isCloser kind.opener = false := by cases kind <;> decide

theorem isOpener_closer (kind : Bracket) : isOpener kind.closer = false := by cases kind <;> decide

theorem openBracket?_cons (depth : Nat) (c : Char) (before : Text) :
    openBracket? depth (c :: before) =
      if isCloser c then openBracket? (depth + 1) before
      else if isOpener c then if depth = 0 then some c else openBracket? (depth - 1) before
      else openBracket? depth before := rfl

/-- The bracket that is open before balanced text is open after it. -/
theorem Balanced.openBracket? {t : Text} (h : Balanced t) (depth : Nat) (behind : Text) :
    Recast.openBracket? depth (t.reverse ++ behind) = Recast.openBracket? depth behind := by
  induction h generalizing depth behind with
  | nil => rfl
  | plain opens closes _ ih =>
    rw [List.reverse_cons, List.append_assoc, ih, List.singleton_append, openBracket?_cons, opens,
      closes]
    rfl
  | group kind _ _ ihInside ih =>
    simp only [List.reverse_cons, List.reverse_append, List.append_assoc, List.singleton_append]
    rw [ih, List.cons_append, openBracket?_cons, if_pos (isCloser_closer kind), ihInside,
      openBracket?_cons, if_neg (by rw [isCloser_opener]; decide), if_pos (isOpener_opener kind),
      if_neg (Nat.succ_ne_zero _), Nat.add_sub_cancel]

/-- An expression does not end inside balanced text in brackets. -/
theorem Balanced.expressionEndFrom {t : Text} (h : Balanced t) (isStop : Char → Bool)
    (depth pos : Nat) (rest : Text) :
    Recast.expressionEndFrom isStop (depth + 1) pos (t ++ rest) =
      Recast.expressionEndFrom isStop (depth + 1) (pos + t.length) rest := by
  induction h generalizing depth pos rest with
  | nil => rfl
  | plain opens closes _ ih =>
    rw [List.cons_append, Recast.expressionEndFrom, if_neg (by rw [opens]; decide),
      if_neg (by rw [closes]; decide), if_neg (by simp), ih, List.length_cons, Nat.add_assoc,
      Nat.add_comm 1]
  | group kind _ _ ihInside ih =>
    rw [List.cons_append, List.append_assoc, List.cons_append, Recast.expressionEndFrom,
      if_pos (isOpener_opener kind), ihInside, Recast.expressionEndFrom,
      if_neg (by rw [isOpener_closer]; decide), if_pos (isCloser_closer kind),
      if_neg (Nat.succ_ne_zero _), Nat.add_sub_cancel, ih]
    simp only [List.length_cons, List.length_append]
    congr 1
    omega

end Recast
