import Recast.Proofs.Scan.QuotedText
import Recast.Proofs.Text.Part
import Recast.Markup.Content

/-!
# Searching code for markup

`containsMarkup` reads code once and passes over strings and comments. So what it finds in a text is
what it finds in the pieces that the text is put together from, as long as no string or comment of a
piece goes on in the next one. A piece that `Carries false` holds no markup, wherever it stands:
plain code (`carries_plain`), a quoted text (`carries_quote`), a comment (`carries_comment`) and a
template literal (`carries_template`). A value that `Reads` holds markup or not where a value is
expected: behind an opening bracket, a comma or a colon (`Leads`).
-/

namespace Recast

/-! ## Where the search goes on -/

theorem containsMarkupFrom_of_le :
    ∀ (t : Text) {behind : Text} {pos resume : Nat}, resume ≤ pos →
      containsMarkupFrom behind pos resume t = containsMarkupFrom behind pos 0 t
  | [], _, _, _, _ => rfl
  | c :: cs, behind, pos, resume, h => by
    have tail : containsMarkupFrom (c :: behind) (pos + 1) resume cs =
        containsMarkupFrom (c :: behind) (pos + 1) 0 cs :=
      containsMarkupFrom_of_le cs (by omega)
    rw [containsMarkupFrom, containsMarkupFrom]
    simp only [Nat.not_lt.2 h, Nat.not_lt_zero, if_false, tail]

theorem containsMarkupFrom_skip (rest : Text) :
    ∀ (t behind : Text) (pos : Nat), containsMarkupFrom behind pos (pos + t.length) (t ++ rest) =
      containsMarkupFrom (t.reverse ++ behind) (pos + t.length) 0 rest
  | [], behind, pos => containsMarkupFrom_of_le rest (Nat.le_refl _)
  | c :: cs, behind, pos => by
    have h := containsMarkupFrom_skip rest cs (c :: behind) (pos + 1)
    rw [List.cons_append, containsMarkupFrom, if_pos (by simp)]
    rw [List.length_cons, ← Nat.add_assoc, Nat.add_right_comm, h]
    simp

/-- Wherever the piece stands, it holds markup or not as said, and the search goes on behind it. -/
def Carries (found : Bool) (piece : Text) : Prop :=
  ∀ behind pos rest, containsMarkupFrom behind pos 0 (piece ++ rest) =
    (found || containsMarkupFrom (piece.reverse ++ behind) (pos + piece.length) 0 rest)

theorem carries_nil : Carries false [] := fun _ _ _ => rfl

theorem Carries.append {a b : Bool} {s t : Text} (hs : Carries a s) (ht : Carries b t) :
    Carries (a || b) (s ++ t) := by
  intro behind pos rest
  rw [List.append_assoc, hs, ht]
  simp [Bool.or_assoc, Nat.add_assoc]

/-- A piece that the search passes over as a whole. -/
theorem carries_of_skip {c : Char} {inner : Text}
    (h : ∀ behind pos rest, containsMarkupFrom behind pos 0 (c :: inner ++ rest) =
      containsMarkupFrom (c :: behind) (pos + 1) (pos + 1 + inner.length) (inner ++ rest)) :
    Carries false (c :: inner) := by
  intro behind pos rest
  rw [h, containsMarkupFrom_skip, Bool.false_or, List.reverse_cons, List.append_assoc,
    List.singleton_append, List.length_cons, Nat.add_assoc, Nat.add_comm 1]

/-! ## Plain code -/

theorem carries_plain : ∀ {t : Text}, (∀ c ∈ t, isPlainCode c) → Carries false t
  | [], _ => carries_nil
  | c :: cs, h => by
    have tail : Carries false cs := carries_plain fun d hd => h d (by simp [hd])
    intro behind pos rest
    have plain := h c (by simp)
    simp only [isPlainCode, Bool.and_eq_true, Bool.not_eq_true', bne_iff_ne] at plain
    have comment : commentEnd? pos c (cs ++ rest) = none := by
      rw [commentEnd?.eq_def, if_neg plain.1.2]
    rw [List.cons_append, containsMarkupFrom, if_neg (Nat.not_lt_zero _), plain.1.1, comment]
    simp only [Bool.false_eq_true, if_false, beq_eq_false_iff_ne.2 plain.2, Bool.false_and]
    rw [tail]
    simp [Nat.add_assoc, Nat.add_comm 1]

/-! ## Literals -/

/-- A literal that ends with its quote. -/
theorem carries_literal {quote : Char} (hq : isQuote quote) {t : Text}
    (h : ∀ pos rest, literalEnd quote pos 0 (t ++ quote :: rest) = pos + t.length + 1) :
    Carries false (quote :: (t ++ [quote])) := by
  refine carries_of_skip fun behind pos rest => ?_
  have stop := h (pos + 1) rest
  rw [List.cons_append, List.append_assoc, List.singleton_append, containsMarkupFrom,
    if_neg (Nat.not_lt_zero _), if_pos hq, stop]
  simp [Nat.add_assoc]

theorem carries_quote (t : Text) : Carries false (quote t) :=
  carries_literal rfl fun pos rest => literalEnd_escaped rest t pos

/-! ## Comments -/

/-- Whether a block comment would end inside the text. -/
def endsComment : Text → Bool
  | [] => false
  | c :: cs => c == '*' && cs.head? == some '/' || endsComment cs

theorem endsComment_append_plain {s t : Text} (h : '*' ∉ s) :
    endsComment (s ++ t) = endsComment t := by
  induction s with
  | nil => rfl
  | cons c cs ih =>
    simp only [List.mem_cons, not_or] at h
    rw [List.cons_append, endsComment, ih h.2, beq_eq_false_iff_ne.2 (Ne.symm h.1), Bool.false_and,
      Bool.false_or]

theorem endsComment_append {t : Text} (h : t.head? ≠ some '/') :
    ∀ s : Text, endsComment (s ++ t) = (endsComment s || endsComment t)
  | [] => rfl
  | [c] => by
    have first : (t.head? == some '/') = false := by simpa using h
    simp [endsComment, first]
  | c :: d :: cs => by
    rw [List.cons_append, endsComment, endsComment_append h (d :: cs),
      endsComment.eq_def (c :: d :: cs), Bool.or_assoc]
    rfl

theorem blockCommentEnd_append (rest : Text) : ∀ {t : Text} (pos : Nat), endsComment t = false →
    blockCommentEnd pos (t ++ '*' :: '/' :: rest) = pos + t.length + 2
  | [], pos, _ => rfl
  | c :: cs, pos, h => by
    rw [endsComment, Bool.or_eq_false_iff] at h
    have ih := blockCommentEnd_append rest (pos + 1) h.2
    rw [List.cons_append, blockCommentEnd, ih, List.length_cons]
    · omega
    · rintro after rfl same
      cases cs with
      | nil => cases same
      | cons d cs =>
        obtain rfl : d = '/' := (List.cons.inj same).1
        exact Bool.noConfusion h.1

/-- A block comment that ends with its text. -/
theorem carries_comment {t : Text} (h : endsComment t = false) :
    Carries false ("/*".toList ++ t ++ "*/".toList) := by
  have skip : Carries false ('/' :: ('*' :: (t ++ ['*', '/']))) := by
    refine carries_of_skip fun behind pos rest => ?_
    have stop := blockCommentEnd_append rest (pos + 2) h
    have quote : isQuote '/' = false := by decide
    rw [List.cons_append, List.cons_append, List.append_assoc, List.cons_append,
      List.singleton_append, containsMarkupFrom, if_neg (Nat.not_lt_zero _), quote, commentEnd?,
      if_pos rfl, stop]
    simp only [Bool.false_eq_true, if_false, List.length_cons, List.length_append, List.length_nil]
    congr 1
    omega
  exact skip

/-! ## Template literals -/

/-- A unit of a template literal: a character, an escaped one, or a substitution of plain code. -/
inductive IsTemplateUnit : Text → Prop where
  | char {c : Char} (backslash : c ≠ '\\') (quote : c ≠ '`') (brace : c ≠ '{') : IsTemplateUnit [c]
  | escape {c : Char} (blank : isBlank c = false) : IsTemplateUnit ['\\', c]
  | code {t : Text} (plain : ∀ c ∈ t, isPlainCode c) (closed : closesFrom .curly 0 t) :
    IsTemplateUnit ('$' :: '{' :: (t ++ ['}']))

/-- The inside of a template literal. -/
def IsTemplate (t : Text) : Prop :=
  ∃ units : List Text, (∀ u ∈ units, IsTemplateUnit u) ∧ t = units.flatten

theorem isTemplate_nil : IsTemplate [] := ⟨[], by simp, rfl⟩

theorem IsTemplate.append {s t : Text} (hs : IsTemplate s) (ht : IsTemplate t) :
    IsTemplate (s ++ t) := by
  obtain ⟨us, hu, rfl⟩ := hs
  obtain ⟨vs, hv, rfl⟩ := ht
  refine ⟨us ++ vs, fun u h => ?_, by simp⟩
  rcases List.mem_append.1 h with h | h
  · exact hu u h
  · exact hv u h

theorem IsTemplateUnit.isTemplate {u : Text} (h : IsTemplateUnit u) :
    IsTemplate u := ⟨[u], by simpa using h, by simp⟩

theorem IsTemplateUnit.head?_ne {u : Text} (h : IsTemplateUnit u) (rest : Text) :
    (u ++ rest).head? ≠ some '{' := by
  cases h with
  | char _ _ brace => simpa using brace
  | escape => simp
  | code => simp

/-- A unit is passed over, if no brace follows that would make a substitution of a dollar sign. -/
theorem literalEnd_unit {u : Text} (h : IsTemplateUnit u) (pos : Nat) {rest : Text}
    (hr : rest.head? ≠ some '{') :
    literalEnd '`' pos 0 (u ++ rest) = literalEnd '`' (pos + u.length) 0 rest := by
  cases h with
  | @char c backslash quote brace =>
    by_cases dollar : c = '$'
    · subst dollar
      rw [List.singleton_append, literalEnd.eq_def]
      simp only [Nat.not_lt_zero, if_false, backslash, quote, decide_true, Bool.and_self, if_true]
      split
      · simp at hr
      · rfl
    · exact literalEnd_ordinary backslash quote (.inr dollar) pos rest
  | escape => exact literalEnd_escape _ pos _ rest
  | @code t plain closed =>
    have stop : bracketEnd .curly 0 ['{'] (pos + 2) 0 (t ++ '}' :: rest) =
        some (pos + 2 + t.length + 1) :=
      bracketEnd_plain .curly rest t ['{'] (pos + 2) plain closed
    have skip := literalEnd_skip '`' rest (t ++ ['}']) (pos + 2)
    rw [List.append_assoc, List.singleton_append, List.length_append, ← Nat.add_assoc] at skip
    rw [List.cons_append, List.cons_append, List.append_assoc, List.singleton_append,
      literalEnd.eq_def]
    simp only [Nat.not_lt_zero, if_false, decide_true, Bool.and_self, if_true]
    rw [if_neg (by decide), if_neg (by decide), stop]
    refine skip.trans ?_
    congr 1
    simp only [List.length_cons, List.length_append, List.length_nil]
    omega

theorem literalEnd_units (rest : Text) :
    ∀ (units : List Text) (pos : Nat), (∀ u ∈ units, IsTemplateUnit u) →
    literalEnd '`' pos 0 (units.flatten ++ '`' :: rest) = pos + units.flatten.length + 1
  | [], pos, _ => literalEnd_close (by decide) pos rest
  | u :: units, pos, h => by
    have hr : (units.flatten ++ '`' :: rest).head? ≠ some '{' := by
      cases units with
      | nil => simp
      | cons v units =>
        rw [List.flatten_cons, List.append_assoc]
        exact (h v (by simp)).head?_ne _
    rw [List.flatten_cons, List.append_assoc, literalEnd_unit (h u (by simp)) pos hr,
      literalEnd_units rest units _ fun v hv => h v (by simp [hv]), List.length_append]
    omega

/-- A text that is blank, or has no blank at either end. -/
def IsSolid (t : Text) : Prop :=
  isBlankText t ∨ (∃ c cs, t = c :: cs ∧ isBlank c = false) ∧ ∃ c cs, t = cs ++ [c] ∧
    isBlank c = false

theorem IsSolid.reverse {t : Text} (h : IsSolid t) : IsSolid t.reverse := by
  rcases h with h | ⟨⟨c, cs, rfl, hc⟩, d, ds, hd, hb⟩
  · exact .inl (by rwa [isBlankText, List.all_reverse])
  · exact .inr ⟨⟨d, ds.reverse, by rw [hd, List.reverse_append]; rfl, hb⟩, c, cs.reverse,
      by simp, hc⟩

theorem IsTemplateUnit.isSolid {u : Text} (h : IsTemplateUnit u) : IsSolid u := by
  cases h with
  | @char c =>
    cases hc : isBlank c with
    | true => exact .inl (by simp [isBlankText, hc])
    | false => exact .inr ⟨⟨c, [], rfl, hc⟩, c, [], rfl, hc⟩
  | @escape c blank => exact .inr ⟨⟨_, _, rfl, by decide⟩, c, ['\\'], rfl, blank⟩
  | @code t => exact .inr ⟨⟨_, _, rfl, by decide⟩, '}', '$' :: '{' :: t, rfl, by decide⟩

/-- Trimming takes off whole units. -/
theorem trimStart_flatten : ∀ units : List Text, (∀ u ∈ units, IsSolid u) →
    ∃ kept : List Text, List.Sublist kept units ∧ trimStart units.flatten = kept.flatten
  | [], _ => ⟨[], .refl _, rfl⟩
  | u :: units, h => by
    rcases h u (by simp) with blank | ⟨⟨c, cs, rfl, hc⟩, -⟩
    · obtain ⟨kept, sub, same⟩ := trimStart_flatten units fun v hv => h v (by simp [hv])
      refine ⟨kept, sub.cons u, ?_⟩
      rw [List.flatten_cons, trimStart, List.dropWhile_append_of_pos (List.all_eq_true.1 blank)]
      exact same
    · refine ⟨(c :: cs) :: units, .refl _, trimStart_eq_self ?_⟩
      rintro d ⟨⟩
      exact hc

theorem trim_flatten {units : List Text} (h : ∀ u ∈ units, IsSolid u) :
    ∃ kept : List Text, List.Sublist kept units ∧ trim units.flatten = kept.flatten := by
  obtain ⟨kept, sub, same⟩ := trimStart_flatten units h
  have turned : ∀ u ∈ (kept.map List.reverse).reverse, IsSolid u := by
    intro u hu
    obtain ⟨v, hv, rfl⟩ := List.mem_map.1 (List.mem_reverse.1 hu)
    exact (h v (sub.subset hv)).reverse
  obtain ⟨kept', sub', same'⟩ := trimStart_flatten _ turned
  refine ⟨(kept'.map List.reverse).reverse, ?_, ?_⟩
  · refine List.Sublist.trans ?_ sub
    have back := (sub'.map List.reverse).reverse
    simpa using back
  · rw [trimStart] at same'
    rw [trim, same, trimEnd, dropEndWhile, List.reverse_flatten, same', List.reverse_flatten]

/-- A template literal ends with its quote, also without the blanks at the ends of its inside. -/
theorem literalEnd_template {t : Text} (h : IsTemplate t) (rest : Text) (pos : Nat) :
    literalEnd '`' pos 0 (trim t ++ '`' :: rest) = pos + (trim t).length + 1 := by
  obtain ⟨units, hu, rfl⟩ := h
  obtain ⟨kept, sub, same⟩ := trim_flatten fun u hm => (hu u hm).isSolid
  rw [same]
  exact literalEnd_units rest kept pos fun u hm => hu u (sub.subset hm)

theorem carries_template {t : Text} (h : IsTemplate t) :
    Carries false ("`".toList ++ trim t ++ "`".toList) :=
  carries_literal rfl fun pos rest => literalEnd_template h rest pos

/-! ## Values -/

/-- Whether markup opens behind this text, which is read backwards. -/
def opensValue (behind : Text) : Bool :=
  match behind.dropWhile isLayout with
  | [] => true
  | last :: _ => precedesMarkup last

/-- Where a value is expected, the text holds markup or not as said, and the search goes on behind
it. -/
def Reads (found : Bool) (value : Text) : Prop :=
  ∀ behind pos rest, opensValue behind → containsMarkupFrom behind pos 0 (value ++ rest) =
    (found || containsMarkupFrom (value.reverse ++ behind) (pos + value.length) 0 rest)

theorem Carries.reads {found : Bool} {t : Text} (h : Carries found t) : Reads found t :=
  fun behind pos rest _ => h behind pos rest

/-- An empty value holds no markup. -/
theorem Reads.eq_false {found : Bool} (h : Reads found []) : found = false := by
  have nothing : containsMarkupFrom [] 0 0 [] = (found || containsMarkupFrom [] 0 0 []) :=
    h [] 0 [] rfl
  simpa [containsMarkupFrom] using nothing.symm

theorem Reads.append {a b : Bool} {s t : Text} (hs : Reads a s) (ht : Carries b t) :
    Reads (a || b) (s ++ t) := by
  intro behind pos rest opens
  rw [List.append_assoc, hs _ _ _ opens, ht]
  simp [Bool.or_assoc, Nat.add_assoc]

/-- A piece of code behind which a value is expected. -/
def Leads (t : Text) : Prop :=
  Carries false t ∧ ∀ behind, opensValue (t.reverse ++ behind)

/-- Behind a piece that leads to a value the value stands anywhere. -/
theorem Leads.append {found : Bool} {t value : Text} (ht : Leads t) (hv : Reads found value) :
    Carries found (t ++ value) := by
  intro behind pos rest
  rw [List.append_assoc, ht.1, hv _ _ _ (ht.2 behind)]
  simp [Nat.add_assoc]

theorem Leads.prepend {s t : Text} (hs : Carries false s) (ht : Leads t) : Leads (s ++ t) := by
  refine ⟨hs.append ht.1, fun behind => ?_⟩
  rw [List.reverse_append, List.append_assoc]
  exact ht.2 _

theorem opensMarkup_cons {behind : Text} (h : opensValue behind) {c : Char}
    (hc : (isLetter c || c == '_' || c == '$' || c == '>') = true) (cs : Text) :
    opensMarkup behind (c :: cs) := by
  rw [opensValue] at h
  rw [opensMarkup, hc, Bool.true_and]
  cases hb : behind.dropWhile isLayout with
  | nil => rfl
  | cons last before =>
    rw [hb] at h
    simp only at h
    simp only [h, Bool.true_or]

theorem opensMarkup_of_opensValue {behind : Text} (h : opensValue behind) {c : Char}
    (hc : isNameStart c ∨ c = '>') (cs : Text) : opensMarkup behind (c :: cs) := by
  refine opensMarkup_cons h ?_ cs
  simp only [isNameStart, Bool.or_eq_true] at hc
  simp only [isLetter, Bool.or_eq_true, beq_iff_eq]
  simp only [beq_iff_eq] at hc
  tauto

/-- Markup as it is written is found where a value is expected. -/
theorem reads_markup {c : Char} (hc : isNameStart c ∨ c = '>') (cs : Text) :
    Reads true ('<' :: c :: cs) := by
  intro behind pos rest opens
  have quote : isQuote '<' = false := by decide
  rw [List.cons_append, containsMarkupFrom, if_neg (Nat.not_lt_zero _), quote, commentEnd?.eq_def,
    if_neg (by decide), List.cons_append, opensMarkup_of_opensValue opens hc]
  rfl

/-! ## Lists -/

/-- Values that hold markup or not; one of them is enough. -/
inductive ReadsAll : Bool → List Text → Prop where
  | nil : ReadsAll false []
  | cons {a b : Bool} {value : Text} {values : List Text} (first : Reads a value)
    (rest : ReadsAll b values) :
    ReadsAll (a || b) (value :: values)

theorem ReadsAll.append {a b : Bool} {s t : List Text} (hs : ReadsAll a s) (ht : ReadsAll b t) :
    ReadsAll (a || b) (s ++ t) := by
  induction hs with
  | nil => simpa using ht
  | cons first _ ih =>
    rw [Bool.or_assoc]
    exact .cons first ih

theorem leads_comma : Leads [',', ' '] :=
  ⟨carries_plain (by decide), fun _ => rfl⟩

theorem leads_bracket : Leads ['['] :=
  ⟨carries_plain (by decide), fun _ => rfl⟩

/-- Values with commas between them. -/
theorem ReadsAll.joinComma {found : Bool} {values : List Text} (h : ReadsAll found values) :
    Reads found (Recast.joinComma values) := by
  induction h with
  | nil => exact carries_nil.reads
  | @cons a b value values first rest ih =>
    cases values with
    | nil =>
      cases rest
      simpa [Recast.joinComma, joinWith] using first
    | cons next values =>
      have join : Recast.joinComma (value :: next :: values) =
          value ++ ([',', ' '] ++ Recast.joinComma (next :: values)) := by
        simp [Recast.joinComma, joinWith]
      rw [join]
      exact first.append (leads_comma.append ih)

theorem ReadsAll.of_carries {values : List Text} (h : ∀ value ∈ values, Carries false value) :
    ReadsAll false values := by
  induction values with
  | nil => exact .nil
  | cons value values ih =>
    exact .cons (h value (by simp)).reads (ih fun v hv => h v (by simp [hv]))

end Recast
