import Recast.Proofs.Scan.Found
import Recast.Stack.Search

/-!
# How deeply scans nest

A scan is `Defined` if the text has what it reads first: a character at its offset, and for a
bracket an opening one. The scans that a defined scan makes are defined again and go on further
inside the text, which `Scan.rank` measures (`Scan.inner_sound`). So a defined scan never reads
behind the end of its text and never looks up what is no bracket: with room for more calls than its
rank it does not fail at all, and with less room it may overflow but not fail in another way
(`Scan.failure?_of_defined`).
-/

namespace Recast

/-- What a scan relies on. -/
def Scan.Defined : Scan → Prop
  | .literal t pos => pos < t.length
  | .bracket t pos => ∃ c, (t.drop pos).head? = some c ∧ isOpener c
  | .tag t pos => pos < t.length
  | .tokens _ _ _ => True
  | .element t pos => pos < t.length
  | .maskCode t _ stop => stop ≤ t.length
  | .maskTemplate t pos stop => pos < stop ∧ stop ≤ t.length
  | .patternNames _ => True
  | .callbackMarkup _ => True

/-- A bound for the number of calls inside a scan. -/
def Scan.rank : Scan → Nat
  | .literal t pos => 4 * (t.length - pos)
  | .bracket t pos => 4 * (t.length - pos)
  | .tag t pos => 4 * (t.length - pos)
  | .tokens t pos _ => 4 * (t.length - pos) + 1
  | .element t pos => 4 * (t.length - pos) + 2
  | .maskCode t pos stop => 4 * t.length + 2 * (stop - pos) + 4
  | .maskTemplate t pos stop => 4 * t.length + 2 * (stop - pos) + 3
  | .patternNames pattern => 4 * pattern.length + 3
  | .callbackMarkup body => 4 * body.length + 3

/-- The scans are defined, and there are at most `bound` calls inside each of them. -/
def Sound (bound : Nat) (scans : List Scan) : Prop :=
  ∀ scan ∈ scans, scan.Defined ∧ scan.rank ≤ bound

namespace Sound

variable {bound : Nat} {scan : Scan} {scans scans' : List Scan}

theorem nil : Sound bound [] := by
  simp [Sound]

theorem one (h : scan.Defined ∧ scan.rank ≤ bound) : Sound bound [scan] :=
  List.forall_mem_singleton.2 h

theorem append (h : Sound bound scans) (h' : Sound bound scans') :
    Sound bound (scans ++ scans') :=
  List.forall_mem_append.2 ⟨h, h'⟩

theorem cons (h : Sound bound [scan]) (h' : Sound bound scans) : Sound bound (scan :: scans) :=
  append h h'

theorem flatMap {α : Type} {items : List α} {make : α → List Scan}
    (h : ∀ item ∈ items, Sound bound (make item)) : Sound bound (items.flatMap make) := by
  intro scan mem
  obtain ⟨item, found, made⟩ := List.mem_flatMap.1 mem
  exact h item found scan made

theorem ite {p : Prop} [Decidable p] (h : p → Sound bound scans) (h' : ¬p → Sound bound scans') :
    Sound bound (if p then scans else scans') := by
  split
  · exact h ‹_›
  · exact h' ‹_›

end Sound

/-! ## Scans at a character -/

theorem head?_drop {t cs : Text} {pos : Nat} {c : Char} (here : t.drop pos = c :: cs) :
    (t.drop pos).head? = some c := by
  rw [here, List.head?_cons]

section Place

variable {t cs : Text} {pos bound : Nat} {c : Char}

theorem lt_length_of_drop (here : t.drop pos = c :: cs) : pos < t.length := by
  have := length_of_drop_eq_cons here
  omega

theorem sound_literal (here : t.drop pos = c :: cs) (room : 4 * (t.length - pos) ≤ bound) :
    Sound bound [.literal t pos] :=
  .one ⟨lt_length_of_drop here, room⟩

theorem sound_bracket (here : t.drop pos = c :: cs) (opens : isOpener c)
    (room : 4 * (t.length - pos) ≤ bound) : Sound bound [.bracket t pos] :=
  .one ⟨⟨c, head?_drop here, opens⟩, room⟩

theorem sound_tag (here : t.drop pos = c :: cs) (room : 4 * (t.length - pos) ≤ bound) :
    Sound bound [.tag t pos] :=
  .one ⟨lt_length_of_drop here, room⟩

theorem sound_element (here : t.drop pos = c :: cs) (room : 4 * (t.length - pos) + 2 ≤ bound) :
    Sound bound [.element t pos] :=
  .one ⟨lt_length_of_drop here, room⟩

theorem sound_tokens (level : Option Nat) (room : 4 * (t.length - pos) + 1 ≤ bound) :
    Sound bound [.tokens t pos level] :=
  .one ⟨trivial, room⟩

/-- The place behind a character, when another one is there. -/
theorem drop_next {d : Char} (here : t.drop pos = c :: cs) (next : cs.head? = some d) :
    ∃ ds, t.drop (pos + 1) = d :: ds := by
  obtain ⟨ds, rfl⟩ := List.head?_eq_some_iff.1 next
  exact ⟨ds, by rw [← List.drop_drop, here]; rfl⟩

end Place

/-! ## Loops -/

/-- What holds of the scans at every character that a loop may look at holds of all its scans. -/
theorem sound_scansAt {σ : Type} {look : Look σ} {t : Text} {start bound : Nat}
    (step : ∀ state behind pos c cs, t.drop pos = c :: cs → start ≤ pos →
      Sound bound (look state behind pos c cs).1) (state : σ) :
    Sound bound (scansAt look state t start) := by
  suffices run : ∀ (rest : Text) (state : σ) (behind : Text) (pos resume : Nat),
      t.drop pos = rest → start ≤ pos → Sound bound (scansFrom look state behind pos resume rest)
    from run _ state _ start 0 rfl (Nat.le_refl start)
  intro rest
  induction rest with
  | nil => exact fun _ _ _ _ _ _ => Sound.nil
  | cons c cs ih =>
    intro state behind pos resume here after
    have next : t.drop (pos + 1) = cs := by rw [← List.drop_drop, here]; rfl
    have scans := step state behind pos c cs here after
    rw [scansFrom]
    split
    · exact ih _ _ _ _ next (by omega)
    · split
      next _ looked =>
        rw [looked] at scans
        exact scans
      next _ _ _ looked =>
        rw [looked] at scans
        exact scans.append (ih _ _ _ _ next (by omega))

section Looks

variable {t : Text} {start bound : Nat}

theorem sound_literalLook (quote : Char) (room : 4 * (t.length - start) ≤ bound) :
    Sound bound (scansAt (literalLook t quote) () t start) := by
  refine sound_scansAt (fun _ _ pos c cs here after => ?_) ()
  rw [literalLook]
  split
  · exact .nil
  · split
    · exact .nil
    · split
      next opens =>
        simp only [Bool.and_eq_true, decide_eq_true_eq] at opens
        obtain ⟨ds, next⟩ := drop_next here opens.2
        exact sound_bracket next rfl (by omega)
      · exact .nil

/-- Behind the opening character of a bracket. -/
theorem sound_bracketLook (kind : Bracket) {rest : Text}
    (opens : t.drop start = kind.opener :: rest) (room : 4 * (t.length - start) ≤ bound + 1) :
    Sound bound (scansAt (bracketLook t kind) 0 t start) := by
  refine sound_scansAt (fun depth behind pos c cs here after => ?_) 0
  have inside := lt_length_of_drop here
  -- the opening character itself is neither a quote nor a `<`
  have later : isQuote c ∨ c = '<' → start < pos := by
    intro mark
    rcases Nat.eq_or_lt_of_le after with rfl | later
    · obtain ⟨rfl, -⟩ := List.cons.inj (opens.symm.trans here)
      cases kind <;> simp [Bracket.opener, isQuote] at mark
    · exact later
  rw [bracketLook]
  split
  next quote =>
    have := later (.inl quote)
    exact sound_literal here (by omega)
  · split
    next element =>
      simp only [Bool.and_eq_true, decide_eq_true_eq] at element
      have := later (.inr element.1)
      split <;> exact sound_element here (by omega)
    · split
      · exact .nil
      · split
        · exact .nil
        · split <;> exact .nil

theorem sound_tagLook (room : 4 * (t.length - start) ≤ bound) :
    Sound bound (scansAt (tagLook t) () t start) := by
  refine sound_scansAt (fun _ _ pos c cs here after => ?_) ()
  rw [tagLook]
  split
  · exact sound_literal here (by omega)
  · split
    next brace =>
      subst brace
      exact sound_bracket here rfl (by omega)
    · split <;> exact .nil

theorem sound_markScans {pos : Nat} {c : Char} {cs : Text} (here : t.drop pos = c :: cs)
    (room : 4 * (t.length - pos) ≤ bound) : Sound bound (markScans t pos c cs) := by
  rw [markScans]
  split
  next brace =>
    subst brace
    exact sound_bracket here rfl room
  · split
    · exact sound_tag here room
    · exact .nil

theorem sound_tokensLook (level : Option Nat) (room : 4 * (t.length - start) ≤ bound) :
    Sound bound (scansAt (tokensLook t) level t start) := by
  refine sound_scansAt (fun _ _ pos c cs here after => ?_) level
  rw [tokensLook]
  split
  · exact .nil
  · exact sound_markScans here (by omega)
  · exact sound_markScans here (by omega)

theorem sound_topLevelScans (pattern : Pattern) (one : Bool) (start : Nat)
    (room : 4 * t.length + 2 ≤ bound) : Sound bound (topLevelScans t pattern one start) := by
  refine sound_scansAt (fun _ behind pos c cs here _ => ?_) ()
  rw [topLevelLook]
  split
  · exact sound_literal here (by omega)
  · split
    next opens => exact sound_bracket here opens (by omega)
    · split
      · split <;> exact sound_element here (by omega)
      · split <;> exact .nil

theorem sound_pieceScans (room : 4 * t.length ≤ bound) : Sound bound (pieceScans t) := by
  refine sound_scansAt (fun _ _ pos c cs here _ => ?_) ()
  rw [pieceLook]
  split
  · exact sound_literal here (by omega)
  · split
    next opens => exact sound_bracket here opens (by omega)
    · exact .nil

theorem sound_markupLook (room : 4 * t.length ≤ bound) :
    Sound bound (scansAt (markupLook t) () t start) := by
  refine sound_scansAt (fun _ _ pos c cs here _ => ?_) ()
  rw [markupLook]
  split
  · exact sound_literal here (by omega)
  · split <;> exact .nil

theorem sound_angleLook (room : 4 * t.length ≤ bound) :
    Sound bound (scansAt (angleLook t) 0 t start) := by
  refine sound_scansAt (fun _ _ pos c cs here _ => ?_) 0
  rw [angleLook]
  split
  next opens => exact sound_bracket here opens (by omega)
  · split
    · exact .nil
    · split <;> exact .nil

theorem sound_valueScans (room : 4 * t.length ≤ bound) (start : Nat) :
    Sound bound (valueScans t start) := by
  rw [valueScans]
  split
  next c first =>
    obtain ⟨cs, here⟩ := List.head?_eq_some_iff.1 first
    split
    · exact sound_literal here (by omega)
    · split
      next brace =>
        subst brace
        exact sound_bracket here rfl (by omega)
      · exact .nil
  · exact .nil

theorem sound_attributeScans (room : 4 * t.length ≤ bound) : Sound bound (attributeScans t) := by
  refine sound_scansAt (fun _ _ pos c cs here _ => ?_) ()
  rw [attributeLook]
  split
  next brace =>
    subst brace
    exact sound_bracket here rfl (by omega)
  · split
    · dsimp only
      cases valueStart? _ _ with
      | none => exact .nil
      | some value => exact sound_valueScans room value
    · exact .nil

theorem sound_maskCodeLook {stop : Nat} (fits : stop ≤ t.length)
    (room : 4 * t.length + 2 * (stop - start) + 3 ≤ bound) :
    Sound bound (scansAt (maskCodeLook t stop) () t start) := by
  refine sound_scansAt (fun _ _ pos c cs here after => ?_) ()
  rw [maskCodeLook]
  split
  · exact .nil
  · split
    · exact sound_literal here (by omega)
    · split
      · refine .one ⟨⟨by omega, fits⟩, ?_⟩
        rw [Scan.rank]
        omega
      · exact .nil

theorem sound_maskTemplateLook {stop : Nat} (fits : stop ≤ t.length)
    (room : 4 * t.length + 2 * (stop - start) + 4 ≤ bound) :
    Sound bound (scansAt (maskTemplateLook t stop) () t start) := by
  refine sound_scansAt (fun _ _ pos c cs here after => ?_) ()
  rw [maskTemplateLook]
  split
  · exact .nil
  · split
    · exact .nil
    · split
      · exact .nil
      · split
        next opens =>
          simp only [Bool.and_eq_true, decide_eq_true_eq] at opens
          obtain ⟨ds, next⟩ := drop_next here opens.2
          have bracket : Sound bound [.bracket t (pos + 1)] :=
            sound_bracket next rfl (by omega)
          split
          next close found =>
            obtain ⟨-, inside⟩ := Option.filter_eq_some_iff.1 found
            have inside : close ≤ stop := by simpa using inside
            refine bracket.append (.one ⟨show close - 1 ≤ t.length by omega, ?_⟩)
            rw [Scan.rank]
            omega
          · exact bracket
        · exact .nil

end Looks

/-! ## The scans of a scan -/

theorem length_le_of_mem_splitTopLevel {isSeparator : Char → Bool} {t piece : Text}
    (h : piece ∈ splitTopLevel isSeparator t) : piece.length ≤ t.length := by
  obtain ⟨mem, -⟩ := List.mem_filter.1 h
  obtain ⟨span, -, rfl⟩ := List.mem_map.1 mem
  exact (length_trim_le _).trans (length_slice_le _ _ _)

theorem sound_targetScans {bound : Nat} {target : Text} (room : 4 * target.length ≤ bound) :
    Sound bound (targetScans target) := by
  cases target with
  | nil => exact .nil
  | cons c rest =>
    rw [targetScans]
    rw [List.length_cons] at room
    refine .ite (fun opens => ?_) fun _ => .nil
    have first : isOpener c := by
      simp only [Bool.or_eq_true, decide_eq_true_eq] at opens
      rcases opens with rfl | rfl <;> rfl
    have here : (c :: rest).drop 0 = c :: rest := rfl
    refine .cons (sound_bracket here first ?_) ?_
    · simp only [List.length_cons]
      omega
    · split
      · exact .nil
      next stop _ =>
        have size := length_slice_le rest 0 (stop - 2)
        dsimp only
        refine .ite (fun _ => .one ⟨trivial, ?_⟩) fun _ => .append (sound_pieceScans (by omega)) ?_
        · rw [Scan.rank]
          omega
        · intro scan mem
          obtain ⟨entry, piece, rfl⟩ := List.mem_map.1 mem
          have entry_le := length_le_of_mem_splitTopLevel piece
          have target_le := length_entryTarget_le entry
          exact ⟨trivial, by rw [Scan.rank]; omega⟩

theorem sound_callbackScans {bound : Nat} {body : Text} (room : 4 * body.length + 2 ≤ bound) :
    Sound bound (callbackScans body) := by
  cases body with
  | nil => exact .nil
  | cons c rest =>
    have here : (c :: rest).drop 0 = c :: rest := rfl
    rw [callbackScans]
    simp only [List.length_cons] at room
    refine .ite (fun _ => sound_element here ?_) fun _ => .ite (fun round => ?_) fun _ =>
      .ite (fun curly => .cons ?_ ?_) fun _ => .nil
    · simpa using room
    · subst round
      exact sound_bracket here rfl (by simp only [List.length_cons]; omega)
    · subst curly
      exact sound_bracket here rfl (by simp only [List.length_cons]; omega)
    · split
      · exact .nil
      next stop _ =>
        have size := length_slice_le rest 0 (stop - 2)
        refine .append (sound_topLevelScans _ _ _ (by omega)) ?_
        split
        next statement _ =>
          have cut := (List.drop_sublist statement.stop (slice rest 0 (stop - 2))).length_le
          have trimmed := length_trim_le ((slice rest 0 (stop - 2)).drop statement.stop)
          exact .one ⟨trivial, by rw [Scan.rank]; omega⟩
        · exact .nil

/-- The scans that a defined scan makes are defined, and fewer calls are inside them. -/
theorem Scan.inner_sound {scan : Scan} (h : scan.Defined) {bound : Nat}
    (room : scan.rank ≤ bound + 1) : Sound bound scan.inner := by
  cases scan with
  | literal t pos =>
    have inside : pos < t.length := h
    simp only [Scan.rank] at room
    rw [Scan.inner]
    split
    · exact sound_literalLook _ (by omega)
    · exact .nil
  | bracket t pos =>
    rw [Scan.rank] at room
    rw [Scan.inner]
    split
    next kind opened =>
      obtain ⟨c, first, opener⟩ := Option.bind_eq_some_iff.1 opened
      obtain ⟨rest, here⟩ := List.head?_eq_some_iff.1 first
      have same : c = kind.opener := by
        rw [Bracket.ofOpener?] at opener
        split at opener
        · cases opener; assumption
        · split at opener
          · cases opener; assumption
          · split at opener
            · cases opener; assumption
            · cases opener
      subst same
      exact sound_bracketLook kind here room
    · exact .nil
  | tag t pos =>
    have inside : pos < t.length := h
    simp only [Scan.rank] at room
    exact sound_tagLook (by omega)
  | tokens t pos level =>
    simp only [Scan.rank] at room
    exact sound_tokensLook level (by omega)
  | element t pos =>
    simp only [Scan.rank] at room
    exact sound_tokens _ (by omega)
  | maskCode t pos stop =>
    simp only [Scan.rank] at room
    exact sound_maskCodeLook h (by omega)
  | maskTemplate t pos stop =>
    obtain ⟨inside, fits⟩ : pos < stop ∧ stop ≤ t.length := h
    simp only [Scan.rank] at room
    exact sound_maskTemplateLook fits (by omega)
  | patternNames pattern =>
    simp only [Scan.rank] at room
    refine .append (sound_pieceScans (by omega)) (.flatMap fun element mem => ?_)
    have element_le := length_le_of_mem_splitTopLevel mem
    have target_le := length_bindingTarget_le element
    exact sound_targetScans (by omega)
  | callbackMarkup body =>
    simp only [Scan.rank] at room
    exact sound_callbackScans (by omega)

/-! ## Failing -/

theorem Scan.misuse?_eq_none {scan : Scan} (h : scan.Defined) : scan.misuse? = none := by
  cases scan with
  | literal t pos =>
    rw [Scan.misuse?]
    exact if_pos h
  | bracket t pos =>
    obtain ⟨c, first, opens⟩ := h
    simp [Scan.misuse?, first, opens]
  | maskCode t pos stop =>
    rw [Scan.misuse?]
    exact if_pos h
  | maskTemplate t pos stop =>
    rw [Scan.misuse?]
    exact if_pos h.2
  | _ => rfl

theorem Scan.rank_pos {scan : Scan} (h : scan.Defined) : 0 < scan.rank := by
  cases scan with
  | literal t pos =>
    have inside : pos < t.length := h
    simp only [Scan.rank]
    omega
  | bracket t pos =>
    obtain ⟨c, first, -⟩ := h
    obtain ⟨rest, here⟩ := List.head?_eq_some_iff.1 first
    have inside := lt_length_of_drop here
    simp only [Scan.rank]
    omega
  | tag t pos =>
    have inside : pos < t.length := h
    simp only [Scan.rank]
    omega
  | _ =>
    simp only [Scan.rank]
    omega

/-- A defined scan fails only by an overflow, and not if there is room for more calls than its
rank. -/
theorem Scan.failure?_of_defined : ∀ (limit : Nat) {scan : Scan}, scan.Defined →
    scan.failure? limit = none ∨ scan.failure? limit = some .overflow ∧ limit ≤ scan.rank
  | 0, _, _ => .inr ⟨rfl, Nat.zero_le _⟩
  | limit + 1, scan, h => by
    rw [Scan.failure?, Scan.misuse?_eq_none h]
    dsimp only
    cases found : scan.inner.findSome? (Scan.failure? limit) with
    | none => exact .inl rfl
    | some failure =>
      obtain ⟨inner, mem, failed⟩ := List.exists_of_findSome?_eq_some found
      have positive := Scan.rank_pos h
      have room : scan.rank ≤ scan.rank - 1 + 1 := by omega
      obtain ⟨defined, rank⟩ := Scan.inner_sound h room inner mem
      rcases Scan.failure?_of_defined limit defined with fine | ⟨overflow, deep⟩
      · rw [fine] at failed
        cases failed
      · rw [overflow] at failed
        cases failed
        exact .inr ⟨rfl, by omega⟩

end Recast
