import Recast.Proofs.Scope.Walk

/-!
# When qualifying changes nothing

The code of a body is a sequence of words with marks between them (`Spelled`), so the walk over it
is described by what becomes of each word. A word that reads as a reference (`Mention.reads`) is
qualified unless it is local there (`Mention.isLocal`), and then gets a dot that it did not have. So
qualifying changes nothing just if every word that reads as a reference is local
(`qualify_eq_self_iff`).
-/

namespace Recast

/-! ## Words and marks -/

/-- Code as words and marks, with the text that it is shown for; `behind` is the code before it. -/
inductive Spelled : Text → Text → Text → Prop where
  | done (behind : Text) : Spelled behind [] []
  | mark {behind code body : Text} {c : Char} (b : Char) (isMark : isNameChar c = false)
    (rest : Spelled (c :: behind) code body) : Spelled behind (c :: code) (b :: body)
  | word {behind code body w : Text} (isWord : isWord w) (free : PastWord behind)
    (past : PastWord code)
    (dot : SameDot code body) (rest : Spelled (w.reverse ++ behind) code body) :
    Spelled behind (w ++ code) (w ++ body)

theorem eq_of_shows {c b : Char} (h : Shows c b) (hc : isNameChar c ∨ c = '.') : c = b := by
  rcases h with rfl | hm
  · rfl
  · have marks : ∀ d ∈ [' ', '\n', '(', ')'], isNameChar d = false ∧ d ≠ '.' := by decide
    rcases hc with hn | rfl
    · rw [(marks c hm).1] at hn
      cases hn
    · exact absurd rfl (marks _ hm).2

theorem eq_of_forall_shows :
    ∀ {w body : Text}, List.Forall₂ Shows w body → (∀ c ∈ w, isNameChar c) → w = body
  | [], _, .nil, _ => rfl
  | c :: cs, _, .cons first rest, h => by
    rw [eq_of_shows first (.inl (h c (by simp))),
      eq_of_forall_shows rest fun d hd => h d (by simp [hd])]

theorem sameDot_of_shows {code body : Text} (h : List.Forall₂ Shows code body) :
    SameDot code body := by
  intro hd
  cases h with
  | nil => cases hd
  | cons first rest =>
    cases hd
    rw [← eq_of_shows first (.inr rfl)]
    rfl

/-- What shows as a word is the word. -/
theorem eq_append_of_shows {w rest body : Text} (h : List.Forall₂ Shows (w ++ rest) body)
    (hw : ∀ c ∈ w, isNameChar c) : ∃ rest', body = w ++ rest' ∧ List.Forall₂ Shows rest rest' := by
  have first := List.forall₂_take w.length h
  have second := List.forall₂_drop w.length h
  rw [List.take_left] at first
  rw [List.drop_left] at second
  refine ⟨body.drop w.length, ?_, second⟩
  nth_rewrite 1 [eq_of_forall_shows first hw]
  exact (List.take_append_drop w.length body).symm

/-- Code that starts where no word is cut in two is a sequence of words and marks. -/
theorem spelled_of_shows :
    ∀ (n : Nat) {behind code body : Text}, code.length ≤ n → List.Forall₂ Shows code body →
    PastWord behind ∨ PastWord code → Spelled behind code body
  | _, behind, [], _, _, .nil, _ => .done behind
  | n + 1, behind, c :: cs, b :: bs, hn, .cons first rest, hb => by
    cases hc : isNameChar c with
    | false =>
      refine .mark b hc (spelled_of_shows n (Nat.le_of_succ_le_succ hn) rest (.inl ?_))
      rintro d ⟨⟩
      exact hc
    | true =>
      have free : PastWord behind := hb.resolve_right fun h => by simp [h c rfl] at hc
      have chars : ∀ d ∈ wordAhead (c :: cs), isNameChar d := fun d hd => List.mem_takeWhile_imp hd
      have word : wordAhead (c :: cs) = c :: wordAhead cs := by simp [wordAhead, hc]
      have split := wordAhead_append_afterWord (c :: cs)
      have all : List.Forall₂ Shows (wordAhead (c :: cs) ++ afterWord (c :: cs)) (b :: bs) := by
        rw [split]
        exact .cons first rest
      obtain ⟨rest', he, shown⟩ := eq_append_of_shows all chars
      have shorter : (afterWord (c :: cs)).length ≤ n := by
        have length := congrArg List.length split
        rw [List.length_append, word, List.length_cons] at length
        omega
      have past := pastWord_afterWord (c :: cs)
      have whole : isWord (wordAhead (c :: cs)) := by
        rw [isWord, Bool.and_eq_true, List.all_eq_true]
        exact ⟨by rw [word]; rfl, chars⟩
      have spelled := Spelled.word whole free past (sameDot_of_shows shown)
        (spelled_of_shows n shorter shown (.inr past))
      rwa [split, ← he] at spelled

theorem spelled_mask (body : Text) : Spelled [] (mask body) body :=
  spelled_of_shows _ (Nat.le_refl _) (mask_shows body) (.inl (by rintro c ⟨⟩))

theorem spelled_self {behind code : Text} (h : PastWord behind ∨ PastWord code) :
    Spelled behind code code :=
  spelled_of_shows _ (Nat.le_refl _) (List.forall₂_same.2 fun _ _ => .inl rfl) h

/-! ## References and local names -/

/-- Whether a mention is the props object before a dot. -/
def Mention.isPropsObject (mention : Mention) : Bool :=
  mention.name == "props".toList && mention.ahead.head? = some '.'

/-- Whether a mention reads as a reference, whatever is declared or bound. -/
def Mention.reads (refs : References) (mention : Mention) : Bool :=
  !mention.isMember
    && ((refs.map (·.1)).contains mention.name && !mention.isKey || mention.isPropsObject
      || mention.callsSetter && !globalSetters.contains mention.name)

/-- Whether a mention is of a name that is bound there or being declared; the props object is not
declared. -/
def Mention.isLocal (scopes : List BindingScope) (pos : Nat) (mention : Mention) : Bool :=
  isBound scopes mention.name pos || mention.isDeclared && !mention.isPropsObject

variable {refs : References} {scopes : List BindingScope}

theorem reads_and_not_isLocal (pos : Nat) (mention : Mention) :
    (mention.reads refs && !mention.isLocal scopes pos) =
      (mention.refers refs scopes pos || mention.refersToProps scopes pos ||
        mention.refersToSetter scopes pos) := by
  simp only [Mention.reads, Mention.isLocal, Mention.refers, Mention.refersToProps,
    Mention.refersToSetter, Mention.isPropsObject]
  cases mention.isMember <;> cases mention.isDeclared <;> cases mention.isKey <;>
    cases isBound scopes mention.name pos <;>
    cases (refs.map (·.1)).contains mention.name <;> cases mention.name == "props".toList <;>
    cases decide (mention.ahead.head? = some '.') <;> cases mention.callsSetter <;>
    cases globalSetters.contains mention.name <;> rfl

/-- Each word that reads as a reference in code behind `behind` is as `ok` says of its place. -/
def EachReference (refs : References) (ok : Place → Prop) (behind code : Text) : Prop :=
  ∀ place ∈ placesFrom behind behind.length code, startsFree place.behind →
    place.mention.reads refs → ok place

/-- Each word that reads as a reference is local. -/
def Settled (refs : References) (scopes : List BindingScope) : Text → Text → Prop :=
  EachReference refs fun place => place.mention.isLocal scopes place.pos

section

variable {ok : Place → Prop} {behind code w : Text} {c : Char}

theorem eachReference_cons :
    EachReference refs ok behind (c :: code) ↔
      (startsFree behind → (Place.mention ⟨behind.length, behind, c :: code⟩).reads refs →
        ok ⟨behind.length, behind, c :: code⟩) ∧ EachReference refs ok (c :: behind) code := by
  rw [EachReference, placesFrom, List.forall_mem_cons]
  rfl

theorem reads_of_nil (hn : ∀ entry ∈ refs, isWord entry.1) (behind ahead : Text) :
    (⟨[], behind, ahead⟩ : Mention).reads refs = false := by
  have unknown : (refs.map (·.1)).contains [] = false := by
    rw [Bool.eq_false_iff]
    intro h
    obtain ⟨entry, he, hname⟩ := List.mem_map.1 (List.contains_iff_mem.1 h)
    exact ne_nil_of_isWord (hn entry he) hname
  have props : (⟨[], behind, ahead⟩ : Mention).isPropsObject = false := rfl
  have setter : (⟨[], behind, ahead⟩ : Mention).callsSetter = false := rfl
  rw [Mention.reads, props, setter, unknown]
  exact Bool.and_false _

/-- No reference is read at a mark. -/
theorem eachReference_mark (hn : ∀ entry ∈ refs, isWord entry.1) (hc : isNameChar c = false) :
    EachReference refs ok behind (c :: code) ↔ EachReference refs ok (c :: behind) code := by
  have word : wordAhead (c :: code) = [] := by simp [wordAhead, hc]
  rw [eachReference_cons, Place.mention, word, reads_of_nil hn]
  simp

/-- No reference is read inside a word. -/
theorem eachReference_inside (code : Text) :
    ∀ w behind : Text, (∀ c ∈ w, isNameChar c) → startsFree behind = false →
      (EachReference refs ok behind (w ++ code) ↔ EachReference refs ok (w.reverse ++ behind) code)
  | [], _, _, _ => Iff.rfl
  | c :: cs, behind, hw, hf => by
    have ih := eachReference_inside code cs (c :: behind) (fun d hd => hw d (by simp [hd]))
      (startsFree_eq_false (hw c (by simp)) behind)
    rw [List.cons_append, eachReference_cons, hf, ih, List.reverse_cons, List.append_assoc,
      List.singleton_append]
    simp

theorem mention_word (hw : isWord w) (hr : PastWord code) (pos : Nat) :
    Place.mention ⟨pos, behind, w ++ code⟩ = ⟨w, behind, code⟩ := by
  rw [Place.mention, wordAhead_append (isNameChar_of_isWord hw) hr,
    afterWord_append (isNameChar_of_isWord hw) hr]

/-- A reference is read at the start of a word. -/
theorem eachReference_word (hw : isWord w) (hf : PastWord behind) (hr : PastWord code) :
    EachReference refs ok behind (w ++ code) ↔
      ((⟨w, behind, code⟩ : Mention).reads refs → ok ⟨behind.length, behind, w ++ code⟩) ∧
      EachReference refs ok (w.reverse ++ behind) code := by
  have chars := isNameChar_of_isWord hw
  have mention : Place.mention ⟨behind.length, behind, w ++ code⟩ = _ :=
    mention_word hw hr behind.length
  obtain ⟨c, cs, rfl⟩ := List.exists_cons_of_ne_nil (ne_nil_of_isWord hw)
  rw [List.cons_append] at mention ⊢
  rw [eachReference_cons, mention, startsFree_of_pastWord hf,
    eachReference_inside code cs (c :: behind) (fun d hd => chars d (by simp [hd]))
      (startsFree_eq_false (chars c (by simp)) behind),
    List.reverse_cons, List.append_assoc, List.singleton_append]
  simp

end

/-! ## Dots -/

theorem count_dot_of_isWord {w : Text} (h : isWord w) : w.count '.' = 0 :=
  List.count_eq_zero.2 fun hm => Bool.noConfusion (isNameChar_of_isWord h '.' hm)

/-- A mention that does not read as a reference, or is local, stays. -/
theorem qualified_eq_name {mention : Mention} {pos : Nat}
    (h : (mention.reads refs && !mention.isLocal scopes pos) = false) :
    mention.qualified refs scopes pos = mention.name := by
  rw [reads_and_not_isLocal, Bool.or_eq_false_iff, Bool.or_eq_false_iff] at h
  rw [Mention.qualified, h.1.1, h.1.2, h.2]
  rfl

theorem dot_mem_access {state : List Text} {props : List (Text × Text)} {mention : Mention}
    (h : ((references state props).map (·.1)).contains mention.name) :
    '.' ∈ mention.access (references state props) := by
  have access : '.' ∈ ((references state props).lookup mention.name).getD [] := by
    rw [contains_references, lookup_references] at h
    rw [lookup_references]
    split
    · exact List.mem_append_left _ (by decide)
    · rename_i hs
      rw [if_neg hs, Option.isSome_map] at h
      obtain ⟨key, hk⟩ := Option.isSome_iff_exists.1 h
      rw [hk]
      exact List.mem_append_left _ (by decide)
  rw [Mention.access]
  split
  · exact List.mem_append_right _ access
  · exact access

/-- A mention that reads as a reference and is not local becomes an access. -/
theorem dot_mem_qualified {state : List Text} {props : List (Text × Text)} {mention : Mention}
    {pos : Nat} (h : mention.reads (references state props) && !mention.isLocal scopes pos) :
    '.' ∈ mention.qualified (references state props) scopes pos := by
  rw [reads_and_not_isLocal, Bool.or_eq_true, Bool.or_eq_true] at h
  rw [Mention.qualified]
  split
  · rename_i hr
    rw [Mention.refers, Bool.and_eq_true] at hr
    exact dot_mem_access hr.1
  · rename_i hr
    split
    · decide
    · rename_i hp
      rw [if_pos ((h.resolve_left fun h => h.elim hr hp))]
      exact List.mem_append_left _ (by decide)

/-- The walk leaves settled code as it is, and adds dots to other code. -/
theorem Spelled.walk {state : List Text} {props : List (Text × Text)}
    (hn : ∀ entry ∈ references state props, Recast.isWord entry.1) {behind code body : Text}
    (h : Spelled behind code body) :
    Settled (references state props) scopes behind code ∧
        Recast.walk (references state props) scopes behind behind.length code body = body ∨
      ¬Settled (references state props) scopes behind code ∧
        body.count '.' < (Recast.walk (references state props) scopes behind behind.length code
          body).count '.' := by
  induction h with
  | done behind =>
    left
    exact ⟨by rintro place ⟨⟩, rfl⟩
  | mark b isMark rest ih =>
    rw [walk_quiet hn isMark, Settled, eachReference_mark hn isMark, List.count_cons,
      List.count_cons]
    rw [List.length_cons] at ih
    rcases ih with ⟨settled, same⟩ | ⟨unsettled, more⟩
    · exact .inl ⟨settled, by rw [same]⟩
    · exact .inr ⟨unsettled, by omega⟩
  | @word behind code body w isWord free past dot rest ih =>
    rw [walk_word hn isWord (startsFree_of_pastWord free) past dot, Settled,
      eachReference_word isWord free past, List.count_append, List.count_append,
      count_dot_of_isWord isWord]
    rw [length_reverse_append] at ih
    dsimp only
    rw [mention_word isWord past]
    cases hr : (⟨w, behind, code⟩ : Mention).reads (references state props) &&
        !(⟨w, behind, code⟩ : Mention).isLocal scopes behind.length with
    | false =>
      have stays : (⟨w, behind, code⟩ : Mention).reads (references state props) →
          (⟨w, behind, code⟩ : Mention).isLocal scopes behind.length := by
        simpa using hr
      have name : (⟨w, behind, code⟩ : Mention).qualified (references state props) scopes
          behind.length = w := qualified_eq_name hr
      rw [name, count_dot_of_isWord isWord]
      rcases ih with ⟨settled, same⟩ | ⟨unsettled, more⟩
      · exact .inl ⟨⟨stays, settled⟩, by rw [same]⟩
      · exact .inr ⟨fun h => unsettled h.2, by omega⟩
    | true =>
      have dots := List.count_pos_iff.2 (dot_mem_qualified hr)
      refine .inr ⟨fun h => ?_, ?_⟩
      · rw [Bool.and_eq_true, Bool.not_eq_true'] at hr
        exact Bool.noConfusion (hr.2.symm.trans (h.1 hr.1))
      · rcases ih with ⟨settled, same⟩ | ⟨unsettled, more⟩
        · rw [same]
          omega
        · omega

/-- Qualifying changes nothing just if every word that reads as a reference is local. -/
theorem qualify_eq_self_iff {state : List Text} {props : List (Text × Text)}
    (hn : ∀ entry ∈ references state props, isWord entry.1) (body : Text) :
    qualify state props body = body ↔
      Settled (references state props) (bindingScopes (mask body)) [] (mask body) := by
  have walked : Settled (references state props) (bindingScopes (mask body)) [] (mask body) ∧
      _ ∨ _ :=
    (spelled_mask body).walk hn
  rw [qualify_eq_walk hn]
  rcases walked with ⟨settled, same⟩ | ⟨unsettled, more⟩
  · exact ⟨fun _ => settled, fun _ => same⟩
  · refine ⟨fun same => ?_, fun settled => absurd settled unsettled⟩
    rw [List.length_nil, same] at more
    exact absurd more (Nat.lt_irrefl _)

end Recast
