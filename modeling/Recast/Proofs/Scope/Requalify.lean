import Recast.Proofs.Scope.MaskModes
import Recast.Proofs.Scope.Settled

/-!
# Qualifying again

The second run over a body reads a text in which words have become member accesses of `this`. What
stands around a word then differs only inside other words (`SameMarks`), so a word that stayed reads
as it did before (`reads_eq_of_sameMarks`), and no word of an access reads as a reference
(`MemberChain.eachReference`). What can change is which names are local: the second run changes
nothing just if each reference that was local is local again at its new place (`Place.image`).
-/

namespace Recast

/-! ## Texts with the same marks -/

/-- Two texts that are equal up to the first word, which both have or neither. -/
inductive SameMarks : Text → Text → Prop where
  | done : SameMarks [] []
  | word {c d : Char} (hc : isNameChar c) (hd : isNameChar d) (t t' : Text) :
    SameMarks (c :: t) (d :: t')
  | mark {c : Char} {t t' : Text} (hc : isNameChar c = false) (rest : SameMarks t t') :
    SameMarks (c :: t) (c :: t')

namespace SameMarks

variable {t t' : Text}

theorem head?_eq_some_iff (h : SameMarks t t') {c : Char} (hc : isNameChar c = false) :
    t.head? = some c ↔ t'.head? = some c := by
  cases h with
  | done => rfl
  | word hd he t t' =>
    constructor
    · rintro ⟨⟩
      exact absurd hd (by simp [hc])
    · rintro ⟨⟩
      exact absurd he (by simp [hc])
  | mark hd rest => rfl

theorem pastWord (h : SameMarks t t') (hp : PastWord t) : PastWord t' := by
  intro c hc
  cases h with
  | done => cases hc
  | word hd he t t' => exact absurd hd (by simp [hp _ rfl])
  | mark hd rest => exact hp c hc

theorem startsWith_eq (h : SameMarks t t') : ∀ {marks : Text}, (∀ c ∈ marks, isNameChar c = false) →
    startsWith t marks = startsWith t' marks := by
  induction h with
  | done => exact fun _ => rfl
  | @word c d hc hd t t' =>
    intro marks hm
    cases marks with
    | nil => rfl
    | cons m marks =>
      have mark := hm m (by simp)
      have first : m ≠ c := by
        rintro rfl
        simp [mark] at hc
      have second : m ≠ d := by
        rintro rfl
        simp [mark] at hd
      rw [startsWith, startsWith, dropHead?, dropHead?, if_neg first, if_neg second]
  | @mark c t t' hc rest ih =>
    intro marks hm
    cases marks with
    | nil => rfl
    | cons m marks =>
      have rest : startsWith t marks = startsWith t' marks :=
        ih fun d hd => hm d (List.mem_cons_of_mem m hd)
      rw [startsWith, startsWith, dropHead?, dropHead?]
      split
      · exact rest
      · rfl

theorem trimStart (h : SameMarks t t') : SameMarks (trimStart t) (Recast.trimStart t') := by
  induction h with
  | done => exact .done
  | word hc hd t t' =>
    rw [Recast.trimStart, Recast.trimStart, List.dropWhile_cons_of_neg, List.dropWhile_cons_of_neg]
    · exact .word hc hd t t'
    · simp [not_isBlank_of_isNameChar hd]
    · simp [not_isBlank_of_isNameChar hc]
  | @mark c t t' hc rest ih =>
    rw [Recast.trimStart, Recast.trimStart]
    cases hb : isBlank c with
    | true =>
      rw [List.dropWhile_cons_of_pos hb, List.dropWhile_cons_of_pos hb]
      exact ih
    | false =>
      rw [List.dropWhile_cons_of_neg (by simp [hb]), List.dropWhile_cons_of_neg (by simp [hb])]
      exact .mark hc rest

theorem append_of_ends {w w' : Text} (h : ∃ c cs, w = c :: cs ∧ isNameChar c)
    (h' : ∃ c cs, w' = c :: cs ∧ isNameChar c) (t t' : Text) : SameMarks (w ++ t) (w' ++ t') := by
  obtain ⟨c, cs, rfl, hc⟩ := h
  obtain ⟨d, ds, rfl, hd⟩ := h'
  exact .word hc hd _ _

end SameMarks

variable {refs : References} {scopes : List BindingScope}

section

variable {w behind behind' ahead ahead' : Text}

theorem isMember_eq_of_sameMarks (hb : SameMarks behind behind') :
    (⟨w, behind, ahead⟩ : Mention).isMember = (⟨w, behind', ahead'⟩ : Mention).isMember := by
  rw [Mention.isMember, Mention.isMember, hb.startsWith_eq (by decide),
    decide_eq_decide.2 (hb.head?_eq_some_iff (by decide))]

theorem startsEntry_iff {mention : Mention} :
    mention.startsEntry ↔ (trimStart mention.behind).head? = some '{' ∨
      (trimStart mention.behind).head? = some ',' := by
  rw [Mention.startsEntry]
  cases (trimStart mention.behind).head? with
  | none => simp
  | some c => simp

theorem startsEntry_eq_of_sameMarks (hb : SameMarks behind behind') :
    (⟨w, behind, ahead⟩ : Mention).startsEntry = (⟨w, behind', ahead'⟩ : Mention).startsEntry := by
  rw [Bool.eq_iff_iff, startsEntry_iff, startsEntry_iff, hb.trimStart.head?_eq_some_iff (by decide),
    hb.trimStart.head?_eq_some_iff (by decide)]

theorem isKey_eq_of_sameMarks (hb : SameMarks behind behind') (ha : SameMarks ahead ahead') :
    (⟨w, behind, ahead⟩ : Mention).isKey = (⟨w, behind', ahead'⟩ : Mention).isKey := by
  rw [Mention.isKey, Mention.isKey, startsEntry_eq_of_sameMarks hb,
    decide_eq_decide.2 (ha.trimStart.head?_eq_some_iff (by decide))]

theorem isPropsObject_eq_of_sameMarks (ha : SameMarks ahead ahead') :
    (⟨w, behind, ahead⟩ : Mention).isPropsObject =
      (⟨w, behind', ahead'⟩ : Mention).isPropsObject := by
  rw [Mention.isPropsObject, Mention.isPropsObject,
    decide_eq_decide.2 (ha.head?_eq_some_iff (by decide))]

theorem callsSetter_eq_of_sameMarks (ha : SameMarks ahead ahead') :
    (⟨w, behind, ahead⟩ : Mention).callsSetter = (⟨w, behind', ahead'⟩ : Mention).callsSetter := by
  rw [Mention.callsSetter, Mention.callsSetter,
    decide_eq_decide.2 (ha.trimStart.head?_eq_some_iff (by decide))]

/-- A word between the same marks reads as a reference or does not, as before. -/
theorem reads_eq_of_sameMarks (hb : SameMarks behind behind') (ha : SameMarks ahead ahead') :
    (⟨w, behind, ahead⟩ : Mention).reads refs = (⟨w, behind', ahead'⟩ : Mention).reads refs := by
  rw [Mention.reads, Mention.reads, isMember_eq_of_sameMarks hb, isKey_eq_of_sameMarks hb ha,
    isPropsObject_eq_of_sameMarks ha, callsSetter_eq_of_sameMarks ha]

end

/-! ## Member accesses -/

/-- A member access of `this`, or `this` alone. -/
inductive MemberChain : Text → Prop where
  | root : MemberChain "this".toList
  | member {t w : Text} (object : MemberChain t) (hw : isWord w) : MemberChain (t ++ '.' :: w)

theorem exists_cons_of_isWord {w : Text} (h : isWord w) : ∃ c cs, w = c :: cs ∧ isNameChar c := by
  obtain ⟨c, cs, rfl⟩ := List.exists_cons_of_ne_nil (ne_nil_of_isWord h)
  exact ⟨c, cs, rfl, isNameChar_of_isWord h c (by simp)⟩

namespace MemberChain

variable {t : Text}

theorem starts (h : MemberChain t) : ∃ c cs, t = c :: cs ∧ isNameChar c := by
  induction h with
  | root => exact exists_cons_of_isWord (by decide)
  | member object hw ih =>
    obtain ⟨c, cs, rfl, hc⟩ := ih
    exact ⟨c, _, rfl, hc⟩

theorem ends (h : MemberChain t) : ∃ c cs, t.reverse = c :: cs ∧ isNameChar c := by
  cases h with
  | root => exact exists_cons_of_isWord (by decide)
  | member object hw =>
    obtain ⟨c, cs, he, hc⟩ := exists_cons_of_isWord (isWord_reverse hw)
    exact ⟨c, _, by rw [List.reverse_append, List.reverse_cons, he]; rfl, hc⟩

end MemberChain

theorem reads_of_isMember {mention : Mention} (h : mention.isMember) :
    mention.reads refs = false := by
  rw [Mention.reads, h]
  rfl

theorem isMember_after_word {w t ahead : Text} (ht : ∃ c cs, t = c :: cs ∧ isNameChar c) :
    (⟨w, '.' :: t, ahead⟩ : Mention).isMember := by
  obtain ⟨c, cs, rfl, hc⟩ := ht
  have spread : startsWith ('.' :: c :: cs) "...".toList = false := by
    have first : '.' ≠ c := by
      rintro rfl
      exact Bool.noConfusion hc
    simp [startsWith, dropHead?, first]
  rw [Mention.isMember, spread]
  rfl

theorem reads_this (ht : ∀ entry ∈ refs, entry.1 ≠ "this".toList) (behind ahead : Text) :
    (⟨"this".toList, behind, ahead⟩ : Mention).reads refs = false := by
  have unknown : (refs.map (·.1)).contains "this".toList = false := by
    rw [Bool.eq_false_iff]
    intro h
    obtain ⟨entry, he, hname⟩ := List.mem_map.1 (List.contains_iff_mem.1 h)
    exact ht entry he hname
  have props : (⟨"this".toList, behind, ahead⟩ : Mention).isPropsObject = false := rfl
  have setter : (⟨"this".toList, behind, ahead⟩ : Mention).callsSetter = false := rfl
  rw [Mention.reads, unknown, props, setter]
  exact Bool.and_false _

section

variable {ok : Place → Prop} (hn : ∀ entry ∈ refs, isWord entry.1)
  (ht : ∀ entry ∈ refs, entry.1 ≠ "this".toList)

include hn ht

/-- No word of a member access of `this` reads as a reference. -/
theorem MemberChain.eachReference {t behind : Text} (h : MemberChain t) (hb : PastWord behind) :
    ∀ {rest : Text}, PastWord rest →
      (EachReference refs ok behind (t ++ rest) ↔
        EachReference refs ok (t.reverse ++ behind) rest) := by
  induction h with
  | root =>
    intro rest hr
    rw [eachReference_word (by decide) hb hr, reads_this ht]
    simp
  | @member t w object hw ih =>
    intro rest hr
    have dot : ∀ rest, PastWord ('.' :: rest) := by
      rintro rest c ⟨⟩
      decide
    have ends : ∃ c cs, t.reverse ++ behind = c :: cs ∧ isNameChar c := by
      obtain ⟨c, cs, he, hc⟩ := object.ends
      exact ⟨c, _, by rw [he]; rfl, hc⟩
    rw [List.append_assoc, List.cons_append, ih (dot _), eachReference_mark hn (by decide),
      eachReference_word hw (dot _) hr, reads_of_isMember (isMember_after_word ends)]
    simp

end

/-! ## What a reference becomes -/

/-- Names that references can have: words, and not `this`. -/
structure Referable (state : List Text) (props : List (Text × Text)) : Prop where
  state : ∀ name ∈ state, isWord name ∧ name ≠ "this".toList
  props : ∀ entry ∈ props, (isWord entry.1 ∧ entry.1 ≠ "this".toList) ∧ isWord entry.2

namespace Referable

variable {state : List Text} {props : List (Text × Text)} (h : Referable state props)

include h

theorem isWord_and_ne :
    ∀ entry ∈ references state props, isWord entry.1 ∧ entry.1 ≠ "this".toList := by
  intro entry he
  rcases List.mem_append.1 he with hm | hm
  · obtain ⟨name, hs, rfl⟩ := List.mem_map.1 hm
    exact h.state name hs
  · obtain ⟨prop, hp, rfl⟩ := List.mem_map.1 hm
    exact (h.props prop hp).1

theorem isWord : ∀ entry ∈ references state props, isWord entry.1 :=
  fun entry he => (h.isWord_and_ne entry he).1

theorem ne_this : ∀ entry ∈ references state props, entry.1 ≠ "this".toList :=
  fun entry he => (h.isWord_and_ne entry he).2

/-- A reference is replaced by a member access of `this`. -/
theorem memberChain_lookup {name : Text} (hc : ((references state props).map (·.1)).contains name) :
    MemberChain (((references state props).lookup name).getD []) := by
  rw [contains_references, lookup_references] at hc
  rw [lookup_references]
  split
  · rename_i hs
    exact .member .root (h.state name (List.contains_iff_mem.1 hs)).1
  · rename_i hs
    rw [if_neg hs, Option.isSome_map] at hc
    obtain ⟨key, hk⟩ := Option.isSome_iff_exists.1 hc
    rw [hk]
    obtain ⟨front, back, rfl, _⟩ := List.lookup_eq_some_iff.1 hk
    exact .member (.member .root (w := "props".toList) (by decide))
      (h.props (name, key) (by simp)).2

/-- A mention that is qualified becomes a member access of `this`; a shorthand keeps its key. -/
theorem qualified_cases {mention : Mention} {pos : Nat} (hw : Recast.isWord mention.name)
    (hr : mention.reads (references state props) && !mention.isLocal scopes pos) :
    ∃ chain, MemberChain chain ∧ (mention.qualified (references state props) scopes pos = chain ∨
      mention.startsEntry ∧
        mention.qualified (references state props) scopes pos =
          mention.name ++ ": ".toList ++ chain) := by
  rw [reads_and_not_isLocal, Bool.or_eq_true, Bool.or_eq_true] at hr
  rw [Mention.qualified]
  split
  · rename_i refers
    rw [Mention.refers, Bool.and_eq_true] at refers
    refine ⟨_, h.memberChain_lookup refers.1, ?_⟩
    rw [Mention.access]
    split
    · rename_i short
      rw [Mention.isShorthand, Bool.and_eq_true, Bool.and_eq_true] at short
      exact .inr ⟨short.1.1, rfl⟩
    · exact .inl rfl
  · rename_i refers
    split
    · exact ⟨_, .member .root (w := "props".toList) (by decide), .inl rfl⟩
    · rename_i object
      rw [if_pos (hr.resolve_left fun hr => hr.elim refers object)]
      exact ⟨_, .member .root hw, .inl rfl⟩

/-- What a word becomes starts and ends in a word. -/
theorem qualified_ends {mention : Mention} (pos : Nat) (hw : Recast.isWord mention.name) :
    (∃ c cs, mention.qualified (references state props) scopes pos = c :: cs ∧ isNameChar c) ∧
      ∃ c cs, (mention.qualified (references state props) scopes pos).reverse = c :: cs ∧
        isNameChar c := by
  cases hr : mention.reads (references state props) && !mention.isLocal scopes pos with
  | false =>
    rw [qualified_eq_name hr]
    exact ⟨exists_cons_of_isWord hw, exists_cons_of_isWord (isWord_reverse hw)⟩
  | true =>
    obtain ⟨chain, isChain, he | ⟨_, he⟩⟩ := h.qualified_cases hw hr
    · rw [he]
      exact ⟨isChain.starts, isChain.ends⟩
    · obtain ⟨c, cs, hname, hc⟩ := exists_cons_of_isWord hw
      obtain ⟨d, ds, hchain, hd⟩ := isChain.ends
      rw [he]
      refine ⟨⟨c, _, by rw [hname]; rfl, hc⟩, d, _, by rw [List.reverse_append, hchain]; rfl, hd⟩

/-- No word of what a reference becomes reads as a reference again. -/
theorem eachReference_qualified {ok : Place → Prop} {w behind behind' ahead rest : Text} {pos : Nat}
    (hw : Recast.isWord w) (hs : SameMarks behind behind') (hb : PastWord behind')
    (hp : PastWord rest)
    (hr : (⟨w, behind, ahead⟩ : Mention).reads (references state props) &&
      !(⟨w, behind, ahead⟩ : Mention).isLocal scopes pos) :
    EachReference (references state props) ok behind'
        ((⟨w, behind, ahead⟩ : Mention).qualified (references state props) scopes pos ++ rest) ↔
      EachReference (references state props) ok
        (((⟨w, behind, ahead⟩ : Mention).qualified (references state props) scopes pos).reverse ++
          behind') rest := by
  obtain ⟨chain, isChain, he | ⟨entry, he⟩⟩ := h.qualified_cases hw hr
  · rw [he]
    exact isChain.eachReference h.isWord h.ne_this hb hp
  · have colon : PastWord (": ".toList ++ (chain ++ rest)) := by
      rintro c ⟨⟩
      decide
    have blank : PastWord (": ".toList.reverse ++ (w.reverse ++ behind')) := by
      rintro c ⟨⟩
      decide
    -- The name before the colon is a key.
    have key : (⟨w, behind', ": ".toList ++ (chain ++ rest)⟩ : Mention).reads
        (references state props) = false := by
      have isKey : (⟨w, behind', ": ".toList ++ (chain ++ rest)⟩ : Mention).isKey := by
        rw [startsEntry_eq_of_sameMarks hs] at entry
        rw [Mention.isKey, Bool.and_eq_true]
        exact ⟨entry, rfl⟩
      have notObject : (⟨w, behind', ": ".toList ++ (chain ++ rest)⟩ : Mention).isPropsObject =
          false :=
        Bool.and_false _
      have notCalled : (⟨w, behind', ": ".toList ++ (chain ++ rest)⟩ : Mention).callsSetter =
          false :=
        Bool.and_false _
      rw [Mention.reads, isKey, notObject, notCalled]
      simp
    have steps : EachReference (references state props) ok behind'
        (w ++ (": ".toList ++ (chain ++ rest))) ↔
        EachReference (references state props) ok
          (chain.reverse ++ (": ".toList.reverse ++ (w.reverse ++ behind'))) rest := by
      rw [eachReference_word hw hb colon, key, ← isChain.eachReference h.isWord h.ne_this blank hp]
      simp only [Bool.false_eq_true, false_implies, true_and]
      exact (eachReference_mark h.isWord (by decide)).trans
        (eachReference_mark h.isWord (by decide))
    rw [he]
    simpa only [List.append_assoc, List.reverse_append] using steps

end Referable

/-! ## The second run -/

/-- Where a place of the code is in the qualified code `out`. -/
def Place.image (refs : References) (scopes : List BindingScope) (out : Text) (place : Place) :
    Place :=
  let ahead := walk refs scopes place.behind place.pos place.ahead place.ahead
  ⟨out.length - ahead.length, (out.take (out.length - ahead.length)).reverse, ahead⟩

theorem image_eq {behind behind' code out : Text}
    (h : out = behind'.reverse ++ walk refs scopes behind behind.length code code) :
    Place.image refs scopes out ⟨behind.length, behind, code⟩ =
      ⟨behind'.length, behind', walk refs scopes behind behind.length code code⟩ := by
  have length : out.length - (walk refs scopes behind behind.length code code).length =
      behind'.length := by
    rw [h, List.length_append, List.length_reverse, Nat.add_sub_cancel]
  have before : (out.take behind'.length).reverse = behind' := by
    rw [h, ← List.length_reverse, List.take_left, List.reverse_reverse]
  rw [Place.image]
  simp only [length, before]

variable {state : List Text} {props : List (Text × Text)} {behind behind' code body out : Text}

/-- The qualified code has the same marks as the code. -/
theorem Spelled.sameMarks (hn : Referable state props) (h : Spelled behind code body)
    (same : body = code) :
    SameMarks code
      (Recast.walk (references state props) scopes behind behind.length code code) := by
  induction h with
  | done behind => exact .done
  | @mark behind code body c b isMark rest ih =>
    rw [walk_quiet hn.isWord isMark]
    exact .mark isMark (ih (List.cons.inj same).2)
  | @word behind code body w hw free past dot rest ih =>
    rw [walk_word hn.isWord hw (startsFree_of_pastWord free) past fun h => h]
    exact .append_of_ends (exists_cons_of_isWord hw) (hn.qualified_ends _ hw).1 _ _

/-- Each reference in the qualified code is one that was local, and at its new place. -/
theorem Spelled.eachReference {ok : Place → Prop} (hn : Referable state props)
    (h : Spelled behind code body) :
    ∀ {behind' : Text}, body = code → SameMarks behind behind' →
      out = behind'.reverse ++
        Recast.walk (references state props) scopes behind behind.length code code →
      (EachReference (references state props) ok behind'
          (Recast.walk (references state props) scopes behind behind.length code code) ↔
        EachReference (references state props)
          (fun place => place.mention.isLocal scopes place.pos →
            ok (place.image (references state props) scopes out)) behind code) := by
  induction h with
  | done behind =>
    intro behind' same hb hout
    constructor
    · rintro _ place ⟨⟩
    · rintro _ place ⟨⟩
  | @mark behind code body c b isMark rest ih =>
    intro behind' same hb hout
    rw [walk_quiet hn.isWord isMark] at hout ⊢
    rw [eachReference_mark hn.isWord isMark, eachReference_mark hn.isWord isMark]
    exact ih (List.cons.inj same).2 (.mark isMark hb) (by rw [hout]; simp)
  | @word behind code body w hw free past dot rest ih =>
    intro behind' same hb hout
    obtain rfl : body = code := List.append_cancel_left same
    have image := image_eq hout
    have ends := @Referable.qualified_ends scopes state props hn ⟨w, behind, body⟩ behind.length hw
    have ahead : SameMarks body
        (Recast.walk (references state props) scopes (w.reverse ++ behind)
          (behind.length + w.length) body body) := by
      rw [← length_reverse_append]
      exact rest.sameMarks hn rfl
    rw [walk_word hn.isWord hw (startsFree_of_pastWord free) past dot] at hout image ⊢
    rw [length_reverse_append] at ih
    have step := @ih
      (((⟨w, behind, body⟩ : Mention).qualified (references state props) scopes
        behind.length).reverse ++ behind') rfl
      (.append_of_ends (exists_cons_of_isWord (isWord_reverse hw)) ends.2 _ _) (by rw [hout]; simp)
    rw [eachReference_word hw free past, image, mention_word hw past, ← step]
    cases hr : (⟨w, behind, body⟩ : Mention).reads (references state props) &&
        !(⟨w, behind, body⟩ : Mention).isLocal scopes behind.length with
    | true =>
      rw [hn.eachReference_qualified hw hb (hb.pastWord free) (ahead.pastWord past) hr]
      rw [Bool.and_eq_true, Bool.not_eq_true'] at hr
      simp [hr.2]
    | false =>
      have name : (⟨w, behind, body⟩ : Mention).qualified (references state props) scopes
          behind.length = w :=
        qualified_eq_name hr
      rw [name, eachReference_word hw (hb.pastWord free) (ahead.pastWord past),
        ← reads_eq_of_sameMarks hb ahead]
      have stays : (⟨w, behind, body⟩ : Mention).reads (references state props) →
          (⟨w, behind, body⟩ : Mention).isLocal scopes behind.length := by
        simpa using hr
      constructor
      · exact fun both => ⟨fun reads _ => both.1 reads, both.2⟩
      · exact fun both => ⟨fun reads => both.1 reads (stays reads), both.2⟩

/-! ## The mask of the qualified body -/

/-- Characters that a mask does not tell apart when it looks ahead. -/
def SameAhead (first second : Option Char) : Prop :=
  first = second ∨ ∃ c d, first = some c ∧ second = some d ∧ isNameChar c ∧ isNameChar d

theorem SameAhead.eq_some_iff {first second : Option Char} (h : SameAhead first second) {c : Char}
    (hc : isNameChar c = false) : first = some c ↔ second = some c := by
  rcases h with rfl | ⟨d, e, rfl, rfl, hd, he⟩
  · rfl
  · constructor
    · rintro ⟨⟩
      simp [hc] at hd
    · rintro ⟨⟩
      simp [hc] at he

theorem SameAhead.eq_none_iff {first second : Option Char} (h : SameAhead first second) :
    first = none ↔ second = none := by
  rcases h with rfl | ⟨d, e, rfl, rfl, _, _⟩
  · rfl
  · simp

namespace MaskMode

variable {c : Char}

theorem next_eq {first second : Option Char} (h : SameAhead first second) (c : Char)
    (mode : MaskMode) : mode.next c first = mode.next c second := by
  cases mode <;> simp only [next, h.eq_some_iff (show isNameChar '/' = false by decide),
    h.eq_some_iff (show isNameChar '*' = false by decide)]

theorem shows_eq {first second : Option Char} (h : SameAhead first second) (c : Char)
    (mode : MaskMode) : mode.shows c first = mode.shows c second := by
  cases mode <;> simp only [shows, h.eq_some_iff (show isNameChar '/' = false by decide),
    h.eq_some_iff (show isNameChar '*' = false by decide), h.eq_none_iff]

theorem not_isNameChar_hide (c : Char) : isNameChar (hide c) = false := by
  rw [hide]
  split <;> decide

/-- A character of a name is shown in code only. -/
theorem eq_code_of_shows {mode : MaskMode} {ahead : Option Char}
    (h : isNameChar (mode.shows c ahead)) : mode = .code := by
  have quotes : ∀ quote : Char, quote = '"' ∨ quote = '\'' → isNameChar quote = false := by
    rintro quote (rfl | rfl) <;> decide
  cases mode with
  | code => rfl
  | string quote valid =>
    rw [shows] at h
    split at h
    · rename_i hc
      rw [hc, quotes quote valid] at h
      cases h
    · rw [not_isNameChar_hide] at h
      cases h
  | escaped quote valid =>
    rw [shows] at h
    split at h
    · rename_i hc
      rw [hc.1, quotes quote valid] at h
      cases h
    · rw [not_isNameChar_hide] at h
      cases h
  | line | opening | block | closing =>
    rw [shows, not_isNameChar_hide] at h
    cases h

end MaskMode

/-- Text without quotes and slashes is shown. -/
theorem maskIn_code_append (rest : Text) :
    ∀ t : Text, (∀ c ∈ t, c ≠ '"' ∧ c ≠ '\'' ∧ c ≠ '/') →
      maskIn .code (t ++ rest) = t ++ maskIn .code rest
  | [], _ => rfl
  | c :: cs, h => by
    have ih := maskIn_code_append rest cs fun d hd => h d (List.mem_cons_of_mem c hd)
    obtain ⟨double, single, slash⟩ := h c (by simp)
    rw [List.cons_append, maskIn, MaskMode.shows, MaskMode.next, if_neg fun h => slash h.1,
      dif_neg fun h => h.elim double single, if_neg fun h => slash h.1, if_neg fun h => slash h.1,
      ih, List.cons_append]

theorem MemberChain.chars {t : Text} (h : MemberChain t) : ∀ c ∈ t, isNameChar c ∨ c = '.' := by
  induction h with
  | root => exact fun c hc => .inl (isNameChar_of_isWord (by decide) c hc)
  | member object hw ih =>
    intro c hc
    rcases List.mem_append.1 hc with hm | hm
    · exact ih c hm
    · rcases List.mem_cons.1 hm with rfl | hm
      · exact .inr rfl
      · exact .inl (isNameChar_of_isWord hw c hm)

/-- The characters of what a word becomes. -/
theorem Referable.qualified_chars (hn : Referable state props) {mention : Mention} (pos : Nat)
    (hw : Recast.isWord mention.name) :
    ∀ c ∈ mention.qualified (references state props) scopes pos, isNameChar c ∨
      c ∈ ['.', ':', ' '] := by
  have chars := isNameChar_of_isWord hw
  intro c hc
  cases hr : mention.reads (references state props) && !mention.isLocal scopes pos with
  | false =>
    rw [qualified_eq_name hr] at hc
    exact .inl (chars c hc)
  | true =>
    obtain ⟨chain, isChain, he | ⟨_, he⟩⟩ := hn.qualified_cases hw hr
    · rw [he] at hc
      exact (isChain.chars c hc).imp_right fun h => by simp [h]
    · rw [he, List.append_assoc, List.mem_append, List.mem_append] at hc
      rcases hc with hm | hm | hm
      · exact .inl (chars c hm)
      · exact .inr (List.mem_cons_of_mem '.' hm)
      · exact (isChain.chars c hm).imp_right fun h => by simp [h]

theorem Spelled.sameAhead (hn : Referable state props) (h : Spelled behind code body) :
    SameAhead body.head?
      (Recast.walk (references state props) scopes behind behind.length code body).head? := by
  cases h with
  | done => exact .inl rfl
  | mark b isMark rest =>
    rw [walk_quiet hn.isWord isMark]
    exact .inl rfl
  | @word behind code body w hw free past dot rest =>
    obtain ⟨c, cs, rfl, hc⟩ := exists_cons_of_isWord hw
    have first :=
      (@Referable.qualified_ends scopes state props hn ⟨c :: cs, behind, code⟩ behind.length hw).1
    obtain ⟨d, ds, hd, isName⟩ := first
    rw [walk_word hn.isWord hw (startsFree_of_pastWord free) past dot, hd]
    exact .inr ⟨c, d, rfl, rfl, hc, isName⟩

/-- A mark that is not in the body and is in no access is not in the qualified body. -/
theorem Spelled.not_mem_walk (hn : Referable state props) (h : Spelled behind code body) {c : Char}
    (hc : ¬(isNameChar c ∨ c ∈ ['.', ':', ' '])) (hb : c ∉ body) :
    c ∉ Recast.walk (references state props) scopes behind behind.length code body := by
  induction h with
  | done => exact List.not_mem_nil
  | mark b isMark rest ih =>
    rw [List.mem_cons, not_or] at hb
    rw [walk_quiet hn.isWord isMark, List.mem_cons, not_or]
    exact ⟨hb.1, ih hb.2⟩
  | @word behind code body w hw free past dot rest ih =>
    rw [List.mem_append, not_or] at hb
    rw [length_reverse_append] at ih
    rw [walk_word hn.isWord hw (startsFree_of_pastWord free) past dot, List.mem_append, not_or]
    exact ⟨fun hm => hc (hn.qualified_chars _ hw c hm), ih hb.2⟩

/-- Masking the qualified body is qualifying the masked body. -/
theorem Spelled.maskIn_walk (hn : Referable state props) (h : Spelled behind code body) :
    ∀ {mode : MaskMode}, code = maskIn mode body →
      maskIn mode (Recast.walk (references state props) scopes behind behind.length code body) =
        Recast.walk (references state props) scopes behind behind.length code code := by
  induction h with
  | done =>
    intro mode _
    rfl
  | @mark behind code body c b isMark rest ih =>
    intro mode masked
    rw [maskIn, List.cons.injEq] at masked
    have ahead := @Spelled.sameAhead scopes state props _ _ _ hn rest
    have ih := ih masked.2
    rw [List.length_cons] at ahead ih
    rw [walk_quiet hn.isWord isMark, walk_quiet hn.isWord isMark, maskIn, ← MaskMode.shows_eq ahead,
      ← masked.1, ← MaskMode.next_eq ahead, ih]
  | @word behind code body w hw free past dot rest ih =>
    intro mode masked
    have plain : ∀ t : Text, (∀ c ∈ t, isNameChar c ∨ c ∈ ['.', ':', ' ']) → ∀ c ∈ t, c ≠ '"' ∧
        c ≠ '\'' ∧ c ≠ '/' := by
      intro t ht c hc
      refine ⟨?_, ?_, ?_⟩ <;> rintro rfl <;> exact absurd (ht _ hc) (by decide)
    obtain rfl : mode = .code := by
      obtain ⟨c, cs, rfl, hc⟩ := exists_cons_of_isWord hw
      rw [List.cons_append, List.cons_append, maskIn, List.cons.injEq] at masked
      rw [masked.1] at hc
      exact MaskMode.eq_code_of_shows hc
    rw [maskIn_code_append body w (plain w fun c hc => .inl (isNameChar_of_isWord hw c hc))]
      at masked
    have ih := ih (List.append_cancel_left masked)
    rw [length_reverse_append] at ih
    rw [walk_word hn.isWord hw (startsFree_of_pastWord free) past dot,
      walk_word hn.isWord hw (startsFree_of_pastWord free) past fun h => h,
      maskIn_code_append _ _ (plain _ (hn.qualified_chars _ hw)), ih]

/-- Without template literals, the mask of the qualified body is the qualified mask. -/
theorem mask_qualify (hn : Referable state props) (h : '`' ∉ body) :
    mask (qualify state props body) =
      walk (references state props) (bindingScopes (mask body)) [] 0 (mask body) (mask body) := by
  have spelled := spelled_mask body
  have quiet : '`' ∉ walk (references state props) (bindingScopes (mask body)) [] 0 (mask body)
      body :=
    spelled.not_mem_walk hn (by decide) h
  rw [qualify_eq_walk hn.isWord, mask_eq_maskIn quiet]
  exact spelled.maskIn_walk hn (mask_eq_maskIn h)

/-! ## When the second run changes nothing -/

/-- Each reference that is local in a body is local in the qualified body. -/
def StaysLocal (state : List Text) (props : List (Text × Text)) (body : Text) : Prop :=
  let refs := references state props
  let scopes := bindingScopes (mask body)
  let out := walk refs scopes [] 0 (mask body) (mask body)
  EachReference refs
    (fun place => place.mention.isLocal scopes place.pos →
      (place.image refs scopes out).mention.isLocal (bindingScopes out)
        (place.image refs scopes out).pos)
    [] (mask body)

theorem qualify_qualify_iff_staysLocal (hn : Referable state props)
    (hm : mask (qualify state props body) =
      walk (references state props) (bindingScopes (mask body)) [] 0 (mask body) (mask body)) :
    qualify state props (qualify state props body) = qualify state props body ↔
      StaysLocal state props body := by
  rw [qualify_eq_self_iff hn.isWord, hm]
  exact (spelled_self (.inl (by rintro c ⟨⟩))).eachReference hn rfl .done rfl

/-- Qualifying a qualified body changes nothing just if all words that read as references in it are
local. If masking goes with qualifying, as it does without template literals, this says that every
local reference has stayed local. -/
theorem qualify_qualify_eq_iff (hn : Referable state props) (body : Text) :
    (qualify state props (qualify state props body) = qualify state props body ↔
        Settled (references state props) (bindingScopes (mask (qualify state props body))) []
          (mask (qualify state props body))) ∧
      (mask (qualify state props body) =
          walk (references state props) (bindingScopes (mask body)) [] 0 (mask body) (mask body) →
        (qualify state props (qualify state props body) = qualify state props body ↔
          StaysLocal state props body)) ∧
      ('`' ∉ body → mask (qualify state props body) =
        walk (references state props) (bindingScopes (mask body)) [] 0 (mask body) (mask body)) :=
  ⟨qualify_eq_self_iff hn.isWord _, qualify_qualify_iff_staysLocal hn, mask_qualify hn⟩

/-- The parameter of an arrow function is released when the type name before the arrow is
qualified. -/
theorem qualify_annotated :
    qualify ["x".toList, "count".toList] [] "(x): count => x".toList =
      "(x): this.count => x".toList ∧
      qualify ["x".toList, "count".toList] [] "(x): this.count => x".toList =
        "(this.x): this.count => this.x".toList := by
  have names : ∀ entry ∈ references ["x".toList, "count".toList] [], isWord entry.1 := by decide
  rw [qualify_eq_walk names, qualify_eq_walk names]
  decide +kernel

theorem not_staysLocal_annotated :
    Referable ["x".toList, "count".toList] [] ∧
      ¬StaysLocal ["x".toList, "count".toList] [] "(x): count => x".toList := by
  have names : Referable ["x".toList, "count".toList] [] := ⟨by decide, by rintro entry ⟨⟩⟩
  obtain ⟨_, local_iff, masks⟩ := qualify_qualify_eq_iff names "(x): count => x".toList
  refine ⟨names, fun stays => ?_⟩
  have same := (local_iff (masks (by decide))).2 stays
  rw [qualify_annotated.1, qualify_annotated.2] at same
  exact absurd same (by decide)

end Recast
