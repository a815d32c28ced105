import Recast.Proofs.Scope.Settled

/-!
# Words written anew

Qualifying and renaming both ask of each word of the code what to write for it, and copy everything
else. `Rewritten` says so of a piece of code in its place: what a word becomes depends on the code
on either side of it and on its offset. Both functions are described by it for whole bodies
(`rewritten_qualify`, `rewritten_renameParameter`).

A body that is cut into pieces where no word is cut in two is rewritten piece by piece
(`Rewritten.inPlace`). Qualifying leaves a piece as it is just if every word of it that reads as a
reference is local (`Rewritten.eq_iff_settledBetween`).
-/

namespace Recast

/-! ## Rewritten code -/

/-- The code between `behind` and `ahead` and the text it is shown for, with the text that is
written for it: a word becomes what `write` says of its offset and mention, and marks are copied. -/
inductive Rewritten (write : Nat → Mention → Text) : Text → Text → Text → Text → Text → Prop where
  | done (behind ahead : Text) : Rewritten write behind [] ahead [] []
  | mark {behind code ahead body out : Text} {c : Char} (b : Char) (isMark : isNameChar c = false)
    (rest : Rewritten write (c :: behind) code ahead body out) :
    Rewritten write behind (c :: code) ahead (b :: body) (b :: out)
  | word {behind code ahead body out w : Text} (isWord : isWord w) (free : PastWord behind)
    (past : PastWord (code ++ ahead))
    (rest : Rewritten write (w.reverse ++ behind) code ahead body out) :
    Rewritten write behind (w ++ code) ahead (w ++ body)
      (write behind.length ⟨w, behind, code ++ ahead⟩ ++ out)

section

variable {write : Nat → Mention → Text} {behind code ahead body out : Text}

theorem Rewritten.eq_nil (h : Rewritten write behind code ahead body out) (empty : code = []) :
    out = [] := by
  cases h with
  | done => rfl
  | mark => cases empty
  | word isWord => exact absurd (List.append_eq_nil_iff.1 empty).1 (ne_nil_of_isWord isWord)

/-- A cut is between words where the text before it does not end in a name, or the text behind it
does not start with one. -/
def BetweenWords (behind ahead : Text) : Prop :=
  PastWord behind ∨ PastWord ahead

/-- A word that a cut leaves whole lies on one side of it. -/
theorem eq_nil_of_betweenWords {w a c : Text} (hw : ∀ x ∈ w, isNameChar x) (split : w = a ++ c)
    {behind rest : Text}
    (h : BetweenWords (a.reverse ++ behind) (c ++ rest)) : a = [] ∨ c = [] := by
  rw [or_iff_not_imp_left]
  intro filled
  rcases h with past | past
  · have last :=
      past (a.getLast filled) (by simp [List.head?_append, List.getLast?_eq_some_getLast filled])
    have name := hw (a.getLast filled) (split ▸ List.mem_append_left _ (List.getLast_mem filled))
    rw [last] at name
    cases name
  · cases c with
    | nil => rfl
    | cons x c =>
      have first := past x rfl
      rw [hw x (split ▸ List.mem_append_right _ List.mem_cons_self)] at first
      cases first

/-- A piece that is cut where no word is cut in two is rewritten as its two parts. -/
theorem Rewritten.exists_append (h : Rewritten write behind code ahead body out) :
    ∀ {a b : Text}, code = a ++ b →
    BetweenWords (a.reverse ++ behind) (b ++ ahead) →
      ∃ first second, out = first ++ second ∧
        Rewritten write behind a (b ++ ahead) (body.take a.length) first ∧
        Rewritten write (a.reverse ++ behind) b ahead (body.drop a.length) second := by
  induction h with
  | done behind ahead =>
    intro a b split _
    obtain ⟨rfl, rfl⟩ := List.append_eq_nil_iff.1 split.symm
    exact ⟨[], [], rfl, .done behind ahead, .done behind ahead⟩
  | @mark behind code ahead body out c d isMark rest ih =>
    intro a b split cut
    cases a with
    | nil =>
      obtain rfl := split
      exact ⟨[], d :: out, rfl, .done _ _, .mark d isMark rest⟩
    | cons e a =>
      obtain ⟨rfl, rfl⟩ := List.cons.inj split
      obtain ⟨first, second, rfl, left, right⟩ := ih rfl (by simpa using cut)
      exact ⟨d :: first, second, rfl, .mark d isMark left, by simpa using right⟩
  | @word behind code ahead body out w isWord free past rest ih =>
    intro a b split cut
    have chars := isNameChar_of_isWord isWord
    have whole := Rewritten.word isWord free past rest
    rcases List.append_eq_append_iff.1 split with ⟨a', rfl, rfl⟩ | ⟨c, rfl, rfl⟩
    · obtain ⟨first, second, rfl, left, right⟩ := ih rfl (by simpa using cut)
      refine ⟨write behind.length ⟨w, behind, a' ++ b ++ ahead⟩ ++ first, second,
        (List.append_assoc _ _ _).symm, ?_, ?_⟩
      · rw [List.append_assoc] at past
        rw [List.length_append, List.take_length_add_append, List.append_assoc]
        exact .word isWord free past left
      · rw [List.length_append, List.drop_length_add_append, List.reverse_append, List.append_assoc]
        exact right
    · rcases eq_nil_of_betweenWords chars rfl (by simpa using cut) with rfl | rfl
      · exact ⟨[], _, rfl, .done _ _, by simpa using whole⟩
      · rw [List.append_nil] at *
        refine ⟨write behind.length ⟨a, behind, code ++ ahead⟩, out, rfl, ?_, ?_⟩
        · have alone : Rewritten write behind (a ++ []) (code ++ ahead) (a ++ []) _ :=
            .word isWord free past (.done _ _)
          simpa using alone
        · simpa using rest

end

/-! ## Qualifying -/

section

variable {refs : References} {scopes : List BindingScope} {behind code body : Text}

/-- A walk over code writes for each word what its mention becomes. -/
theorem Spelled.rewritten_walk (hn : ∀ entry ∈ refs, Recast.isWord entry.1)
    (h : Spelled behind code body) :
    Rewritten (Mention.qualified refs scopes) behind code [] body
      (Recast.walk refs scopes behind behind.length code body) := by
  induction h with
  | done behind => exact .done behind []
  | mark b isMark rest ih =>
    rw [walk_quiet hn isMark]
    exact .mark b isMark ih
  | @word behind code body w isWord free past dot rest ih =>
    rw [length_reverse_append] at ih
    rw [walk_word hn isWord (startsFree_of_pastWord free) past dot]
    have written := Rewritten.word isWord free (by rwa [List.append_nil]) ih
    rwa [List.append_nil] at written

/-- Qualifying writes for each word of the body what its mention becomes. -/
theorem rewritten_qualify {state : List Text} {props : List (Text × Text)}
    (hn : ∀ entry ∈ references state props, isWord entry.1) (body : Text) :
    Rewritten (Mention.qualified (references state props) (bindingScopes (mask body))) []
      (mask body) [] body
      (qualify state props body) := by
  rw [qualify_eq_walk hn]
  exact (spelled_mask body).rewritten_walk hn

end

/-! ## Pieces -/

/-- Each word of the code between `behind` and `ahead` that reads as a reference is local. -/
def SettledBetween (refs : References) (scopes : List BindingScope) (behind code ahead : Text) :
    Prop :=
  EachReference refs (fun place => place.pos < behind.length + code.length →
    place.mention.isLocal scopes place.pos) behind
    (code ++ ahead)

instance (refs : References) (scopes : List BindingScope) (behind code ahead : Text) :
    Decidable (SettledBetween refs scopes behind code ahead) :=
  inferInstanceAs
    (Decidable (∀ place ∈ placesFrom behind behind.length (code ++ ahead), startsFree place.behind →
    place.mention.reads refs → place.pos < behind.length + code.length →
      place.mention.isLocal scopes place.pos))

section

variable {state : List Text} {props : List (Text × Text)} {scopes : List BindingScope}
  {behind code ahead body out : Text}

/-- Settled code is left as it is, and other code gets dots that it did not have. -/
theorem Rewritten.settled_or (hn : ∀ entry ∈ references state props, Recast.isWord entry.1)
    (h : Rewritten (Mention.qualified (references state props) scopes) behind code ahead body out) :
    SettledBetween (references state props) scopes behind code ahead ∧ out = body ∨
      ¬SettledBetween (references state props) scopes behind code ahead ∧
        body.count '.' < out.count '.' := by
  induction h with
  | done behind ahead =>
    refine .inl ⟨fun place here _ _ inside => ?_, rfl⟩
    exact absurd inside (Nat.not_lt.2 (le_pos_of_mem_placesFrom _ _ _ here))
  | @mark behind code ahead body out c b isMark rest ih =>
    have same : SettledBetween (references state props) scopes behind (c :: code) ahead ↔
        SettledBetween (references state props) scopes (c :: behind) code ahead := by
      have length : behind.length + (c :: code).length = (c :: behind).length + code.length := by
        simp only [List.length_cons]
        omega
      rw [SettledBetween, SettledBetween, length, List.cons_append, eachReference_mark hn isMark]
    rw [same, List.count_cons, List.count_cons]
    rcases ih with ⟨settled, same⟩ | ⟨unsettled, more⟩
    · exact .inl ⟨settled, by rw [same]⟩
    · exact .inr ⟨unsettled, by omega⟩
  | @word behind code ahead body out w isWord free past rest ih =>
    have size := List.length_pos_iff.2 (ne_nil_of_isWord isWord)
    have split : SettledBetween (references state props) scopes behind (w ++ code) ahead ↔
        ((⟨w, behind, code ++ ahead⟩ : Mention).reads (references state props) →
          (⟨w, behind, code ++ ahead⟩ : Mention).isLocal scopes behind.length) ∧
        SettledBetween (references state props) scopes (w.reverse ++ behind) code ahead := by
      have length : behind.length + (w ++ code).length =
          (w.reverse ++ behind).length + code.length := by
        simp only [List.length_append, List.length_reverse]
        omega
      have inside : behind.length < (w.reverse ++ behind).length + code.length := by
        simp only [List.length_append, List.length_reverse]
        omega
      rw [SettledBetween, SettledBetween, length, List.append_assoc,
        eachReference_word isWord free past, mention_word isWord past]
      simp only [inside, true_imp_iff]
    rw [split, List.count_append, List.count_append, count_dot_of_isWord isWord]
    cases hr : (⟨w, behind, code ++ ahead⟩ : Mention).reads (references state props)
        && !(⟨w, behind, code ++ ahead⟩ : Mention).isLocal scopes behind.length with
    | false =>
      have stays : (⟨w, behind, code ++ ahead⟩ : Mention).reads (references state props) →
          (⟨w, behind, code ++ ahead⟩ : Mention).isLocal scopes behind.length := by simpa using hr
      have name : (⟨w, behind, code ++ ahead⟩ : Mention).qualified (references state props) scopes
          behind.length = w :=
        qualified_eq_name hr
      rw [name, count_dot_of_isWord isWord]
      rcases ih with ⟨settled, same⟩ | ⟨unsettled, more⟩
      · exact .inl ⟨⟨stays, settled⟩, by rw [same]⟩
      · exact .inr ⟨fun h => unsettled h.2, by omega⟩
    | true =>
      have dots := List.count_pos_iff.2 (dot_mem_qualified hr)
      refine .inr ⟨fun h => ?_, ?_⟩
      · rw [Bool.and_eq_true, Bool.not_eq_true'] at hr
        exact Bool.noConfusion (hr.2.symm.trans (h.1 hr.1))
      · rcases ih with ⟨settled, same⟩ | ⟨unsettled, more⟩
        · rw [same]
          omega
        · omega

/-- Qualifying leaves a piece as it is just if every word of it that reads as a reference is
local. -/
theorem Rewritten.eq_iff_settledBetween
    (hn : ∀ entry ∈ references state props, Recast.isWord entry.1)
    (h : Rewritten (Mention.qualified (references state props) scopes) behind code ahead body out) :
    out = body ↔ SettledBetween (references state props) scopes behind code ahead := by
  rcases h.settled_or hn with ⟨settled, same⟩ | ⟨unsettled, more⟩
  · exact iff_of_true same settled
  · exact iff_of_false (fun same => by rw [same] at more; exact absurd more (Nat.lt_irrefl _))
      unsettled

end

/-- Pieces that follow one another without a word that is cut in two. -/
def Parted : List Text → Prop
  | [] => True
  | piece :: pieces =>
    (piece ≠ [] ∧ PastWord piece.reverse ∨ PastWord pieces.flatten) ∧ Parted pieces

/-- Each piece of a text with what is written for it: `P` holds of the code before the piece, of its
own code and of the code behind it. -/
def InPlace (P : Text → Text → Text → Text → Text → Prop) :
    Text → Text → List Text → List Text → Prop
  | _, code, [], outs => code = [] ∧ outs = []
  | behind, code, piece :: pieces, out :: outs =>
    P behind (code.take piece.length) (code.drop piece.length) piece out ∧
      InPlace P ((code.take piece.length).reverse ++ behind) (code.drop piece.length) pieces outs
  | _, _, _ :: _, [] => False

theorem InPlace.exists_cons {P : Text → Text → Text → Text → Text → Prop} {behind code piece : Text}
    {pieces : List Text} :
    ∀ {outs : List Text}, InPlace P behind code (piece :: pieces) outs → ∃ out rest,
      outs = out :: rest ∧
      P behind (code.take piece.length) (code.drop piece.length) piece out ∧
        InPlace P ((code.take piece.length).reverse ++ behind) (code.drop piece.length) pieces rest
  | out :: rest, ⟨first, all⟩ => ⟨out, rest, rfl, first, all⟩

theorem InPlace.imp {P Q : Text → Text → Text → Text → Text → Prop}
    (h : ∀ {behind code ahead piece out}, P behind code ahead piece out →
      Q behind code ahead piece out) :
    ∀ {pieces outs : List Text} {behind code : Text}, InPlace P behind code pieces outs →
      InPlace Q behind code pieces outs
  | [], _, _, _, all => all
  | _ :: _, _ :: _, _, _, ⟨first, rest⟩ => ⟨h first, rest.imp h⟩

theorem pastWord_of_shows {code body : Text} (h : List.Forall₂ Shows code body)
    (past : PastWord body) : PastWord code := by
  intro c hc
  cases h with
  | nil => cases hc
  | cons first rest =>
    cases hc
    rcases first with rfl | mark
    · exact past _ rfl
    · have marks : ∀ d ∈ [' ', '\n', '(', ')'], isNameChar d = false := by decide
      exact marks _ mark

theorem forall₂_shows_reverse {code body : Text} (h : List.Forall₂ Shows code body) :
    List.Forall₂ Shows code.reverse body.reverse :=
  List.forall₂_reverse_iff.2 h

/-- A body in pieces is rewritten piece by piece. -/
theorem Rewritten.inPlace {write : Nat → Mention → Text} :
    ∀ {pieces : List Text} {behind code out : Text},
    Rewritten write behind code [] pieces.flatten out → List.Forall₂ Shows code pieces.flatten →
      Parted pieces →
      ∃ outs : List Text, out = outs.flatten ∧ InPlace (Rewritten write) behind code pieces outs
  | [], behind, code, out, h, shows, _ => by
    have empty : code = [] := List.forall₂_nil_right_iff.1 shows
    exact ⟨[], h.eq_nil empty, empty, rfl⟩
  | piece :: pieces, behind, code, out, h, shows, ⟨cut, parted⟩ => by
    have first := List.forall₂_take piece.length shows
    have second := List.forall₂_drop piece.length shows
    rw [List.flatten_cons, List.take_left] at first
    rw [List.flatten_cons, List.drop_left] at second
    have apart : BetweenWords ((code.take piece.length).reverse ++ behind)
        (code.drop piece.length ++ []) := by
      rw [List.append_nil]
      rcases cut with ⟨filled, past⟩ | past
      · have shown := pastWord_of_shows (forall₂_shows_reverse first) past
        refine .inl fun c hc => ?_
        have nonempty : (code.take piece.length).reverse ≠ [] := by
          intro empty
          rw [List.reverse_eq_nil_iff] at empty
          rw [empty] at first
          exact filled (List.forall₂_nil_left_iff.1 first)
        rw [List.head?_append_of_ne_nil _ nonempty] at hc
        exact shown c hc
      · exact .inr (pastWord_of_shows second past)
    obtain ⟨out, rest, rfl, left, right⟩ :=
      h.exists_append (List.take_append_drop piece.length code).symm apart
    rw [first.length_eq, List.flatten_cons, List.take_left, List.append_nil] at left
    rw [first.length_eq, List.flatten_cons, List.drop_left] at right
    obtain ⟨outs, rfl, all⟩ := right.inPlace second parted
    exact ⟨out :: outs, rfl, left, all⟩

/-! ## Renaming -/

/-- Whether a member access goes on here: a dot, or a question mark and a dot, behind optional
blanks. -/
def opensAccess (ahead : Text) : Bool :=
  ((dropHead? ['?'] (trimStart ahead)).getD (trimStart ahead)).head? = some '.'

/-- Whether a mention is the root of a member access. -/
def Mention.isRoot (mention : Mention) : Bool :=
  !mention.isMember && opensAccess mention.ahead

/-- Whether a mention is a root that is renamed. -/
def Mention.renames (old : Text) (scopes : List BindingScope) (pos : Nat) (mention : Mention) :
    Bool :=
  mention.name == old && mention.isRoot && !isBound scopes old pos

/-- What a mention becomes when the root `old` is renamed. -/
def Mention.renamed (old new : Text) (scopes : List BindingScope) (pos : Nat) (mention : Mention) :
    Text :=
  if mention.renames old scopes pos then new else mention.name

theorem pastWord_of_opensAccess {ahead : Text} (h : opensAccess ahead) : PastWord ahead := by
  intro c hc
  obtain ⟨rest, rfl⟩ := List.head?_eq_some_iff.1 hc
  by_contra name
  have name : isNameChar c := by simpa using name
  have mark : c ≠ '?' := by
    rintro rfl
    exact absurd name (by decide)
  have dot : c ≠ '.' := by
    rintro rfl
    exact absurd name (by decide)
  have first : trimStart (c :: rest) = c :: rest :=
    trimStart_eq_self (by rintro d ⟨⟩; exact not_isBlank_of_isNameChar name)
  simp [opensAccess, first, dropHead?, mark.symm, dot] at h

/-- The root of an access stands here just if the word here is the one that is looked for and an
access goes on behind it. -/
theorem memberRoot_eq {name : Text} (hw : isWord name) (behind ahead : Text) :
    memberRoot name behind ahead =
      if startsFree behind ∧ wordAhead ahead = name ∧ opensAccess (afterWord ahead) then
        some (⟨name, behind, afterWord ahead⟩, name.length)
      else none := by
  have chars := isNameChar_of_isWord hw
  have search : memberRoot name behind ahead =
      if startsFree behind then
        (dropHead? name ahead).bind fun rest => if opensAccess rest then
          some (⟨name, behind, rest⟩, name.length) else none
      else none := by
    cases free : startsFree behind <;> simp [memberRoot, opensAccess, free]
  rw [search]
  by_cases found : wordAhead ahead = name
  · obtain ⟨dropped, -⟩ := (dropHead?_word chars).2 ⟨found, rfl⟩
    cases free : startsFree behind <;> simp [dropped, found]
  · have none : ¬(startsFree behind ∧ wordAhead ahead = name ∧ opensAccess (afterWord ahead)) :=
      fun h => found h.2.1
    rw [if_neg none]
    split
    · cases dropped : dropHead? name ahead with
      | none => rfl
      | some rest =>
        rw [Option.bind_some, if_neg]
        exact fun opens =>
          found ((dropHead?_word chars).1 ⟨dropped, pastWord_of_opensAccess opens⟩).1
    · rfl

theorem isolated_memberRoot {name : Text} (hw : isWord name) : Isolated (memberRoot name) := by
  refine isolated_of_word fun {behind ahead value size} h => ?_
  rw [memberRoot_eq hw] at h
  obtain ⟨⟨free, word, -⟩, found⟩ := Option.ite_none_right_eq_some.1 h
  rw [word, ← (Prod.mk.inj (Option.some.inj found)).2]
  exact ⟨free, ne_nil_of_isWord hw, Nat.le_succ _⟩

/-- The edits at a place where a root is renamed. -/
def renameAt (old new : Text) (scopes : List BindingScope) (place : Place) : List Edit :=
  if startsFree place.behind && place.mention.renames old scopes place.pos then
    [⟨⟨place.pos, place.pos + old.length⟩, new⟩] else []

theorem renameEdits_eq {old : Text} (hw : isWord old) (new : Text) (scopes : List BindingScope)
    (code : Text) :
    ((occurrences (memberRoot old) code).filterMap fun found =>
      if found.value.isMember || isBound scopes old found.start then none
      else some (⟨⟨found.start, found.stop⟩, new⟩ : Edit)) =
        (places code).flatMap (renameAt old new scopes) := by
  rw [filterMap_foundAt (isolated_memberRoot hw)]
  congr 1
  funext place
  rw [foundAt, memberRoot_eq hw, renameAt, Mention.renames, Mention.isRoot]
  by_cases h : startsFree place.behind ∧ wordAhead place.ahead = old ∧
    opensAccess (afterWord place.ahead)
  · rw [if_pos h]
    simp only [Option.map_some, Option.bind_some, Place.mention, Mention.isMember, h.1, h.2.1,
      h.2.2, beq_self_eq_true, Bool.and_true, Bool.true_and, ← Bool.not_or]
    exact toList_unless _ _
  · rw [if_neg h, if_neg]
    · rfl
    · simp only [Place.mention, Bool.and_eq_true, beq_iff_eq]
      exact fun all => h ⟨all.1, all.2.1.1, all.2.1.2.2⟩

theorem proposes_renameAt {old : Text} (hw : isWord old) (new : Text) (scopes : List BindingScope) :
    Proposes (renameAt old new scopes) where
  sorted place := by
    rw [renameAt]
    split <;> simp
  start place edit made := by
    rw [renameAt, List.mem_ite_nil_right, List.mem_singleton] at made
    rw [made.2]
  stop place edit made := by
    rw [renameAt, List.mem_ite_nil_right, List.mem_singleton] at made
    rw [made.2]
    exact Nat.lt_add_of_pos_right (List.length_pos_iff.2 (ne_nil_of_isWord hw))

section

variable {write : Nat → Mention → Text} {behind code body : Text}

/-- Code whose words are all written as they are comes out as it is. -/
theorem Spelled.rewritten_self (h : Spelled behind code body)
    (same : ∀ pos mention, write pos mention = mention.name) :
    Rewritten write behind code [] body body := by
  induction h with
  | done behind => exact .done behind []
  | mark b isMark rest ih => exact .mark b isMark ih
  | @word behind code body w isWord free past dot rest ih =>
    have written := Rewritten.word isWord free (by rwa [List.append_nil]) ih
    rwa [same] at written

/-- A place inside a run of characters where nothing is chosen is copied. -/
theorem sweep_copied {choose : Place → Option Edit} (rest rest' : Text) :
    ∀ (w behind : Text) (pos : Nat),
    (∀ a b, w = a ++ b → b ≠ [] → choose ⟨pos + a.length, a.reverse ++ behind, b ++ rest⟩ = none) →
      sweep choose behind pos 0 (w ++ rest) (w ++ rest') =
        w ++ sweep choose (w.reverse ++ behind) (pos + w.length) 0 rest rest'
  | [], _, _, _ => rfl
  | c :: cs, behind, pos, h => by
    have ih := sweep_copied rest rest' cs (c :: behind) (pos + 1) fun a b split filled => by
      have here := h (c :: a) b (by rw [split]; rfl) filled
      simpa [Nat.add_assoc, Nat.add_comm 1] using here
    have first : choose ⟨pos, behind, c :: (cs ++ rest)⟩ = none := h [] (c :: cs) rfl (by simp)
    rw [List.cons_append, List.cons_append, sweep, if_neg (Nat.not_lt_zero _), first]
    dsimp only
    rw [ih]
    simp [Nat.add_assoc, Nat.add_comm 1]

end

section

variable {old new : Text} {scopes : List BindingScope} {behind code body : Text}

/-- A walk that renames roots writes for each word what its mention becomes. -/
theorem Spelled.rewritten_rename (hw : Recast.isWord old) (h : Spelled behind code body) :
    Rewritten (Mention.renamed old new scopes) behind code [] body
      (sweep (fun place => (renameAt old new scopes place).head?) behind behind.length 0 code
        body) := by
  have head : ∀ place, (renameAt old new scopes place).head? =
      if startsFree place.behind && place.mention.renames old scopes place.pos then
        some ⟨⟨place.pos, place.pos + old.length⟩, new⟩ else none := by
    intro place
    rw [renameAt]
    split <;> rfl
  induction h with
  | done behind => exact .done behind []
  | @mark behind code body c b isMark rest ih =>
    have none : (renameAt old new scopes ⟨behind.length, behind, c :: code⟩).head? = none := by
      have word : wordAhead (c :: code) = [] := by simp [wordAhead, isMark]
      have other : ([] == old) = false := beq_eq_false_iff_ne.2 (ne_nil_of_isWord hw).symm
      rw [head, Place.mention, Mention.renames, word, other, Bool.false_and, Bool.false_and,
        Bool.and_false]
      rfl
    rw [sweep, if_neg (Nat.not_lt_zero _), none]
    exact .mark b isMark ih
  | @word behind code body w isWord free past dot rest ih =>
    have chars := isNameChar_of_isWord isWord
    rw [length_reverse_append] at ih
    have written : Rewritten _ behind (w ++ code) [] (w ++ body) _ :=
      Rewritten.word isWord free (by rwa [List.append_nil]) ih
    rw [List.append_nil] at written
    have first : (renameAt old new scopes ⟨behind.length, behind, w ++ code⟩).head? =
        if (⟨w, behind, code⟩ : Mention).renames old scopes behind.length then
          some ⟨⟨behind.length, behind.length + old.length⟩, new⟩ else none := by
      rw [head, mention_word isWord past, startsFree_of_pastWord free, Bool.true_and]
    rw [Mention.renamed] at written
    split at written
    · rename_i renamed
      rw [if_pos renamed] at first
      obtain rfl : w = old := by
        rw [Mention.renames, Bool.and_eq_true, Bool.and_eq_true] at renamed
        exact eq_of_beq renamed.1.1
      rw [sweep_edit (ne_nil_of_isWord isWord) rfl first]
      exact written
    · rename_i kept
      rw [if_neg kept] at first
      rw [sweep_copied code body w behind behind.length]
      · exact written
      · -- behind a character of the word no place is free
        intro a b split filled
        rcases List.eq_nil_or_concat a with rfl | ⟨a, c, rfl⟩
        · rw [split] at first
          exact first
        · have inside : startsFree ((a.concat c).reverse ++ behind) = false := by
            rw [List.concat_eq_append, List.reverse_append, List.append_assoc]
            exact startsFree_eq_false (chars c (by rw [split]; simp)) _
          rw [head, inside, Bool.false_and]
          rfl

end

/-- Renaming is one walk over the body. -/
theorem renameParameter_eq_sweep {old new : Text} (hw : isWord old) (differs : old ≠ new)
    (body : Text) :
    renameParameter old new body =
      sweep (fun place => (renameAt old new (bindingScopes (mask body)) place).head?) [] 0 0
        (mask body) body := by
  rw [renameParameter, if_neg differs]
  dsimp only
  rw [renameEdits_eq hw]
  exact applyEdits_eq_sweep (proposes_renameAt hw new _) (length_mask body) (List.Perm.refl _)

/-- Renaming writes for each word of the body what its mention becomes. -/
theorem rewritten_renameParameter {old : Text} (hw : isWord old) (new body : Text) :
    Rewritten (Mention.renamed old new (bindingScopes (mask body))) [] (mask body) [] body
      (renameParameter old new body) := by
  by_cases same : old = new
  · rw [renameParameter, if_pos same]
    refine (spelled_mask body).rewritten_self fun pos mention => ?_
    rw [Mention.renamed]
    split
    · rename_i renames
      rw [Mention.renames, Bool.and_eq_true, Bool.and_eq_true] at renames
      rw [eq_of_beq renames.1.1, same]
    · rfl
  · rw [renameParameter_eq_sweep hw same]
    exact (spelled_mask body).rewritten_rename hw

end Recast
