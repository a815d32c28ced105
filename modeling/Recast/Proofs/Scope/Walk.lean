import Recast.Proofs.Scope.Masked
import Recast.Proofs.Scope.Words

/-!
# Qualifying in one walk

`qualify` collects the edits of `props.`, of referenced names and of setter calls in three searches,
sorts them and makes the first of those that overlap. This is one walk over the body
(`qualify_eq_walk`): it asks of each word of the masked code what the word becomes
(`Mention.qualified`), and copies everything else (`walk_word`, `walk_quiet`).
-/

namespace Recast

/-! ## Proposals -/

/-- The word at a place with what stands around it. -/
def Place.mention (place : Place) : Mention :=
  ⟨wordAhead place.ahead, place.behind, afterWord place.ahead⟩

/-- Whether a mention is the name of a setter before a call. -/
def Mention.callsSetter (mention : Mention) : Bool :=
  isSetterName mention.name && (trimStart mention.ahead).head? = some '('

/-- What a referenced name becomes: an entry that stands for its own key gets the key written
out. -/
def Mention.access (refs : References) (mention : Mention) : Text :=
  let access := (refs.lookup mention.name).getD []
  if mention.isShorthand then mention.name ++ ": ".toList ++ access else access

/-- Whether a mention of a referenced name is a reference to it. -/
def Mention.refers (refs : References) (scopes : List BindingScope) (pos : Nat)
    (mention : Mention) : Bool :=
  (refs.map (·.1)).contains mention.name
    && !(mention.isMember || mention.isDeclared || mention.isKey || isBound scopes mention.name pos)

/-- Whether a mention is a reference to the props object. -/
def Mention.refersToProps (scopes : List BindingScope) (pos : Nat) (mention : Mention) : Bool :=
  mention.name == "props".toList && mention.ahead.head? = some '.'
    && !(mention.isMember || isBound scopes mention.name pos)

/-- Whether a mention is a reference to a setter. -/
def Mention.refersToSetter (scopes : List BindingScope) (pos : Nat) (mention : Mention) : Bool :=
  mention.callsSetter
    && !(globalSetters.contains mention.name || mention.isMember || mention.isDeclared
      || isBound scopes mention.name pos)

/-- The edits at a place, the one that is made first. -/
def proposals (refs : References) (scopes : List BindingScope) (place : Place) : List Edit :=
  let mention := place.mention
  let span : Span := ⟨place.pos, place.pos + mention.name.length⟩
  if startsFree place.behind then
    (if mention.refers refs scopes place.pos then [⟨span, mention.access refs⟩] else [])
      ++ (if mention.refersToProps scopes place.pos then
        [⟨⟨place.pos, place.pos + 6⟩, "this.props.".toList⟩] else [])
      ++ (if mention.refersToSetter scopes place.pos then [⟨span, "this.".toList ++ mention.name⟩]
        else [])
  else []

variable {refs : References} {scopes : List BindingScope}

theorem filterMap_foundAt {α : Type} {recognise : Recogniser α} (h : Isolated recognise)
    (edit? : Occurrence α → Option Edit) (code : Text) :
    (occurrences recognise code).filterMap edit? =
      (places code).flatMap fun place => ((foundAt recognise place).bind edit?).toList := by
  rw [occurrences_eq_places h, List.filterMap_filterMap, List.filterMap_eq_flatMap_toList]

theorem toList_unless (refused : Bool) (edit : Edit) :
    (if refused then none else some edit).toList = if !refused then [edit] else [] := by
  cases refused <;> rfl

theorem propsEdits_eq (code : Text) :
    propsEdits code scopes = (places code).flatMap fun place =>
      if startsFree place.behind && place.mention.refersToProps scopes place.pos then
        [⟨⟨place.pos, place.pos + 6⟩, "this.props.".toList⟩] else [] := by
  rw [propsEdits, filterMap_foundAt isolated_propsRoot]
  congr 1
  funext place
  rw [foundAt, propsRoot_eq, Mention.refersToProps]
  by_cases h : startsFree place.behind ∧ wordAhead place.ahead = "props".toList ∧
      (afterWord place.ahead).head? = some '.'
  · rw [if_pos h]
    simp only [Option.map_some, Option.bind_some, Place.mention, Mention.isMember, h.1, h.2.1,
      h.2.2, beq_self_eq_true, decide_true, Bool.true_and]
    exact toList_unless _ _
  · rw [if_neg h, if_neg]
    · rfl
    · simp only [Place.mention, Bool.and_eq_true, beq_iff_eq]
      exact fun hall => h ⟨hall.1, hall.2.1.1, of_decide_eq_true hall.2.1.2⟩

theorem setterEdits_eq (code : Text) :
    setterEdits code scopes = (places code).flatMap fun place =>
      if startsFree place.behind && place.mention.refersToSetter scopes place.pos then
        [⟨⟨place.pos, place.pos + place.mention.name.length⟩, "this.".toList ++ place.mention.name⟩]
      else [] := by
  rw [setterEdits, filterMap_foundAt isolated_setterCall]
  congr 1
  funext place
  rw [foundAt, setterCall_eq, Mention.refersToSetter, Mention.callsSetter]
  by_cases h : startsFree place.behind ∧ isSetterName (wordAhead place.ahead) ∧
      (trimStart (afterWord place.ahead)).head? = some '('
  · rw [if_pos h]
    simp only [Option.map_some, Option.bind_some, toList_unless, Place.mention, h.1, h.2.1, h.2.2,
      decide_true, Bool.true_and]
  · rw [if_neg h, if_neg]
    · rfl
    · simp only [Place.mention, Bool.and_eq_true]
      exact fun hall => h ⟨hall.1, hall.2.1.1, of_decide_eq_true hall.2.1.2⟩

theorem nameEdits_eq (hn : ∀ entry ∈ refs, isWord entry.1) (code : Text) :
    nameEdits refs code scopes = (places code).flatMap fun place =>
      if startsFree place.behind && place.mention.refers refs scopes place.pos then
        [⟨⟨place.pos, place.pos + place.mention.name.length⟩, place.mention.access refs⟩]
          else [] := by
  have sorted : ∀ name, name ∈ longestFirst (refs.map (·.1)) ↔ name ∈ refs.map (·.1) :=
    fun name => by
    rw [longestFirst, List.mem_mergeSort]
  have words : ∀ name ∈ longestFirst (refs.map (·.1)), isWord name := by
    intro name hm
    obtain ⟨entry, he, rfl⟩ := List.mem_map.1 ((sorted name).1 hm)
    exact hn entry he
  rw [nameEdits]
  split
  · rename_i he
    rw [List.isEmpty_iff.1 he]
    simp [Mention.refers]
  · rw [filterMap_foundAt (isolated_nameAmong words)]
    congr 1
    funext place
    rw [foundAt, nameAmong_eq words, Mention.refers]
    by_cases h : startsFree place.behind ∧ wordAhead place.ahead ∈ longestFirst (refs.map (·.1))
    · rw [if_pos h]
      have known : (refs.map (·.1)).contains (wordAhead place.ahead) :=
        List.contains_iff_mem.2 ((sorted _).1 h.2)
      simp only [Option.map_some, Option.bind_some, toList_unless, Place.mention, Mention.access,
        h.1, known, Bool.true_and]
      rfl
    · rw [if_neg h, if_neg]
      · rfl
      · simp only [Place.mention, Bool.and_eq_true, List.contains_iff_mem]
        exact fun hall => h ⟨hall.1, (sorted _).2 hall.2.1⟩

/-- The edits of a body are the proposals of its places. -/
theorem qualifyEdits_perm {state : List Text} {props : List (Text × Text)}
    (hn : ∀ entry ∈ references state props, isWord entry.1) (body : Text) :
    (qualifyEdits state props body).Perm
      ((places (mask body)).flatMap
        (proposals (references state props) (bindingScopes (mask body)))) := by
  simp only [qualifyEdits, propsEdits_eq, nameEdits_eq hn, setterEdits_eq]
  refine (List.perm_append_comm.append_right _).trans ?_
  refine ((List.flatMap_append_perm _ _ _).append_right _).trans ?_
  refine (List.flatMap_append_perm _ _ _).trans (List.Perm.of_eq ?_)
  congr 1
  funext place
  rw [proposals]
  cases startsFree place.behind with
  | true => simp only [Bool.true_and, if_true]
  | false => rfl

/-! ## The first proposal -/

theorem lookup_map_name (f : Text → Text) (name : Text) :
    ∀ names : List Text, (names.map fun n => (n, f n)).lookup name =
      if names.contains name then some (f name) else none
  | [] => rfl
  | first :: names => by
    rw [List.map_cons, List.lookup_cons, List.contains_cons, lookup_map_name f name names]
    cases h : name == first with
    | true => rw [eq_of_beq h]; rfl
    | false => rfl

theorem lookup_map_entry (f : Text → Text) (name : Text) :
    ∀ entries : List (Text × Text), (entries.map fun (n, key) => (n, f key)).lookup name =
      (entries.lookup name).map f
  | [] => rfl
  | (first, key) :: entries => by
    rw [List.map_cons, List.lookup_cons, List.lookup_cons, lookup_map_entry f name entries]
    cases name == first <;> rfl

/-- A state variable becomes a field, another reference a prop. -/
theorem lookup_references (state : List Text) (props : List (Text × Text)) (name : Text) :
    (references state props).lookup name =
      if state.contains name then some ("this.".toList ++ name)
      else (props.lookup name).map ("this.props.".toList ++ ·) := by
  rw [references, List.lookup_append, lookup_map_name, lookup_map_entry]
  split <;> rfl

theorem contains_references (name : Text) :
    (refs.map (·.1)).contains name = (refs.lookup name).isSome := by
  rw [Bool.eq_iff_iff, List.contains_iff_mem, List.mem_map, List.lookup_isSome_iff]
  simp only [beq_iff_eq]
  simp only [eq_comm]

theorem isShorthand_eq_false {mention : Mention} (h : (trimStart mention.ahead).head? = some '(') :
    mention.isShorthand = false := by
  simp [Mention.isShorthand, h]

theorem access_of_call {mention : Mention} (h : (trimStart mention.ahead).head? = some '(')
    (refs : References) : mention.access refs = (refs.lookup mention.name).getD [] := by
  simp only [Mention.access, isShorthand_eq_false h, Bool.false_eq_true, if_false]

/-- A setter that is also a reference is rewritten as the reference. -/
theorem access_le {state : List Text} {props : List (Text × Text)} {mention : Mention}
    (h : mention.callsSetter) :
    textLe (mention.access (references state props)) ("this.".toList ++ mention.name) := by
  rw [Mention.callsSetter, Bool.and_eq_true] at h
  rw [access_of_call (of_decide_eq_true h.2), lookup_references]
  split
  · exact textLe_refl _
  · cases props.lookup mention.name with
    | none => rfl
    | some key =>
      have name := h.1
      rw [isSetterName] at name
      split at name
      · rename_i rest hd
        have before : textLe ("props.".toList ++ key) ("set".toList ++ rest) := rfl
        rw [eq_append_of_dropHead? hd]
        exact textLe_append "this.".toList before
      · exact Bool.noConfusion name

theorem name_eq_props {pos : Nat} {mention : Mention} (h : mention.refersToProps scopes pos) :
    mention.name = "props".toList := by
  simp only [Mention.refersToProps, Bool.and_eq_true, beq_iff_eq] at h
  exact h.1.1

theorem head?_of_refersToProps {pos : Nat} {mention : Mention}
    (h : mention.refersToProps scopes pos) : mention.ahead.head? = some '.' := by
  simp only [Mention.refersToProps, Bool.and_eq_true] at h
  exact of_decide_eq_true h.1.2

theorem callsSetter_of_refersToSetter {pos : Nat} {mention : Mention}
    (h : mention.refersToSetter scopes pos) : mention.callsSetter := by
  rw [Mention.refersToSetter, Bool.and_eq_true] at h
  exact h.1

theorem name_ne_nil_of_refers (hn : ∀ entry ∈ refs, isWord entry.1) {pos : Nat} {mention : Mention}
    (h : mention.refers refs scopes pos) : mention.name ≠ [] := by
  rw [Mention.refers, Bool.and_eq_true, List.contains_iff_mem] at h
  obtain ⟨entry, he, hname⟩ := List.mem_map.1 h.1
  rw [← hname]
  exact ne_nil_of_isWord (hn entry he)

theorem name_ne_nil_of_callsSetter {mention : Mention} (h : mention.callsSetter) :
    mention.name ≠ [] := by
  rw [Mention.callsSetter, Bool.and_eq_true] at h
  intro he
  rw [he] at h
  exact Bool.noConfusion h.1

theorem mem_proposals {place : Place} {edit : Edit} (h : edit ∈ proposals refs scopes place) :
    (place.mention.refers refs scopes place.pos ∧
        edit = ⟨⟨place.pos, place.pos + place.mention.name.length⟩, place.mention.access refs⟩) ∨
      (place.mention.refersToProps scopes place.pos ∧
        edit = ⟨⟨place.pos, place.pos + 6⟩, "this.props.".toList⟩) ∨
      (place.mention.refersToSetter scopes place.pos ∧
        edit = ⟨⟨place.pos, place.pos + place.mention.name.length⟩,
          "this.".toList ++ place.mention.name⟩) := by
  simp only [proposals] at h
  split at h
  · simp only [List.mem_append, List.mem_ite_nil_right, List.mem_singleton] at h
    tauto
  · simp at h

theorem pairwise_proposals {first second third : Edit} {a b c : Bool}
    (hab : a → b → first.le second) (hac : a → c → first.le third) (hbc : b → c → second.le third) :
    ((if a then [first] else []) ++ (if b then [second] else []) ++
      (if c then [third] else [])).Pairwise
      fun x y => x.le y := by
  cases a <;> cases b <;> cases c <;> simp_all

/-- The edits at a place are in order: a reference comes before the props object and before a
setter. -/
theorem proposes {state : List Text} {props : List (Text × Text)}
    (hn : ∀ entry ∈ references state props, isWord entry.1) (scopes : List BindingScope) :
    Proposes (proposals (references state props) scopes) where
  sorted := by
    intro place
    simp only [proposals]
    split
    · refine pairwise_proposals (fun _ hp => ?_) (fun _ hs => ?_) fun hp hs => ?_
      · have shorter : place.mention.name.length = 5 := by rw [name_eq_props hp]; rfl
        rw [Edit.le_iff]
        exact .inr ⟨rfl, .inl (by dsimp only; omega)⟩
      · rw [Edit.le_iff]
        exact .inr ⟨rfl, .inr ⟨rfl, access_le (callsSetter_of_refersToSetter hs)⟩⟩
      · have called := callsSetter_of_refersToSetter hs
        rw [Mention.callsSetter, name_eq_props hp] at called
        exact Bool.noConfusion called
    · exact List.Pairwise.nil
  start := by
    intro place edit he
    rcases mem_proposals he with ⟨_, rfl⟩ | ⟨_, rfl⟩ | ⟨_, rfl⟩ <;> rfl
  stop := by
    intro place edit he
    have grows : ∀ name : Text, name ≠ [] → place.pos < place.pos + name.length := fun name h => by
      have := List.length_pos_iff.2 h
      omega
    rcases mem_proposals he with ⟨hr, rfl⟩ | ⟨_, rfl⟩ | ⟨hs, rfl⟩
    · exact grows _ (name_ne_nil_of_refers hn hr)
    · exact Nat.lt_add_of_pos_right (by decide)
    · exact grows _ (name_ne_nil_of_callsSetter (callsSetter_of_refersToSetter hs))

/-! ## Words on the walk -/

/-- What a mention becomes. -/
def Mention.qualified (refs : References) (scopes : List BindingScope) (pos : Nat)
    (mention : Mention) : Text :=
  if mention.refers refs scopes pos then mention.access refs
  else if mention.refersToProps scopes pos then "this.props".toList
  else if mention.refersToSetter scopes pos then "this.".toList ++ mention.name
  else mention.name

/-- The body from `pos` on with its references qualified; `code` is the masked body. -/
def walk (refs : References) (scopes : List BindingScope) (behind : Text) (pos : Nat)
    (code body : Text) : Text :=
  sweep (fun place => (proposals refs scopes place).head?) behind pos 0 code body

/-- Qualifying is one walk over the body. -/
theorem qualify_eq_walk {state : List Text} {props : List (Text × Text)}
    (hn : ∀ entry ∈ references state props, isWord entry.1) (body : Text) :
    qualify state props body =
      walk (references state props) (bindingScopes (mask body)) [] 0 (mask body) body :=
  applyEdits_eq_sweep (proposes hn _) (length_mask body) (qualifyEdits_perm hn body)

/-- A place inside a word has no edits. -/
theorem proposals_inside {behind ahead : Text} {pos : Nat} (h : startsFree behind = false) :
    proposals refs scopes ⟨pos, behind, ahead⟩ = [] := by
  simp only [proposals, h, Bool.false_eq_true, if_false]

/-- A place where no word starts has no edits. -/
theorem proposals_between (hn : ∀ entry ∈ refs, isWord entry.1) {behind ahead : Text} {pos : Nat}
    (h : PastWord ahead) : proposals refs scopes ⟨pos, behind, ahead⟩ = [] := by
  have none : wordAhead ahead = [] := by
    cases ahead with
    | nil => rfl
    | cons c cs => simp [wordAhead, h c rfl]
  cases hp : proposals refs scopes ⟨pos, behind, ahead⟩ with
  | nil => rfl
  | cons edit edits =>
    have hm : edit ∈ proposals refs scopes ⟨pos, behind, ahead⟩ := by
      rw [hp]
      exact List.mem_cons_self
    exfalso
    rcases mem_proposals hm with ⟨hr, _⟩ | ⟨hr, _⟩ | ⟨hr, _⟩
    · exact name_ne_nil_of_refers hn hr none
    · have := name_eq_props hr
      rw [Place.mention, none] at this
      cases this
    · exact name_ne_nil_of_callsSetter (callsSetter_of_refersToSetter hr) none

theorem walk_of_nil {behind code body : Text} {pos : Nat} {c b : Char}
    (h : proposals refs scopes ⟨pos, behind, c :: code⟩ = []) :
    walk refs scopes behind pos (c :: code) (b :: body) =
      b :: walk refs scopes (c :: behind) (pos + 1) code body := by
  rw [walk, sweep, if_neg (Nat.not_lt_zero _), h]
  rfl

/-- A character that is not of a name is copied. -/
theorem walk_quiet (hn : ∀ entry ∈ refs, isWord entry.1) {behind code body : Text} {pos : Nat}
    {c b : Char} (h : isNameChar c = false) :
    walk refs scopes behind pos (c :: code) (b :: body) =
      b :: walk refs scopes (c :: behind) (pos + 1) code body :=
  walk_of_nil (proposals_between hn (by rintro d ⟨⟩; exact h))

/-- Text without name characters is copied. -/
theorem walk_quiet_append (hn : ∀ entry ∈ refs, isWord entry.1) (rest rest' : Text) :
    ∀ (code body behind : Text) (pos : Nat), code.length = body.length →
      (∀ c ∈ code, isNameChar c = false) →
      walk refs scopes behind pos (code ++ rest) (body ++ rest') =
        body ++ walk refs scopes (code.reverse ++ behind) (pos + code.length) rest rest'
  | [], [], _, _, _, _ => rfl
  | c :: cs, b :: bs, behind, pos, hl, hc => by
    have ih := walk_quiet_append hn rest rest' cs bs (c :: behind) (pos + 1) (Nat.succ.inj hl)
      fun d hd => hc d (by simp [hd])
    rw [List.cons_append, List.cons_append, walk_quiet hn (hc c (by simp)), ih]
    simp [Nat.add_assoc, Nat.add_comm 1]

/-- The rest of a word is copied. -/
theorem walk_inside (rest rest' : Text) :
    ∀ (w behind : Text) (pos : Nat), (∀ c ∈ w, isNameChar c) → startsFree behind = false →
      walk refs scopes behind pos (w ++ rest) (w ++ rest') =
        w ++ walk refs scopes (w.reverse ++ behind) (pos + w.length) rest rest'
  | [], _, _, _, _ => rfl
  | c :: cs, behind, pos, hc, hf => by
    have ih := walk_inside rest rest' cs (c :: behind) (pos + 1) (fun d hd => hc d (by simp [hd]))
      (startsFree_eq_false (hc c (by simp)) behind)
    rw [List.cons_append, List.cons_append, walk_of_nil (proposals_inside hf), ih]
    simp [Nat.add_assoc, Nat.add_comm 1]

/-- The first edit at a word. -/
theorem head?_proposals {w behind rest : Text} (hw : ∀ c ∈ w, isNameChar c) (hf : startsFree behind)
    (hr : PastWord rest) (pos : Nat) :
    (proposals refs scopes ⟨pos, behind, w ++ rest⟩).head? =
      if (⟨w, behind, rest⟩ : Mention).refers refs scopes pos then
        some ⟨⟨pos, pos + w.length⟩, (⟨w, behind, rest⟩ : Mention).access refs⟩
      else if (⟨w, behind, rest⟩ : Mention).refersToProps scopes pos then
        some ⟨⟨pos, pos + 6⟩, "this.props.".toList⟩
      else if (⟨w, behind, rest⟩ : Mention).refersToSetter scopes pos then
        some ⟨⟨pos, pos + w.length⟩, "this.".toList ++ w⟩
      else none := by
  simp only [proposals, Place.mention, wordAhead_append hw hr, afterWord_append hw hr, hf, if_true]
  split
  · rfl
  · split
    · rfl
    · split <;> rfl

/-- Before a dot in the code there is one in the text. -/
def SameDot (rest rest' : Text) : Prop :=
  rest.head? = some '.' → rest'.head? = some '.'

/-- A word becomes what its mention becomes. -/
theorem walk_word (hn : ∀ entry ∈ refs, isWord entry.1) {w behind rest rest' : Text} (hw : isWord w)
    (hf : startsFree behind) (hr : PastWord rest) (hdot : SameDot rest rest') (pos : Nat) :
    walk refs scopes behind pos (w ++ rest) (w ++ rest') =
      (⟨w, behind, rest⟩ : Mention).qualified refs scopes pos
        ++ walk refs scopes (w.reverse ++ behind) (pos + w.length) rest rest' := by
  have chars := isNameChar_of_isWord hw
  have first : (proposals refs scopes ⟨pos, behind, w ++ rest⟩).head? = _ :=
    head?_proposals chars hf hr pos
  rw [Mention.qualified]
  split
  · rename_i h
    rw [if_pos h] at first
    exact sweep_edit (ne_nil_of_isWord hw) rfl first
  · rename_i h
    rw [if_neg h] at first
    split
    · rename_i h
      rw [if_pos h] at first
      obtain ⟨code, rfl⟩ := List.head?_eq_some_iff.1 (head?_of_refersToProps h)
      obtain ⟨body, rfl⟩ := List.head?_eq_some_iff.1 (hdot rfl)
      obtain rfl : w = "props".toList := name_eq_props h
      -- The edit covers the dot as well, which the walk would copy.
      have covered : walk refs scopes behind pos ("props.".toList ++ code)
          ("props.".toList ++ body) =
          "this.props.".toList ++ walk refs scopes ("props.".toList.reverse ++ behind) (pos + 6)
            code body :=
        sweep_edit (by decide) rfl first
      have dot : walk refs scopes ("props".toList.reverse ++ behind) (pos + 5) ('.' :: code)
          ('.' :: body) =
          '.' :: walk refs scopes ('.' :: ("props".toList.reverse ++ behind)) (pos + 5 + 1) code
            body :=
        walk_quiet hn (by decide)
      exact covered.trans (congrArg ("this.props".toList ++ ·) dot.symm)
    · rename_i h
      rw [if_neg h] at first
      split
      · rename_i h
        rw [if_pos h] at first
        exact sweep_edit (ne_nil_of_isWord hw) rfl first
      · rename_i h
        rw [if_neg h] at first
        obtain ⟨c, cs, rfl⟩ := List.exists_cons_of_ne_nil (ne_nil_of_isWord hw)
        have inside : walk refs scopes (c :: behind) (pos + 1) (cs ++ rest) (cs ++ rest') = _ :=
          walk_inside rest rest' cs (c :: behind) (pos + 1) (fun d hd => chars d (by simp [hd]))
            (startsFree_eq_false (chars c (by simp)) behind)
        rw [List.cons_append] at first
        rw [List.cons_append, List.cons_append, walk_of_nil (List.head?_eq_none_iff.1 first),
          inside]
        simp [Nat.add_assoc, Nat.add_comm 1]

end Recast
