import Recast.Component.ClassShape
import Recast.Proofs.Component.TypeTree

/-!
# The first type argument

A list of type arguments is cut at its first comma outside brackets. One counter stands for all
kinds of brackets, and the `>` of an arrow lowers it as the end of a generic does: behind an arrow
the counter is one too low for the rest of the list. So the cut is right as long as the first
argument has no arrow (`firstTypeArgument_eq_first_iff`). Behind an arrow it is missed at the comma
that ends the argument, and made at a comma inside the argument that the arrow brought to zero.
-/

namespace Recast

/-! ## The counter on text -/

/-- What a character adds to the counter. -/
def counterStep (c : Char) : Int :=
  if isOpener c || c = '<' then 1 else if isCloser c || c = '>' then -1 else 0

/-- What a text adds to the counter. -/
def counterGain : Text → Int
  | [] => 0
  | c :: cs => counterStep c + counterGain cs

/-- The counter at each comma of a text. -/
def commaCounts (count : Int) : Text → List Int
  | [] => []
  | c :: cs =>
    if c = ',' then count :: commaCounts count cs else commaCounts (count + counterStep c) cs

section Counter

variable {t u : Text} {count : Int}

@[simp] theorem counterGain_append :
    ∀ t u : Text, counterGain (t ++ u) = counterGain t + counterGain u
  | [], u => (Int.zero_add _).symm
  | c :: cs, u => by
    rw [List.cons_append, counterGain, counterGain, counterGain_append cs u, Int.add_assoc]

@[simp] theorem commaCounts_append : ∀ (t u : Text) (count : Int),
    commaCounts count (t ++ u) = commaCounts count t ++ commaCounts (count + counterGain t) u
  | [], u, count => by rw [counterGain, Int.add_zero]; rfl
  | c :: cs, u, count => by
    rw [List.cons_append, commaCounts, commaCounts, counterGain]
    split
    · rename_i comma
      subst comma
      rw [commaCounts_append cs u count, List.cons_append, show counterStep ',' = 0 from rfl,
        Int.zero_add]
    · rw [commaCounts_append cs u _, Int.add_assoc]

/-- One character changes the counter by its step, and only a comma at zero ends the argument. -/
theorem firstArgumentFrom_cons (count : Int) (c : Char) (cs : Text) :
    firstArgumentFrom count (c :: cs) =
      if c = ',' ∧ count = 0 then some []
      else (firstArgumentFrom (count + counterStep c) cs).map (c :: ·) := by
  by_cases comma : c = ','
  · subst comma
    by_cases zero : count = 0
    · simp [firstArgumentFrom, zero, isOpener, isCloser]
    · simp [firstArgumentFrom, zero, isOpener, isCloser, counterStep]
  · rw [if_neg (comma ·.1), firstArgumentFrom, counterStep]
    by_cases opens : (isOpener c || decide (c = '<')) = true
    · rw [if_pos opens, if_pos opens]
    · rw [if_neg opens, if_neg opens]
      by_cases closes : (isCloser c || decide (c = '>')) = true
      · rw [if_pos closes, if_pos closes, Int.sub_eq_add_neg]
      · rw [if_neg closes, if_neg closes, if_neg (by simp [comma]), Int.add_zero]

/-- A text without a comma at zero is passed over. -/
theorem firstArgumentFrom_append (none : 0 ∉ commaCounts count t) (u : Text) :
    firstArgumentFrom count (t ++ u) =
      (firstArgumentFrom (count + counterGain t) u).map (t ++ ·) := by
  induction t generalizing count with
  | nil => simp [counterGain]
  | cons c cs ih =>
    rw [commaCounts] at none
    have stay : ¬ (c = ',' ∧ count = 0) := by
      rintro ⟨rfl, rfl⟩
      simp at none
    have rest : 0 ∉ commaCounts (count + counterStep c) cs := by
      by_cases comma : c = ','
      · subst comma
        rw [if_pos rfl] at none
        rw [show counterStep ',' = 0 from rfl, Int.add_zero]
        exact fun h => none (List.mem_cons_of_mem _ h)
      · rwa [if_neg comma] at none
    rw [List.cons_append, firstArgumentFrom_cons, if_neg stay, ih rest, counterGain, Int.add_assoc,
      Option.map_map]
    rfl

/-- A text with a comma at zero is cut inside. -/
theorem exists_firstArgumentFrom (some : 0 ∈ commaCounts count t) :
    ∃ before after, t = before ++ ',' :: after ∧ ∀ u,
      firstArgumentFrom count (t ++ u) = .some before := by
  induction t generalizing count with
  | nil => cases some
  | cons c cs ih =>
    by_cases stop : c = ',' ∧ count = 0
    · refine ⟨[], cs, by rw [stop.1]; rfl, fun u => ?_⟩
      rw [List.cons_append, firstArgumentFrom_cons, if_pos stop]
    · have rest : 0 ∈ commaCounts (count + counterStep c) cs := by
        rw [commaCounts] at some
        by_cases comma : c = ','
        · subst comma
          rw [if_pos rfl] at some
          rw [show counterStep ',' = 0 from rfl, Int.add_zero]
          exact (List.mem_cons.1 some).resolve_left fun zero => stop ⟨rfl, zero.symm⟩
        · rwa [if_neg comma] at some
      obtain ⟨before, after, rfl, cut⟩ := ih rest
      refine ⟨c :: before, after, rfl, fun u => ?_⟩
      rw [List.cons_append, firstArgumentFrom_cons, if_neg stop, cut u]
      rfl

/-- A text with its arrows and the counter at each of its commas, as a function of the counter
before it. -/
structure IsCounted (t : Text) (arrows : Nat) (counts : Int → List Int) : Prop where
  gain : counterGain t = -arrows
  commas : ∀ count, commaCounts count t = counts count

variable {arrows arrows' : Nat} {counts counts' : Int → List Int}

theorem IsCounted.append (ht : IsCounted t arrows counts) (hu : IsCounted u arrows' counts') :
    IsCounted (t ++ u) (arrows + arrows') fun count =>
      counts count ++ counts' (count - arrows) where
  gain := by
    rw [counterGain_append, ht.gain, hu.gain]
    omega
  commas count := by rw [commaCounts_append, ht.commas, hu.commas, ht.gain, Int.sub_eq_add_neg]

/-- Brackets raise the counter at every comma in them. -/
theorem IsCounted.enclosed (ht : IsCounted t arrows counts) {first last : Char}
    (opens : counterStep first = 1) (closes : counterStep last = -1) :
    IsCounted (first :: (t ++ [last])) arrows fun count => counts (count + 1) where
  gain := by
    rw [counterGain, counterGain_append, opens, ht.gain, counterGain, closes, counterGain]
    omega
  commas count := by
    have first_ne : first ≠ ',' := by
      rintro rfl
      cases opens
    have last_ne : last ≠ ',' := by
      rintro rfl
      cases closes
    rw [commaCounts, if_neg first_ne, commaCounts_append, ht.commas, opens, commaCounts,
      if_neg last_ne, commaCounts, List.append_nil]

/-- Two texts with a comma between them. -/
theorem IsCounted.listed (ht : IsCounted t arrows counts) (hu : IsCounted u arrows' counts') :
    IsCounted (t ++ ',' :: ' ' :: u) (arrows + arrows') fun count =>
      counts count ++ (count - arrows) :: counts' (count - arrows) where
  gain := by
    have comma : counterGain (',' :: ' ' :: u) = counterGain u := by
      simp [counterGain, counterStep, isOpener, isCloser]
    rw [counterGain_append, comma, ht.gain, hu.gain]
    omega
  commas count := by
    have comma (n : Int) : commaCounts n (',' :: ' ' :: u) = n :: commaCounts n u := by
      simp [commaCounts, counterStep, isOpener, isCloser]
    rw [commaCounts_append, comma, ht.commas, hu.commas, ht.gain, Int.sub_eq_add_neg]

/-- Text without brackets, commas and arrows. -/
def IsUncounted (t : Text) : Prop :=
  ∀ c ∈ t, c ≠ ',' ∧ counterStep c = 0

instance (t : Text) : Decidable (IsUncounted t) :=
  inferInstanceAs (Decidable (∀ c ∈ t, c ≠ ',' ∧ counterStep c = 0))

theorem IsUncounted.append (ht : IsUncounted t) (hu : IsUncounted u) : IsUncounted (t ++ u) :=
  fun c hc => (List.mem_append.1 hc).elim (ht c) (hu c)

theorem IsUncounted.isCounted : ∀ {t : Text}, IsUncounted t → IsCounted t 0 fun _ => []
  | [], _ => ⟨rfl, fun _ => rfl⟩
  | c :: cs, h => by
    obtain ⟨comma, step⟩ := h c List.mem_cons_self
    have ih : IsCounted cs 0 fun _ => [] :=
      IsUncounted.isCounted fun d hd => h d (List.mem_cons_of_mem _ hd)
    exact ⟨by rw [counterGain, step, ih.gain, Int.zero_add], fun count => by
      rw [commaCounts, if_neg comma, ih.commas]⟩

/-- Uncounted text before a text changes nothing. -/
theorem IsUncounted.before (ht : IsUncounted t) (hu : IsCounted u arrows counts) :
    IsCounted (t ++ u) arrows counts := by
  simpa using ht.isCounted.append hu

theorem IsCounted.before (ht : IsCounted t arrows counts) (hu : IsUncounted u) :
    IsCounted (t ++ u) arrows counts := by
  simpa using ht.append hu.isCounted

end Counter

/-! ## The counter on types -/

theorem isUncounted_of_isNameChar {c : Char} (h : isNameChar c) : c ≠ ',' ∧ counterStep c = 0 := by
  have marks : ∀ d ∈ [',', '(', '[', '{', '<', ')', ']', '}', '>'], isNameChar d = false := by
    decide
  have other : c ∉ [',', '(', '[', '{', '<', ')', ']', '}', '>'] := by
    intro mark
    rw [marks c mark] at h
    cases h
  simp only [List.mem_cons, List.not_mem_nil, or_false, not_or] at other
  simp [counterStep, isOpener, isCloser, other]

theorem Word.isUncounted (word : Word) : IsUncounted word.text := fun c hc =>
  isUncounted_of_isNameChar (isNameChar_of_isIdentifier word.valid c hc)

theorem TypeName.isUncounted (name : TypeName) : IsUncounted name.text := by
  intro c hc
  rcases name.isNameChar_or_dot c hc with h | rfl
  · exact isUncounted_of_isNameChar h
  · decide

theorem isUncounted_memberHead (key : Word) (optional : Bool) :
    IsUncounted (memberHead key optional) := by
  have mark : IsUncounted (optionalMark optional) := by cases optional <;> decide
  have blank : IsUncounted [' '] := by decide
  have colon : IsUncounted [':', ' '] := by decide
  exact blank.append (key.isUncounted.append (mark.append colon))

theorem isUncounted_paramHead (name : Word) : IsUncounted (paramHead name) := by
  have colon : IsUncounted [':', ' '] := by decide
  exact name.isUncounted.append colon

mutual

/-- The number of arrows in a type. -/
def TypeTree.arrows : TypeTree → Nat
  | .name _ => 0
  | .generic _ arguments => arguments.arrows
  | .object members => members.arrows
  | .array element => element.arrows
  | .emptyTuple => 0
  | .tuple items => items.arrows
  | .group inner => inner.arrows
  | .function params result => params.arrows + 1 + result.arrows

/-- The number of arrows in items. -/
def TypeItems.arrows : TypeItems → Nat
  | .last type => type.arrows
  | .more type rest => type.arrows + rest.arrows

/-- The number of arrows in members. -/
def TypeMembers.arrows : TypeMembers → Nat
  | .done => 0
  | .last _ _ type => type.arrows
  | .more _ _ type _ rest => type.arrows + rest.arrows

/-- The number of arrows in parameters. -/
def TypeParams.arrows : TypeParams → Nat
  | .done => 0
  | .last _ type => type.arrows
  | .more _ type rest => type.arrows + rest.arrows

end

/-- The counter at the mark behind a member, if it is a comma. -/
def MemberMark.commaCounts (count : Int) : MemberMark → List Int
  | .comma => [count]
  | .semicolon => []

mutual

/-- The counter at each comma of a type: the brackets that are open there, less the arrows before
it. -/
def TypeTree.commaCounts (count : Int) : TypeTree → List Int
  | .name _ => []
  | .generic _ arguments => arguments.commaCounts (count + 1)
  | .object members => members.commaCounts (count + 1)
  | .array element => element.commaCounts count
  | .emptyTuple => []
  | .tuple items => items.commaCounts (count + 1)
  | .group inner => inner.commaCounts (count + 1)
  | .function params result =>
    params.commaCounts (count + 1) ++ result.commaCounts (count - params.arrows - 1)

/-- The counter at each comma of items. -/
def TypeItems.commaCounts (count : Int) : TypeItems → List Int
  | .last type => type.commaCounts count
  | .more type rest =>
    type.commaCounts count ++ (count - type.arrows) :: rest.commaCounts (count - type.arrows)

/-- The counter at each comma of members. -/
def TypeMembers.commaCounts (count : Int) : TypeMembers → List Int
  | .done => []
  | .last _ _ type => type.commaCounts count
  | .more _ _ type mark rest =>
    type.commaCounts count ++
      (mark.commaCounts (count - type.arrows) ++ rest.commaCounts (count - type.arrows))

/-- The counter at each comma of parameters. -/
def TypeParams.commaCounts (count : Int) : TypeParams → List Int
  | .done => []
  | .last _ type => type.commaCounts count
  | .more _ type rest =>
    type.commaCounts count ++ (count - type.arrows) :: rest.commaCounts (count - type.arrows)

end

/-- A mark with members behind it. -/
theorem MemberMark.isCounted (mark : MemberMark) {rest : Text} {arrows : Nat}
    {counts : Int → List Int} (h : IsCounted rest arrows counts) :
    IsCounted (mark.char :: rest) arrows fun count => mark.commaCounts count ++ counts count := by
  have single : IsCounted [mark.char] 0 mark.commaCounts := by
    cases mark
    · exact ⟨rfl, fun _ => rfl⟩
    · exact ⟨rfl, fun _ => rfl⟩
  simpa using single.append h

mutual

theorem TypeTree.isCounted :
    ∀ type : TypeTree, IsCounted type.print type.arrows fun count => type.commaCounts count
  | .name name => name.isUncounted.isCounted
  | .generic name arguments => name.isUncounted.before (arguments.isCounted.enclosed rfl rfl)
  | .object members => members.isCounted.enclosed rfl rfl
  | .array element => by
    have brackets : IsCounted ['[', ']'] 0 fun _ => [] := ⟨rfl, fun _ => rfl⟩
    simpa [TypeTree.print, TypeTree.arrows, TypeTree.commaCounts]
      using element.isCounted.append brackets
  | .emptyTuple => ⟨rfl, fun _ => rfl⟩
  | .tuple items => items.isCounted.enclosed rfl rfl
  | .group inner => inner.isCounted.enclosed rfl rfl
  | .function params result => by
    have arrow : IsCounted " => ".toList 1 fun _ => [] := ⟨rfl, fun _ => rfl⟩
    have list : IsCounted ('(' :: (params.print ++ [')'])) params.arrows fun count =>
        params.commaCounts (count + 1) :=
      params.isCounted.enclosed rfl rfl
    have whole := list.append (arrow.append result.isCounted)
    rwa [← Nat.add_assoc] at whole

theorem TypeItems.isCounted :
    ∀ items : TypeItems, IsCounted items.print items.arrows fun count => items.commaCounts count
  | .last type => type.isCounted
  | .more type rest => type.isCounted.listed rest.isCounted

theorem TypeMembers.isCounted : ∀ members : TypeMembers,
    IsCounted members.print members.arrows fun count => members.commaCounts count
  | .done => ⟨rfl, fun _ => rfl⟩
  | .last key optional type =>
    (isUncounted_memberHead key optional).before (type.isCounted.before (by decide))
  | .more key optional type mark rest =>
    (isUncounted_memberHead key optional).before
      (type.isCounted.append (mark.isCounted rest.isCounted))

theorem TypeParams.isCounted : ∀ params : TypeParams,
    IsCounted params.print params.arrows fun count => params.commaCounts count
  | .done => ⟨rfl, fun _ => rfl⟩
  | .last name type => (isUncounted_paramHead name).before type.isCounted
  | .more name type rest =>
    (isUncounted_paramHead name).before (type.isCounted.listed rest.isCounted)

end

mutual

/-- Without an arrow, every comma of a type is in brackets of its own. -/
theorem TypeTree.lt_of_mem_commaCounts : ∀ (type : TypeTree) {count n : Int}, type.arrows = 0 →
    n ∈ type.commaCounts count → count < n
  | .name _, _, _, _, mem => nomatch mem
  | .generic _ arguments, _, _, straight, mem => arguments.le_of_mem_commaCounts straight mem
  | .object members, _, _, straight, mem => members.le_of_mem_commaCounts straight mem
  | .array element, _, _, straight, mem => element.lt_of_mem_commaCounts straight mem
  | .emptyTuple, _, _, _, mem => nomatch mem
  | .tuple items, _, _, straight, mem => items.le_of_mem_commaCounts straight mem
  | .group inner, _, _, straight, mem =>
    Int.lt_trans (Int.lt_succ _) (inner.lt_of_mem_commaCounts straight mem)
  | .function params result, _, _, straight, _ => by
    rw [TypeTree.arrows] at straight
    omega

theorem TypeItems.le_of_mem_commaCounts : ∀ (items : TypeItems) {count n : Int}, items.arrows = 0 →
    n ∈ items.commaCounts count → count ≤ n
  | .last type, _, _, straight, mem => Int.le_of_lt (type.lt_of_mem_commaCounts straight mem)
  | .more type rest, count, n, straight, mem => by
    obtain ⟨first, later⟩ := Nat.add_eq_zero_iff.1 straight
    rw [TypeItems.commaCounts, first, List.mem_append, List.mem_cons] at mem
    rcases mem with mem | rfl | mem
    · exact Int.le_of_lt (type.lt_of_mem_commaCounts first mem)
    · omega
    · simpa using rest.le_of_mem_commaCounts later mem

theorem TypeMembers.le_of_mem_commaCounts :
    ∀ (members : TypeMembers) {count n : Int}, members.arrows = 0 →
    n ∈ members.commaCounts count → count ≤ n
  | .done, _, _, _, mem => nomatch mem
  | .last _ _ type, _, _, straight, mem => Int.le_of_lt (type.lt_of_mem_commaCounts straight mem)
  | .more _ _ type mark rest, count, n, straight, mem => by
    obtain ⟨first, later⟩ := Nat.add_eq_zero_iff.1 straight
    rw [TypeMembers.commaCounts, first, List.mem_append, List.mem_append] at mem
    rcases mem with mem | mem | mem
    · exact Int.le_of_lt (type.lt_of_mem_commaCounts first mem)
    · cases mark with
      | comma =>
        obtain rfl := List.mem_singleton.1 mem
        omega
      | semicolon => cases mem
    · simpa using rest.le_of_mem_commaCounts later mem

end

/-! ## The cut -/

theorem firstTypeArgument_of_ne_nil {arguments : Text} (filled : arguments ≠ []) :
    firstTypeArgument arguments = some (trim ((firstArgumentFrom 0 arguments).getD arguments)) := by
  rw [firstTypeArgument, if_neg (by simpa using filled)]

/-- What goes on with a comma behind a type is not cut back to the type. -/
theorem TypeTree.trim_ne (type : TypeTree) (rest : Text) :
    trim (type.print ++ ',' :: rest) ≠ type.print := by
  have cut : trim ([] ++ (type.print ++ ',' :: rest)) = type.print ++ trimEnd (',' :: rest) :=
    trim_around rfl type.trimmed _
  have comma : trimEnd ([','] ++ rest) = [','] ++ trimEnd rest :=
    trimEnd_append (by rintro c ⟨⟩; rfl) rest
  simp only [List.nil_append, List.singleton_append] at cut comma
  rw [cut, comma]
  simp

/-- A type whose own commas are passed over is cut off from what follows exactly if it has no
arrow. -/
theorem TypeTree.cut_iff (type : TypeTree) (passed : 0 ∉ type.commaCounts 0) (rest : Text) :
    trim ((firstArgumentFrom 0 (type.print ++ ',' :: rest)).getD (type.print ++ ',' :: rest)) =
      type.print ↔
      type.arrows = 0 := by
  have counter : (0 : Int) + counterGain type.print = -type.arrows := by
    rw [type.isCounted.gain, Int.zero_add]
  rw [← type.isCounted.commas] at passed
  rw [firstArgumentFrom_append passed, counter, firstArgumentFrom_cons]
  by_cases straight : type.arrows = 0
  · simp [straight, type.trimmed.trim_eq]
  · have low : ¬ (-(type.arrows : Int) = 0) := by omega
    rw [if_neg (low ·.2)]
    simp only [straight, iff_false]
    cases firstArgumentFrom (-(type.arrows : Int) + counterStep ',') rest with
    | none => exact type.trim_ne rest
    | some before => exact type.trim_ne before

/-- The first of a list of type arguments is what is cut off exactly if it has no arrow, or is the
only one and the arrows in it bring the counter to zero at none of its commas. -/
theorem firstTypeArgument_eq_first_iff (first : TypeTree) (rest : List TypeTree) :
    firstTypeArgument (joinComma ((first :: rest).map TypeTree.print)) = some first.print ↔
      first.arrows = 0 ∨ (rest = [] ∧ 0 ∉ first.commaCounts 0) := by
  obtain ⟨c, cs, cons, -⟩ := first.trimmed.first
  by_cases inside : 0 ∈ first.commaCounts 0
  · -- the cut is inside the argument, at a comma where arrows brought the counter to zero
    obtain ⟨before, after, split, cut⟩ :=
      exists_firstArgumentFrom ((first.isCounted.commas 0).symm ▸ inside)
    obtain ⟨tail, join⟩ : ∃ tail, joinComma ((first :: rest).map TypeTree.print) =
        first.print ++ tail := by
      cases rest with
      | nil => exact ⟨[], by simp [joinComma, joinWith]⟩
      | cons => exact ⟨_, by simp [joinComma, joinWith]; rfl⟩
    have shorter : (trim before).length < first.print.length := by
      have part := length_trim_le before
      rw [split, List.length_append, List.length_cons]
      omega
    have bent : first.arrows ≠ 0 :=
      fun straight => Int.lt_irrefl 0 (first.lt_of_mem_commaCounts straight inside)
    rw [join, firstTypeArgument_of_ne_nil (by simp [cons]), cut tail]
    simp only [Option.getD_some, Option.some_inj, inside, bent, not_true_eq_false, and_false,
      or_self, iff_false]
    exact fun same => Nat.ne_of_lt shorter (congrArg List.length same)
  · cases rest with
    | nil =>
      have passed := firstArgumentFrom_append ((first.isCounted.commas 0).symm ▸ inside) []
      rw [List.append_nil] at passed
      rw [List.map_singleton, joinComma, joinWith, firstTypeArgument_of_ne_nil (by simp [cons]),
        passed]
      simp [firstArgumentFrom, first.trimmed.trim_eq, inside]
    | cons next others =>
      have join : joinComma ((first :: next :: others).map TypeTree.print) =
          first.print ++ ',' :: ' ' :: joinComma ((next :: others).map TypeTree.print) := by
        simp [joinComma, joinWith]
      rw [join, firstTypeArgument_of_ne_nil (by simp [cons]), Option.some_inj, first.cut_iff inside]
      simp

/-- The type `() => void`. -/
def voidCallback : TypeTree :=
  .function .done (.name ⟨[], ⟨"void".toList, by decide⟩, by decide⟩)

/-- The type `State`. -/
def stateType : TypeTree :=
  .name ⟨[], ⟨"State".toList, by decide⟩, by decide⟩

/-- The arguments `() => void, State` are taken for one. -/
theorem firstTypeArgument_voidCallback : voidCallback.print = "() => void".toList ∧
    firstTypeArgument (joinComma ([voidCallback, stateType].map TypeTree.print)) =
      some "() => void, State".toList := by
  decide

end Recast
