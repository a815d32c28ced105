import Recast.Proofs.Files.Persistence
import Recast.Proofs.Text.Lines
import Recast.Proofs.Text.WideText

/-!
# The neighbour of a file

The standard destination of a source is its neighbour: the path of the source with another suffix
behind the stem of the last name. Its names are those of the source up to the last one
(`walkedNames_front`), and dots among them lead nowhere (`foldlM_enter_plain`), so both lie in one
folder. The neighbour is the source itself just if the suffix `Restores` the last name
(`openFile_neighbour`), which for a suffix without a slash means that it is the extension of the
name (`restores_iff`).
-/

namespace Recast

open Directory

/-! ## Names of a path -/

theorem walkedNames_append (a b : Text) :
    walkedNames (a ++ '/' :: b) = walkedNames a ++ walkedNames b := by
  rw [walkedNames, splitOn_append_cons, List.filter_append]
  rfl

theorem mem_walkedNames {path name : Text} (h : name ∈ walkedNames path) :
    name ≠ [] ∧ '/' ∉ name := by
  obtain ⟨piece, nonempty⟩ := List.mem_filter.1 h
  exact ⟨by simpa using nonempty, not_mem_of_mem_splitOn piece⟩

theorem walkedNames_of_plain {name : Text} (nonempty : name ≠ []) (plain : '/' ∉ name) :
    walkedNames name = [name] := by
  rw [walkedNames, splitOn_eq_singleton plain, List.filter_cons_of_pos (by simpa using nonempty),
    List.filter_nil]

/-- Slashes in front lead nowhere. -/
theorem walkedNames_slashes {slashes : Text} (h : ∀ c ∈ slashes, c = '/') (path : Text) :
    walkedNames (slashes ++ path) = walkedNames path := by
  induction slashes with
  | nil => rfl
  | cons c slashes ih =>
    obtain ⟨rfl, rest⟩ := List.forall_mem_cons.1 h
    rw [List.cons_append, ← ih rest]
    exact walkedNames_append [] _

/-- Names with a slash behind each are walked one by one. -/
theorem walkedNames_flatMap (path : Text) :
    ∀ {names : List Text}, (∀ name ∈ names, name ≠ [] ∧ '/' ∉ name) →
    walkedNames (names.flatMap (· ++ ['/']) ++ path) = names ++ walkedNames path
  | [], _ => rfl
  | name :: names, h => by
    obtain ⟨⟨nonempty, plain⟩, h⟩ := List.forall_mem_cons.1 h
    have assoc : (name :: names).flatMap (· ++ ['/']) ++ path =
        name ++ '/' :: (names.flatMap (· ++ ['/']) ++ path) := by simp
    rw [assoc, walkedNames_append, walkedNames_of_plain nonempty plain, walkedNames_flatMap path h]
    rfl

theorem Path.namesOf_eq (path : Text) : namesOf path = (walkedNames path).filter (· ≠ ['.']) := by
  rw [walkedNames, List.filter_filter, namesOf]
  refine List.filter_congr fun name _ => ?_
  cases name <;> simp

theorem Path.mem_namesOf {path name : Text} (h : name ∈ namesOf path) : name ≠ [] ∧ '/' ∉ name := by
  rw [namesOf_eq] at h
  exact mem_walkedNames (List.mem_filter.1 h).1

/-- Dots lead nowhere. -/
theorem foldlM_enter_plain (directory : Directory) : ∀ (names : List Text) (route : Route),
    (names.filter (· ≠ ['.'])).foldlM directory.enter route = names.foldlM directory.enter route
  | [], _ => rfl
  | name :: names, route => by
    rw [List.filter_cons, List.foldlM_cons]
    split
    · rw [List.foldlM_cons]
      exact congrArg _ (funext (foldlM_enter_plain directory names))
    next dot =>
      have here : directory.enter route name = .ok route := by
        rw [enter, if_pos (by simpa using dot)]
      rw [here]
      exact foldlM_enter_plain directory names route

/-! ## The front of a path -/

theorem startsWith_singleton (c : Char) (t : Text) : startsWith t [c] ↔ t.head? = some c := by
  cases t with
  | nil => simp [startsWith, dropHead?]
  | cons d t => by_cases here : c = d <;> simp [startsWith, dropHead?, here, eq_comm (a := d)]

theorem endsWith_singleton (c : Char) (t : Text) : endsWith t [c] ↔ t.getLast? = some c := by
  rw [endsWith, List.reverse_singleton, startsWith_singleton, List.head?_reverse]

theorem Path.mem_rootOf {path : Text} : ∀ c ∈ rootOf path, c = '/' := by
  intro c member
  rw [rootOf] at member
  split at member
  · simpa using List.mem_takeWhile_imp member
  · simpa using member

theorem Path.head?_rootOf (path : Text) :
    (rootOf path).head? = some '/' ↔ path.head? = some '/' := by
  cases path with
  | nil => rfl
  | cons c cs =>
    by_cases slash : c = '/'
    · simp only [rootOf, slash, List.takeWhile_cons, beq_self_eq_true, if_true]
      split <;> simp
    · simp [rootOf, slash]

theorem walkedNames_front (input name : Text) :
    walkedNames ((Path.ofText input).front ++ name) =
      (Path.namesOf input).dropLast ++ walkedNames name := by
  have front : (Path.ofText input).front =
      Path.rootOf input ++ (Path.namesOf input).dropLast.flatMap (· ++ ['/']) := rfl
  rw [front, List.append_assoc, walkedNames_slashes Path.mem_rootOf]
  exact walkedNames_flatMap name fun _ member => Path.mem_namesOf (List.dropLast_subset _ member)

/-- A path starts where its front does. -/
theorem origin_front {name : Text} (h : name.head? ≠ some '/') (input : Text) :
    origin ((Path.ofText input).front ++ name) = origin input := by
  have names : ((Path.namesOf input).dropLast.flatMap (· ++ ['/']) ++ name).head? ≠ some '/' := by
    cases split : (Path.namesOf input).dropLast with
    | nil => exact h
    | cons first names =>
      have member : first ∈ Path.namesOf input :=
        List.dropLast_subset _ (split ▸ List.mem_cons_self)
      obtain ⟨nonempty, plain⟩ := Path.mem_namesOf member
      obtain ⟨c, cs, rfl⟩ := List.exists_cons_of_ne_nil nonempty
      simp only [List.flatMap_cons, List.cons_append, List.head?_cons]
      rintro ⟨⟩
      exact plain List.mem_cons_self
  have same : ((Path.ofText input).front ++ name).head? = some '/' ↔ input.head? = some '/' := by
    rw [← Path.head?_rootOf input, Path.front, List.append_assoc, Path.ofText]
    cases root : Path.rootOf input with
    | nil =>
      rw [List.nil_append]
      exact iff_of_false names (by simp)
    | cons c cs => rfl
  simp only [origin, rootName, startsWith_singleton, same]

/-! ## Names with a suffix -/

/-- The part of a name from its last dot on. -/
def Path.extensionOf (name : Text) : Text :=
  name.drop (stemOf name).length

theorem Path.stemOf_append_extensionOf (name : Text) : stemOf name ++ extensionOf name = name := by
  have stem : stemOf name <+: name := by
    rw [stemOf]
    split
    next after before cut =>
      split
      · exact List.prefix_refl name
      · have reversed := congrArg List.reverse (eq_append_of_cutAt? cut)
        rw [List.reverse_reverse, List.reverse_append] at reversed
        rw [reversed, List.reverse_cons, List.append_assoc]
        exact List.prefix_append _ _
    · exact List.prefix_refl name
  exact List.prefix_iff_eq_append.1 stem

theorem Path.stemOf_ne_nil {name : Text} (h : name ≠ []) : stemOf name ≠ [] := by
  rw [stemOf]
  split
  · split
    · exact h
    next nonempty => simp_all
  · exact h

/-- The stem of a name with the suffix is the name again, perhaps behind dots, which lead
nowhere. -/
def Path.Restores (suffix name : Text) : Prop :=
  ∃ dots, (∀ dot ∈ dots, dot = ['.']) ∧ walkedNames (stemOf name ++ suffix) = dots ++ [name]

/-- A suffix without a slash restores a name just if it is the extension. -/
theorem Path.restores_iff {suffix name : Text} (plain : '/' ∉ suffix) (nonempty : name ≠ [])
    (one : '/' ∉ name) : Restores suffix name ↔ suffix = extensionOf name := by
  have whole := stemOf_append_extensionOf name
  have stem : '/' ∉ stemOf name := fun slash => one (whole ▸ List.mem_append_left _ slash)
  have walked : walkedNames (stemOf name ++ suffix) = [stemOf name ++ suffix] :=
    walkedNames_of_plain (by simp [stemOf_ne_nil nonempty]) (by simp [stem, plain])
  rw [Restores, walked]
  constructor
  · rintro ⟨dots, -, split⟩
    have same : stemOf name ++ suffix = name := by
      simpa using congrArg List.getLast? split
    exact List.append_cancel_left (same.trans whole.symm)
  · rintro rfl
    exact ⟨[], by simp, by rw [whole]; rfl⟩

theorem Path.wideNames_ofText (t : Text) : wideNames (.ofText t) = (namesOf t).map .ofText := by
  rw [wideNames, Wide.splitOn_ofText, List.filter_map, namesOf]
  refine congrArg _ (List.filter_congr fun name _ => ?_)
  cases name with
  | nil => rfl
  | cons c cs => simp [Wide.ofText]

theorem Path.isName_ofText {t : Text} :
    isName (.ofText t) ↔ t.head? ≠ some '/' ∧ t.getLast? ≠ some '/' ∧ (namesOf t).length = 1 := by
  rw [isName, wideNames_ofText, List.length_map]
  simp [Wide.ofText, and_assoc]

/-- A name of a path is a single name. -/
theorem Path.isName_of_mem {path name : Text} (h : name ∈ namesOf path) :
    isName (.ofText name) := by
  obtain ⟨nonempty, plain⟩ := mem_namesOf h
  rw [namesOf_eq] at h
  have undotted : name ≠ ['.'] := by simpa using (List.mem_filter.1 h).2
  rw [isName_ofText, namesOf_eq, walkedNames_of_plain nonempty plain]
  exact ⟨fun slash => plain (List.mem_of_head? slash),
      fun slash => plain (List.mem_of_getLast? slash), by
    simp [undotted]⟩

/-- The standard destination is a text just if the suffix is, and then it is the source up to its
last name, and the stem of this with the suffix. -/
theorem standardDestination_eq_ok {options : Options} {input path : Text} :
    standardDestination options input = .ok (.ofText path) ↔
      ∃ last suffix, (Path.namesOf input).getLast? = some last ∧
        options.outputSuffix = .ofText suffix ∧
        Path.isName (.ofText (Path.stemOf last ++ suffix)) ∧
        path = (Path.ofText input).front ++ (Path.stemOf last ++ suffix) := by
  rw [standardDestination, Path.withSuffix,
    show (Path.ofText input).names = Path.namesOf input from rfl]
  cases (Path.namesOf input).getLast? with
  | none => simp
  | some last =>
    dsimp only
    constructor
    · intro h
      split at h
      next single =>
        have whole := Except.ok.inj h
        have encodable := Option.isSome_of_eq_some (Wide.text?_ofText path)
        rw [← whole, Wide.text?_append_isSome, Wide.text?_append_isSome] at encodable
        obtain ⟨suffix, text⟩ := Option.isSome_iff_exists.1 encodable.2.2
        have text := Wide.text?_eq_some.1 text
        rw [text, ← Wide.ofText_append] at single
        rw [text, ← Wide.ofText_append, ← Wide.ofText_append] at whole
        exact ⟨last, suffix, rfl, text, single, (Wide.ofText_injective whole).symm⟩
      · cases h
    · rintro ⟨_, suffix, ⟨⟩, text, single, rfl⟩
      rw [text, ← Wide.ofText_append, if_pos single, ← Wide.ofText_append]

/-! ## The neighbour as a file -/

/-- A file with its path: the path leads to the last of its names, in the folder that the others
lead to. -/
theorem openFile_names {directory : Directory} {input : Text} {route : Route}
    (opened : directory.openFile input = .ok route) :
    ∃ last folder, (Path.namesOf input).getLast? = some last ∧ last ≠ ['.'] ∧ last ≠ aboveName ∧
      (Path.namesOf input).dropLast.foldlM directory.enter (origin input) = .ok folder ∧
        route = folder ++ [last] := by
  obtain ⟨-, names, last, folder, walked, plain, down, entered, target⟩ :=
    locate_eq_ok.1 (openFile_eq_ok.1 opened).1
  have split : Path.namesOf input = names.filter (· ≠ ['.']) ++ [last] := by
    rw [Path.namesOf_eq, walked, List.filter_append, List.filter_cons_of_pos (by simpa using plain),
      List.filter_nil]
  refine ⟨last, folder, by simp [split], plain, down, ?_, congrArg Target.route target⟩
  rw [split, List.dropLast_concat, foldlM_enter_plain, entered]

/-- The neighbour of a file is the file itself just if the suffix restores its name and the path is
not too long. -/
theorem openFile_neighbour {directory : Directory} {input path last suffix : Text} {route : Route}
    (opened : directory.openFile input = .ok route)
    (named : (Path.namesOf input).getLast? = some last)
    (single : Path.isName (.ofText (Path.stemOf last ++ suffix)))
    (beside : path = (Path.ofText input).front ++ (Path.stemOf last ++ suffix)) :
    directory.openFile path = .ok route ↔ checkPath path = .ok () ∧ Path.Restores suffix last := by
  obtain ⟨last', folder, named', plain, down, entered, rfl⟩ := openFile_names opened
  obtain rfl : last' = last := Option.some.inj (named'.symm.trans named)
  obtain ⟨noRoot, noSlash, one⟩ := Path.isName_ofText.1 single
  rw [Path.namesOf_eq] at one
  have walked : walkedNames path =
      (Path.namesOf input).dropLast ++ walkedNames (Path.stemOf last' ++ suffix) :=
    beside ▸ walkedNames_front input _
  have start : origin path = origin input := beside ▸ origin_front noRoot input
  obtain ⟨-, short, file⟩ := openFile_eq_ok.1 opened
  rw [openFile_eq_ok, locate_eq_ok]
  constructor
  · rintro ⟨⟨fits, names, final, folder', walked', -, -, -, target⟩, -⟩
    refine ⟨fits, ?_⟩
    obtain rfl : last' = final := by
      simpa using congrArg List.getLast? (congrArg Target.route target)
    obtain none_ | ⟨dots, name, split⟩ :=
      (walkedNames (Path.stemOf last' ++ suffix)).eq_nil_or_concat
    · simp [none_] at one
    · rw [List.concat_eq_append] at split
      obtain rfl : name = last' := by
        rw [split, walked'] at walked
        simpa using congrArg List.getLast? walked.symm
      refine ⟨dots, ?_, split⟩
      rw [split, List.filter_append, List.filter_cons_of_pos (by simpa using plain)] at one
      simpa using one
  · rintro ⟨fits, dots, dotted, restored⟩
    refine ⟨⟨fits, (Path.namesOf input).dropLast ++ dots, last', folder, ?_, plain, down, ?_, ?_⟩,
      short, file⟩
    · rw [walked, restored, List.append_assoc]
    · have nowhere : dots.foldlM directory.enter folder = .ok folder := by
        rw [← foldlM_enter_plain, List.filter_eq_nil_iff.2 (by simpa using dotted)]
        rfl
      rw [start, List.foldlM_append, entered]
      exact nowhere
    · have nonempty := (Path.mem_namesOf (List.mem_of_getLast? named)).1
      have open_ : ¬ endsWith path ['/'] := by
        obtain ⟨final, ends⟩ := Option.isSome_iff_exists.1
          (List.getLast?_isSome.2
            (List.append_ne_nil_of_left_ne_nil (Path.stemOf_ne_nil nonempty) suffix))
        rw [endsWith_singleton, beside, List.getLast?_append, ends, Option.some_or, ← ends]
        exact noSlash
      simp [open_]

/-! ## The plainest form of a path -/

theorem joinWith_sublist {separator : Text} {some_ all_ : List Text} (h : some_.Sublist all_) :
    (joinWith separator some_).Sublist (joinWith separator all_) := by
  induction h with
  | slnil => exact List.Sublist.refl _
  | @cons some_ all_ piece h ih =>
    cases all_ with
    | nil =>
      obtain rfl := List.sublist_nil.1 h
      exact List.nil_sublist _
    | cons next all_ => exact ih.trans (List.sublist_append_right _ _)
  | @cons_cons some_ all_ piece h ih =>
    cases all_ with
    | nil =>
      obtain rfl := List.sublist_nil.1 h
      exact List.Sublist.refl _
    | cons next all_ =>
      cases some_ with
      | nil => exact (List.sublist_append_left _ _).trans (List.sublist_append_left _ _)
      | cons first some_ => exact List.Sublist.append (List.Sublist.refl _) ih

/-- The names of a path, put together again, are the path without what leads nowhere. -/
theorem front_append_sublist {input last : Text}
    (named : (Path.namesOf input).getLast? = some last) :
    ((Path.ofText input).front ++ last).Sublist input := by
  have joined : ∀ names : List Text, names.flatMap (· ++ ['/']) ++ last =
      joinWith ['/'] (names ++ [last]) := by
    intro names
    induction names with
    | nil => rfl
    | cons name names ih =>
      rw [List.flatMap_cons, List.append_assoc, ih, List.cons_append]
      cases names <;> rfl
  have front : (Path.ofText input).front ++ last =
      Path.rootOf input ++ joinWith ['/'] (Path.namesOf input) := by
    obtain ⟨names, whole⟩ := List.getLast?_eq_some_iff.1 named
    rw [Path.front, Path.ofText, List.append_assoc, whole, List.dropLast_concat, joined]
  have split : input.takeWhile (· == '/') ++ input.dropWhile (· == '/') = input :=
    List.takeWhile_append_dropWhile
  have root : (Path.rootOf input).Sublist (input.takeWhile (· == '/')) := by
    rw [Path.rootOf]
    split
    · exact List.Sublist.refl _
    next many =>
      obtain ⟨c, slashes, cut⟩ :=
        List.exists_cons_of_length_pos (Nat.lt_of_le_of_lt (Nat.zero_le 2) (not_le.1 many))
      have slash : c ∈ input.takeWhile (· == '/') := cut ▸ List.mem_cons_self
      obtain rfl : c = '/' := by simpa using List.mem_takeWhile_imp slash
      rw [cut]
      exact List.singleton_sublist.2 List.mem_cons_self
  have rest : Path.namesOf input = Path.namesOf (input.dropWhile (· == '/')) := by
    have slashes : ∀ c ∈ input.takeWhile (· == '/'), c = '/' := fun c slash => by
      simpa using List.mem_takeWhile_imp slash
    rw [Path.namesOf_eq, Path.namesOf_eq, ← walkedNames_slashes slashes (input.dropWhile _), split]
  rw [front, rest]
  conv_rhs => rw [← split, ← joinWith_splitOn '/' (input.dropWhile (· == '/'))]
  exact root.append (joinWith_sublist List.filter_sublist)

theorem checkPath_eq_ok {path : Text} :
    checkPath path = .ok () ↔ '\x00' ∉ path ∧ path ≠ [] ∧ (encode path).length ≤ longestPath := by
  rw [checkPath]
  split
  next null => simp_all
  next plain =>
    split
    next empty => simp_all
    next nonempty =>
      split
      next long => simp_all
      next short => simp_all

theorem length_encode_le {t longer : Text} (h : t.Sublist longer) :
    (encode t).length ≤ (encode longer).length := by
  induction h with
  | slnil => rfl
  | cons c _ ih =>
    simp only [encode, List.flatMap_cons, List.length_append] at ih ⊢
    omega
  | cons_cons c _ ih =>
    simp only [encode, List.flatMap_cons, List.length_append] at ih ⊢
    omega

/-- A shorter path fits too. -/
theorem checkPath_of_sublist {path longer : Text} (h : path.Sublist longer) (nonempty : path ≠ [])
    (fits : checkPath longer = .ok ()) : checkPath path = .ok () := by
  rw [checkPath_eq_ok] at fits ⊢
  exact ⟨fun null => fits.1 (h.subset null), nonempty, (length_encode_le h).trans fits.2.2⟩

end Recast
