import Mathlib.Logic.Unique
import Recast.Files.Directory

/-!
# What a change to a directory leaves alone

Putting a file at a route changes what this route leads to and nothing else that is a file
(`fileAt?_put`). A directory `Extends` another if the folders and the files of the other are still
folders and files in it. Every path that leads somewhere then leads to the same place
(`Extends.locate`), so a file that could be opened still can be (`Extends.openFile`). Writing a
file, adding to one and making folders all extend a directory; making folders leaves every file as
it is (`makeFolder_keeps`).
-/

namespace Recast

theorem except_bind_eq_ok {ε α β : Type} {x : Except ε α} {f : α → Except ε β} {b : β} :
    x >>= f = .ok b ↔ ∃ a, x = .ok a ∧ f a = .ok b := by
  cases x <;> simp [bind, Except.bind]

theorem except_toOption_eq_some {ε α : Type} {x : Except ε α} {a : α} :
    x.toOption = some a ↔ x = .ok a := by
  cases x <;> simp [Except.toOption]

theorem except_mapError_eq_ok {ε δ α : Type} {x : Except ε α} {f : ε → δ} {a : α} :
    x.mapError f = .ok a ↔ x = .ok a := by
  cases x with
  | error fault => exact ⟨nofun, nofun⟩
  | ok b => exact ⟨fun h => congrArg _ (Except.ok.inj h), fun h => congrArg _ (Except.ok.inj h)⟩

/-- What every step of a run keeps, the run keeps. -/
theorem foldlM_keeps {ε α β : Type} {P : β → Prop} {f : β → α → Except ε β}
    (step : ∀ {b a b'}, P b → f b a = .ok b' → P b') :
    ∀ {as : List α} {b b' : β}, P b → as.foldlM f b = .ok b' → P b'
  | [], _, _, start, h => by
    obtain rfl := Except.ok.inj h
    exact start
  | a :: as, b, b', start, h => by
    rw [List.foldlM_cons, except_bind_eq_ok] at h
    obtain ⟨next, first, rest⟩ := h
    exact foldlM_keeps step (step start first) rest

/-- The content of an entry that is a file. -/
def Entry.content? : Entry → Option Bytes
  | .file content => some content
  | .folder => none

/-- No name of a route is too long. -/
def Route.Short (route : Route) : Prop :=
  ∀ name ∈ route, (encode name).length ≤ longestName

namespace Directory

/-! ## Putting an entry -/

section Put

variable (directory : Directory) (route other : Route) (entry : Entry)

/-- The entry that is listed at a route after one was put somewhere. -/
theorem find?_put :
    (directory.put route entry).find? (fun (at_, _) => at_ = other) =
      if other = route then some (route, entry)
      else directory.find? fun (at_, _) => at_ = other := by
  unfold put
  split
  next listed =>
    have same : ((fun (at_, _) => decide (at_ = other)) ∘ fun (at_, old) =>
        if at_ = route then (at_, entry) else (at_, old) : Route × Entry →
            Bool) = fun (at_, _) => at_ = other := by
      funext ⟨at_, old⟩
      by_cases here : at_ = route <;> simp [here]
    rw [List.find?_map, same]
    split
    next here =>
      subst here
      obtain ⟨⟨at_, old⟩, member, here⟩ := List.any_eq_true.1 listed
      cases found : directory.find? fun (at_, _) => at_ = other with
      | none => simpa [here] using List.find?_eq_none.1 found _ member
      | some pair =>
        have : pair.1 = other := by simpa using List.find?_some found
        simp [this]
    next elsewhere =>
      cases found : directory.find? fun (at_, _) => at_ = other with
      | none => rfl
      | some pair =>
        have : pair.1 ≠ route := by
          rw [show pair.1 = other by simpa using List.find?_some found]
          exact elsewhere
        simp [this]
  next unlisted =>
    rw [List.find?_append]
    split
    next here =>
      subst here
      have : directory.find? (fun (at_, _) => at_ = other) = none := by
        rw [List.find?_eq_none]
        intro pair member here
        exact unlisted (List.any_eq_true.2 ⟨pair, member, here⟩)
      simp [this]
    next elsewhere => simp [Ne.symm elsewhere]

theorem get?_put_self : (directory.put route entry).get? route = some entry := by
  rw [get?, find?_put, if_pos rfl]

/-- A file is always listed. -/
theorem fileAt?_eq :
    directory.fileAt? route = (directory.find? fun (at_, _) => at_ = route).bind fun (_, entry) =>
      entry.content? := by
  rw [fileAt?, get?]
  cases directory.find? fun (at_, _) => at_ = route with
  | none =>
    dsimp only
    split
    next given =>
      split at given <;> cases given
    · rfl
  | some pair =>
    obtain ⟨at_, file | folder⟩ := pair <;> rfl

theorem get?_ne_folder {content : Bytes} {directory : Directory} {route : Route}
    (h : directory.fileAt? route = some content) : directory.get? route ≠ some .folder := by
  intro folder
  rw [fileAt?, folder] at h
  cases h

/-- A new entry changes no other file. -/
theorem fileAt?_put :
    (directory.put route entry).fileAt? other =
      if other = route then entry.content? else directory.fileAt? other := by
  rw [fileAt?_eq, find?_put, fileAt?_eq]
  split <;> rfl

/-- Where something was listed, something still is. -/
theorem any_put {p : Route → Bool} (h : directory.any fun (at_, _) => p at_) :
    (directory.put route entry).any fun (at_, _) => p at_ := by
  obtain ⟨⟨at_, old⟩, member, holds⟩ := List.any_eq_true.1 h
  rw [List.any_eq_true]
  unfold put
  split
  · refine ⟨_, List.mem_map_of_mem member, ?_⟩
    dsimp only
    split <;> exact holds
  · exact ⟨(at_, old), List.mem_append_left _ member, holds⟩

variable {directory route other entry}

/-- A new entry takes nothing else away. -/
theorem get?_put_of_ne {found : Entry} (ne : other ≠ route)
    (h : directory.get? other = some found) :
    (directory.put route entry).get? other = some found := by
  rw [get?, find?_put, if_neg ne]
  rw [get?] at h
  split
  next listed =>
    rw [listed] at h
    exact h
  next unlisted =>
    rw [unlisted] at h
    dsimp only at h ⊢
    split at h
    next folder =>
      rw [← h, if_pos]
      rw [Bool.or_eq_true] at folder ⊢
      exact folder.imp_right (any_put directory route entry)
    · cases h

end Put

/-! ## Extensions -/

/-- The folders and the files of `before` are folders and files of `after`. -/
structure Extends (after before : Directory) : Prop where
  folder : ∀ {route}, before.get? route = some .folder → after.get? route = some .folder
  file : ∀ {route}, (before.fileAt? route).isSome → (after.fileAt? route).isSome

theorem Extends.refl (directory : Directory) : directory.Extends directory :=
  ⟨id, id⟩

theorem Extends.trans {last middle first : Directory} (later : last.Extends middle)
    (earlier : middle.Extends first) : last.Extends first :=
  ⟨later.folder ∘ earlier.folder, later.file ∘ earlier.file⟩

variable {directory before after : Directory} {route : Route} {path : Text}

theorem extends_put_file (content : Bytes) (h : directory.get? route ≠ some .folder) :
    (directory.put route (.file content)).Extends directory where
  folder {other} folder := get?_put_of_ne (fun here => h (here ▸ folder)) folder
  file {other} file := by
    rw [fileAt?_put]
    split
    · rfl
    · exact file

theorem extends_put_folder (h : directory.get? route = none) :
    (directory.put route .folder).Extends directory where
  folder {other} folder := by
    by_cases here : other = route
    · rw [here, get?_put_self]
    · exact get?_put_of_ne here folder
  file {other} file := by
    rw [fileAt?_put, if_neg]
    · exact file
    · rintro rfl
      simp [fileAt?, h] at file

/-! ## Walking a path -/

theorem find_eq_ok {found? : Option Entry} :
    directory.find route = .ok found? ↔ route.Short ∧ directory.get? route = found? := by
  rw [find]
  split
  next long =>
    obtain ⟨name, member, long⟩ := List.any_eq_true.1 long
    have : ¬ route.Short := fun short => absurd (short name member) (by simpa using long)
    simp [this]
  next short =>
    have : route.Short := by simpa [Route.Short] using short
    simp [this]

theorem enter_eq_ok {name : Text} {next : Route} (plain : name ≠ ['.']) (down : name ≠ aboveName) :
    directory.enter route name = .ok next ↔
      directory.find (route ++ [name]) = .ok (some .folder) ∧ next = route ++ [name] := by
  rw [enter, if_neg plain, if_neg down, except_bind_eq_ok]
  constructor
  · rintro ⟨found, looked, h⟩
    split at h <;> cases h
    exact ⟨looked, rfl⟩
  · rintro ⟨looked, rfl⟩
    exact ⟨_, looked, rfl⟩

theorem Extends.enter (h : after.Extends before) {name : Text} {next : Route}
    (entered : before.enter route name = .ok next) : after.enter route name = .ok next := by
  by_cases plain : name = ['.']
  · rw [Directory.enter, if_pos plain] at entered ⊢
    exact entered
  by_cases down : name = aboveName
  · rw [Directory.enter, if_neg plain, if_pos down] at entered ⊢
    exact entered
  rw [enter_eq_ok plain down, find_eq_ok] at entered ⊢
  exact ⟨⟨entered.1.1, h.folder entered.1.2⟩, entered.2⟩

theorem Extends.foldlM (h : after.Extends before) {stop : Route} :
    ∀ {names : List Text} {start : Route},
    names.foldlM before.enter start = .ok stop → names.foldlM after.enter start = .ok stop
  | [], _, walked => walked
  | name :: names, start, walked => by
    rw [List.foldlM_cons, except_bind_eq_ok] at walked ⊢
    obtain ⟨next, first, rest⟩ := walked
    exact ⟨next, h.enter first, h.foldlM rest⟩

/-- The names that are walked along a path, dots included. -/
def walkedNames (path : Text) : List Text :=
  (splitOn '/' path).filter (!·.isEmpty)

/-- A path leads to the last of its names, in the folder that the others lead to. -/
theorem locate_eq_ok {target : Target} :
    directory.locate path = .ok target ↔
      checkPath path = .ok () ∧ ∃ names last folder, walkedNames path = names ++ [last] ∧
        last ≠ ['.'] ∧ last ≠ aboveName ∧ names.foldlM directory.enter (origin path) = .ok folder ∧
        target = ⟨folder ++ [last], endsWith path ['/']⟩ := by
  rw [locate, except_bind_eq_ok]
  simp only [Unique.exists_iff, ← walkedNames.eq_def]
  refine and_congr_right fun _ => ?_
  obtain none_ | ⟨names, last, split⟩ := (walkedNames path).eq_nil_or_concat
  · simp [none_]
  · rw [List.concat_eq_append] at split
    simp only [split, List.getLast?_append, List.getLast?_singleton, Option.some_or,
      List.dropLast_concat]
    constructor
    · intro h
      rw [except_bind_eq_ok] at h
      obtain ⟨folder, walked, h⟩ := h
      split at h
      · cases h
      next plain =>
        rw [Bool.or_eq_true, not_or, decide_eq_true_iff, decide_eq_true_iff] at plain
        exact ⟨names, last, folder, rfl, plain.1, plain.2, walked, (Except.ok.inj h).symm⟩
    · rintro ⟨names', last', folder, same, plain, down, walked, rfl⟩
      obtain ⟨rfl, rfl⟩ : names = names' ∧ last = last' := by simpa using same
      rw [except_bind_eq_ok]
      exact ⟨folder, walked, by simp [plain, down]⟩

/-- A path that leads somewhere still leads there. -/
theorem Extends.locate (h : after.Extends before) {target : Target}
    (located : before.locate path = .ok target) : after.locate path = .ok target := by
  rw [locate_eq_ok] at located ⊢
  obtain ⟨fits, names, last, folder, split, plain, down, walked, rfl⟩ := located
  exact ⟨fits, names, last, folder, split, plain, down, h.foldlM walked, rfl⟩

/-! ## Opening a file -/

theorem openFile_eq_ok :
    directory.openFile path = .ok route ↔
      directory.locate path = .ok ⟨route, false⟩ ∧ route.Short ∧
        directory.get? route ≠ some .folder := by
  rw [openFile, except_bind_eq_ok]
  constructor
  · rintro ⟨⟨place, slash⟩, located, h⟩
    dsimp only at h
    split at h
    · cases h
    · rw [except_bind_eq_ok] at h
      obtain ⟨found?, found, h⟩ := h
      split at h
      · cases h
      next file =>
        obtain rfl := Except.ok.inj h
        obtain ⟨short, rfl⟩ := find_eq_ok.1 found
        simp_all
  · rintro ⟨located, short, file⟩
    refine ⟨_, located, ?_⟩
    have found : directory.find route = .ok (directory.get? route) := find_eq_ok.2 ⟨short, rfl⟩
    simp [found, bind, Except.bind, file]

/-- A file that could be opened still can be. -/
theorem Extends.openFile (h : after.Extends before) (opened : before.openFile path = .ok route)
    (file : after.get? route ≠ some .folder) : after.openFile path = .ok route := by
  rw [openFile_eq_ok] at opened ⊢
  exact ⟨h.locate opened.1, opened.2.1, file⟩

theorem read_eq_ok {content : Bytes} :
    directory.read path = .ok content ↔
      ∃ route, directory.openFile path = .ok route ∧ directory.fileAt? route = some content := by
  rw [read, except_bind_eq_ok]
  constructor
  · rintro ⟨⟨place, slash⟩, located, h⟩
    rw [except_bind_eq_ok] at h
    obtain ⟨found?, found, h⟩ := h
    obtain ⟨short, rfl⟩ := find_eq_ok.1 found
    split at h
    · cases h
    · cases h
    next file =>
      split at h
      · cases h
      · obtain rfl := Except.ok.inj h
        refine ⟨place, openFile_eq_ok.2 ⟨?_, short, ?_⟩, ?_⟩
        · simp_all
        · simp_all
        · simp_all [fileAt?]
  · rintro ⟨route, opened, file⟩
    obtain ⟨located, short, -⟩ := openFile_eq_ok.1 opened
    refine ⟨_, located, ?_⟩
    rw [except_bind_eq_ok]
    refine ⟨_, find_eq_ok.2 ⟨short, rfl⟩, ?_⟩
    rw [fileAt?] at file
    split at file
    next listed =>
      obtain rfl := Option.some.inj file
      simp [listed]
    · cases file

/-! ## Making folders -/

/-- Making folders leaves every file as it is. -/
structure Keeps (after before : Directory) : Prop extends after.Extends before where
  same : ∀ route, after.fileAt? route = before.fileAt? route

/-- Where a path is not found there is nothing. -/
theorem get?_of_enter_notFound {name : Text} (h : directory.enter route name = .error .notFound) :
    directory.get? (route ++ [name]) = none := by
  rw [enter] at h
  split at h
  · cases h
  · split at h
    · cases h
    · simp only [bind, Except.bind] at h
      split at h
      next found =>
        rw [find] at found
        split at found <;> cases found
        cases h
      next found =>
        split at h
        · exact (find_eq_ok.1 found).2
        · cases h
        · cases h

theorem makeFolder_step_keeps {name : Text} {next : Directory × Route}
    (h : makeFolder.step (directory, route) name = .ok next) : next.1.Keeps directory := by
  rw [makeFolder.step] at h
  split at h
  · obtain rfl := Except.ok.inj h
    exact ⟨.refl _, fun _ => rfl⟩
  next missing =>
    obtain rfl := Except.ok.inj h
    have absent := get?_of_enter_notFound missing
    refine ⟨extends_put_folder absent, fun other => ?_⟩
    rw [fileAt?_put]
    split
    next here =>
      rw [here, fileAt?, absent]
      rfl
    · rfl
  · cases h
  · cases h

theorem makeFolder_keeps {folder : Path} {made : Directory}
    (h : directory.makeFolder folder = .ok made) : made.Keeps directory := by
  rw [makeFolder, except_bind_eq_ok] at h
  obtain ⟨⟨⟩, -, h⟩ := h
  rw [except_bind_eq_ok] at h
  obtain ⟨⟨last, stop⟩, walked, h⟩ := h
  obtain rfl := Except.ok.inj h
  refine foldlM_keeps (P := fun state => state.1.Keeps directory) ?_ ⟨.refl _, fun _ => rfl⟩ walked
  rintro ⟨middle, here⟩ name next earlier step
  have later := makeFolder_step_keeps step
  exact ⟨later.toExtends.trans earlier.toExtends,
    fun other => (later.same other).trans (earlier.same other)⟩

end Directory

end Recast
