import Recast.Proofs.Command.Performance

/-!
# What a run does to the files

A run is `Atomic` if it changes no file unless it succeeds, and then the destination only, which
holds the code; the log file does not count. There is one way to fail at this. The name of the
imported module may hold half of a surrogate pair. The code cannot be encoded then, which is found
out when the destination is already open and empty. A run is atomic just if it `Empties` no file so
(`run_atomic_iff`).
-/

namespace Recast

variable {order : Order} {time : LogTime} {stdin : Text} {directory start : Directory}
  {log? : Option Route}
variable {options : Options} {source : Text} {route : Route}

/-- The log of a run goes to the file at `route`. -/
def Order.LogsTo (order : Order) (time : LogTime) (directory : Directory) (route : Route) : Prop :=
  ∃ start, order.Starts time directory start (some route)

/-- A run changes no file, or it succeeds and changes its destination only. The log file does not
count. -/
structure Atomic (order : Order) (time : LogTime) (stdin : Text) (directory : Directory) :
    Prop where
  /-- Without success, and with the result on standard output, every file stays as it is. -/
  kept : (run order time stdin directory).exitCode ≠ 0 ∨ order.isMachine = true →
    ∀ other, ¬ order.LogsTo time directory other →
      (run order time stdin directory).directory.fileAt? other = directory.fileAt? other
  /-- Else the destination holds the code, and every other file stays as it is. -/
  wrote : (run order time stdin directory).exitCode = 0 → order.isMachine = false →
    ∃ start log? options source path route code,
      order.Starts time directory start log? ∧ order.Reaches stdin start options source ∧
      order.Destination options path ∧ start.openFile path = .ok route ∧
      (convert options source).code = .ofText code ∧
      ∀ other, ¬ order.LogsTo time directory other →
        (run order time stdin directory).directory.fileAt? other =
          if other = route then some (encode code) else directory.fileAt? other

/-- A run opens the file at `route` for code that cannot be encoded, because the module that it
imports has a name that is no text. The file was not empty before and takes no log. -/
structure Empties (order : Order) (time : LogTime) (stdin : Text) (directory : Directory)
    (route : Route) : Prop where
  opens : ∃ start log? options source, order.Starts time directory start log? ∧
    order.Opens stdin start options source route ∧ options.importModule.text? = none
  unlogged : ¬ order.LogsTo time directory route
  nonempty : directory.fileAt? route ≠ some []

/-! ## The files after a run -/

theorem not_logsTo (h : order.Starts time directory start log?)
    (other : ¬ order.LogsTo time directory route) : log? ≠ some route := by
  rintro rfl
  exact other ⟨start, h⟩

/-- A run that opens a file changes this one only. -/
theorem run_fileAt?_of_opens (h : order.Starts time directory start log?)
    (opens : order.Opens stdin start options source route) {other : Route}
    (plain : ¬ order.LogsTo time directory other) :
    (run order time stdin directory).directory.fileAt? other =
      if other = route then some (convert options source).code.written
      else directory.fileAt? other := by
  obtain ⟨-, -, added, files⟩ := run_of_starts stdin h
  rw [files, if_neg (not_logsTo h plain), (perform_of_opens opens).1, Directory.fileAt?_put,
    h.fileAt?, if_neg (not_logsTo h plain)]
  rfl

/-- A run that opens no file changes none. -/
theorem run_fileAt?_of_not_opens (h : order.Starts time directory start log?)
    (closed : ∀ options source route, ¬ order.Opens stdin start options source route)
    {other : Route} (plain : ¬ order.LogsTo time directory other) :
    (run order time stdin directory).directory.fileAt? other = directory.fileAt? other := by
  obtain ⟨-, -, added, files⟩ := run_of_starts stdin h
  rw [files, if_neg (not_logsTo h plain), (perform_of_not_opens closed).1, h.fileAt?,
    if_neg (not_logsTo h plain)]

/-- A run that opens a file exits with zero just if the name of the imported module is a text. -/
theorem run_exitCode_of_opens (h : order.Starts time directory start log?)
    (opens : order.Opens stdin start options source route) :
    (run order time stdin directory).exitCode = 0 ↔ options.importModule.text?.isSome := by
  rw [(run_of_starts stdin h).1, (perform_of_opens opens).2, convert_code_isSome opens.success]

theorem Wide.written_eq_nil {code : Wide} (h : ¬ code.text?.isSome) : code.written = [] := by
  rw [Wide.written, Option.not_isSome_iff_eq_none.1 h]
  rfl

/-- An emptied file is empty, the other files are as they were, and the run has failed. -/
theorem Empties.emptied (h : Empties order time stdin directory route) :
    (run order time stdin directory).exitCode ≠ 0 ∧
      ∀ other, ¬ order.LogsTo time directory other →
        (run order time stdin directory).directory.fileAt? other =
          if other = route then some [] else directory.fileAt? other := by
  obtain ⟨start, log?, options, source, starts, opens, unencodable⟩ := h.opens
  have failed : ¬ options.importModule.text?.isSome := by simp [unencodable]
  refine ⟨fun zero => failed ((run_exitCode_of_opens starts opens).1 zero), fun other plain => ?_⟩
  rw [run_fileAt?_of_opens starts opens plain,
    Wide.written_eq_nil (mt (convert_code_isSome opens.success).1 failed)]

theorem atomic_of_not_empties (h : ∀ route, ¬ Empties order time stdin directory route) :
    Atomic order time stdin directory := by
  by_cases starts : ∃ start log?, order.Starts time directory start log?
  · obtain ⟨start, log?, starts⟩ := starts
    by_cases opens : ∃ options source route, order.Opens stdin start options source route
    · obtain ⟨options, source, route, opens⟩ := opens
      have exit := run_exitCode_of_opens starts opens
      have files {other : Route} (plain : ¬ order.LogsTo time directory other) :=
        run_fileAt?_of_opens starts opens plain
      have encodable := convert_code_isSome opens.success
      refine ⟨fun failed other plain => ?_, fun zero _ => ?_⟩
      · have failed : ¬ options.importModule.text?.isSome := by
          rw [← exit]
          exact failed.resolve_right (by simp [opens.file])
        rw [files plain, Wide.written_eq_nil (mt encodable.1 failed)]
        split
        next here =>
          subst here
          by_contra changed
          refine h other ⟨⟨start, log?, options, source, starts, opens, ?_⟩, plain, Ne.symm changed⟩
          exact Option.not_isSome_iff_eq_none.1 failed
        · rfl
      · obtain ⟨code, text⟩ := Option.isSome_iff_exists.1 (encodable.2 (exit.1 zero))
        obtain ⟨path, named, opened⟩ := opens.opened
        refine ⟨start, log?, options, source, path, route, code, starts, opens.toReaches, named,
          opened,
          Wide.text?_eq_some.1 text, fun other plain => ?_⟩
        rw [files plain, Wide.written, text]
        rfl
    · have closed : ∀ options source route, ¬ order.Opens stdin start options source route :=
        fun options source route opens_ => opens ⟨options, source, route, opens_⟩
      refine ⟨fun _ _ plain => run_fileAt?_of_not_opens starts closed plain, fun zero file => ?_⟩
      rw [(run_of_starts stdin starts).1] at zero
      exact absurd zero ((perform_of_not_opens closed).2 file)
  · rw [not_exists] at starts
    have nothing := run_of_not_starts stdin fun start log? started => starts start ⟨log?, started⟩
    exact ⟨fun _ _ _ => by rw [nothing], fun zero => by rw [nothing] at zero; cases zero⟩

/-- A run is atomic just if it empties no file. A run that does has failed and changed nothing else;
and a run that opens a file succeeds just if the name of the imported module is a text. -/
theorem run_atomic_iff (order : Order) (time : LogTime) (stdin : Text) (directory : Directory) :
    (Atomic order time stdin directory ↔ ∀ route, ¬ Empties order time stdin directory route) ∧
      (∀ route, Empties order time stdin directory route →
        (run order time stdin directory).exitCode ≠ 0 ∧
        ∀ other, ¬ order.LogsTo time directory other →
          (run order time stdin directory).directory.fileAt? other =
            if other = route then some [] else directory.fileAt? other) ∧
      ∀ start log? options source route, order.Starts time directory start log? →
        order.Opens stdin start options source route →
          ((run order time stdin directory).exitCode = 0 ↔ options.importModule.text?.isSome) := by
  refine ⟨⟨fun atomic route empties => ?_, atomic_of_not_empties⟩,
    fun route empties => empties.emptied,
    fun _ _ _ _ _ => run_exitCode_of_opens⟩
  obtain ⟨failed, files⟩ := empties.emptied
  have same := atomic.kept (.inl failed) route empties.unlogged
  rw [files route empties.unlogged, if_pos rfl] at same
  exact empties.nonempty same.symm

/-- A source, the code that it was converted to before, and a configuration that imports from half
of a surrogate pair. -/
def halfModule : Directory :=
  [(["a.jsx".toList], .file []),
   (["a.horizon.ts".toList], .file (encode "ready".toList)),
   ([standardConfig], .file (encode "import_module: \"\\ud800\"\n".toList))]

/-- The code that was there is lost, and the run fails. -/
theorem not_atomic_halfModule : ¬ Atomic (plainOrder "a.jsx".toList) ⟨[], []⟩ [] halfModule := by
  intro atomic
  have failed : (run (plainOrder "a.jsx".toList) ⟨[], []⟩ [] halfModule).exitCode ≠ 0 := by
    decide +kernel
  have emptied : (run (plainOrder "a.jsx".toList) ⟨[], []⟩ [] halfModule).directory.fileAt?
      ["a.horizon.ts".toList] =
      some [] := by decide +kernel
  have kept := atomic.kept (.inl failed) ["a.horizon.ts".toList] fun ⟨start, logs⟩ => by
    cases logs with
    | logged asked => cases asked
  rw [emptied] at kept
  exact absurd kept (by decide +kernel)

end Recast
