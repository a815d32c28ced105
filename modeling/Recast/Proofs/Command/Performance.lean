import Recast.Command.Run
import Recast.Proofs.Files.Persistence
import Recast.Proofs.Source.Session
import Recast.Proofs.Text.WideText

/-!
# How a run goes

An order `Reaches` the conversion of a source if its options are loaded, can be shown, and the
source is read. It then delivers the report of the conversion (`perform_of_reaches`); if not, it
ends in trouble (`perform_of_not_reaches`). An order `Opens` a file if the conversion succeeds and
the code goes to this file. A run puts one file then, and exits with zero just if the code can be
encoded (`perform_of_opens`); any other run leaves the directory as it is (`perform_of_not_opens`).

A run with a log first makes the log file and last adds the log to it. `run_of_starts` says what a
run leaves behind in terms of the order carried out in between.
-/

namespace Recast

/-! ## Reaching the conversion -/

/-- A run gets as far as the conversion of `source` with `options`. -/
structure Order.Reaches (order : Order) (stdin : Text) (directory : Directory) (options : Options)
    (source : Text) :
    Prop where
  loaded : (order.loading directory).result = .ok options
  shown : order.shows options
  read : readSource directory stdin order.input = .ok source

/-- Whether an act is anything but the result on standard output. -/
def Act.isMessage : Act → Bool
  | .wrote _ => false
  | .showed _ => true
  | .logged _ => true

/-- What a run does up to the end of the conversion. -/
def Order.opening (order : Order) (directory : Directory) (options : Options) (source : Text) :
    List Act :=
  loadActs (chooseConfig directory order.config?) (order.loading directory)
    ++ [.showed (Console.debug order.verbosity options.summary.escapedText)]
    ++ [log .info .command
      ("Converting ".toList ++ order.input ++ " (".toList ++ showNat source.length
          ++ " characters)".toList),
        .showed (Console.info order.verbosity ("Converting ".toList ++ order.input))]
    ++ conversionActs (convertSource options source)

variable {order : Order} {stdin : Text} {directory : Directory} {options : Options} {source : Text}

theorem Order.Reaches.unique {options' : Options} {source' : Text}
    (h : order.Reaches stdin directory options source)
    (h' : order.Reaches stdin directory options' source') : options = options' ∧ source = source' :=
  ⟨Except.ok.inj (h.loaded.symm.trans h'.loaded), Except.ok.inj (h.read.symm.trans h'.read)⟩

theorem loadActs_isMessage (choice : ConfigChoice) (loading : Loading) :
    (loadActs choice loading).all Act.isMessage := by
  rw [loadActs, List.all_append, Bool.and_eq_true]
  constructor
  · split <;> rfl
  · cases loading.notice? <;> rfl

theorem conversionActs_isMessage (attempt : Attempt Wide) :
    (conversionActs attempt).all Act.isMessage := by
  rw [conversionActs, List.all_append, List.all_append, List.all_map, Bool.and_eq_true,
    Bool.and_eq_true]
  refine ⟨⟨rfl, List.all_eq_true.2 fun _ _ => rfl⟩, ?_⟩
  split <;> rfl

theorem Trouble.acts_isMessage (trouble : Trouble) : trouble.acts.all Act.isMessage := by
  rw [Trouble.acts]
  cases trouble.messages.2 <;> rfl

theorem Order.opening_isMessage (order : Order) (directory : Directory) (options : Options)
    (source : Text) : (order.opening directory options source).all Act.isMessage := by
  simp only [Order.opening, List.all_append, Bool.and_eq_true]
  exact ⟨⟨⟨loadActs_isMessage _ _, rfl⟩, rfl⟩, conversionActs_isMessage _⟩

/-- An order that reaches the conversion delivers its report. -/
theorem perform_of_reaches (h : order.Reaches stdin directory options source) :
    perform order stdin directory =
      deliver order options (convert options source) (order.opening directory options source)
        directory := by
  simp only [perform, h.loaded, h.shown, h.read, if_true]
  rfl

theorem readSource_ne_unprintable {input : Text} {trouble : Trouble}
    (h : readSource directory stdin input = .error trouble) : trouble ≠ .unprintable := by
  rintro rfl
  rw [readSource] at h
  split at h
  · cases h
  · split at h
    · cases h
    · cases h
    · cases h
    next content _ =>
      cases decoded : decodeFile content <;> rw [decoded] at h <;> cases h

/-- An order that does not reach the conversion ends in trouble, which it can show on standard
error. -/
theorem perform_of_not_reaches
    (h : ∀ options source, ¬ order.Reaches stdin directory options source) :
    ∃ acts trouble, acts.all Act.isMessage ∧ (order.isMachine → trouble ≠ .unprintable) ∧
      perform order stdin directory = .failed acts directory trouble := by
  have loading :=
    loadActs_isMessage (chooseConfig directory order.config?) (order.loading directory)
  rw [perform]
  dsimp only
  split
  next fault failed =>
    refine ⟨_, _, loading, fun _ => ?_, rfl⟩
    cases fault <;> simp [LoadFault.trouble]
  next options loaded =>
    split
    next shown =>
      split
      next trouble failed =>
        refine ⟨_, trouble, ?_, fun _ => readSource_ne_unprintable failed, rfl⟩
        rw [List.all_append, loading]
        rfl
      next source read => exact absurd ⟨loaded, shown, read⟩ (h options source)
    next hidden =>
      refine ⟨_, _, loading, fun machine => ?_, rfl⟩
      simp [Order.shows, machine] at hidden

/-- Code can be encoded just if the name of the imported module can be. -/
theorem convert_code_isSome (h : (convert options source).success = true) :
    (convert options source).code.text?.isSome ↔ options.importModule.text?.isSome := by
  cases ended : (convertComponentsWithin callLimit options (stripImports source)).result with
  | error failure =>
    rw [convert, convertWithin_of_error ended] at h
    cases h
  | ok body =>
    have code : (convert options source).code = _ := (convertWithin_of_ok ended).2.2
    rw [code, importHeader]
    simp [Wide.text?_append_isSome, Wide.text?_ofText]

theorem convert_code_of_failure (h : (convert options source).success = false) :
    (convert options source).code = [] := by
  cases ended : (convertComponentsWithin callLimit options (stripImports source)).result with
  | error failure => rw [convert, convertWithin_of_error ended]
  | ok body =>
    rw [convert, (convertWithin_of_ok ended).1] at h
    cases h

/-! ## Writing the code -/

/-- The path that the code of an order goes to: the one that the order names, else the standard one
of its input. -/
inductive Order.Destination (order : Order) (options : Options) : Text → Prop
  | named {path : Text} (given : order.output? = some path) (nonempty : path ≠ []) :
    order.Destination options path
  | standard {path : Text} (unnamed : order.output?.getD [] = [])
      (beside : standardDestination options order.input = .ok (.ofText path)) :
        order.Destination options path

/-- A run gets as far as opening the file at `route` for the code. -/
structure Order.Opens (order : Order) (stdin : Text) (directory : Directory) (options : Options)
    (source : Text)
    (route : Route) : Prop extends order.Reaches stdin directory options source where
  file : order.isMachine = false
  success : (convert options source).success
  opened : ∃ path, order.Destination options path ∧ directory.openFile path = .ok route

/-- What a file holds once code was written to it: nothing if the code cannot be encoded. -/
def Wide.written (code : Wide) : Bytes :=
  (code.text?.map encode).getD []

/-- The standard destination has to be a text. -/
theorem destination_none_eq_ok {input path : Text} :
    destination options input none = .ok path ↔
      standardDestination options input = .ok (.ofText path) := by
  simp [destination, except_bind_eq_ok, except_mapError_eq_ok, Wide.toText_eq_ok]

theorem destination_eq_ok {path : Text} :
    destination options order.input (order.output?.filter (!·.isEmpty)) = .ok path ↔
      order.Destination options path := by
  cases named : order.output?.filter (!·.isEmpty) with
  | none =>
    rw [destination_none_eq_ok]
    refine ⟨.standard ?_, ?_⟩
    · cases given : order.output? <;> simp_all
    · rintro (⟨given, nonempty⟩ | ⟨-, beside⟩)
      · simp [given, nonempty] at named
      · exact beside
  | some text =>
    obtain ⟨given, nonempty⟩ := Option.filter_eq_some_iff.1 named
    have nonempty : text ≠ [] := by simpa using nonempty
    rw [destination, Except.ok.injEq]
    constructor
    · rintro rfl
      exact .named given nonempty
    · rintro (⟨given', -⟩ | ⟨unnamed, -⟩)
      · exact Option.some.inj (given.symm.trans given')
      · rw [given] at unnamed
        exact absurd unnamed nonempty

theorem Order.Opens.route_unique {options' : Options} {source' : Text} {route route' : Route}
    (h : order.Opens stdin directory options source route)
    (h' : order.Opens stdin directory options' source' route') : route = route' := by
  obtain ⟨rfl, rfl⟩ := h.toReaches.unique h'.toReaches
  obtain ⟨path, named, opened⟩ := h.opened
  obtain ⟨path', named', opened'⟩ := h'.opened
  obtain rfl := Except.ok.inj ((destination_eq_ok.2 named).symm.trans (destination_eq_ok.2 named'))
  exact Except.ok.inj (opened.symm.trans opened')

theorem Order.delivery_of_file (h : order.isMachine = false) :
    order.delivery = .file (order.output?.filter (!·.isEmpty)) := by
  have json : order.asJson = false := by
    simp only [Order.isMachine, Bool.or_eq_false_iff] at h
    exact h.1.2
  rw [Order.delivery, json, h]
  rfl

section Writing

variable {path : Text} {route : Route} {code : Wide}

theorem writeCode_of_opened (code : Wide) (opened : directory.openFile path = .ok route) :
    (writeCode path code directory).directory = directory.put route (.file code.written) ∧
      ((writeCode path code directory).trouble? = none ↔ code.text?.isSome) := by
  have write (content : Bytes) : directory.write path content =
      .ok (directory.put route (.file content)) := by
    rw [Directory.write, opened]
    rfl
  simp only [writeCode, write, Wide.written, Wide.text?]
  cases code.toText with
  | ok text => exact ⟨rfl, by simp [Except.toOption]⟩
  | error fault => exact ⟨rfl, by simp [Except.toOption]⟩

theorem writeCode_of_not_opened {fault : AccessFault}
    (closed : directory.openFile path = .error fault) :
    writeCode path code directory = ⟨directory, some (fault.outputTrouble path)⟩ := by
  have write (content : Bytes) : directory.write path content = .error fault := by
    rw [Directory.write, closed]
    rfl
  simp only [writeCode, write]
  cases code.toText <;> rfl

/-- A run that opens a file for the code puts the code there and nothing else, and exits with zero
just if the code can be encoded. -/
theorem perform_of_opens (h : order.Opens stdin directory options source route) :
    (perform order stdin directory).directory =
        directory.put route (.file (convert options source).code.written) ∧
      ((perform order stdin directory).exitCode = 0 ↔
        (convert options source).code.text?.isSome) := by
  obtain ⟨path, named, opened⟩ := h.opened
  obtain ⟨written, trouble⟩ := writeCode_of_opened (convert options source).code opened
  rw [perform_of_reaches h.toReaches, deliver, Order.delivery_of_file h.file]
  simp only [h.success, if_true, destination_eq_ok.2 named, ← trouble, ← written]
  cases (writeCode path (convert options source).code directory).trouble? with
  | none => simp [Report.exitCode, h.success]
  | some trouble => simp [Performance.failed]

/-- A run that opens no file leaves the directory as it is, and exits with zero only if the result
goes to standard output. -/
theorem perform_of_not_opens
    (h : ∀ options source route, ¬ order.Opens stdin directory options source route) :
    (perform order stdin directory).directory = directory ∧
      (order.isMachine = false → (perform order stdin directory).exitCode ≠ 0) := by
  by_cases reaches : ∃ options source, order.Reaches stdin directory options source
  · obtain ⟨options, source, reaches⟩ := reaches
    rw [perform_of_reaches reaches, deliver]
    cases machine : order.isMachine with
    | false =>
      rw [Order.delivery_of_file machine]
      dsimp only
      split
      next success =>
        split
        · exact ⟨rfl, fun _ => by simp [Performance.failed]⟩
        next path named =>
          cases opened : directory.openFile path with
          | ok route =>
            exact absurd ⟨reaches, machine, success, path, destination_eq_ok.1 named, opened⟩
              (h _ _ _)
          | error fault =>
            rw [writeCode_of_not_opened opened]
            exact ⟨rfl, fun _ => by simp [Performance.failed]⟩
      next failed => exact ⟨rfl, fun _ => by simp [Report.exitCode, failed]⟩
    | true =>
      refine ⟨?_, fun absurd => by cases absurd⟩
      rw [Order.delivery, machine]
      cases order.asJson with
      | true => rfl
      | false =>
        dsimp only
        cases (withoutControls (convert options source).code).toText <;> rfl
  · obtain ⟨acts, trouble, -, -, failed⟩ := perform_of_not_reaches fun options source reached =>
      reaches ⟨options, source, reached⟩
    rw [failed]
    exact ⟨rfl, fun _ => by simp [Performance.failed]⟩

/-- Carrying out an order takes no file and no folder away. -/
theorem perform_extends (order : Order) (stdin : Text) (directory : Directory) :
    (perform order stdin directory).directory.Extends directory := by
  by_cases opens : ∃ options source route, order.Opens stdin directory options source route
  · obtain ⟨options, source, route, opens⟩ := opens
    obtain ⟨path, -, opened⟩ := opens.opened
    rw [(perform_of_opens opens).1]
    exact Directory.extends_put_file _ (Directory.openFile_eq_ok.1 opened).2.2
  · rw [(perform_of_not_opens fun options source route h => opens ⟨options, source, route, h⟩).1]
    exact .refl directory

end Writing

/-! ## The log file -/

/-- How a run starts: the directory that the order is carried out on, and the route of the log file.
With a log, its file is there from the start. -/
inductive Order.Starts (order : Order) (time : LogTime) (directory : Directory) :
    Directory → Option Route → Prop
  | unlogged (asked : order.logs? = none) : order.Starts time directory directory none
  | logged {folder : Text} {made : Directory} {route : Route} (asked : order.logs? = some folder)
      (makes : directory.makeFolder (.ofText folder) = .ok made)
      (opens : made.openFile (logPath time folder) = .ok route) :
      order.Starts time directory (made.put route (.file ((made.fileAt? route).getD [])))
        (some route)

section Log

variable {time : LogTime} {start : Directory} {log? : Option Route}

theorem openLog_eq_ok {folder path : Text} :
    openLog time directory folder = .ok (path, start) ↔
      path = logPath time folder ∧ ∃ made route, directory.makeFolder (.ofText folder) = .ok made ∧
        made.openFile (logPath time folder) = .ok route ∧
        start = made.put route (.file ((made.fileAt? route).getD [])) := by
  simp only [openLog, Directory.append, except_bind_eq_ok, List.append_nil]
  constructor
  · rintro ⟨made, makes, opened, ⟨route, opens, put⟩, done⟩
    obtain rfl := Except.ok.inj put
    obtain ⟨rfl, rfl⟩ := Prod.mk.inj (Except.ok.inj done)
    exact ⟨rfl, made, route, makes, opens, rfl⟩
  · rintro ⟨rfl, made, route, makes, opens, rfl⟩
    exact ⟨made, makes, _, ⟨route, opens, rfl⟩, rfl⟩

theorem Order.Starts.unique {start' : Directory} {log'? : Option Route}
    (h : order.Starts time directory start log?)
    (h' : order.Starts time directory start' log'?) : start = start' ∧ log? = log'? := by
  cases h with
  | unlogged asked =>
    cases h' with
    | unlogged => exact ⟨rfl, rfl⟩
    | logged asked' => cases asked.symm.trans asked'
  | logged asked makes opens =>
    cases h' with
    | unlogged asked' => cases asked.symm.trans asked'
    | logged asked' makes' opens' =>
      obtain rfl := Option.some.inj (asked.symm.trans asked')
      obtain rfl := Except.ok.inj (makes.symm.trans makes')
      obtain rfl := Except.ok.inj (opens.symm.trans opens')
      exact ⟨rfl, rfl⟩

/-- A run that does not start does nothing. -/
theorem run_of_not_starts (stdin : Text)
    (h : ∀ start log?, ¬ order.Starts time directory start log?) :
    run order time stdin directory = ⟨1, [], [], directory⟩ := by
  rw [run]
  split
  next asked => exact absurd (.unlogged asked) (h _ _)
  next folder asked =>
    split
    · rfl
    next path start opened =>
      obtain ⟨-, made, route, makes, opens, -⟩ := openLog_eq_ok.1 opened
      exact absurd (.logged asked makes opens) (h _ _)

/-- Starting takes no file and no folder away. -/
theorem Order.Starts.extends (h : order.Starts time directory start log?) :
    start.Extends directory := by
  cases h with
  | unlogged => exact .refl directory
  | logged asked makes opens =>
    exact (Directory.extends_put_file _ (Directory.openFile_eq_ok.1 opens).2.2).trans
      (Directory.makeFolder_keeps makes).toExtends

/-- Starting makes the log file and changes no other. -/
theorem Order.Starts.fileAt? (h : order.Starts time directory start log?) (route : Route) :
    start.fileAt? route =
      if log? = some route then some ((directory.fileAt? route).getD [])
      else directory.fileAt? route := by
  cases h with
  | unlogged => rfl
  | logged asked makes opens =>
    rw [Directory.fileAt?_put, (Directory.makeFolder_keeps makes).same,
      (Directory.makeFolder_keeps makes).same]
    simp only [Option.some.injEq, eq_comm]
    split
    next here => rw [← here]; rfl
    · rfl

/-- A run carries out its order, and then adds to the log file and to no other. -/
theorem run_of_starts (stdin : Text) (h : order.Starts time directory start log?) :
    (run order time stdin directory).exitCode = (perform order stdin start).exitCode ∧
      (run order time stdin directory).directory.Extends (perform order stdin start).directory ∧
      ∃ added, ∀ route, (run order time stdin directory).directory.fileAt? route =
        if log? = some route then
          ((perform order stdin start).directory.fileAt? route).map (· ++ added)
        else (perform order stdin start).directory.fileAt? route := by
  rw [run]
  cases h with
  | unlogged asked =>
    rw [asked]
    exact ⟨rfl, .refl _, [], fun _ => rfl⟩
  | @logged folder made route asked makes opens =>
    rw [asked]
    dsimp only
    rw [openLog_eq_ok.2 ⟨rfl, made, route, makes, opens, rfl⟩]
    dsimp only
    generalize started : made.put route (.file ((made.fileAt? route).getD [])) = start
    have grown : start.Extends made :=
      started ▸ Directory.extends_put_file _ (Directory.openFile_eq_ok.1 opens).2.2
    have carried := perform_extends order stdin start
    generalize (perform order stdin start) = done at carried ⊢
    -- The log file was made at the start, so it is still a file and can be opened again.
    have listed : (done.directory.fileAt? route).isSome := by
      refine carried.file ?_
      rw [← started, Directory.fileAt?_put, if_pos rfl]
      rfl
    obtain ⟨content, listed⟩ := Option.isSome_iff_exists.1 listed
    have plain := Directory.get?_ne_folder listed
    have again := (carried.trans grown).openFile opens plain
    rw [Directory.append, again]
    generalize encode _ = added
    refine ⟨rfl, Directory.extends_put_file _ plain, added, fun other => ?_⟩
    simp only [Order.result, Except.toOption, Option.getD, bind, Except.bind, pure, Except.pure]
    rw [Directory.fileAt?_put]
    simp only [Option.some.injEq, eq_comm]
    split
    next here =>
      subst here
      rw [listed]
      rfl
    · rfl

end Log

/-- A conversion of a file with nothing else asked for. -/
def plainOrder (input : Text) : Order where
  input := input
  output? := none
  toStdout := false
  asJson := false
  config? := none
  logDirectory? := none
  verbosity := 0

end Recast
