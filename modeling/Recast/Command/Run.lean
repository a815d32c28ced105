import Recast.Command.Arguments
import Recast.Command.Log
import Recast.Config.Load
import Recast.Console.Control
import Recast.Console.Json
import Recast.Console.Report

/-!
# A run of the command

`perform` carries out an order on a directory: it loads the options, reads the source, converts it,
and delivers the result to standard output or to a file. It gives the acts of the run in order, the
directory afterwards and the exit code. `run` puts the acts into the two output streams and the log
file.

Standard output takes text only, and so does a file. The texts of the options may hold halves of
surrogate pairs, and standard error and the log show these as escapes.
-/

namespace Recast

/-! ## Acts -/

/-- What a run does that can be seen. -/
inductive Act where
  /-- Writes the result on standard output. -/
  | wrote (t : Text)
  /-- Shows lines of the report. -/
  | showed (t : Text)
  /-- Adds to the log. -/
  | logged (record : Record)
  deriving DecidableEq, Repr

/-- Whether standard output is for the result, so that everything else goes to standard error. -/
def Order.isMachine (order : Order) : Bool :=
  order.toStdout || order.asJson || (order.input = ['-'] && order.output?.isNone)

/-- What an act puts on standard output. -/
def Act.stdout (machine : Bool) : Act → Text
  | .wrote t => t
  | .showed t => if machine then [] else t
  | .logged _ => []

/-- What an act puts on standard error. -/
def Act.stderr (machine : Bool) (least : Level) : Act → Text
  | .wrote _ => []
  | .showed t => if machine then t else []
  | .logged record => if record.reaches least then record.consoleLine else []

/-- What an act puts into the log file. -/
def Act.logLine (time : Text) (least : Level) : Act → Text
  | .logged record => if record.reaches least then record.fileLine time else []
  | _ => []

/-- An entry of the log. -/
def log (level : Level) (origin : Origin) (message : Text) : Act :=
  .logged ⟨level, origin, message⟩

/-! ## Troubles -/

/-- Why a run ends early. -/
inductive Trouble where
  /-- There are no options. -/
  | configuration (message : Text)
  /-- The source cannot be read. -/
  | input (path reason : Text)
  /-- The result cannot be written. -/
  | output (path reason : Text)
  /-- Something else. -/
  | unexpected (message : Text)
  /-- Standard output does not take a line of the report. The line waits there for the next one, so
  that no trouble can be shown any more. -/
  | unprintable
  deriving DecidableEq, Repr

/-- The trouble with a configuration. -/
def LoadFault.trouble (fault : LoadFault) : Trouble :=
  match fault with
  | .noPath => .unexpected fault.message
  | .undecodable _ => .unexpected fault.message
  | .noValue _ => .unexpected fault.message
  | _ => .configuration fault.message

/-- What the log and the console say about a trouble. -/
def Trouble.messages : Trouble → Text × Option Text
  | .configuration message =>
    ("Configuration error: ".toList ++ message, some ("Configuration error: ".toList ++ message))
  | .input path reason =>
    let message := "Cannot read input ".toList ++ path ++ ": ".toList ++ reason
    ("CLI error: ".toList ++ message, some ("Error: ".toList ++ message))
  | .output path reason =>
    let message := "Cannot write output ".toList ++ path ++ ": ".toList ++ reason
    ("CLI error: ".toList ++ message, some ("Error: ".toList ++ message))
  | .unexpected message =>
    ("Unexpected error during conversion".toList, some ("Unexpected error: ".toList ++ message))
  | .unprintable => ("Unexpected error during conversion".toList, none)

/-- How a trouble shows. -/
def Trouble.acts (trouble : Trouble) : List Act :=
  log .error .command trouble.messages.1
    :: (trouble.messages.2.map fun message => Act.showed (Console.error message)).toList

/-- The trouble with a text that cannot be encoded. -/
def EncodeFault.trouble (fault : EncodeFault) : Trouble :=
  .unexpected fault.message

/-- The trouble with a file that cannot be opened for writing. -/
def AccessFault.outputTrouble (path : Text) (fault : AccessFault) : Trouble :=
  match fault with
  | .nullCharacter => .unexpected (fault.message path)
  | _ => .output path (fault.message path)

/-! ## Steps -/

/-- What loading the options leaves in the log. -/
def loadActs (choice : ConfigChoice) (loading : Loading) : List Act :=
  (if choice = .standard then
      [log .debug .configuration ("Using configuration from ".toList ++ standardConfig)]
    else [])
  ++ (loading.notice?.map fun notice => log .warning .configuration notice.escapedText).toList

/-- The configuration that an order loads. -/
def Order.loading (order : Order) (directory : Directory) : Loading :=
  (chooseConfig directory order.config?).load directory

/-- The options in one line. -/
def Options.summary (options : Options) : Wide :=
  .ofText ("Config: state_style=".toList ++ options.stateStyle.name ++ ", import_module=".toList)
    ++ options.importModule ++ .ofText ", output_suffix=".toList ++ options.outputSuffix

/-- Whether the line with the options, if it is shown, can be. -/
def Order.shows (order : Order) (options : Options) : Bool :=
  order.isMachine || order.verbosity < 2 || options.summary.text?.isSome

/-- The text of the source: standard input for a dash, else a file. -/
def readSource (directory : Directory) (stdin input : Text) : Except Trouble Text :=
  if input = ['-'] then .ok (uniformLines stdin)
  else
    match directory.read input with
    | .error .notFound => .error (.input input AccessFault.notFound.reason)
    | .error .nullCharacter => .error (.unexpected (AccessFault.nullCharacter.message input))
    | .error fault => .error (.input input (fault.message input))
    | .ok content =>
      (decodeFile content).mapError fun _ => .input input "File is not valid UTF-8 text".toList

/-- What a conversion leaves in the log. -/
def conversionActs (attempt : Attempt Wide) : List Act :=
  [log .info .conversion "Starting React to Horizon conversion".toList]
    ++ (attempt.journal.filterMap Event.record?).map .logged
    ++ match attempt.result with
      | .error failure =>
        [log .error .conversion (failureMessage failure),
         log .debug .conversion "Conversion failure details".toList]
      | .ok _ =>
        [log .info .conversion ("Converted ".toList ++ showNat attempt.journal.components.length
          ++ " component(s) with ".toList ++ showNat attempt.journal.warnings.length
          ++ " warning(s)".toList)]

/-- Where the result goes. -/
inductive Delivery where
  /-- The whole report goes to standard output. -/
  | document
  /-- The code goes to standard output. -/
  | code
  /-- The code goes to a file, to the standard one if none is named. -/
  | file (path? : Option Text)
  deriving DecidableEq, Repr

/-- Where an order wants the result. An empty path names no file. -/
def Order.delivery (order : Order) : Delivery :=
  if order.asJson then .document
  else if order.isMachine then .code
  else .file (order.output?.filter (!·.isEmpty))

/-- The path of the file that the code is written to. -/
def destination (options : Options) (input : Text) (path? : Option Text) : Except Trouble Text :=
  match path? with
  | some path => .ok path
  | none => do
    let path ← (standardDestination options input).mapError fun fault => .unexpected fault.message
    path.toText.mapError EncodeFault.trouble

/-- What came of writing code to a file. -/
structure Writing where
  directory : Directory
  trouble? : Option Trouble

/-- Writes code to a file. The file is emptied before the code is encoded, and stays so if that
fails. -/
def writeCode (path : Text) (code : Wide) (directory : Directory) : Writing :=
  match code.toText with
  | .ok text =>
    match directory.write path (encode text) with
    | .ok written => ⟨written, none⟩
    | .error fault => ⟨directory, some (fault.outputTrouble path)⟩
  | .error unencodable =>
    match directory.write path [] with
    | .ok emptied => ⟨emptied, some unencodable.trouble⟩
    | .error fault => ⟨directory, some (fault.outputTrouble path)⟩

/-! ## The whole run -/

/-- What came of an order. -/
structure Performance where
  acts : List Act
  directory : Directory
  exitCode : Nat

/-- The end of a run in trouble. -/
def Performance.failed (acts : List Act) (directory : Directory) (trouble : Trouble) :
    Performance :=
  ⟨acts ++ trouble.acts, directory, 1⟩

/-- The exit code of a conversion. -/
def Report.exitCode (report : Report) : Nat :=
  if report.success then 0 else 2

/-- Delivers the result of a conversion. Code goes to standard output without control sequences and
to a file with them. -/
def deliver (order : Order) (options : Options) (report : Report) (acts : List Act)
    (directory : Directory) : Performance :=
  let shown := Act.showed (Console.report order.verbosity report)
  match order.delivery with
  | .document => ⟨acts ++ [.wrote (report.document ++ ['\n'])], directory, report.exitCode⟩
  | .code =>
    match (withoutControls report.code).toText with
    | .ok text => ⟨acts ++ [.wrote text, shown], directory, report.exitCode⟩
    | .error fault => .failed acts directory fault.trouble
  | .file path? =>
    if report.success then
      match destination options order.input path? with
      | .error trouble => .failed acts directory trouble
      | .ok path =>
        let writing := writeCode path report.code directory
        match writing.trouble? with
        | some trouble => .failed acts writing.directory trouble
        | none =>
          let done :=
            [log .info .command
                ("Wrote ".toList ++ showNat report.code.length ++ " characters to ".toList ++ path),
             .showed (Console.success ("Wrote ".toList ++ path)), shown]
          ⟨acts ++ done, writing.directory, report.exitCode⟩
    else ⟨acts ++ [shown], directory, report.exitCode⟩

/-- Carries out an order on a directory. -/
def perform (order : Order) (stdin : Text) (directory : Directory) : Performance :=
  let loading := order.loading directory
  let acts := loadActs (chooseConfig directory order.config?) loading
  match loading.result with
  | .error fault => .failed acts directory fault.trouble
  | .ok options =>
    if order.shows options then
      let acts := acts ++ [.showed (Console.debug order.verbosity options.summary.escapedText)]
      match readSource directory stdin order.input with
      | .error trouble => .failed acts directory trouble
      | .ok source =>
        let attempt := convertSource options source
        let started :=
          [log .info .command
            ("Converting ".toList ++ order.input ++ " (".toList ++ showNat source.length
              ++ " characters)".toList),
           .showed (Console.info order.verbosity ("Converting ".toList ++ order.input))]
        deliver order options attempt.report (acts ++ started ++ conversionActs attempt) directory
    else .failed acts directory .unprintable

/-! ## Streams and the log file -/

/-- The time of a run, as it stands in the name of the log file and before every line of it. -/
structure LogTime where
  inName : Text
  inLine : Text
  deriving DecidableEq, Repr

/-- What a run leaves behind. -/
structure RunResult where
  exitCode : Nat
  stdout : Text
  stderr : Text
  directory : Directory

/-- The path of the log file in a directory. -/
def logPath (time : LogTime) (logDirectory : Text) : Text :=
  ((Path.ofText logDirectory).child ("react2horizon_".toList ++ time.inName ++ ".log".toList)).text

/-- The directory that an order asks to log to. An empty path asks for none. -/
def Order.logs? (order : Order) : Option Text :=
  order.logDirectory?.filter (!·.isEmpty)

/-- Makes the log directory and the log file in it, if they are not there; gives the path of the
file. -/
def openLog (time : LogTime) (directory : Directory) (logDirectory : Text) :
    Except AccessFault (Text × Directory) := do
  let path := logPath time logDirectory
  let made ← directory.makeFolder (Path.ofText logDirectory)
  return (path, ← made.append path [])

/-- The two output streams of acts. -/
def Order.result (order : Order) (acts : List Act) (directory : Directory) (exitCode : Nat) :
    RunResult where
  exitCode := exitCode
  stdout := acts.flatMap (·.stdout order.isMachine)
  stderr := acts.flatMap (·.stderr order.isMachine (.ofVerbosity order.verbosity))
  directory := directory

/-- Carries out an order and writes the log. Without a place for the log nothing is done. -/
def run (order : Order) (time : LogTime) (stdin : Text) (directory : Directory) : RunResult :=
  match order.logs? with
  | none =>
    let done := perform order stdin directory
    order.result done.acts done.directory done.exitCode
  | some logDirectory =>
    match openLog time directory logDirectory with
    | .error _ => ⟨1, [], [], directory⟩
    | .ok (path, opened) =>
      let done := perform order stdin opened
      let acts := log .info .setup ("Logging to file: ".toList ++ path) :: done.acts
      let lines := acts.flatMap (·.logLine time.inLine (.ofVerbosity order.verbosity))
      let closed := (done.directory.append path (encode lines)).toOption.getD done.directory
      order.result acts closed done.exitCode

/-- The text that answers a question for the version. -/
def versionText : Text :=
  "react2horizon version 0.1.0\n".toList

end Recast
