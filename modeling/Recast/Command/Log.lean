import Recast.Journal.Outcome

/-!
# The log

A run keeps a log of records. A `Record` has a level, the part of the program it comes from, and a
message. The console and the log file write it differently (`Record.consoleLine`,
`Record.fileLine`).
-/

namespace Recast

/-- How much a record matters. -/
inductive Level where
  | debug
  | info
  | warning
  | error
  deriving DecidableEq, Repr

namespace Level

/-- The place of a level in the order. -/
def rank : Level → Nat
  | .debug => 10
  | .info => 20
  | .warning => 30
  | .error => 40

/-- The level's name. -/
def name : Level → Text
  | .debug => "DEBUG".toList
  | .info => "INFO".toList
  | .warning => "WARNING".toList
  | .error => "ERROR".toList

/-- The least level that is kept at a verbosity. -/
def ofVerbosity (verbosity : Int) : Level :=
  if verbosity = 0 then .warning else if verbosity = 1 then .info else .debug

end Level

/-- The part of the program that a record comes from. -/
inductive Origin where
  | setup
  | command
  | configuration
  | conversion
  | components
  | hooks
  | markup
  | attributes
  | warnings
  deriving DecidableEq, Repr

/-- How the part is named in the log. -/
def Origin.name : Origin → Text
  | .setup => "react2horizon.cli.main".toList
  | .command => "react2horizon.cli.convert_command".toList
  | .configuration => "react2horizon.config.config_loader".toList
  | .conversion => "react2horizon.converter.pipeline".toList
  | .components => "react2horizon.converter.component_converter".toList
  | .hooks => "react2horizon.converter.hook_extractor".toList
  | .markup => "react2horizon.converter.markup_lowering".toList
  | .attributes => "react2horizon.converter.attribute_parser".toList
  | .warnings => "react2horizon.converter.models".toList

/-- An entry of the log. -/
structure Record where
  level : Level
  origin : Origin
  message : Text
  deriving DecidableEq, Repr

/-- Whether a record is kept. -/
def Record.reaches (record : Record) (least : Level) : Bool :=
  least.rank ≤ record.level.rank

/-- The record as a line of the console. -/
def Record.consoleLine (record : Record) : Text :=
  "react2horizon: ".toList ++ record.level.name ++ " ".toList ++ record.message ++ "\n".toList

/-- The record as a line of a log file, after the time; the level takes seven columns. -/
def Record.fileLine (time : Text) (record : Record) : Text :=
  let level := record.level.name
  time ++ level ++ List.replicate (7 - level.length) ' ' ++ " ".toList ++ record.origin.name ++
    ": ".toList
    ++ record.message ++ "\n".toList

/-- The record of an entry of the journal. A component leaves none. -/
def Event.record? : Event → Option Record
  | .warned warning => some ⟨.debug, .warnings, "Warning: ".toList ++ warning.message⟩
  | .droppedAttribute name => some ⟨.debug, .attributes, "Dropped attribute ".toList ++ name⟩
  | .madeCall tag constructor =>
    some ⟨.debug, .markup, "Lowering <".toList ++ tag ++ "> to ".toList ++ constructor⟩
  | .extractedState description => some ⟨.debug, .hooks, "Extracted state ".toList ++ description⟩
  | .startedFunctional name =>
    some ⟨.debug, .components, "Converting functional component ".toList ++ name⟩
  | .startedClass name => some ⟨.debug, .components, "Converting class component ".toList ++ name⟩
  | .recorded _ => none

end Recast
