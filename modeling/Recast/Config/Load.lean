import Recast.Config.Fields
import Recast.Config.Yaml.Document
import Recast.Files.Directory

/-!
# Loading a configuration

`loadFile` takes the options from a configuration file, and `load` finds the file first: the one
that is asked for, or the standard one if it is there, or none at all. A `Loading` tells which
fields were ignored, also if the options could not be read.
-/

namespace Recast

/-- Why there are no options. -/
inductive LoadFault where
  /-- There can be no file with the path. -/
  | noPath
  /-- The file cannot be opened. -/
  | unreadable (path : Text) (fault : AccessFault)
  /-- The file holds no text. -/
  | undecodable (fault : DecodeFault)
  /-- Something in the document stands for no value. -/
  | noValue (cause : Yaml.ValueFault)
  /-- The text is no document. -/
  | malformed (path : Text)
  /-- The document is no mapping. -/
  | notMapping (path : Text) (got : Value)
  /-- A field is wrong. -/
  | badField (path : Text) (fault : FieldFault)

/-- Why a file cannot be opened, in short. -/
def AccessFault.reason : AccessFault → Text
  | .notFound => "File not found".toList
  | fault => fault.describe

/-- The wording of a fault. -/
def LoadFault.message : LoadFault → Text
  | .noPath => AccessFault.nullCharacter.describe
  | .unreadable path fault =>
    "Cannot read config file ".toList ++ path ++ ": ".toList ++ fault.reason
  | .undecodable fault => fault.message
  | .noValue cause => cause.message
  | .malformed path => path ++ ": Invalid YAML syntax".toList
  | .notMapping path got =>
    path ++ ": Configuration must be a YAML dictionary, got ".toList ++ got.typeName
  | .badField path fault => path ++ ": ".toList ++ fault.message

/-- What came of a configuration. -/
structure Loading where
  /-- The names of the fields that were ignored. -/
  ignored : List Wide
  result : Except LoadFault Options

/-- The text of a file, with uniform line ends. -/
def decodeFile (content : Bytes) : Except DecodeFault Text :=
  (decode content).map uniformLines

/-- The options that the values of fields give, with all the keys that are there; `refuse` makes a
fault of a field that is wrong. -/
def loadFields (refuse : FieldFault → LoadFault) (keys : List Value)
    (value? : Field → Option Value) : Loading :=
  if (unknownKeys keys).any Value.isUnwritable then ⟨[], .error (.noValue .unwritable)⟩
  else
    ⟨unknownFields keys, (optionsOf value?).mapError fun fault =>
      if fault.isUnwritable then .noValue .unwritable else refuse fault⟩

/-- The options of a document. -/
def loadDocument (path : Text) (document : Yaml.Document) : Loading :=
  match document.entries? with
  | some entries =>
    loadFields (.badField path) (entries.map (·.1)) fun field =>
      (entries.find? fun (key, _) => field.isNamedBy key).map fun (_, number) =>
        document.value number
  | none =>
    match document.value document.root with
    | .null => ⟨[], .ok .standard⟩
    | value => ⟨[], .error (.notMapping path value)⟩

/-- The options of a text. -/
def loadText (path text : Text) : Loading :=
  match Yaml.readDocument text with
  | .error .malformed => ⟨[], .error (.malformed path)⟩
  | .error (.noValue cause) => ⟨[], .error (.noValue cause)⟩
  | .ok none => ⟨[], .ok .standard⟩
  | .ok (some document) => loadDocument path document

/-- The options of a file. -/
def loadFile (directory : Directory) (path : Text) : Loading :=
  match directory.read path with
  | .error .nullCharacter => ⟨[], .error .noPath⟩
  | .error fault => ⟨[], .error (.unreadable path fault)⟩
  | .ok content =>
    match decodeFile content with
    | .error fault => ⟨[], .error (.undecodable fault)⟩
    | .ok text => loadText path text

/-- The configuration file that is used if it is there and none is asked for. -/
def standardConfig : Text :=
  ".react2horizon.yaml".toList

/-- Which configuration file is used. -/
inductive ConfigChoice where
  | given (path : Text)
  | standard
  | absent
  deriving DecidableEq, Repr

/-- Chooses the configuration file; an empty path asks for none. -/
def chooseConfig (directory : Directory) : Option Text → ConfigChoice
  | some (c :: cs) => .given (c :: cs)
  | _ => if directory.exists? standardConfig then .standard else .absent

/-- The options of the chosen file. -/
def ConfigChoice.load (choice : ConfigChoice) (directory : Directory) : Loading :=
  match choice with
  | .given path => loadFile directory path
  | .standard => loadFile directory standardConfig
  | .absent => ⟨[], .ok .standard⟩

/-- The notice of ignored fields, if there are any. -/
def Loading.notice? (loading : Loading) : Option Wide :=
  if loading.ignored.isEmpty then none
  else some (.ofText "Ignoring unknown configuration fields: ".toList ++
    Wide.joinWith ", ".toList loading.ignored)

end Recast
