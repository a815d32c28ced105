import Recast.Config.Moment
import Recast.Number.Reading
import Recast.Number.Shortest

/-!
# Configuration values

A configuration document holds a `Value`. `Value.typeName` and `Value.text` say what a value is in
messages: a text is quoted, everything else is written as it reads. A list or a dictionary that
stands inside itself is written with dots there.
-/

namespace Recast

/-- A value of a configuration document. -/
inductive Value where
  | null
  | bool (b : Bool)
  | int (n : Int)
  | float (x : Binary64)
  | string (t : Wide)
  | bytes (b : List UInt8)
  | date (d : Date)
  | moment (m : Moment)
  | list (items : List Value)
  | dict (entries : List (Value × Value))
  | set (members : List Value)
  | pair (first second : Value)
  /-- A list around this place. -/
  | outerList
  /-- A dictionary around this place. -/
  | outerDict
  deriving Inhabited

/-- The name of the value's type. -/
def Value.typeName : Value → Text
  | .null => "NoneType".toList
  | .bool _ => "bool".toList
  | .int _ => "int".toList
  | .float _ => "float".toList
  | .string _ => "str".toList
  | .bytes _ => "bytes".toList
  | .date _ => "date".toList
  | .moment _ => "datetime".toList
  | .list _ => "list".toList
  | .dict _ => "dict".toList
  | .set _ => "set".toList
  | .pair _ _ => "tuple".toList
  | .outerList => "list".toList
  | .outerDict => "dict".toList

mutual

/-- The value as text. -/
def Value.text : Value → Text
  | .null => "None".toList
  | .bool b => if b then "True".toList else "False".toList
  | .int n => showInt n
  | .float x => x.text
  | .string t => t.shown
  | .bytes b => quotedBytes b
  | .date d => d.text
  | .moment m => m.text
  | .list items => "[".toList ++ joinComma (Value.texts items) ++ "]".toList
  | .dict entries => "\x7b".toList ++ joinComma (Value.entryTexts entries) ++ "\x7d".toList
  | .set [] => "set()".toList
  | .set (member :: members) =>
    "\x7b".toList ++ joinComma (member.text :: Value.texts members) ++ "\x7d".toList
  | .pair first second => "(".toList ++ first.text ++ ", ".toList ++ second.text ++ ")".toList
  | .outerList => "[...]".toList
  | .outerDict => "\x7b...\x7d".toList

/-- The values as texts. -/
def Value.texts : List Value → List Text
  | [] => []
  | item :: items => item.text :: Value.texts items

/-- The entries of a dictionary as texts. -/
def Value.entryTexts : List (Value × Value) → List Text
  | [] => []
  | (key, value) :: entries => (key.text ++ ": ".toList ++ value.text) :: Value.entryTexts entries

end

mutual

/-- Whether the value has an integer in it that is too long to be written. -/
def Value.isUnwritable : Value → Bool
  | .int n => isTooLong n
  | .list items => Value.anyUnwritable items
  | .dict entries => Value.anyEntryUnwritable entries
  | .set members => Value.anyUnwritable members
  | .pair first second => first.isUnwritable || second.isUnwritable
  | _ => false

/-- Whether one of some values is unwritable. -/
def Value.anyUnwritable : List Value → Bool
  | [] => false
  | item :: items => item.isUnwritable || Value.anyUnwritable items

/-- Whether a key or a value of some entries is unwritable. -/
def Value.anyEntryUnwritable : List (Value × Value) → Bool
  | [] => false
  | (key, value) :: entries =>
    key.isUnwritable || value.isUnwritable || Value.anyEntryUnwritable entries

end

/-- The value as the name of a field: a text stands for itself. -/
def Value.fieldName : Value → Wide
  | .string t => t
  | .date d => .ofText d.plain
  | .moment m => .ofText m.plain
  | value => .ofText value.text

end Recast
