import Recast.Source.Conversion

/-!
# The report as a document

`Report.document` writes a report as JSON: two spaces for every level, one entry a line, and only
ASCII characters. A character beyond ASCII is written as its UTF-16 units, and so is half of a
surrogate pair.
-/

namespace Recast

/-- A value of a document. -/
inductive Json where
  | bool (b : Bool)
  | string (w : Wide)
  | array (items : List Json)
  | object (fields : List (Text × Json))

namespace Json

/-- A UTF-16 unit as an escape. -/
def unit (n : Nat) : Text :=
  '\\' :: 'u' :: hexDigits 4 n

/-- How one code point stands in a string. -/
def character : CodePoint → Text
  | .char c =>
    if 0x10000 ≤ c.toNat then
      unit (0xD800 + (c.toNat - 0x10000) / 0x400) ++ unit (0xDC00 + (c.toNat - 0x10000) % 0x400)
    else if 0x7F ≤ c.toNat then unit c.toNat
    else escapeChar c
  | .half n => unit (0xD800 + n.val)

/-- A wide text as a string. -/
def quoted (w : Wide) : Text :=
  '"' :: w.flatMap character ++ ['"']

/-- Entries between brackets, one a line, or only the brackets. -/
def bracketed (opening closing : Char) (level : Nat) (entries : List Text) : Text :=
  if entries.isEmpty then [opening, closing]
  else
    let start (level : Nat) : Text := '\n' :: List.replicate (2 * level) ' '
    [opening] ++ start (level + 1) ++ joinWith ([','] ++ start (level + 1)) entries ++ start level
      ++ [closing]

mutual

/-- The value as text, at a level of nesting. -/
def text (level : Nat) : Json → Text
  | .bool b => if b then "true".toList else "false".toList
  | .string w => quoted w
  | .array items => bracketed '[' ']' level (texts (level + 1) items)
  | .object fields => bracketed '\x7b' '\x7d' level (fieldTexts (level + 1) fields)

/-- The values as texts. -/
def texts (level : Nat) : List Json → List Text
  | [] => []
  | item :: items => text level item :: texts level items

/-- The fields as texts. -/
def fieldTexts (level : Nat) : List (Text × Json) → List Text
  | [] => []
  | (name, value) :: fields =>
    (quoted (.ofText name) ++ ": ".toList ++ text level value) :: fieldTexts level fields

end

/-- An array of strings. -/
def strings (ts : List Text) : Json :=
  .array (ts.map fun t => .string (.ofText t))

end Json

/-- A component as a value. -/
def ComponentRecord.toJson (record : ComponentRecord) : Json :=
  .object
    [("name".toList, .string (.ofText record.name)),
     ("props".toList, .strings record.props),
     ("state".toList, .strings record.state),
     ("effects".toList, .strings record.effects),
     ("isClass".toList, .bool record.isClass)]

/-- A report as a value. -/
def Report.toJson (report : Report) : Json :=
  .object
    [("success".toList, .bool report.success),
     ("code".toList, .string report.code),
     ("errors".toList, .strings report.errors),
     ("warnings".toList, .strings report.warnings),
     ("components".toList, .array (report.components.map ComponentRecord.toJson))]

/-- A report as a document. -/
def Report.document (report : Report) : Text :=
  report.toJson.text 0

end Recast
