import Recast.Text.Case
import Recast.Text.Quoted

/-!
# Style objects

`styleObject` turns the declarations of an inline style into an object literal with camel-case keys.
-/

namespace Recast

/-- A hyphenated property name in camel case. -/
def camelCase (property : Text) : Text :=
  match splitOn '-' (trim property) with
  | head :: parts => head ++ parts.flatMap capitalize
  | [] => []

/-- One declaration as an entry; a text without a colon or without a property name is none. -/
def styleProperty? (declaration : Text) : Option Text :=
  match cutAt? ':' declaration with
  | some (property, value) =>
    if isBlankText property then none
    else some (camelCase property ++ ": ".toList ++ quote (trim value))
  | none => none

/-- The declarations of an inline style as an object literal. -/
def styleObject (css : Text) : Text :=
  match (splitOn ';' css).filterMap styleProperty? with
  | [] => "\x7b\x7d".toList
  | entries => "\x7b ".toList ++ joinComma entries ++ " \x7d".toList

end Recast
