import Recast.Component.Definition
import Recast.Options

/-!
# Imports

`stripImports` takes the imports out of a source whose modules do not exist on the other side: the
framework itself and everything with a path (`isStripped`). `importHeader` is what comes in their
place.
-/

namespace Recast

/-- Whether a module's import is taken out. -/
def isStripped (module_ : Text) : Bool :=
  module_ = "react".toList || module_ = "react-dom".toList || startsWith module_ ".".toList
    || module_.contains '/'

/-- Whether a text between `import` and the quote of the module is blank or names what is imported,
followed by `from`. -/
def isImportClause (clause : Text) : Bool :=
  if isBlankText clause then !clause.isEmpty
  else
    match dropHead? "from".toList.reverse (trimStart clause.reverse) with
    | some names =>
      clause.getLast?.any isBlank && !clause.contains ';' && 2 ≤ names.length
        && names.head?.any isBlank && clause.head?.any isBlank
    | none => false

/-- A quotation mark. -/
def isMark (c : Char) : Bool :=
  c == '\'' || c == '"'

/-- An import statement at the start of a line, with its module; a semicolon and the line end belong
to it. -/
def importStatement : Recogniser Text := fun behind ahead => do
  if !startsLine behind then none
  let rest ← dropHead? "import".toList (ahead.dropWhile isIndent)
  if !isImportClause (rest.takeWhile (!isMark ·)) then none
  match rest.dropWhile (!isMark ·) with
  | [] => none
  | quote :: rest =>
    let module_ := rest.takeWhile (!isMark ·)
    if module_.isEmpty then none
    let rest ← dropHead? [quote] (rest.dropWhile (!isMark ·))
    let rest := rest.dropWhile isIndent
    let rest := ((dropHead? [';'] rest).getD rest).dropWhile isIndent
    some (covers module_ ahead ((dropHead? ['\n'] rest).getD rest))

/-- The source without the imports that are taken out. -/
def stripImports (source : Text) : Text :=
  replaceSpans source ((occurrences importStatement source).filterMap fun found =>
    if isStripped found.value then some ⟨⟨found.start, found.stop⟩, []⟩ else none)

/-- The names that the written source imports. -/
def importedNames : List Text :=
  ["UIComponent".toList, "UINode".toList, "View".toList, "Text".toList, "Pressable".toList,
   "Image".toList, "ScrollView".toList, "DynamicList".toList, "Binding".toList]

/-- The header of the written source up to the name of the module. -/
def headerStart : Text :=
  "// Meta Horizon Worlds UIComponent\n".toList
    ++ "// Generated from React component - manual verification required\n".toList
    ++ "import \x7b ".toList ++ joinComma importedNames ++ " \x7d from '".toList

/-- The header of the written source. -/
def importHeader (options : Options) : Wide :=
  .ofText headerStart ++ options.importModule ++ .ofText "';".toList

end Recast
