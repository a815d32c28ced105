import Recast.Files.Path
import Recast.Text.Utf8

/-!
# Directories

A `Directory` is what a command sees of the file system, as entries with the routes that lead to
them from the working directory. `Directory.read`, `Directory.write`, `Directory.append` and
`Directory.makeFolder` take paths, walk them name by name and fail as a file system does
(`AccessFault`).
-/

namespace Recast

/-- Something in a directory. -/
inductive Entry where
  | file (content : Bytes)
  | folder
  deriving DecidableEq, Repr

/-- The names that lead from the working directory to an entry. A slash as the first name starts at
the root, and two dots stand for a folder above the working directory. -/
abbrev Route := List Text

/-- The name of the root. -/
def rootName : Text :=
  ['/']

/-- The name of the folder around a folder. -/
def aboveName : Text :=
  ['.', '.']

/-- Whether a folder is there without being listed: the working directory, one above it, or the
root. -/
def Route.isGiven (route : Route) : Bool :=
  route.all (· = aboveName) || route = [rootName]

/-- The entries that a command can see. A folder that something lies in need not be listed. -/
abbrev Directory := List (Route × Entry)

/-- Why a path cannot be opened. -/
inductive AccessFault where
  | notFound
  | alreadyExists
  | notDirectory
  | isDirectory
  | nameTooLong
  /-- The path holds the character that no path can hold. It is refused before a file system sees
  it. -/
  | nullCharacter
  deriving DecidableEq, Repr

/-- The number of a fault of the file system. -/
def AccessFault.number? : AccessFault → Option Nat
  | .notFound => some 2
  | .alreadyExists => some 17
  | .notDirectory => some 20
  | .isDirectory => some 21
  | .nameTooLong => some 36
  | .nullCharacter => none

/-- What is wrong, without the path. -/
def AccessFault.describe : AccessFault → Text
  | .notFound => "No such file or directory".toList
  | .alreadyExists => "File exists".toList
  | .notDirectory => "Not a directory".toList
  | .isDirectory => "Is a directory".toList
  | .nameTooLong => "File name too long".toList
  | .nullCharacter => "embedded null byte".toList

/-- What is wrong with which path. -/
def AccessFault.message (fault : AccessFault) (path : Text) : Text :=
  match fault.number? with
  | some number =>
    "[Errno ".toList ++ showNat number ++ "] ".toList ++ fault.describe ++ ": ".toList ++
      quotedText path
  | none => fault.describe

/-- The most bytes that a name can have. -/
def longestName : Nat :=
  255

/-- The most bytes that a path can have. -/
def longestPath : Nat :=
  4095

namespace Directory

/-- What a route leads to. -/
def get? (directory : Directory) (route : Route) : Option Entry :=
  match directory.find? fun (at_, _) => at_ = route with
  | some (_, entry) => some entry
  | none =>
    if Route.isGiven route || directory.any fun (at_, _) => route.isPrefixOf at_ then some .folder
    else none

/-- The content of the file that a route leads to. -/
def fileAt? (directory : Directory) (route : Route) : Option Bytes :=
  match directory.get? route with
  | some (.file content) => some content
  | _ => none

/-- Looks for what a route leads to. -/
def find (directory : Directory) (route : Route) : Except AccessFault (Option Entry) :=
  if route.any fun name => longestName < (encode name).length then .error .nameTooLong
  else .ok (directory.get? route)

/-- The directory with an entry put at a route. -/
def put (directory : Directory) (route : Route) (entry : Entry) : Directory :=
  if directory.any fun (at_, _) => at_ = route then
    directory.map fun (at_, old) => if at_ = route then (at_, entry) else (at_, old)
  else directory ++ [(route, entry)]

/-- The route to the folder around a folder. -/
def above (route : Route) : Route :=
  if route = [rootName] then route
  else if Route.isGiven route then route ++ [aboveName]
  else route.dropLast

/-- Goes one name on from a folder. -/
def enter (directory : Directory) (route : Route) (name : Text) : Except AccessFault Route :=
  if name = ['.'] then .ok route
  else if name = aboveName then .ok (above route)
  else do
    match ← directory.find (route ++ [name]) with
    | none => .error .notFound
    | some (.file _) => .error .notDirectory
    | some .folder => .ok (route ++ [name])

/-- Where a path starts. -/
def origin (path : Text) : Route :=
  if startsWith path rootName then [rootName] else []

/-- Refuses what can be no path. -/
def checkPath (path : Text) : Except AccessFault Unit :=
  if path.contains '\x00' then .error .nullCharacter
  else if path.isEmpty then .error .notFound
  else if longestPath < (encode path).length then .error .nameTooLong
  else .ok ()

/-- Where a path leads: the route of its last name, and whether a slash says that a folder is
meant. -/
structure Target where
  route : Route
  slash : Bool
  deriving DecidableEq, Repr

/-- Finds the place of a path. The folders on the way have to be there, the last name need not. A
path that ends with dots leads to a folder and has no last name. -/
def locate (directory : Directory) (path : Text) : Except AccessFault Target := do
  checkPath path
  let names := (splitOn '/' path).filter (!·.isEmpty)
  match names.getLast? with
  | none => .error .isDirectory
  | some last =>
    let folder ← names.dropLast.foldlM directory.enter (origin path)
    if last = ['.'] || last = aboveName then .error .isDirectory
    else .ok ⟨folder ++ [last], endsWith path ['/']⟩

/-- The content of a file. -/
def read (directory : Directory) (path : Text) : Except AccessFault Bytes := do
  let target ← directory.locate path
  match ← directory.find target.route with
  | none => .error .notFound
  | some .folder => .error .isDirectory
  | some (.file content) => if target.slash then .error .notDirectory else .ok content

/-- The route of the file that a path names, new or old, if it can be opened for writing. -/
def openFile (directory : Directory) (path : Text) : Except AccessFault Route := do
  let target ← directory.locate path
  if target.slash then .error .isDirectory
  else if (← directory.find target.route) = some .folder then .error .isDirectory
  else .ok target.route

/-- The directory after a file was written, new or over an old one. -/
def write (directory : Directory) (path : Text) (content : Bytes) :
    Except AccessFault Directory := do
  let route ← directory.openFile path
  return directory.put route (.file content)

/-- The directory after something was added to a file, new or old. -/
def append (directory : Directory) (path : Text) (content : Bytes) :
    Except AccessFault Directory := do
  let route ← directory.openFile path
  return directory.put route (.file ((directory.fileAt? route).getD [] ++ content))

/-- Whether a path leads to something. -/
def exists? (directory : Directory) (path : Text) : Bool :=
  match directory.locate path with
  | .ok target =>
    match directory.get? target.route with
    | none => false
    | some .folder => true
    | some (.file _) => !target.slash
  | .error fault => fault = .isDirectory

/-- The directory with a folder and the folders on the way to it. -/
def makeFolder (directory : Directory) (path : Path) : Except AccessFault Directory := do
  checkPath path.text
  let (made, _) ← path.names.foldlM step (directory, origin path.root)
  return made
where
  /-- Goes one name on and makes the folder if there is nothing. -/
  step : Directory × Route → Text → Except AccessFault (Directory × Route)
    | (directory, route), name =>
      match directory.enter route name with
      | .ok route => .ok (directory, route)
      | .error .notFound => .ok (directory.put (route ++ [name]) .folder, route ++ [name])
      | .error .notDirectory => .error .alreadyExists
      | .error fault => .error fault

/-- The files of one directory that another does not have, or has with another content. -/
def changedSince (directory before : Directory) : List (Route × Bytes) :=
  directory.filterMap fun
    | (route, .file content) =>
      if before.get? route = some (.file content) then none else some (route, content)
    | (_, .folder) => none

end Directory

end Recast
