import Recast.Text.Shown
import Recast.Options

/-!
# Paths

A path is read as its names, the parts between slashes that say something: empty parts and single
dots do not. `Path.ofText` reads a path, `Path.text` writes it in its plainest form, and
`Path.withSuffix` gives the path of a file beside another that shares its stem. A suffix may be
wide, so the new path is.
-/

namespace Recast

/-- A path in parts. -/
structure Path where
  /-- The slashes at the start: none, one, or two. -/
  root : Text
  names : List Text
  deriving DecidableEq, Repr

namespace Path

/-- The slashes that a path starts with. Two stay two, any other number counts as one. -/
def rootOf (t : Text) : Text :=
  let slashes := t.takeWhile (· == '/')
  if slashes.length ≤ 2 then slashes else ['/']

/-- The names between the slashes of a text. -/
def namesOf (t : Text) : List Text :=
  (splitOn '/' t).filter fun name => !(name.isEmpty || name = ['.'])

/-- Reads a path. -/
def ofText (t : Text) : Path :=
  ⟨rootOf t, namesOf t⟩

/-- The path as text; a dot stands for the empty one. -/
def text (path : Path) : Text :=
  if path.root.isEmpty && path.names.isEmpty then ['.']
  else path.root ++ joinWith ['/'] path.names

/-- The path of something in a directory. -/
def child (path : Path) (name : Text) : Path :=
  ⟨path.root, path.names ++ [name]⟩

/-- The part of a name before its last dot. A dot at either end does not count. -/
def stemOf (name : Text) : Text :=
  match cutAt? '.' name.reverse with
  | some (after, before) => if after.isEmpty || before.isEmpty then name else before.reverse
  | none => name

/-- Why a path has no neighbour of a new name. -/
inductive Fault where
  /-- The path has no last name. -/
  | emptyName (path : Path)
  /-- The new name is no single name. -/
  | invalidName (name : Wide)
  deriving DecidableEq, Repr

/-- The wording of a fault. -/
def Fault.message : Fault → Text
  | .emptyName path => "PosixPath(".toList ++ quotedText path.text ++ ") has an empty name".toList
  | .invalidName name => "Invalid name ".toList ++ name.shown

/-- The names between the slashes of a wide text. -/
def wideNames (w : Wide) : List Wide :=
  (Wide.splitOn '/' w).filter fun name => !(name.isEmpty || name = [.char '.'])

/-- Whether a wide text is one name. -/
def isName (name : Wide) : Bool :=
  name.head? ≠ some (.char '/') && name.getLast? ≠ some (.char '/') && (wideNames name).length = 1

/-- The path up to its last name. -/
def front (path : Path) : Text :=
  path.root ++ path.names.dropLast.flatMap (· ++ ['/'])

/-- The path with `suffix` after the stem of its last name. -/
def withSuffix (path : Path) (suffix : Wide) : Except Fault Wide :=
  match path.names.getLast? with
  | none => .error (.emptyName path)
  | some last =>
    let name := .ofText (stemOf last) ++ suffix
    if isName name then .ok (.ofText path.front ++ name) else .error (.invalidName name)

end Path

/-- Where the conversion of a source is written if nothing else is said: beside the source, with the
suffix of the options. -/
def standardDestination (options : Options) (source : Text) : Except Path.Fault Wide :=
  (Path.ofText source).withSuffix options.outputSuffix

end Recast
