import Recast.Text.Basic

/-!
# Indentation

`dedent` takes off the indentation that all lines share, `indent` puts the same number of spaces
before every line that is not blank, and `codeBlock` prepares a fragment of code for a new place: no
blank lines around it and no shared indentation.
-/

namespace Recast

/-- The longest common start of two texts. -/
def commonStart : Text → Text → Text
  | a :: as, b :: bs => if a = b then a :: commonStart as bs else []
  | _, _ => []

/-- A line of spaces and tabs only becomes empty. -/
def emptyIfIndent (line : Text) : Text :=
  if line.all isIndent then [] else line

/-- The indentation that the lines share; empty lines do not count. -/
def sharedIndent : List Text → Option Text
  | [] => none
  | line :: rest =>
    if line.isEmpty then sharedIndent rest
    else
      let own := line.takeWhile isIndent
      match sharedIndent rest with
      | none => some own
      | some shared => some (commonStart own shared)

/-- Takes the shared indentation off every line; lines of spaces and tabs become empty. -/
def dedent (t : Text) : Text :=
  let ls := (lines t).map emptyIfIndent
  match sharedIndent ls with
  | none => unlines ls
  | some shared => unlines (ls.map fun line => line.drop shared.length)

/-- Puts `width` spaces before every line that is not blank and empties the others. -/
def indent (width : Nat) (t : Text) : List Text :=
  (lines t).map fun line => if isBlankText line then [] else List.replicate width ' ' ++ line

/-- Takes the line ends off both ends of a text. -/
def trimLineEnds (t : Text) : Text :=
  dropEndWhile (· == '\n') (t.dropWhile (· == '\n'))

/-- A fragment of code without surrounding blank lines and without shared indentation. -/
def codeBlock (t : Text) : Text :=
  trim (dedent (trimLineEnds t))

/-- Every run of blanks becomes one space. -/
def collapseBlanks : Text → Text
  | [] => []
  | c :: cs =>
    if isBlank c then
      match cs with
      | d :: _ => if isBlank d then collapseBlanks cs else ' ' :: collapseBlanks cs
      | [] => [' ']
    else c :: collapseBlanks cs

end Recast
