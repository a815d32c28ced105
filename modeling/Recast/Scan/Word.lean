import Recast.Scan.TopLevel

/-!
# Words of code

Recognisers for the words that code is searched for. Each takes the text before the place (read
backwards) and the text from it on. A word stands `free` if no character of an identifier comes
right before it.
-/

namespace Recast

/-- Whether the text ahead is not inside an identifier. -/
def startsFree (behind : Text) : Bool :=
  !(behind.head?.any isNameChar)

/-- Whether the text ahead is neither inside an identifier nor after a dot. -/
def startsUnqualified (behind : Text) : Bool :=
  !(behind.head?.any fun c => isNameChar c || c == '.')

/-- Whether a word that ends here is complete: no word character follows. -/
def wordEnds (ahead : Text) : Bool :=
  !(ahead.head?.any isWordChar)

/-- The identifier at the start of a text: it may not begin with a digit. -/
def identifier? : Text → Option Text
  | c :: cs => if isNameStart c then some (c :: cs.takeWhile isNameChar) else none
  | [] => none

/-- Whether the whole text is an identifier. -/
def isIdentifier : Text → Bool
  | c :: cs => isNameStart c && cs.all isNameChar
  | [] => false

/-- The keyword `return`. -/
def returnWord : Pattern := fun behind ahead =>
  if startsFree behind then
    match dropHead? "return".toList ahead with
    | some rest => if wordEnds rest then some 6 else none
    | none => none
  else none

/-- A call of the member `map`, up to its opening bracket. -/
def mapCall : Pattern := fun _ ahead => do
  let name ← dropHead? ".".toList ahead
  let call ← dropHead? "map".toList (trimStart name)
  let rest ← dropHead? "(".toList (trimStart call)
  some (ahead.length - rest.length)

/-- A semicolon. -/
def semicolon : Pattern := fun _ ahead =>
  if ahead.head? = some ';' then some 1 else none

end Recast
