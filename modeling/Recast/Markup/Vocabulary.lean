import Recast.Journal.Warning

/-!
# Known tags

`tagRule?` says which constructor a tag becomes, and what is to be said about it.
-/

namespace Recast

/-- The kinds of constructors that an element becomes. -/
inductive TagKind where
  | container
  | text
  | pressable
  | image
  deriving DecidableEq, Repr

/-- The constructor's name. -/
def TagKind.constructor : TagKind → Text
  | .container => "View".toList
  | .text => "Text".toList
  | .pressable => "Pressable".toList
  | .image => "Image".toList

/-- What becomes of an element with a known tag. -/
structure TagRule where
  kind : TagKind
  /-- The warning each time. -/
  warning? : Option Warning
  /-- The comment before the call. -/
  comment? : Option Text
  deriving DecidableEq, Repr

/-- The tags that only group their children; the empty name is a fragment's. -/
def containerTags : List Text :=
  ["div".toList, "section".toList, "article".toList, "form".toList, "ul".toList, "ol".toList,
   "li".toList, "fieldset".toList, [], "Fragment".toList, "React.Fragment".toList]

/-- The tags that group a region of a page. -/
def landmarkTags : List Text :=
  ["header".toList, "footer".toList, "nav".toList, "main".toList, "aside".toList]

/-- The tags that hold text. -/
def textTags : List Text :=
  ["h1".toList, "h2".toList, "h3".toList, "h4".toList, "h5".toList, "h6".toList, "p".toList,
   "label".toList, "strong".toList, "em".toList, "b".toList, "i".toList, "small".toList]

/-- The rule for a tag name. -/
def tagRule? (tag : Text) : Option TagRule :=
  if containerTags.contains tag then some ⟨.container, none, none⟩
  else if landmarkTags.contains tag then
    some ⟨.container, some (.landmark tag),
      some ("/* TODO: <".toList ++ tag ++ "> has no Horizon equivalent */".toList)⟩
  else if textTags.contains tag then some ⟨.text, none, none⟩
  else if tag = "span".toList then some ⟨.text, some .spanElement, none⟩
  else if tag = "button".toList then some ⟨.pressable, none, none⟩
  else if tag = "a".toList then some ⟨.pressable, some .linkElement, none⟩
  else if tag = "img".toList then some ⟨.image, none, none⟩
  else none

/-- A constructor call with the parts that are not empty. -/
def constructorCall (constructor : Text) (parts : List Text) : Text :=
  match parts.filter (!·.isEmpty) with
  | [] => constructor ++ "(\x7b\x7d)".toList
  | present => constructor ++ "(\x7b ".toList ++ joinComma present ++ " \x7d)".toList

end Recast
