import Recast.Options

/-!
# Warnings

A `Warning` names a conversion that loses something or that someone has to look at.
`Warning.message` is its wording.
-/

namespace Recast

/-- A hook whose call is replaced in place. -/
inductive OtherHook where
  | ref
  | callback
  | memo
  deriving DecidableEq, Repr

/-- What someone has to look at. -/
inductive Warning where
  /-- A class attribute stands as a placeholder. -/
  | classAttribute (value : Text)
  /-- A key attribute is dropped. -/
  | keyAttribute (value : Text)
  /-- A landmark element becomes a plain view. -/
  | landmark (tag : Text)
  /-- A span becomes a text. -/
  | spanElement
  /-- A link becomes a pressable. -/
  | linkElement
  /-- An element without its closing tag stays as written. -/
  | unmatchedTag (tag : Text)
  /-- An element of an unknown tag stays as written. -/
  | unsupportedElement (tag : Text)
  /-- Markup inside a text element makes it a view. -/
  | nestedMarkup (tag : Text)
  /-- A mapped array becomes a list. -/
  | mappedArray
  /-- A state variable becomes a field with an accessor. -/
  | stateField (style : StateStyle) (name type setter : Text)
  /-- An effect is commented out. -/
  | effect
  /-- A reference becomes an object. -/
  | referenceHook (name : Text)
  /-- The dependencies of a callback or memo are lost. -/
  | untrackedHook (hook : OtherHook) (dependencies : Text)
  /-- A functional component is converted. -/
  | functionalComponent (name : Text)
  /-- A component returns nothing. -/
  | noReturn (name : Text)
  /-- A component returns something other than markup. -/
  | returnKept (name : Text)
  /-- A class component is converted. -/
  | classComponent (name : Text)
  /-- A lifecycle method has to be moved. -/
  | lifecycleMethod (method component target : Text)
  /-- The render method of a class is not converted. -/
  | renderKept (name : Text)
  /-- The source has no component. -/
  | noComponents
  deriving DecidableEq, Repr

/-- The hook's name in code. -/
def OtherHook.name : OtherHook → Text
  | .ref => "useRef".toList
  | .callback => "useCallback".toList
  | .memo => "useMemo".toList

/-- The shape of a state field in words. -/
def StateStyle.describe (style : StateStyle) (type : Text) : Text :=
  match style with
  | .binding => "Binding<".toList ++ type ++ "> field".toList
  | .field => type ++ " field".toList

/-- The wording of a warning. -/
def Warning.message : Warning → Text
  | .classAttribute value =>
    "Converting className \"".toList ++ value ++
      "\" to style object - manual conversion needed".toList
  | .keyAttribute value =>
    "Dropping key attribute (".toList ++ value ++ ") - DynamicList manages item identity".toList
  | .landmark tag =>
    "Converting ".toList ++ tag ++ " to View - consider appropriate Horizon component".toList
  | .spanElement => "Converting span to Text - verify if appropriate".toList
  | .linkElement => "Converting <a> to Pressable - href navigation needs manual handling".toList
  | .unmatchedTag tag =>
    "Unmatched tag <".toList ++ tag ++ "> left unconverted - check for a missing closing tag".toList
  | .unsupportedElement tag =>
    "Unsupported element <".toList ++ tag ++ "> left unconverted - manual conversion needed".toList
  | .nestedMarkup tag =>
    "Nested markup inside <".toList ++ tag ++
      "> converted to View children - verify text layout".toList
  | .mappedArray => "Converting array.map to DynamicList".toList
  | .stateField style name type setter =>
    "Converting useState for ".toList ++ name ++ " - implemented as ".toList ++ style.describe type
      ++ " with accessor ".toList ++ setter ++ "()".toList
  | .effect => "Converting useEffect - place logic in start lifecycle method".toList
  | .referenceHook name =>
    "Converting useRef for ".toList ++ name ++ " - replace with a class field".toList
  | .untrackedHook hook dependencies =>
    "Converting ".toList ++ hook.name ++ " - dependencies [".toList ++ dependencies
      ++ "] are no longer tracked".toList
  | .functionalComponent name => "Converting functional component: ".toList ++ name
  | .noReturn name =>
    "No return statement found in ".toList ++ name ++ " - generated an empty View".toList
  | .returnKept name =>
    "Return value of ".toList ++ name ++ " is not markup - kept as written".toList
  | .classComponent name => "Converting class component: ".toList ++ name
  | .lifecycleMethod method component target =>
    "Lifecycle method ".toList ++ method ++ " in ".toList ++ component ++
      " - move its logic to ".toList
      ++ target ++ "()".toList
  | .renderKept name =>
    "Class component ".toList ++ name
      ++ " converted partially - render() body was not lowered, convert its markup manually".toList
  | .noComponents =>
    "No React components found - output contains only the Horizon imports and the input".toList

end Recast
