import Recast.Scan.Extent

/-!
# Masked code

`mask` hides what is not code: the contents of strings, comments and the static text of template
literals become blanks, character by character, and line ends stay. The substitutions of a template
literal stay visible, with round brackets in place of `${` and the closing brace, so that they never
read as the braces of an object. A masked text has the length of the text it comes from.
-/

namespace Recast

/-- A part of a text that is read in one way, up to an offset. -/
inductive Region where
  /-- Code. -/
  | code (stop : Nat)
  /-- The static text of a template literal. -/
  | template (stop : Nat)
  deriving DecidableEq, Repr

/-- A hidden character; a line end stays. -/
def hide (c : Char) : Char :=
  if c = '\n' then '\n' else ' '

/-- The end of what is hidden of a string literal whose content `cs` starts at `pos` and that ends
at `stop`: a closing quote stays visible. -/
def hiddenEnd (quote : Char) (pos stop : Nat) (cs : Text) : Nat :=
  if pos < stop && cs[stop - 1 - pos]? = some quote then stop - 1 else stop

/-- The masked text from `pos` on. Characters before `hidden` are hidden, those before `shown` are
copied; `region` is the part that `pos` is in, and `outer` the parts around it. -/
def maskFrom (region : Region) (outer : List Region) (pos hidden shown : Nat) : Text → Text
  | [] => []
  | c :: cs =>
    if pos < hidden then hide c :: maskFrom region outer (pos + 1) hidden shown cs
    else if pos < shown then c :: maskFrom region outer (pos + 1) hidden shown cs
    else
      match region with
      | .code stop =>
        if stop ≤ pos then
          match outer with
          | around :: rest => ')' :: maskFrom around rest (pos + 1) 0 0 cs
          | [] => c :: maskFrom region [] (pos + 1) 0 0 cs
        else if c = '"' || c = '\'' then
          let close := min (literalEnd c (pos + 1) 0 cs) stop
          c :: maskFrom region outer (pos + 1) (hiddenEnd c (pos + 1) close cs) close cs
        else if c = '`' then c :: maskFrom (.template stop) (region :: outer) (pos + 1) 0 0 cs
        else
          match commentEnd? pos c cs with
          | some close => hide c :: maskFrom region outer (pos + 1) (min close stop) 0 cs
          | none => c :: maskFrom region outer (pos + 1) 0 0 cs
      | .template stop =>
        if stop ≤ pos then
          match outer with
          | _ :: around :: rest => ')' :: maskFrom around rest (pos + 1) 0 0 cs
          | _ => c :: maskFrom region outer (pos + 1) 0 0 cs
        else if c = '\\' then hide c :: maskFrom region outer (pos + 1) (min (pos + 2) stop) 0 cs
        else if c = '`' then
          match outer with
          | around :: rest => c :: maskFrom around rest (pos + 1) 0 0 cs
          | [] => c :: maskFrom region outer (pos + 1) 0 0 cs
        else if c = '$' && pos + 1 < stop then
          match cs with
          | '{' :: inner =>
            match bracketEnd .curly 0 ['{'] (pos + 2) 0 inner with
            | some close =>
              if close ≤ stop then
                ' ' :: '(' :: maskFrom (.code (close - 1)) (region :: outer) (pos + 2) 0 0 inner
              else ' ' :: ' ' :: maskFrom region outer (pos + 2) stop 0 inner
            | none => ' ' :: ' ' :: maskFrom region outer (pos + 2) stop 0 inner
          | rest => hide c :: maskFrom region outer (pos + 1) 0 0 rest
        else hide c :: maskFrom region outer (pos + 1) 0 0 cs

/-- The text with everything that is not code hidden. -/
def mask (t : Text) : Text :=
  maskFrom (.code t.length) [] 0 0 0 t

end Recast
