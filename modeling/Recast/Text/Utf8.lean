import Recast.Text.Quoted

/-!
# UTF-8

A file holds bytes. `encode` writes a text as bytes, and `decode` reads it back: it takes the
shortest form of every character only, and the first byte that does not fit is the fault.
`uniformLines` gives every line end the same form.
-/

namespace Recast

/-- The content of a file. -/
abbrev Bytes := List UInt8

/-- The text as bytes. -/
def encode (t : Text) : Bytes :=
  t.flatMap String.utf8EncodeChar

/-! ## Decoding -/

/-- Why bytes are no text. -/
inductive DecodeFault.Cause where
  /-- No character starts with this byte. -/
  | invalidStart
  /-- The next byte does not go on with the character. -/
  | invalidContinuation
  /-- The bytes end inside a character. -/
  | truncated
  deriving DecidableEq, Repr

/-- A fault, with the place of the bytes that make no character. -/
structure DecodeFault where
  cause : DecodeFault.Cause
  lead : UInt8
  first : Nat
  last : Nat
  deriving DecidableEq, Repr

/-- What is wrong, without the place. -/
def DecodeFault.Cause.describe : DecodeFault.Cause → Text
  | .invalidStart => "invalid start byte".toList
  | .invalidContinuation => "invalid continuation byte".toList
  | .truncated => "unexpected end of data".toList

/-- What is wrong and where. -/
def DecodeFault.message (fault : DecodeFault) : Text :=
  "'utf-8' codec can't decode byte".toList
    ++ (if fault.first = fault.last then
        " 0x".toList ++ hexDigits 2 fault.lead.toNat ++ " in position ".toList ++
          showNat fault.first
      else "s in position ".toList ++ showNat fault.first ++ "-".toList ++ showNat fault.last)
    ++ ": ".toList ++ fault.cause.describe

/-- A character of several bytes that is not complete. -/
structure OpenChar where
  lead : UInt8
  start : Nat
  /-- How many bytes are missing. -/
  missing : Nat
  /-- The range of the next byte. -/
  low : UInt8
  high : UInt8
  /-- The bits of the bytes so far. -/
  bits : Nat
  deriving DecidableEq, Repr

/-- The character that a first byte from `0x80` on opens. The range of the second byte leaves out
the longer forms of shorter characters, the surrogates and what lies beyond the last character. -/
def openChar? (start : Nat) (lead : UInt8) : Option OpenChar :=
  if lead < 0xC2 then none
  else if lead < 0xE0 then some ⟨lead, start, 1, 0x80, 0xBF, lead.toNat - 0xC0⟩
  else if lead < 0xF0 then
    some ⟨lead, start, 2, if lead = 0xE0 then 0xA0 else 0x80, if lead = 0xED then 0x9F
      else 0xBF, lead.toNat - 0xE0⟩
  else if lead < 0xF5 then
    some ⟨lead, start, 3, if lead = 0xF0 then 0x90 else 0x80, if lead = 0xF4 then 0x8F
      else 0xBF, lead.toNat - 0xF0⟩
  else none

/-- Reads on at offset `pos`, perhaps inside a character. -/
def decodeFrom (pos : Nat) : Option OpenChar → Bytes → Except DecodeFault Text
  | none, [] => .ok []
  | some part, [] => .error ⟨.truncated, part.lead, part.start, pos - 1⟩
  | none, b :: bs =>
    if b < 0x80 then (decodeFrom (pos + 1) none bs).map (Char.ofNat b.toNat :: ·)
    else
      match openChar? pos b with
      | some part => decodeFrom (pos + 1) (some part) bs
      | none => .error ⟨.invalidStart, b, pos, pos⟩
  | some part, b :: bs =>
    if b < part.low || part.high < b then
      .error ⟨.invalidContinuation, part.lead, part.start, pos - 1⟩
    else
      let bits := part.bits * 0x40 + (b.toNat - 0x80)
      if part.missing ≤ 1 then (decodeFrom (pos + 1) none bs).map (Char.ofNat bits :: ·)
      else decodeFrom (pos + 1) (some ⟨part.lead, part.start, part.missing - 1, 0x80, 0xBF, bits⟩)
        bs

/-- The text that bytes hold. -/
def decode (bytes : Bytes) : Except DecodeFault Text :=
  decodeFrom 0 none bytes

/-! ## Line ends -/

/-- Every line end becomes a line feed: a carriage return, and a carriage return followed by a line
feed. -/
def uniformLines : Text → Text
  | [] => []
  | c :: cs =>
    if c = '\r' then
      match cs with
      | '\n' :: rest => '\n' :: uniformLines rest
      | rest => '\n' :: uniformLines rest
    else c :: uniformLines cs

end Recast
