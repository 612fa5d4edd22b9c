import LintDirectives.ByteText

/-!
# Base 64

Bytes written by 64 characters, four characters for three bytes. Characters outside of the
alphabet are passed over. A sign of padding that completes a group of four ends the text.
-/

namespace LintDirectives.Base64

def value? (c : Char) : Option Nat :=
  if c.isUpper then some (c.toNat - 65)
  else if c.isLower then some (c.toNat - 97 + 26)
  else if c.isDigit then some (c.toNat - 48 + 52)
  else if c == '+' then some 62
  else if c == '/' then some 63
  else none

/-- The bytes of a group of up to four values. A last single value holds no byte. -/
def groupBytes (group : List Nat) : Bytes :=
  match group with
  | [a, b] => [UInt8.ofNat (a * 4 + b / 16)]
  | [a, b, c] => [UInt8.ofNat (a * 4 + b / 16), UInt8.ofNat (b * 16 + c / 4)]
  | [a, b, c, d] =>
    [UInt8.ofNat (a * 4 + b / 16), UInt8.ofNat (b * 16 + c / 4), UInt8.ofNat (c * 64 + d)]
  | _ => []

/-- Read the rest of a text, given the values of the group that is being read, and how many
signs of padding stand right before the rest. -/
def decodeFrom? (group : List Nat) (pads : Nat) : Text → Option Bytes
  | [] => if group.isEmpty then some [] else none
  | c :: rest =>
    if c == '=' then
      if 2 ≤ group.length then
        if 4 ≤ group.length + (pads + 1) then some (groupBytes group)
        else decodeFrom? group (pads + 1) rest
      else decodeFrom? group pads rest
    else
      match value? c with
      | none => decodeFrom? group pads rest
      | some v =>
        if group.length == 3 then
          (decodeFrom? [] 0 rest).map fun bytes => groupBytes (group ++ [v]) ++ bytes
        else decodeFrom? (group ++ [v]) 0 rest

/-- Read a text, which has to end with a complete group. -/
def decode? (t : Text) : Option Bytes :=
  decodeFrom? [] 0 t

end LintDirectives.Base64
