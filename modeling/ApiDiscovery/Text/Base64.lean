/-!
# Base 64

Four characters stand for three bytes. `Base64.encode` writes bytes. `Base64.decode?` is lenient: characters outside
of the alphabet are passed over, and what follows a complete padding is not read. A text that ends inside
a group is refused.
-/

namespace ApiDiscovery.Text.Base64

def sextet? (c : Char) : Option Nat :=
  if c.isUpper then some (c.toNat - 0x41)
  else if c.isLower then some (c.toNat - 0x61 + 26)
  else if c.isDigit then some (c.toNat - 0x30 + 52)
  else if c == '+' then some 62
  else if c == '/' then some 63
  else none

def bytesOf : List Nat → List UInt8
  | a :: b :: rest =>
      UInt8.ofNat (a * 4 + b / 16) ::
        match rest with
        | [] => []
        | c :: rest =>
            UInt8.ofNat (b % 16 * 16 + c / 4) ::
              match rest with
              | [] => []
              | d :: _ => [UInt8.ofNat (c % 4 * 64 + d)]
  | _ => []

/-- Reads on with the sextets of an open group and the padding seen in it. -/
def decodeFrom? (group : List Nat) (padding : Nat) : List Char → Option (List UInt8)
  | [] => if group.isEmpty then some [] else none
  | c :: rest =>
      if c == '=' then
        if group.length < 2 then decodeFrom? group padding rest
        else if 4 ≤ group.length + padding + 1 then some (bytesOf group)
        else decodeFrom? group (padding + 1) rest
      else
        match sextet? c with
        | none => decodeFrom? group padding rest
        | some v =>
            let group := group ++ [v]
            if group.length < 4 then decodeFrom? group 0 rest
            else (decodeFrom? [] 0 rest).map (bytesOf group ++ ·)

def decode? (cs : List Char) : Option (List UInt8) := decodeFrom? [] 0 cs

def alphabet : List Char :=
  "ABCDEFGHIJKLMNOPQRSTUVWXYZabcdefghijklmnopqrstuvwxyz0123456789+/".toList

def character (n : Nat) : Char := (alphabet[n % 64]?).getD '='

/-- The text that stands for bytes, padded to whole groups. -/
def encode : List UInt8 → List Char
  | [] => []
  | [a] => [character (a.toNat / 4), character (a.toNat % 4 * 16), '=', '=']
  | [a, b] =>
      [character (a.toNat / 4), character (a.toNat % 4 * 16 + b.toNat / 16),
        character (b.toNat % 16 * 4), '=']
  | a :: b :: c :: rest =>
      character (a.toNat / 4) :: character (a.toNat % 4 * 16 + b.toNat / 16) ::
        character (b.toNat % 16 * 4 + c.toNat / 64) :: character (c.toNat % 64) :: encode rest

end ApiDiscovery.Text.Base64
