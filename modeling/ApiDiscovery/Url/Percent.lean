import ApiDiscovery.Text.Digit
import ApiDiscovery.Text.Utf8

/-!
# Percent encoding

In a URL a character that may not stand for itself is written by the bytes of its UTF-8 form, each
behind a percent sign on two hexadecimal digits. Which characters stand for themselves depends on the
place; the unreserved ones do everywhere.
-/

namespace ApiDiscovery.Percent

open Text

/-- Letters and digits of ASCII, and four marks. -/
def isUnreserved (c : Char) : Bool :=
  c.isAlphanum || c == '-' || c == '.' || c == '_' || c == '~'

def reserved : List Char := ":/?#[]@!$&'()*+,;=".toList

def byte (b : UInt8) : List Char := ['%', hexUpper (b.toNat / 16), hexUpper (b.toNat % 16)]

/-- One character by the numbers of its bytes. -/
def char (c : Char) : List Char := (Utf8.encodeChar c).flatMap byte

/-- The text with every character by number that is not to be kept. -/
def encode (keep : Char → Bool) (s : List Char) : List Char :=
  s.flatMap fun c => if keep c then [c] else char c

/-- The unreserved characters stand for themselves. -/
def encodeSimple (s : List Char) : List Char := encode isUnreserved s

/-- The reserved characters stand for themselves, too. -/
def encodeReserved (s : List Char) : List Char :=
  encode (fun c => isUnreserved c || reserved.contains c) s

/-- The bytes that a text stands for: a percent sign before two hexadecimal digits makes one. -/
def decodeBytes : List Char → List UInt8
  | '%' :: a :: b :: rest =>
      match hexValue? a, hexValue? b with
      | some x, some y => UInt8.ofNat (x * 16 + y) :: decodeBytes rest
      | _, _ => 0x25 :: decodeBytes (a :: b :: rest)
  | c :: rest => Utf8.encodeChar c ++ decodeBytes rest
  | [] => []

/-- The text that a text stands for. -/
def decode (s : List Char) : List Char := Utf8.decodeLossy (decodeBytes s)

end ApiDiscovery.Percent
