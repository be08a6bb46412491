import ApiDiscovery.Text.Digit

/-!
# UTF-8

Bytes of a text and back. `encode` writes each character as one to four bytes. Reading cuts the
bytes into pieces: a character, or a malformed stretch, which is the longest run of bytes that
begins some well-formed character and cannot go on (one byte when not even that). `decode?` refuses
the first malformed stretch and says where and why; `decodeLossy` puts U+FFFD in place of each.
-/

namespace ApiDiscovery.Text.Utf8

def encodeChar (c : Char) : List UInt8 :=
  let n := c.toNat
  if n < 0x80 then [UInt8.ofNat n]
  else if n < 0x800 then [UInt8.ofNat (0xc0 + n / 0x40), UInt8.ofNat (0x80 + n % 0x40)]
  else if n < 0x10000 then
    [UInt8.ofNat (0xe0 + n / 0x1000), UInt8.ofNat (0x80 + n / 0x40 % 0x40),
      UInt8.ofNat (0x80 + n % 0x40)]
  else
    [UInt8.ofNat (0xf0 + n / 0x40000), UInt8.ofNat (0x80 + n / 0x1000 % 0x40),
      UInt8.ofNat (0x80 + n / 0x40 % 0x40), UInt8.ofNat (0x80 + n % 0x40)]

def encode (s : List Char) : List UInt8 := s.flatMap encodeChar

/-- Why a stretch of bytes is no character. -/
inductive Reason where
  | startByte
  | continuationByte
  | endOfData
deriving DecidableEq, Repr

/-- What the reader finds at the front of the bytes. -/
inductive Piece where
  /-- A character and the number of its bytes. -/
  | char (c : Char) (length : Nat)
  /-- The number of bytes of a malformed stretch. -/
  | malformed (length : Nat) (reason : Reason)
deriving DecidableEq, Repr

/-- How many continuation bytes a start byte asks for, and the range of the first of them. -/
def expected (b : Nat) : Option (Nat × Nat × Nat) :=
  if b < 0xc2 then none
  else if b < 0xe0 then some (1, 0x80, 0xbf)
  else if b == 0xe0 then some (2, 0xa0, 0xbf)
  else if b == 0xed then some (2, 0x80, 0x9f)
  else if b < 0xf0 then some (2, 0x80, 0xbf)
  else if b == 0xf0 then some (3, 0x90, 0xbf)
  else if b < 0xf4 then some (3, 0x80, 0xbf)
  else if b == 0xf4 then some (3, 0x80, 0x8f)
  else none

/-- Reads continuation bytes. `seen` bytes of the character are read and stand for `value`; `need`
more are due, the next of them between `lo` and `hi`. -/
def continueChar (value seen : Nat) : Nat → Nat → Nat → List UInt8 → Piece
  | 0, _, _, _ => .char (Char.ofNat value) seen
  | _ + 1, _, _, [] => .malformed seen .endOfData
  | need + 1, lo, hi, b :: rest =>
      if lo ≤ b.toNat && b.toNat ≤ hi then
        continueChar (value * 0x40 + b.toNat % 0x40) (seen + 1) need 0x80 0xbf rest
      else .malformed seen .continuationByte

def piece (b : UInt8) (rest : List UInt8) : Piece :=
  let n := b.toNat
  if n < 0x80 then .char (Char.ofNat n) 1
  else
    match expected n with
    | none => .malformed 1 .startByte
    | some (need, lo, hi) =>
        let bits := if need == 1 then 0x20 else if need == 2 then 0x10 else 0x08
        continueChar (n % bits) 1 need lo hi rest

/-- A malformed stretch in its text: where it starts, its first byte and its length. -/
structure Fault where
  offset : Nat
  first : UInt8
  length : Nat
  reason : Reason
deriving DecidableEq, Repr

def Fault.message (f : Fault) : String :=
  (if f.length = 1 then
    "'utf-8' codec can't decode byte 0x" ++ String.ofList (hexPadded 2 f.first.toNat) ++
      " in position " ++ toString f.offset
  else
    "'utf-8' codec can't decode bytes in position " ++ toString f.offset ++ "-" ++
      toString (f.offset + f.length - 1)) ++
    match f.reason with
    | .startByte => ": invalid start byte"
    | .continuationByte => ": invalid continuation byte"
    | .endOfData => ": unexpected end of data"

/-- Reads from `offset` on; `fuel` bounds the number of pieces. -/
def decodeFrom : Nat → Nat → List UInt8 → Except Fault (List Char)
  | 0, _, _ => .ok []
  | _, _, [] => .ok []
  | fuel + 1, offset, b :: rest =>
      match piece b rest with
      | .char c n => do return c :: (← decodeFrom fuel (offset + n) (rest.drop (n - 1)))
      | .malformed n reason => .error ⟨offset, b, n, reason⟩

/-- The text of the bytes, or their first malformed stretch. -/
def decode? (bytes : List UInt8) : Except Fault (List Char) :=
  decodeFrom bytes.length 0 bytes

def replacement : Char := Char.ofNat 0xfffd

/-- Reads all; `fuel` bounds the number of pieces. -/
def decodeLossyFrom : Nat → List UInt8 → List Char
  | 0, _ => []
  | _, [] => []
  | fuel + 1, b :: rest =>
      match piece b rest with
      | .char c n => c :: decodeLossyFrom fuel (rest.drop (n - 1))
      | .malformed n _ => replacement :: decodeLossyFrom fuel (rest.drop (n - 1))

/-- The text of the bytes with U+FFFD for each malformed stretch. -/
def decodeLossy (bytes : List UInt8) : List Char := decodeLossyFrom bytes.length bytes

end ApiDiscovery.Text.Utf8
