import ApiDiscovery.Text.Blank
import ApiDiscovery.Text.Charset.OneByte
import ApiDiscovery.Text.Surrogate
import ApiDiscovery.Text.Utf8

/-!
# Character sets

The encodings in which a text can come, by their names and aliases. `Charset.decode` reads bytes and
puts U+FFFD for what is not well-formed. Not all bytes are read even so: an order of bytes may be open that a
mark ought to say, and some names stand for what is no encoding of text at all. `Charset.decode?` refuses all
that is not well-formed.

Which sets are known is left open where texts are read (`Charsets`); `Charset.standard` are those listed here.
-/

namespace ApiDiscovery.Text

/-- The order of the bytes of a unit; where it is open, a mark at the front is to say it. -/
inductive ByteOrder where
  | little
  | big
  | marked
deriving DecidableEq, Repr

/-- Why bytes are not read as a text. -/
inductive Charset.Fault where
  /-- A text of units of so many bits is to begin with a mark and does not. -/
  | unmarked (bits : Nat)
  /-- The set is no encoding of text but one of bytes, and reads none that may be flawed. -/
  | bytesOnly
  /-- The set is no encoding but a cipher of texts. -/
  | textOnly
  /-- Names of hosts have no place for U+FFFD. -/
  | hostsOnly
  | undefined
  /-- A fault of any other set, by its kind and in its words. -/
  | described (kind text : String)
deriving DecidableEq, Repr

def Charset.Fault.message : Charset.Fault → String
  | unmarked bits => "UTF-" ++ toString bits ++ " stream does not start with BOM"
  | bytesOnly => ""
  | textOnly => "descriptor 'translate' for 'str' objects doesn't apply to a 'bytes' object"
  | hostsOnly => "Unsupported error handling replace"
  | undefined => "undefined encoding"
  | described _ text => text

inductive Charset where
  /-- UTF-8, perhaps behind a mark that is dropped. -/
  | utf8 (dropsMark : Bool)
  | utf16 (order : ByteOrder)
  | utf32 (order : ByteOrder)
  | ascii
  | oneByte (s : OneByte)
  /-- A set whose name is known and in which no text is read. -/
  | refusing (f : Charset.Fault)
deriving DecidableEq, Repr

/-- Reads bytes as a text, or does not. -/
abbrev Decoder := List UInt8 → Except Charset.Fault (List Char)

/-- What is known of character sets: how bytes are read, by the name of the set. -/
abbrev Charsets := String → Option Decoder

namespace Charset

/-! ## Names -/

/-- The character sets, each with its name and then its aliases, in lower case and with underscores. -/
def named : List (Charset × List String) :=
  [(utf8 false, ["utf_8", "cp65001", "u8", "utf", "utf8", "utf8_ucs2", "utf8_ucs4"]),
    (utf8 true, ["utf_8_sig"]),
    (utf16 .marked, ["utf_16", "u16", "utf16"]),
    (utf16 .little, ["utf_16_le", "unicodelittleunmarked", "utf_16le"]),
    (utf16 .big, ["utf_16_be", "unicodebigunmarked", "utf_16be"]),
    (utf32 .marked, ["utf_32", "u32", "utf32"]),
    (utf32 .little, ["utf_32_le", "utf_32le"]),
    (utf32 .big, ["utf_32_be", "utf_32be"]),
    (ascii, ["ascii", "646", "ansi_x3.4_1968", "ansi_x3_4_1968", "ansi_x3.4_1986", "cp367", "csascii", "ibm367",
      "iso646_us", "iso_646.irv_1991", "iso_ir_6", "us", "us_ascii"]),
    (refusing .bytesOnly, ["base64_codec", "base64", "base_64"]),
    (refusing .bytesOnly, ["hex_codec", "hex"]),
    (refusing .bytesOnly, ["zlib_codec", "zip", "zlib"]),
    (refusing .bytesOnly, ["bz2_codec", "bz2"]),
    (refusing .bytesOnly, ["uu_codec", "uu"]),
    (refusing .bytesOnly, ["quopri_codec", "quopri", "quoted_printable", "quotedprintable"]),
    (refusing .textOnly, ["rot_13", "rot13"]),
    (refusing .hostsOnly, ["idna"]),
    (refusing .undefined, ["undefined"])] ++
  OneByte.sets.map fun s => (oneByte s, s.names)

/-- A name in lower case, with an underscore for every run of marks that parts it. A dot is no such mark. -/
def plainName (name : String) : String :=
  let words := name.toList.foldr (fun c (words : List (List Char)) =>
    if c.isAlphanum || c == '.' then
      match words with
      | w :: rest => (c.toLower :: w) :: rest
      | [] => [[c.toLower]]
    else [] :: words) [[]]
  "_".intercalate ((words.filter (!·.isEmpty)).map String.ofList)

/-- Whether a set goes by a name: its own, or an alias, in which a dot may stand for an underscore. -/
def goesBy (names : List String) (name : String) : Bool :=
  names.contains name || names.tail.contains (name.map fun c => if c == '.' then '_' else c)

def ofName? (name : String) : Option Charset :=
  (named.find? fun e => goesBy e.2 (plainName name)).map (·.1)

/-! ## Reading -/

/-- What is read at the front of bytes: a character or a stretch that is none, with its length. -/
abbrev Piece := Option Char × Nat

def unit (order : ByteOrder) (bytes : List UInt8) : Nat :=
  let bytes := if order = .big then bytes else bytes.reverse
  bytes.foldl (fun n b => n * 256 + b.toNat) 0

/-- The first piece of UTF-16: two bytes, or four for a pair. -/
def piece16 (order : ByteOrder) (bytes : List UInt8) : Piece :=
  match bytes with
  | a :: b :: rest =>
      let n := unit order [a, b]
      if !isSurrogate n then (some (Char.ofNat n), 2)
      else if isLowSurrogate n then (none, 2)
      else
        match rest with
        | c :: d :: _ =>
            let m := unit order [c, d]
            if isLowSurrogate m then (some (joinSurrogates n m), 4) else (none, 2)
        | _ => (none, bytes.length)
  | _ => (none, bytes.length)

def piece32 (order : ByteOrder) (bytes : List UInt8) : Piece :=
  match bytes with
  | a :: b :: c :: d :: _ =>
      let n := unit order [a, b, c, d]
      if isSurrogate n || 0x110000 ≤ n then (none, 4) else (some (Char.ofNat n), 4)
  | _ => (none, bytes.length)

def pieces (next : List UInt8 → Piece) : Nat → List UInt8 → List (Option Char)
  | 0, _ => []
  | _, [] => []
  | fuel + 1, bytes =>
      let (c, n) := next bytes
      c :: pieces next fuel (bytes.drop (max n 1))

/-- The order that a mark of `width` bytes at the front says. -/
def mark? (width : Nat) (bytes : List UInt8) : Option ByteOrder :=
  if bytes.length < width then none
  else if unit .little (bytes.take width) == 0xfeff then some .little
  else if unit .big (bytes.take width) == 0xfeff then some .big
  else none

/-- The characters of bytes in units of `width` bytes, none where they are not well-formed. Bytes that
are too few for a mark need none. -/
def readUnits (width : Nat) (next : ByteOrder → List UInt8 → Piece) (order : ByteOrder)
    (bytes : List UInt8) : Except Fault (List (Option Char)) :=
  let all (order : ByteOrder) (bytes : List UInt8) := pieces (next order) bytes.length bytes
  if order != .marked then .ok (all order bytes)
  else
    match mark? width bytes with
    | some order => .ok (all order (bytes.drop width))
    | none => if width ≤ bytes.length then .error (.unmarked (8 * width)) else .ok (all .little bytes)

/-- The bytes behind the mark of UTF-8. Bytes that end inside of a mark hold nothing else. -/
def dropMark8 : List UInt8 → List UInt8
  | 0xef :: 0xbb :: 0xbf :: rest => rest
  | [0xef, 0xbb] | [0xef] => []
  | bytes => bytes

def read8 (bytes : List UInt8) : List (Option Char) :=
  match Utf8.decode? bytes with
  | .ok cs => cs.map some
  | .error _ => [none]

/-- The text of bytes, with U+FFFD for what is not well-formed. -/
def decode (c : Charset) : Decoder := fun bytes =>
  let replaced (cs : List (Option Char)) := cs.map (·.getD Utf8.replacement)
  match c with
  | utf8 dropsMark => .ok (Utf8.decodeLossy (if dropsMark then dropMark8 bytes else bytes))
  | utf16 order => (readUnits 2 piece16 order bytes).map replaced
  | utf32 order => (readUnits 4 piece32 order bytes).map replaced
  | ascii =>
      .ok (replaced (bytes.map fun b => if b < 0x80 then some (Char.ofNat b.toNat) else none))
  | oneByte s => .ok (s.decode bytes)
  | refusing f => .error f

/-- The sets that are known everywhere. Those of several bytes a character are not among them, beside the Unicode
ones. -/
def standard : Charsets := fun name => (ofName? name).map decode

/-- The text of bytes in a Unicode encoding, if they are well-formed throughout. -/
def decode? (c : Charset) (bytes : List UInt8) : Option (List Char) :=
  match c with
  | utf8 dropsMark => (read8 (if dropsMark then dropMark8 bytes else bytes)).mapM id
  | utf16 order => (readUnits 2 piece16 order bytes).toOption.bind (·.mapM id)
  | utf32 order => (readUnits 4 piece32 order bytes).toOption.bind (·.mapM id)
  | _ => none

end Charset

end ApiDiscovery.Text
