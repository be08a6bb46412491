import ApiDiscovery.Number.Numeral
import ApiDiscovery.Text.Surrogate
import ApiDiscovery.Value

/-!
# Reading JSON

`Json.parse` reads one value that fills a text, blank space around it aside. The words `NaN`,
`Infinity` and `-Infinity` count as numbers; the last value of a repeated name wins at the first
one's position. A text that is refused is refused at a position: a `Fault` holds what was amiss and
the rest of the text from there, from which `Json.Error` derives line, column and offset.

The reader works on the characters that are left. `fuel` bounds the depth of calls; a character
never takes more than two of them.
-/

namespace ApiDiscovery.Json

open Number Text

/-- What can be amiss in a text. -/
inductive Reason where
  | byteOrderMark
  | value
  | propertyName
  | colon
  | comma
  | extraData
  | unterminatedString
  | controlCharacter
  | escape
  | unicodeEscape
deriving DecidableEq, Repr

/-- Why reading stopped: what is amiss and the text from there on, or a whole number of more digits
than are converted. -/
inductive Fault where
  | malformed (reason : Reason) (rest : List Char)
  | tooLong (digits : Nat)

/-- A reader takes characters from the front and leaves the rest. -/
abbrev Reader (α : Type) := List Char → Except Fault (α × List Char)

/-- The four characters that JSON takes as space. -/
def isSpace (c : Char) : Bool := c == ' ' || c == '\t' || c == '\n' || c == '\r'

def skipSpace (cs : List Char) : List Char := cs.dropWhile isSpace

def shortEscape? : Char → Option Char
  | '"' => some '"'
  | '\\' => some '\\'
  | '/' => some '/'
  | 'b' => some '\x08'
  | 'f' => some '\x0c'
  | 'n' => some '\n'
  | 'r' => some '\r'
  | 't' => some '\t'
  | _ => none

/-- The number on four hexadecimal digits at the front. -/
def hex4? : List Char → Option (Nat × List Char)
  | a :: b :: c :: d :: rest => do
      let a ← hexValue? a
      let b ← hexValue? b
      let c ← hexValue? c
      let d ← hexValue? d
      return (((a * 16 + b) * 16 + c) * 16 + d, rest)
  | _ => none

/-- The character of a number that was read, before the rest of the text. If it is the first half of a pair, the
other half may follow, by number too. -/
def pairedChar (n : Nat) (rest : List Char) : Except Fault (Char × List Char) :=
  if isHighSurrogate n && !(rest.drop 6).isEmpty then
    match rest with
    | '\\' :: 'u' :: more =>
        match hex4? more with
        | some (m, after) =>
            if isLowSurrogate m then .ok (joinSurrogates n m, after) else .ok (charOrReplacement n, rest)
        | none => .error (.malformed .unicodeEscape ('u' :: more))
    | _ => .ok (charOrReplacement n, rest)
  else .ok (charOrReplacement n, rest)

/-- A character by number, from behind the backslash. A further character has to follow the digits;
two numbers make one character when they are the halves of a pair. -/
def numberedChar (cs : List Char) : Except Fault (Char × List Char) :=
  let digits := cs.drop 1
  if (digits.drop 4).isEmpty then .error (.malformed .unicodeEscape cs)
  else
    match hex4? digits with
    | some (n, rest) => pairedChar n rest
    | none => .error (.malformed .unicodeEscape cs)

/-- The rest of a string, whose opening quote begins `start`. -/
def stringBody (start : List Char) : Nat → Reader (List Char)
  | 0, cs => .error (.malformed .unterminatedString cs)
  | _ + 1, [] => .error (.malformed .unterminatedString start)
  | fuel + 1, c :: rest =>
      if c == '"' then .ok ([], rest)
      else if c == '\\' then
        match rest with
        | [] => .error (.malformed .unterminatedString start)
        | 'u' :: _ => do
            let (d, rest) ← numberedChar rest
            let (ds, rest) ← stringBody start fuel rest
            return (d :: ds, rest)
        | e :: after =>
            match shortEscape? e with
            | none => .error (.malformed .escape (c :: rest))
            | some d => do
                let (ds, rest) ← stringBody start fuel after
                return (d :: ds, rest)
      else if c.toNat < 0x20 then .error (.malformed .controlCharacter (c :: rest))
      else do
        let (ds, rest) ← stringBody start fuel rest
        return (c :: ds, rest)

def string (cs : List Char) : Except Fault (List Char × List Char) :=
  stringBody cs (cs.length + 1) (cs.drop 1)

/-- The fraction at the front: a point with digits. -/
def fraction : List Char → List Char × List Char
  | '.' :: rest =>
      let ds := rest.takeWhile Char.isDigit
      if ds.isEmpty then ([], '.' :: rest) else ('.' :: ds, rest.dropWhile Char.isDigit)
  | cs => ([], cs)

/-- The sign at the front of an exponent, if it has one. -/
def exponentSign : List Char → List Char × List Char
  | '+' :: rest => (['+'], rest)
  | '-' :: rest => (['-'], rest)
  | rest => ([], rest)

/-- The exponent at the front: its mark, perhaps a sign, and digits. -/
def exponent (cs : List Char) : List Char × List Char :=
  match cs with
  | [] => ([], cs)
  | mark :: rest =>
      if mark == 'e' || mark == 'E' then
        let (sign, rest) := exponentSign rest
        let ds := rest.takeWhile Char.isDigit
        if ds.isEmpty then ([], cs) else ('e' :: sign ++ ds, rest.dropWhile Char.isDigit)
      else ([], cs)

/-- The digits of a whole number at the front: a zero alone, or digits that begin with none. -/
def wholeDigits : List Char → List Char × List Char
  | '0' :: rest => (['0'], rest)
  | cs => (cs.takeWhile Char.isDigit, cs.dropWhile Char.isDigit)

/-- Whether a number has a minus sign at its front, and what follows that. -/
def numberSign : List Char → Bool × List Char
  | '-' :: rest => (true, rest)
  | rest => (false, rest)

def number (cs : List Char) : Except Fault (Value × List Char) :=
  let (negative, body) := numberSign cs
  let (whole, rest) := wholeDigits body
  if whole.isEmpty then .error (.malformed .value cs)
  else
    let (frac, rest) := fraction rest
    let (exp, rest) := exponent rest
    if frac.isEmpty && exp.isEmpty then
      if digitLimit < whole.length then .error (.tooLong whole.length)
      else
        let n : Int := decimalDigits whole
        .ok (.int (if negative then -n else n), rest)
    else
      match Decimal.parse? (whole ++ frac ++ exp) with
      | some d => .ok (.float (Double.ofDecimal negative d), rest)
      | none => .error (.malformed .value cs)

def words : List (List Char × Value) :=
  [("null".toList, .null), ("true".toList, .bool true), ("false".toList, .bool false),
    ("NaN".toList, .float .nan), ("Infinity".toList, .float (.infinite false)),
    ("-Infinity".toList, .float (.infinite true))]

def word? (cs : List Char) : Option (Value × List Char) :=
  words.findSome? fun (w, v) => if w.isPrefixOf cs then some (v, cs.drop w.length) else none

mutual

def value : Nat → Reader Value
  | 0, cs => .error (.malformed .value cs)
  | fuel + 1, cs =>
      match cs with
      | [] => .error (.malformed .value cs)
      | '"' :: _ => do
          let (s, rest) ← string cs
          return (.str (String.ofList s), rest)
      | '{' :: rest =>
          match skipSpace rest with
          | '}' :: rest => .ok (.map [], rest)
          | rest => do
              let (entries, rest) ← members fuel [] rest
              return (.map entries, rest)
      | '[' :: rest =>
          match skipSpace rest with
          | ']' :: rest => .ok (.list [], rest)
          | rest => do
              let (items, rest) ← elements fuel rest
              return (.list items, rest)
      | _ =>
          match word? cs with
          | some found => .ok found
          | none => number cs

/-- The entries of an object from a name on, after those in `seen`, up to its closing brace. -/
def members (fuel : Nat) (seen : List (Value × Value)) : Reader (List (Value × Value)) :=
  fun cs =>
    match fuel with
    | 0 => .error (.malformed .propertyName cs)
    | fuel + 1 =>
        match cs with
        | '"' :: _ => do
            let (name, rest) ← string cs
            match skipSpace rest with
            | ':' :: rest => do
                let (v, rest) ← value fuel (skipSpace rest)
                let seen := Value.put (.str (String.ofList name)) v seen
                match skipSpace rest with
                | '}' :: rest => return (seen, rest)
                | ',' :: rest => members fuel seen (skipSpace rest)
                | rest => throw (.malformed .comma rest)
            | rest => throw (.malformed .colon rest)
        | _ => .error (.malformed .propertyName cs)

/-- The members of an array from a value on, up to its closing bracket. -/
def elements (fuel : Nat) : Reader (List Value) :=
  fun cs =>
    match fuel with
    | 0 => .error (.malformed .value cs)
    | fuel + 1 => do
        let (v, rest) ← value fuel cs
        match skipSpace rest with
        | ']' :: rest => return ([v], rest)
        | ',' :: rest => do
            let (vs, rest) ← elements fuel (skipSpace rest)
            return (v :: vs, rest)
        | rest => throw (.malformed .comma rest)

end

def parseChars (cs : List Char) : Except Fault Value := do
  if cs.head? == some (Char.ofNat 0xfeff) then throw (.malformed .byteOrderMark cs)
  let (v, rest) ← value (2 * cs.length + 1) (skipSpace cs)
  let rest := skipSpace rest
  if rest.isEmpty then return v else throw (.malformed .extraData rest)

/-- A refusal with its position: offset from the start, line and column counted from one. -/
inductive Error where
  | malformed (reason : Reason) (offset line column : Nat)
  | tooLong (digits : Nat)
deriving DecidableEq, Repr

def locate (text : List Char) (reason : Reason) (rest : List Char) : Error :=
  let offset := text.length - rest.length
  let before := text.take offset
  .malformed reason offset (before.count '\n' + 1) ((before.reverse.takeWhile (· != '\n')).length + 1)

/-- The value that fills a text, or where it fails to be one. -/
def parse (s : String) : Except Error Value :=
  match parseChars s.toList with
  | .ok v => .ok v
  | .error (.malformed reason rest) => .error (locate s.toList reason rest)
  | .error (.tooLong n) => .error (.tooLong n)

def Reason.message : Reason → String
  | .byteOrderMark => "Unexpected UTF-8 BOM (decode using utf-8-sig)"
  | .value => "Expecting value"
  | .propertyName => "Expecting property name enclosed in double quotes"
  | .colon => "Expecting ':' delimiter"
  | .comma => "Expecting ',' delimiter"
  | .extraData => "Extra data"
  | .unterminatedString => "Unterminated string starting at"
  | .controlCharacter => "Invalid control character at"
  | .escape => "Invalid \\escape"
  | .unicodeEscape => "Invalid \\uXXXX escape"

def Error.message : Error → String
  | .malformed reason offset line column =>
      reason.message ++ ": line " ++ toString line ++ " column " ++ toString column ++
        " (char " ++ toString offset ++ ")"
  | .tooLong n =>
      "Exceeds the limit (" ++ toString digitLimit ++
        " digits) for integer string conversion: value has " ++ toString n ++
        " digits; use sys.set_int_max_str_digits() to increase the limit"

/-! ## Halves of characters -/

/-- Whether a text gives half a character by number without the other half beside it. `half` tells that a first half
stands right before the text. -/
def leavesHalf (half : Bool) : List Char → Bool
  | [] => half
  | '\\' :: 'u' :: a :: b :: c :: d :: rest =>
      match hex4? [a, b, c, d] with
      | some (n, _) =>
          if isLowSurrogate n then !half || leavesHalf false rest
          else half || leavesHalf (isHighSurrogate n) rest
      | none => half || leavesHalf false rest
  | '\\' :: _ :: rest => half || leavesHalf false rest
  | _ :: rest => half || leavesHalf false rest

end ApiDiscovery.Json
