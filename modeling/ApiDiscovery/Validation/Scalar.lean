import ApiDiscovery.Number.Numeral
import ApiDiscovery.Text.Utf8
import ApiDiscovery.Validation.Issue

/-!
# Scalars in given data

Texts, truth values and numbers may be given in more than one form: a number by its text, a text by
its bytes, a truth value by a word or by zero or one. Each check says what it takes, and with which
cause it refuses the rest.
-/

namespace ApiDiscovery.Validation

open Number Text

def textOfBytes (bytes : List UInt8) (otherwise : Cause) : Checked String :=
  match Utf8.decode? bytes with
  | .ok cs => .ok (String.ofList cs)
  | .error _ => .fail otherwise

def text : Value → Checked String
  | .str s => .ok s
  | .bytes b => textOfBytes b .textEncoding
  | _ => .fail .textKind

def optional (check : Value → Checked α) : Value → Checked (Option α)
  | .null => .ok none
  | v => (check v).map some

/-! ## Truth values -/

def boolOfText (s : String) : Checked Bool :=
  let word := lowerAscii s
  if ["0", "off", "f", "false", "n", "no"].contains word then .ok false
  else if ["1", "on", "t", "true", "y", "yes"].contains word then .ok true
  else .fail .boolText

def boolOfInt (n : Int) : Checked Bool :=
  if n = 0 then .ok false else if n = 1 then .ok true else .fail .boolText

/-- The whole numbers of 64 bits. -/
def isWord (n : Int) : Bool := Int64.minValue.toInt ≤ n && n ≤ Int64.maxValue.toInt

/-- The whole numbers strictly between the bounds of 64 bits. -/
def isInnerWord (n : Int) : Bool := Int64.minValue.toInt < n && n ≤ Int64.maxValue.toInt

/-- A truth value, zero or one, or a word for one. -/
def bool : Value → Checked Bool
  | .bool b => .ok b
  | .str s => boolOfText s
  | .bytes b => (textOfBytes b .boolText).bind boolOfText
  | .int n => if isWord n then boolOfInt n else .fail .boolKind
  | .float x =>
      match x.toInt? with
      | some n => if isInnerWord n then boolOfInt n else .fail .boolKind
      | none => .fail .boolKind
  | _ => .fail .boolKind

/-! ## Numbers -/

/-- Removes single underscores from a text that has them neither at an end nor side by side. -/
def withoutUnderscores? (cs : List Char) : Option (List Char) :=
  if cs.head? == some '_' || cs.getLast? == some '_' || !cs.contains '_' ||
      (cs.zip (cs.drop 1)).contains ('_', '_') then none
  else some (cs.filter (· != '_'))

/-- A number in decimal, with white space around it, perhaps with underscores. -/
def numberOfText (s : String) : Checked Double :=
  let cs := s.toList
  let read (cs : List Char) := Double.parse? (trim isWhiteSpace cs)
  match (read cs).or ((withoutUnderscores? cs).bind read) with
  | some x => .ok x
  | none => .fail .numberText

/-- A whole number as one with a fraction, unless it is too large. -/
def numberOfInt (n : Int) : Checked Double :=
  let x := Double.ofInt n
  if x.isFinite then .ok x else .fail .numberKind

def number : Value → Checked Double
  | .float x => .ok x
  | .int n => numberOfInt n
  | .bool b => .ok (.ofInt (if b then 1 else 0))
  | .str s => numberOfText s
  | .bytes b => (textOfBytes b .numberText).bind numberOfText
  | _ => .fail .numberKind

/-- Digits with single underscores between them, without the underscores. -/
def groupedDigits? : List Char → Option (List Char)
  | [] => none
  | [c] => if c.isDigit then some [c] else none
  | c :: '_' :: rest => if c.isDigit then (groupedDigits? rest).map (c :: ·) else none
  | c :: rest => if c.isDigit then (groupedDigits? rest).map (c :: ·) else none

/-- A numeral without a fraction of zeros that follows its point. -/
def withoutZeroFraction (cs : List Char) : List Char :=
  let whole := cs.takeWhile (· != '.')
  match cs.dropWhile (· != '.') with
  | '.' :: z :: zeros => if (z :: zeros).all (· == '0') then whole else cs
  | _ => cs

/-- A whole number in decimal, with white space around it, perhaps with underscores and a fraction
of zeros. Leading zeros do not count towards its length, which is limited. -/
def wholeOfText (s : String) : Checked Int :=
  let (negative, body) := takeSign (trim isWhiteSpace s.toList)
  match groupedDigits? (withoutZeroFraction body) with
  | none => .fail .wholeText
  | some ds =>
      let ds := ds.dropWhile (· == '0')
      if digitLimit < ds.length then .fail .wholeSize
      else
        let n : Int := decimalDigits ds
        .ok (if negative then -n else n)

/-- A number without fraction as a whole one; it has to fit into 64 bits. -/
def wholeOfNumber (x : Double) : Checked Int :=
  if !x.isFinite then .fail .notFinite
  else
    match x.toInt? with
    | none => .fail .fractional
    | some n => if isInnerWord n then .ok n else .fail .wholeSize

/-- A whole number, a truth value, a number without fraction, or the text of a whole number. -/
def whole : Value → Checked Int
  | .int n => .ok n
  | .bool b => .ok (if b then 1 else 0)
  | .float x => wholeOfNumber x
  | .str s => wholeOfText s
  | .bytes b => (textOfBytes b .wholeText).bind wholeOfText
  | _ => .fail .wholeKind

end ApiDiscovery.Validation
