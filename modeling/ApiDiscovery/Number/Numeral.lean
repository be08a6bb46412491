import ApiDiscovery.Number.Decimal
import ApiDiscovery.Text.Blank
import ApiDiscovery.Text.Digit

/-!
# Reading numerals

The texts that denote numbers. `Decimal.parse?` reads an unsigned decimal numeral, `Double.parse?`
adds a sign and the words for infinity and NaN. `Double.read?` is the liberal form: blank space
around the numeral, single underscores between digits, digits of any script. Whole numbers are read
in a given base by `wholeNumber?`.
-/

namespace ApiDiscovery.Number

open Text

/-- The number that a sequence of digits in a base denotes. -/
def ofDigits (base : Nat) (ds : List Nat) : Nat := ds.foldl (fun n d => n * base + d) 0

def decimalDigits (cs : List Char) : Nat := ofDigits 10 (cs.map fun c => c.toNat - 0x30)

/-- A signed exponent after its mark, to the end of the text. -/
def exponent? (cs : List Char) : Option Int :=
  let (negative, ds) :=
    match cs with
    | '+' :: rest => (false, rest)
    | '-' :: rest => (true, rest)
    | rest => (false, rest)
  if ds.isEmpty || !ds.all Char.isDigit then none
  else
    let n : Int := decimalDigits ds
    some (if negative then -n else n)

/-- Digits with a point anywhere or nowhere, at least one digit, and perhaps an exponent. -/
def Decimal.parse? (cs : List Char) : Option Decimal :=
  let whole := cs.takeWhile Char.isDigit
  let rest := cs.dropWhile Char.isDigit
  let (fraction, rest) :=
    match rest with
    | '.' :: rest => (rest.takeWhile Char.isDigit, rest.dropWhile Char.isDigit)
    | _ => ([], rest)
  if whole.isEmpty && fraction.isEmpty then none
  else
    let digits := decimalDigits (whole ++ fraction)
    match rest with
    | [] => some ⟨digits, -fraction.length⟩
    | 'e' :: exp | 'E' :: exp => (exponent? exp).map fun e => ⟨digits, e - fraction.length⟩
    | _ => none

def takeSign : List Char → Bool × List Char
  | '+' :: rest => (false, rest)
  | '-' :: rest => (true, rest)
  | rest => (false, rest)

/-- A decimal numeral or a word for infinity or NaN, in either case, with a sign or without. -/
def Double.parse? (cs : List Char) : Option Double :=
  let (negative, body) := takeSign cs
  let word := String.ofList (body.map Char.toLower)
  if word == "inf" || word == "infinity" then some (.infinite negative)
  else if word == "nan" then some .nan
  else (Decimal.parse? body).map (Double.ofDecimal negative)

/-- Removes underscores, each of which has to stand between two digits; `before` says whether a
digit precedes. -/
def dropUnderscores? (before : Bool) : List Char → Option (List Char)
  | [] => some []
  | '_' :: rest =>
      if before && (rest.head?.map Char.isDigit).getD false then dropUnderscores? false rest
      else none
  | c :: rest => (dropUnderscores? c.isDigit rest).map (c :: ·)

/-- A digit of any script as the ASCII digit of its value. -/
def asciiDigit (c : Char) : Char :=
  match digitValue? c with
  | some n => Char.ofNat (0x30 + n)
  | none => c

def Double.read? (s : String) : Option Double :=
  (dropUnderscores? false ((trim isBlank s.toList).map asciiDigit)).bind Double.parse?

/-- The value of a digit of any script, or of a letter, in a base. -/
def baseDigit? (base : Nat) (c : Char) : Option Nat :=
  ((digitValue? c).or (alnumValue? c)).filter (· < base)

/-- The letter that may follow a zero to announce a base. -/
def baseMark? : Nat → Option Char
  | 2 => some 'b'
  | 8 => some 'o'
  | 16 => some 'x'
  | _ => none

def dropBaseMark (base : Nat) : List Char → List Char
  | '0' :: c :: rest => if baseMark? base == some c.toLower then rest else '0' :: c :: rest
  | cs => cs

/-- Why a text denotes no whole number. -/
inductive WholeFault where
  | malformed
  /-- A decimal numeral of more digits than are converted. -/
  | tooLong (digits : Nat)
deriving DecidableEq, Repr

/-- The greatest number of decimal digits that are converted. -/
def digitLimit : Nat := 4300

/-- Blank space, a sign, and digits of the base. -/
def wholeNumber? (base : Nat) (cs : List Char) : Except WholeFault Int :=
  let (negative, body) := takeSign (trim isBlank cs)
  let ds := dropBaseMark base body
  match ds.mapM (baseDigit? base) with
  | none => .error .malformed
  | some [] => .error .malformed
  | some values =>
      if base == 10 && digitLimit < values.length then .error (.tooLong values.length)
      else
        let n : Int := ofDigits base values
        .ok (if negative then -n else n)

end ApiDiscovery.Number
