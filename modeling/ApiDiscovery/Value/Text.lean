import ApiDiscovery.Number.Decimal
import ApiDiscovery.Number.Numeral
import ApiDiscovery.Text.Quoted
import ApiDiscovery.Value

/-!
# The text of a value

`Value.literal` writes a value so that its kind shows: texts are quoted, containers are bracketed.
`Value.text` is the same but for a text, which stands for itself, and for dates and times.

A whole number of more than `digitLimit` digits is not written, so not all values have a text where one is
asked for: see `Value.isWritable`.
-/

namespace ApiDiscovery

open Number Text

/-- Whether a whole number has few enough digits to be written. -/
def Number.isWritable (n : Int) : Bool := digitCount n.natAbs ≤ digitLimit

/-- What is said of a number with more digits. -/
def Number.unwritableMessage : String :=
  "Exceeds the limit (" ++ toString digitLimit ++
    " digits) for integer string conversion; use sys.set_int_max_str_digits() to increase the limit"

/-- Numbers are positional from `0.0001` up to below `1e16`; an exponent has at least two digits. -/
def Value.numberLayout : Layout := ⟨-3, 16, 2, "inf", "nan"⟩

def literalOffset (s : Int) : String :=
  if s = 0 then "datetime.timezone.utc" else "datetime.timezone(" ++ renderSpan s ++ ")"

/-- A moment by its fields; seconds and microseconds only as far as they are not zero. -/
def literalTimestamp (t : Timestamp) : String :=
  let fields := [t.date.year, t.date.month, t.date.day, t.hour, t.minute] ++
    (if t.microsecond = 0 then if t.second = 0 then [] else [t.second]
      else [t.second, t.microsecond])
  "datetime.datetime(" ++ ", ".intercalate (fields.map toString) ++
    (t.offset.map fun s => ", tzinfo=" ++ literalOffset s).getD "" ++ ")"

namespace Value

mutual

def literal : Value → String
  | null => "None"
  | bool b => if b then "True" else "False"
  | int n => toString n
  | float x => numberLayout.render x
  | str s => quoted s
  | bytes b => quotedBytes b
  | date d => "datetime.date(" ++ ", ".intercalate ([d.year, d.month, d.day].map toString) ++ ")"
  | timestamp t => literalTimestamp t
  | list items => "[" ++ ", ".intercalate (literals items) ++ "]"
  | tuple [item] => "(" ++ literal item ++ ",)"
  | tuple items => "(" ++ ", ".intercalate (literals items) ++ ")"
  | set [] => "set()"
  | set items => "\x7b" ++ ", ".intercalate (literals items) ++ "\x7d"
  | map entries => "\x7b" ++ ", ".intercalate (literalEntries entries) ++ "\x7d"

def literals : List Value → List String
  | [] => []
  | v :: rest => literal v :: literals rest

def literalEntries : List (Value × Value) → List String
  | [] => []
  | (k, v) :: rest => (literal k ++ ": " ++ literal v) :: literalEntries rest

end

def text : Value → String
  | str s => s
  | date d => d.render
  | timestamp t => t.render " "
  | v => v.literal

mutual

/-- Whether all whole numbers in a value can be written. -/
def isWritable : Value → Bool
  | int n => Number.isWritable n
  | list items | tuple items | set items => areWritable items
  | map entries => entriesAreWritable entries
  | _ => true

def areWritable : List Value → Bool
  | [] => true
  | v :: rest => isWritable v && areWritable rest

def entriesAreWritable : List (Value × Value) → Bool
  | [] => true
  | (k, v) :: rest => isWritable k && isWritable v && entriesAreWritable rest

end

end Value

end ApiDiscovery
