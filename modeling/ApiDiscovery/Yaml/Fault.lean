import ApiDiscovery.Calendar
import ApiDiscovery.Number.Numeral
import ApiDiscovery.Text.Quoted

/-!
# What is amiss in a YAML text

A text is refused for its form, or for what a scalar in it denotes. The form covers characters,
tokens, their order and the kinds of nodes; it is `Fault.malformed` with one of the causes of
`Malformed`. Every other fault is about the denotation of one scalar and has words of its own,
`Fault.message`.
-/

namespace ApiDiscovery.Yaml

open Text

/-- What is amiss in the form of a text. -/
inductive Malformed where
  | character
  | token
  | simpleKey
  | indentation
  | directive
  | anchor
  | tag
  | blockScalar
  | flowScalar
  | documentMark
  | flowEnd
  | order
  | secondDocument
  | duplicateAnchor
  | undefinedAlias
  | tagHandle
  | unknownTag
  | scalarExpected
  | sequenceExpected
  | mappingExpected
  | singleEntryExpected
  | merge
  | unhashableKey
  | base64
deriving DecidableEq, Repr

/-- Why a text is refused. -/
inductive Fault where
  | malformed (what : Malformed)
  /-- A character beyond the last one, by a number that a machine word may not even hold. -/
  | noSuchCharacter (wordSized : Bool)
  /-- A word that stands for no truth value, in lower case. -/
  | noTruthValue (word : String)
  /-- A number of no characters at all. -/
  | emptyNumber
  /-- A text that is no whole number in a base. -/
  | notWhole (base : Nat) (text : String)
  /-- A whole number of more decimal digits than are converted. -/
  | tooLong (digits : Nat)
  /-- A text that is no number. -/
  | notNumber (text : String)
  /-- A place of a fractional number in base sixty that no fractional number reaches. -/
  | tooLarge
  /-- A text that is no date. -/
  | notTimestamp
  /-- A date that is written as a mapping. -/
  | timestampMapping
  /-- A default value that leads back to the mapping whose default it is. -/
  | endlessDefault
  | calendar (fault : CalendarFault)
deriving DecidableEq, Repr

def tooLongMessage (digits : Nat) : String :=
  "Exceeds the limit (" ++ toString Number.digitLimit ++
    " digits) for integer string conversion: value has " ++ toString digits ++
    " digits; use sys.set_int_max_str_digits() to increase the limit"

/-- The words for what a scalar fails to denote. A malformed text has none here. -/
def Fault.message : Fault → String
  | .malformed _ => ""
  | .noSuchCharacter true => "chr() arg not in range(0x110000)"
  | .noSuchCharacter false => "Python int too large to convert to C int"
  | .noTruthValue word => quoted word
  | .emptyNumber => "string index out of range"
  | .notWhole base text =>
      "invalid literal for int() with base " ++ toString base ++ ": " ++
        String.ofList ((quoted text).toList.take 200)
  | .tooLong n => tooLongMessage n
  | .notNumber text => "could not convert string to float: " ++ quoted text
  | .tooLarge => "int too large to convert to float"
  | .notTimestamp => "'NoneType' object has no attribute 'groupdict'"
  | .timestampMapping => "expected string or bytes-like object, got 'list'"
  | .endlessDefault => "maximum recursion depth exceeded"
  | .calendar f => f.message

end ApiDiscovery.Yaml
