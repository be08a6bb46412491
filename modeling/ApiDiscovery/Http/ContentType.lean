import ApiDiscovery.Text.Blank

/-!
# The character set of a content type

A content type lists parameters behind semicolons, each a name with a value; a value may be quoted,
and a semicolon between quotes parts nothing. `charset?` is the value of the parameter of that name.
-/

namespace ApiDiscovery.Http.ContentType

open Text

/-- How many quotes a text has that no backslash precedes. -/
def openQuotes : List Char → Nat
  | '\\' :: '"' :: rest => openQuotes rest
  | '"' :: rest => openQuotes rest + 1
  | _ :: rest => openQuotes rest
  | [] => 0

/-- The parts between semicolons that stand outside of quotes; `part` is the open one. -/
def partsFrom (part : List Char) : List Char → List (List Char)
  | [] => [part]
  | c :: rest =>
      if c == ';' && openQuotes part % 2 == 0 then part :: partsFrom [] rest
      else partsFrom (part ++ [c]) rest

def parts (s : List Char) : List (List Char) := partsFrom [] s

/-- A text in quotes without its backslashes. -/
def unescape : List Char → List Char
  | '\\' :: '\\' :: rest => '\\' :: unescape rest
  | '\\' :: '"' :: rest => '"' :: unescape rest
  | c :: rest => c :: unescape rest
  | [] => []

/-- A value without its quotes or angle brackets. -/
def unquote (s : List Char) : List Char :=
  let within (first last : Char) := 1 < s.length && s.head? == some first && s.getLast? == some last
  let inner := (s.drop 1).dropLast
  if within '"' '"' then unescape inner
  else if within '<' '>' then inner
  else s

/-- A parameter: its name in lower case, and its value, empty where there is none. -/
def parameter (part : List Char) : List Char × List Char :=
  let part := trim isBlank part
  ((trim isBlank (part.takeWhile (· != '='))).map Char.toLower,
    unquote (trim isBlank ((part.dropWhile (· != '=')).drop 1)))

/-- The name of the character set that a content type gives, in lower case. One beyond ASCII counts as
none. -/
def charset? (contentType : String) : Option String :=
  let ps := (parts contentType.toList).map parameter
  match ps.lookup "charset".toList with
  | some value =>
      if value.all fun c => c.toNat < 0x80 then some (String.ofList (value.map Char.toLower)) else none
  | none => none

end ApiDiscovery.Http.ContentType
