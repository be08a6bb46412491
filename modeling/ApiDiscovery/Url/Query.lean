import ApiDiscovery.Url.Percent

/-!
# Query strings

A query string lists pairs of a name and a value. A space is written as a plus sign; all else that is
not unreserved is written by number. `Query.parse` reads the pairs back.
-/

namespace ApiDiscovery.Query

open Text

def encode (s : List Char) : List Char :=
  s.flatMap fun c =>
    if c == ' ' then ['+'] else if Percent.isUnreserved c then [c] else Percent.char c

def pair (p : String × String) : List Char := encode p.1.toList ++ '=' :: encode p.2.toList

def render (pairs : List (String × String)) : String :=
  String.ofList (['&'].intercalate (pairs.map pair))

def decode (s : List Char) : List Char :=
  Percent.decode (s.map fun c => if c == '+' then ' ' else c)

/-- The parts of a text between the occurrences of a character. -/
def splitAt (sep : Char) (s : List Char) : List (List Char) :=
  s.foldr (fun c parts =>
    if c == sep then [] :: parts
    else
      match parts with
      | [] => [[c]]
      | p :: rest => (c :: p) :: rest) [[]]

/-- A pair from its written form; the first equals sign parts it. -/
def parsePair (s : List Char) : String × String :=
  (String.ofList (decode (s.takeWhile (· != '='))),
    String.ofList (decode ((s.dropWhile (· != '=')).drop 1)))

def parse (s : String) : List (String × String) :=
  if s.isEmpty then [] else (splitAt '&' s.toList).map parsePair

end ApiDiscovery.Query
