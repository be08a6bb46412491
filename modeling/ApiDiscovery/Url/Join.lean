import ApiDiscovery.Text.Blank

/-!
# Joining URLs

`joinUrl base path` puts exactly one slash between the two. An empty part adds nothing, so the
empty text is neutral on either side.
-/

namespace ApiDiscovery

open Text

def isSlash (c : Char) : Bool := c == '/'

/-- Joins two sequences of characters with one slash between them. -/
def joinChars (base path : List Char) : List Char :=
  if path.isEmpty then base
  else if base.isEmpty then path
  else trimRight isSlash base ++ '/' :: path.dropWhile isSlash

/-- Joins two texts with one slash between them. -/
def joinUrl (base path : String) : String := String.ofList (joinChars base.toList path.toList)

end ApiDiscovery
