import ApiDiscovery.Value
import ApiDiscovery.Yaml.Scalar

/-!
# YAML nodes

A document is a graph of nodes (`Graph`): scalars, sequences and mappings, each with a tag that says
what it denotes. A collection has the numbers of the nodes in it, so that a node can stand at several
places, and even somewhere in itself.

A plain scalar without a tag gets the one that its text calls for (`impliedTag`): the words for null
and truth, the forms of whole and fractional numbers, dates and times, the mark of a merge and the
mark of a default value; any other text is a string.
-/

namespace ApiDiscovery.Yaml

/-- What a node denotes. -/
inductive Tag where
  | null
  | bool
  | int
  | float
  | binary
  | timestamp
  | str
  | seq
  | map
  | set
  | orderedMap
  | pairs
  | merge
  | default
  | other (uri : String)
deriving DecidableEq, Repr

/-- The first part of the tags that the format defines. -/
def Tag.core : String := "tag:yaml.org,2002:"

def Tag.ofUri (uri : String) : Tag :=
  if uri == core ++ "null" then .null
  else if uri == core ++ "bool" then .bool
  else if uri == core ++ "int" then .int
  else if uri == core ++ "float" then .float
  else if uri == core ++ "binary" then .binary
  else if uri == core ++ "timestamp" then .timestamp
  else if uri == core ++ "str" then .str
  else if uri == core ++ "seq" then .seq
  else if uri == core ++ "map" then .map
  else if uri == core ++ "set" then .set
  else if uri == core ++ "omap" then .orderedMap
  else if uri == core ++ "pairs" then .pairs
  else if uri == core ++ "merge" then .merge
  else if uri == core ++ "value" then .default
  else .other uri

/-- The tags of collections, which are made empty and filled later. -/
def Tag.isCollection : Tag → Bool
  | .seq | .map | .set | .orderedMap | .pairs => true
  | _ => false

/-- A collection of the tag as it is made, with nothing in it. -/
def Tag.emptyValue : Tag → Value
  | .map => .map []
  | .set => .set []
  | _ => .list []

/-! ## Nodes -/

/-- The number of a node in its document. -/
abbrev NodeId := Nat

/-- A key of a mapping with its value. -/
abbrev NodeEntry := NodeId × NodeId

inductive Node where
  | scalar (tag : Tag) (text : String)
  | sequence (tag : Tag) (items : List NodeId)
  | mapping (tag : Tag) (entries : List NodeEntry)
deriving DecidableEq, Repr

namespace Node

def tag : Node → Tag
  | scalar t _ => t
  | sequence t _ => t
  | mapping t _ => t

def withTag (t : Tag) : Node → Node
  | scalar _ text => scalar t text
  | sequence _ items => sequence t items
  | mapping _ entries => mapping t entries

/-- The node that stands where nothing is written. -/
def empty : Node := scalar .null ""

end Node

/-- The nodes of a document by number, and the number of the outermost one. -/
structure Graph where
  nodes : List Node
  root : NodeId

namespace Graph

def node? (g : Graph) (i : NodeId) : Option Node := g.nodes[i]?

/-- Whether a node has the tag. -/
def hasTag (g : Graph) (t : Tag) (i : NodeId) : Bool := (g.node? i).any (·.tag == t)

/-- The entries of a mapping. -/
def entries (g : Graph) (i : NodeId) : List NodeEntry :=
  match g.node? i with
  | some (.mapping _ es) => es
  | _ => []

/-- Puts a node in the place of another. -/
def put (g : Graph) (i : NodeId) (n : Node) : Graph := { g with nodes := g.nodes.set i n }

def setEntries (g : Graph) (i : NodeId) (es : List NodeEntry) : Graph :=
  match g.node? i with
  | some (.mapping t _) => g.put i (.mapping t es)
  | _ => g

end Graph

/-! ## Implied tags -/

def boolWords : List String :=
  ["yes", "Yes", "YES", "no", "No", "NO", "true", "True", "TRUE", "false", "False", "FALSE",
    "on", "On", "ON", "off", "Off", "OFF"]

def nullWords : List String := ["~", "null", "Null", "NULL", ""]

def unsigned : List Char → List Char
  | '+' :: rest => rest
  | '-' :: rest => rest
  | rest => rest

/-- A digit or an underscore. -/
def isDigitOrGap (c : Char) : Bool := c.isDigit || c == '_'

/-- Groups of base sixty: each a colon with one or two digits, the first of two at most five. The
rest behind the longest sequence of them, if there is one. -/
def sixtyGroups : List Char → Bool × List Char
  | ':' :: a :: b :: rest =>
      if '0' ≤ a && a ≤ '5' && b.isDigit then (true, (sixtyGroups rest).2)
      else if a.isDigit then (true, (sixtyGroups (b :: rest)).2)
      else (false, ':' :: a :: b :: rest)
  | [':', a] => if a.isDigit then (true, []) else (false, [':', a])
  | cs => (false, cs)

/-- The forms of whole numbers: binary, octal, decimal, hexadecimal, and of base sixty. -/
def isIntForm (cs : List Char) : Bool :=
  match unsigned cs with
  | '0' :: 'b' :: ds => !ds.isEmpty && ds.all fun c => c == '0' || c == '1' || c == '_'
  | '0' :: 'x' :: ds =>
      !ds.isEmpty && ds.all fun c => c.isDigit || ('a' ≤ c && c ≤ 'f') || ('A' ≤ c && c ≤ 'F') || c == '_'
  | '0' :: ds => ds.all fun c => ('0' ≤ c && c ≤ '7') || c == '_'
  | c :: ds =>
      c.isDigit &&
        (ds.all isDigitOrGap ||
          (let (found, rest) := sixtyGroups (ds.dropWhile isDigitOrGap)
           found && rest.isEmpty))
  | [] => false

def isExponentForm : List Char → Bool
  | [] => true
  | e :: sign :: ds =>
      (e == 'e' || e == 'E') && (sign == '+' || sign == '-') && !ds.isEmpty && ds.all Char.isDigit
  | _ => false

/-- The forms of fractional numbers: with a point between digits or before them, of base sixty, and
the words for infinity and NaN. -/
def isFloatForm (cs : List Char) : Bool :=
  let body := unsigned cs
  let text := String.ofList body
  [".inf", ".Inf", ".INF"].contains text ||
  [".nan", ".NaN", ".NAN"].contains (String.ofList cs) ||
  (match body with
    | c :: rest =>
        c.isDigit &&
          (match rest.dropWhile isDigitOrGap with
            | '.' :: tail => isExponentForm (tail.dropWhile isDigitOrGap)
            | tail =>
                match sixtyGroups tail with
                | (true, '.' :: frac) => frac.all isDigitOrGap
                | _ => false)
    | [] => false) ||
  (match cs with
    | '.' :: c :: rest => c.isDigit && isExponentForm (rest.dropWhile isDigitOrGap)
    | _ => false)

/-- The parts of a date with or without a time, as they are written. -/
structure TimestampParts where
  year : List Char
  month : List Char
  day : List Char
  hour : List Char
  minute : List Char
  second : List Char
  fraction : List Char
  /-- Nothing, the letter for universal time, or a signed offset in hours and minutes. -/
  zone : Option (Option (Bool × List Char × List Char))
deriving DecidableEq, Repr

/-- Up to two digits at the front, at least one. -/
def oneOrTwoDigits? : List Char → Option (List Char × List Char)
  | a :: b :: rest =>
      if a.isDigit then if b.isDigit then some ([a, b], rest) else some ([a], b :: rest) else none
  | [a] => if a.isDigit then some ([a], []) else none
  | [] => none

def twoDigits? : List Char → Option (List Char × List Char)
  | a :: b :: rest => if a.isDigit && b.isDigit then some ([a, b], rest) else none
  | _ => none

def fourDigits? (cs : List Char) : Option (List Char × List Char) := do
  let (a, rest) ← twoDigits? cs
  let (b, rest) ← twoDigits? rest
  return (a ++ b, rest)

/-- Drops one character, which has to be there. -/
def expect? (c : Char) : List Char → Option (List Char)
  | d :: rest => if c == d then some rest else none
  | [] => none

def isGap (c : Char) : Bool := c == ' ' || c == '\t'

/-- The end of the text, before a line feed or not. -/
def atTextEnd (cs : List Char) : Bool := cs.isEmpty || cs == ['\n']

def zone? (cs : List Char) : Option (Option (Option (Bool × List Char × List Char))) :=
  if atTextEnd cs then some none
  else
    match cs.dropWhile isGap with
    | 'Z' :: rest => if atTextEnd rest then some (some none) else none
    | sign :: rest => do
        if sign != '+' && sign != '-' then none
        else
          let (hours, rest) ← oneOrTwoDigits? rest
          if atTextEnd rest then some (some (some (sign == '-', hours, [])))
          else
            let (minutes, rest) ← twoDigits? (← expect? ':' rest)
            if atTextEnd rest then some (some (some (sign == '-', hours, minutes))) else none
    | [] => none

/-- The time of day and the zone, to the end of the text. -/
def timeOfDay? (parts : TimestampParts) (cs : List Char) : Option TimestampParts := do
  let (hour, rest) ← oneOrTwoDigits? cs
  let (minute, rest) ← twoDigits? (← expect? ':' rest)
  let (second, rest) ← twoDigits? (← expect? ':' rest)
  let (fraction, rest) :=
    match rest with
    | '.' :: rest => (rest.takeWhile Char.isDigit, rest.dropWhile Char.isDigit)
    | rest => ([], rest)
  let zone ← zone? rest
  return { parts with hour, minute, second, fraction, zone }

/-- The parts of a date alone, or of a date with a time behind the letter T or blanks. -/
def timestampParts? (cs : List Char) : Option TimestampParts := do
  let (year, rest) ← fourDigits? cs
  let (month, rest) ← oneOrTwoDigits? (← expect? '-' rest)
  let (day, rest) ← oneOrTwoDigits? (← expect? '-' rest)
  let parts : TimestampParts := ⟨year, month, day, [], [], [], [], none⟩
  if atTextEnd rest then return parts
  else
    match rest with
    | c :: more =>
        if c == 'T' || c == 't' then timeOfDay? parts more
        else if isGap c then timeOfDay? parts (more.dropWhile isGap)
        else none
    | [] => none

/-- The forms of dates that need no tag: a date alone has two digits for month and day. -/
def isTimestampForm (cs : List Char) : Bool :=
  match timestampParts? cs with
  | none => false
  | some p => !p.hour.isEmpty || (p.month.length == 2 && p.day.length == 2)

/-- A text without the line feed at its end, unless it is nothing else. -/
def withoutEndFeed (text : String) : String :=
  let cs := text.toList
  if 1 < cs.length && cs.getLast? == some '\n' then String.ofList cs.dropLast else text

/-- What a text denotes that has no tag; a line feed at its end does not count. -/
def impliedTag (text : String) : Tag :=
  let word := withoutEndFeed text
  let cs := word.toList
  if boolWords.contains word then .bool
  else if isFloatForm cs then .float
  else if isIntForm cs then .int
  else if word == "<<" then .merge
  else if nullWords.contains word then .null
  else if isTimestampForm text.toList then .timestamp
  else if word == "=" then .default
  else .str

end ApiDiscovery.Yaml
