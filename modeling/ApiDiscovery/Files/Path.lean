import ApiDiscovery.Text.Blank
import ApiDiscovery.Url.Query

/-!
# Paths

A path is a sequence of names from an anchor on: the root, or the place where the program runs. A
slash parts names; empty names and names of one dot are left out when a text is read as a path. Names of
two dots stay, since what they lead to depends on the files.
-/

namespace ApiDiscovery

open Text

structure Path where
  /-- The slashes at the front; none for a path from where the program runs. -/
  anchor : String
  names : List String
deriving DecidableEq, Repr

namespace Path

def namesOf (s : List Char) : List String :=
  ((Query.splitAt '/' s).filter fun n => !n.isEmpty && n != ['.']).map String.ofList

/-- The path that a text is. Two slashes at the front are an anchor of their own; more count as one. -/
def ofText (s : String) : Path :=
  let slashes := (s.toList.takeWhile (· == '/')).length
  ⟨if slashes = 0 then "" else if slashes = 2 then "//" else "/", namesOf s.toList⟩

def render (p : Path) : String :=
  if p.anchor.isEmpty && p.names.isEmpty then "." else p.anchor ++ "/".intercalate p.names

/-- A path against another one: from there on, unless it has an anchor. -/
def join (base p : Path) : Path :=
  if p.anchor.isEmpty then ⟨base.anchor, base.names ++ p.names⟩ else p

def child (base : Path) (s : String) : Path := base.join (ofText s)

def parent (p : Path) : Path := ⟨p.anchor, p.names.dropLast⟩

def name (p : Path) : String := p.names.getLast?.getD ""

end Path

/-! ## Names of files -/

/-- The name before its last dot, and the rest. A dot at either end parts nothing. -/
def splitName (name : String) : String × String :=
  let cs := name.toList
  let after := (cs.reverse.takeWhile (· != '.')).reverse
  let stem := cs.take (cs.length - after.length - 1)
  if cs.contains '.' && !stem.isEmpty && !after.isEmpty then
    (String.ofList stem, String.ofList ('.' :: after))
  else (name, "")

def stemOf (name : String) : String := (splitName name).1

/-- The suffix of a name with its dot, in lower case as far as it is ASCII. -/
def suffixOf (name : String) : String := lowerAscii (splitName name).2

end ApiDiscovery
