/-!
# YAML tokens

A YAML text is a sequence of tokens: marks of structure, names of nodes, and scalars. The structure
that indentation expresses shows as start and end tokens of block collections.
-/

namespace ApiDiscovery.Yaml

/-- An instruction to the reader at the head of a document. -/
inductive Directive where
  | version (major minor : Nat)
  /-- A handle for tags and what it stands for. -/
  | handle (name expansion : String)
  | other
deriving DecidableEq, Repr

inductive Token where
  | directive (d : Directive)
  | documentStart
  | documentEnd
  | streamEnd
  | blockSequenceStart
  | blockMappingStart
  | blockEnd
  | flowSequenceStart
  | flowSequenceEnd
  | flowMappingStart
  | flowMappingEnd
  | flowEntry
  | blockEntry
  | key
  | value
  /-- A name that stands for the node which has it as its anchor. -/
  | reference (name : String)
  | anchor (name : String)
  /-- A tag by handle and suffix, or verbatim. -/
  | tag (handle : Option String) (suffix : String)
  /-- A scalar; a plain one stands without quotes or indicator. -/
  | scalar (text : String) (plain : Bool)
deriving DecidableEq, Repr

/-- The end of the text, as a character that no text holds. -/
def endMark : Char := '\x00'

def isBreak (c : Char) : Bool :=
  c == '\r' || c == '\n' || c == '\x85' || c == '\u2028' || c == '\u2029'

def isBreakOrEnd (c : Char) : Bool := isBreak c || c == endMark

def isSpaceOrEnd (c : Char) : Bool := c == ' ' || isBreakOrEnd c

def isBlankOrEnd (c : Char) : Bool := c == '\t' || isSpaceOrEnd c

/-- The characters of names of anchors, handles and directives. -/
def isWordChar (c : Char) : Bool := c.isAlphanum || c == '-' || c == '_'

/-- The characters that a text may hold. -/
def isAllowed (c : Char) : Bool :=
  let n := c.toNat
  n == 0x09 || n == 0x0a || n == 0x0d || (0x20 ≤ n && n ≤ 0x7e) || n == 0x85 ||
    (0xa0 ≤ n && n ≤ 0xd7ff) || (0xe000 ≤ n && n ≤ 0xfffd) || 0x10000 ≤ n

end ApiDiscovery.Yaml
