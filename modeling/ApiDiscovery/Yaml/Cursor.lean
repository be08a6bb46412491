import ApiDiscovery.Yaml.Token

/-!
# A position in a YAML text

A `Cursor` is the rest of a text with its distance from the start, its line and its column. A line
ends at each break, a carriage return before a line feed excepted; a byte order mark has no width.
-/

namespace ApiDiscovery.Yaml

structure Cursor where
  rest : List Char
  index : Nat
  line : Nat
  column : Nat

namespace Cursor

def start (text : List Char) : Cursor := ⟨text, 0, 0, 0⟩

/-- The character `n` places on, or the end mark. -/
def peek (k : Cursor) (n : Nat) : Char := (k.rest[n]?).getD endMark

def here (k : Cursor) : Char := k.rest.headD endMark

/-- Passes the character `c`, which leaves `rest`. -/
def pass (k : Cursor) (c : Char) (rest : List Char) : Cursor :=
  if c == '\n' || c == '\x85' || c == '\u2028' || c == '\u2029' ||
      (c == '\r' && rest.head? != some '\n') then
    ⟨rest, k.index + 1, k.line + 1, 0⟩
  else if c == '\ufeff' then ⟨rest, k.index + 1, k.line, k.column⟩
  else ⟨rest, k.index + 1, k.line, k.column + 1⟩

def next (k : Cursor) : Cursor :=
  match k.rest with
  | [] => k
  | c :: rest => k.pass c rest

def forward (k : Cursor) : Nat → Cursor
  | 0 => k
  | n + 1 => k.next.forward n

/-- The longest run of characters of a class. -/
def run (k : Cursor) (p : Char → Bool) : List Char := k.rest.takeWhile p

/-- Passes the longest run of characters of a class. -/
def skip (k : Cursor) (p : Char → Bool) : Cursor := k.forward (k.run p).length

/-- Passes spaces up to a column. -/
def skipTo (k : Cursor) (column : Nat) : Cursor :=
  k.forward (min (column - k.column) (k.run (· == ' ')).length)

/-- Whether a document mark stands here: three equal characters before a blank. -/
def atMark (k : Cursor) : Bool :=
  match k.rest.take 3 with
  | ['-', '-', '-'] | ['.', '.', '.'] => isBlankOrEnd (k.peek 3)
  | _ => false

/-- Passes a line break and says what it stands for: a line feed, or itself for the separators of
lines and paragraphs. -/
def lineBreak (k : Cursor) : List Char × Cursor :=
  let c := k.here
  if c == '\r' || c == '\n' || c == '\x85' then
    (['\n'], if k.rest.take 2 == ['\r', '\n'] then k.forward 2 else k.next)
  else if c == '\u2028' || c == '\u2029' then ([c], k.next)
  else ([], k)

end Cursor

end ApiDiscovery.Yaml
