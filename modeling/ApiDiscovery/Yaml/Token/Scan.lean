import ApiDiscovery.Text.Utf8
import ApiDiscovery.Yaml.Scalar

/-!
# The tokens of a YAML text

`Token.scan` cuts a text into tokens. Most tokens are read off the character at the cursor; two
things need memory. Indentation opens and closes block collections, so the columns of the open ones
are kept. And what looks like a scalar may turn out to be a key when a colon follows it on the same
line within 1024 characters, so the place where such a key may begin is kept for each level of
brackets, and its tokens are put in there later.

A fault ends the tokens; those before it stand.
-/

namespace ApiDiscovery.Yaml

open Text

/-- A place where a key may have begun. It is required to be one where only a key can stand. -/
structure KeyPlace where
  token : Nat
  required : Bool
  index : Nat
  line : Nat
  column : Nat
deriving DecidableEq, Repr

/-- The tokens read so far, and what decides about the next one. -/
structure ScanState where
  cursor : Cursor
  tokens : Array Token
  /-- The column of the innermost block collection; -1 outside all of them. -/
  indent : Int
  /-- The columns of the block collections around it. -/
  outer : List Int
  /-- The number of open brackets. -/
  flow : Nat
  keyAllowed : Bool
  /-- The places where keys may have begun, by number of open brackets. -/
  keys : List (Nat × KeyPlace)

namespace ScanState

def start (text : List Char) : ScanState := ⟨Cursor.start text, #[], -1, [], 0, true, []⟩

def emit (s : ScanState) (t : Token) : ScanState := { s with tokens := s.tokens.push t }

def allowKey (s : ScanState) (b : Bool) : ScanState := { s with keyAllowed := b }

def goto (s : ScanState) (k : Cursor) : ScanState := { s with cursor := k }

def inFlow (s : ScanState) : Bool := s.flow != 0

/-- Forgets the places that the cursor has left behind. -/
def dropStaleKeys (s : ScanState) : Except Fault ScanState :=
  let stale (p : Nat × KeyPlace) :=
    p.2.line != s.cursor.line || 1024 < s.cursor.index - p.2.index
  if s.keys.any fun p => stale p && p.2.required then refuse .simpleKey
  else .ok { s with keys := s.keys.filter fun p => !stale p }

def keyHere? (s : ScanState) : Option KeyPlace := s.keys.lookup s.flow

def eraseKey (s : ScanState) : ScanState :=
  { s with keys := s.keys.filter fun p => p.1 != s.flow }

def forgetKey (s : ScanState) : Except Fault ScanState :=
  if (s.keyHere?.map (·.required)).getD false then refuse .simpleKey else .ok s.eraseKey

/-- Keeps the present place as one where a key may begin. -/
def rememberKey (s : ScanState) : Except Fault ScanState := do
  if s.keyAllowed then
    let s ← s.forgetKey
    let k := s.cursor
    let place : KeyPlace :=
      ⟨s.tokens.size, !s.inFlow && s.indent == (k.column : Int), k.index, k.line, k.column⟩
    return { s with keys := (s.flow, place) :: s.keys }
  else return s

/-- Closes the block collections right of a column. -/
def closeBlocks (column : Int) : Int → List Int → Array Token → Int × List Int × Array Token
  | indent, [], ts => (indent, [], ts)
  | indent, o :: os, ts =>
      if column < indent then closeBlocks column o os (ts.push .blockEnd) else (indent, o :: os, ts)

/-- Closes the block collections right of a column; between brackets there are none. -/
def unwind (s : ScanState) (column : Int) : ScanState :=
  if s.inFlow then s
  else
    let (indent, outer, ts) := closeBlocks column s.indent s.outer s.tokens
    { s with indent := indent, outer := outer, tokens := ts }

/-- Opens a block collection at a column right of the innermost one. -/
def openBlock (s : ScanState) (column : Nat) : Bool × ScanState :=
  if s.indent < column then
    (true, { s with indent := column, outer := s.indent :: s.outer })
  else (false, s)

def insert (s : ScanState) (i : Nat) (t : Token) : ScanState :=
  { s with tokens := (s.tokens.extract 0 i).push t ++ s.tokens.extract i s.tokens.size }

/-! ## Space between tokens -/

/-- Passes spaces, comments and line breaks. A line break allows a key again. -/
def skipFiller : Nat → ScanState → ScanState
  | 0, s => s
  | fuel + 1, s =>
      let k := s.cursor.skip (· == ' ')
      let k := if k.here == '#' then k.skip (!isBreakOrEnd ·) else k
      if isBreak k.here then
        let s := s.goto k.lineBreak.2
        skipFiller fuel (if s.inFlow then s else s.allowKey true)
      else s.goto k

def toNextToken (s : ScanState) : ScanState :=
  let k := s.cursor
  let k := if k.index == 0 && k.here == '\ufeff' then k.next else k
  skipFiller (k.rest.length + 1) (s.goto k)

/-! ## Names: directives, anchors and tags -/

def versionNumber (k : Cursor) : Except Fault (Nat × Cursor) :=
  let ds := k.run Char.isDigit
  if ds.isEmpty then refuse .directive
  else if Number.digitLimit < ds.length then .error (.tooLong ds.length)
  else .ok (ds.foldl (fun n c => n * 10 + (c.toNat - 0x30)) 0, k.forward ds.length)

/-- A handle of tags: an exclamation mark, or a word between two. -/
def tagHandle (what : Malformed) (k : Cursor) : Except Fault (String × Cursor) :=
  if k.here != '!' then refuse what
  else if k.peek 1 == ' ' then .ok ("!", k.next)
  else
    let word := k.next.run isWordChar
    if k.peek (word.length + 1) == '!' then
      .ok (String.ofList ('!' :: word ++ ['!']), k.forward (word.length + 2))
    else refuse what

def isUriChar (c : Char) : Bool :=
  c.isAlphanum || "-;/?:@&=+$,_.!~*'()[]%".toList.contains c

/-- Bytes by number, each behind a percent sign. -/
def uriBytes (what : Malformed) : Nat → Cursor → Except Fault (List UInt8 × Cursor)
  | 0, k => .ok ([], k)
  | fuel + 1, k =>
      if k.here == '%' then do
        let some n := hexNumber? k.next 2 | refuse what
        let (bs, k) ← uriBytes what fuel (k.forward 3)
        return (UInt8.ofNat n :: bs, k)
      else .ok ([], k)

/-- The text of a tag; numbered bytes stand for the text that they encode. -/
def uriText (what : Malformed) : Nat → Cursor → Except Fault (List Char × Cursor)
  | 0, k => .ok ([], k)
  | fuel + 1, k =>
      if k.here == '%' then do
        let (bytes, k) ← uriBytes what (k.rest.length + 1) k
        match Utf8.decode? bytes with
        | .error _ => refuse what
        | .ok cs =>
            let (more, k) ← uriText what fuel k
            return (cs ++ more, k)
      else
        let run := k.run fun c => isUriChar c && c != '%'
        if run.isEmpty then .ok ([], k)
        else do
          let (more, k) ← uriText what fuel (k.forward run.length)
          return (run ++ more, k)

def tagUri (what : Malformed) (k : Cursor) : Except Fault (String × Cursor) := do
  if !isUriChar k.here then refuse what
  else
    let (cs, k) ← uriText what (k.rest.length + 1) k
    return (String.ofList cs, k)

/-- A directive from its percent sign on, through the end of its line. -/
def directive (k : Cursor) : Except Fault (Directive × Cursor) := do
  let k := k.next
  let name := k.run isWordChar
  let k := k.forward name.length
  if name.isEmpty || !isSpaceOrEnd k.here then refuse .directive
  else
    let (d, k) ←
      match String.ofList name with
      | "YAML" => do
          let (major, k) ← versionNumber (k.skip (· == ' '))
          if k.here != '.' then refuse .directive
          else
            let (minor, k) ← versionNumber k.next
            if isSpaceOrEnd k.here then pure (Directive.version major minor, k)
            else refuse .directive
      | "TAG" => do
          let (handle, k) ← tagHandle .directive (k.skip (· == ' '))
          if k.here != ' ' then refuse .directive
          else
            let (expansion, k) ← tagUri .directive (k.skip (· == ' '))
            if isSpaceOrEnd k.here then pure (Directive.handle handle expansion, k)
            else refuse .directive
      | _ => pure (Directive.other, k.skip (!isBreakOrEnd ·))
    return (d, ← restOfLine .directive k)

/-- The name behind the mark of an anchor or an alias. -/
def anchorName (k : Cursor) : Except Fault (String × Cursor) :=
  let name := k.next.run isWordChar
  let k := k.next.forward name.length
  let c := k.here
  if name.isEmpty || !(isBlankOrEnd c || "?:,]\x7d%@\x60".toList.contains c) then refuse .anchor
  else .ok (String.ofList name, k)

/-- A tag from its exclamation mark on: verbatim, the mark alone, or a handle with a suffix. -/
def tag (k : Cursor) : Except Fault (Token × Cursor) := do
  let c := k.peek 1
  let (t, k) ←
    if c == '<' then do
      let (uri, k) ← tagUri .tag (k.forward 2)
      if k.here == '>' then pure (Token.tag none uri, k.next) else refuse .tag
    else if isBlankOrEnd c then pure (Token.tag none "!", k.next)
    else do
      let named := (k.next.run fun c => !isSpaceOrEnd c).contains '!'
      let (handle, k) ← if named then tagHandle .tag k else pure ("!", k.next)
      let (uri, k) ← tagUri .tag k
      pure (Token.tag (some handle) uri, k)
  if isSpaceOrEnd k.here then return (t, k) else refuse .tag

/-! ## The next token -/

/-- The end of the text. -/
def fetchEnd (s : ScanState) : Except Fault ScanState := do
  let s ← (s.unwind (-1)).forgetKey
  return { (s.allowKey false).emit .streamEnd with keys := [] }

def fetchDirective (s : ScanState) : Except Fault ScanState := do
  let s ← (s.unwind (-1)).forgetKey
  let (d, k) ← directive s.cursor
  return ((s.allowKey false).emit (.directive d)).goto k

def fetchDocumentMark (t : Token) (s : ScanState) : Except Fault ScanState := do
  let s ← (s.unwind (-1)).forgetKey
  return ((s.allowKey false).emit t).goto (s.cursor.forward 3)

/-- An opening bracket, which may begin a key. -/
def fetchFlowStart (t : Token) (s : ScanState) : Except Fault ScanState := do
  let s ← s.rememberKey
  return { ((s.allowKey true).emit t).goto s.cursor.next with flow := s.flow + 1 }

def fetchFlowEnd (t : Token) (s : ScanState) : Except Fault ScanState := do
  let s ← s.forgetKey
  if s.flow = 0 then refuse .flowEnd
  else return { ((s.allowKey false).emit t).goto s.cursor.next with flow := s.flow - 1 }

def fetchFlowEntry (s : ScanState) : Except Fault ScanState := do
  let s ← (s.allowKey true).forgetKey
  return (s.emit .flowEntry).goto s.cursor.next

/-- Begins a block collection at the cursor unless one is open there. Outside brackets it may begin
only where a key may. -/
def beginBlock (t : Token) (s : ScanState) : Except Fault ScanState :=
  if s.inFlow then .ok s
  else if !s.keyAllowed then refuse .indentation
  else
    match s.openBlock s.cursor.column with
    | (true, s) => .ok (s.emit t)
    | (false, s) => .ok s

def fetchBlockEntry (s : ScanState) : Except Fault ScanState := do
  let s ← beginBlock .blockSequenceStart s
  let s ← (s.allowKey true).forgetKey
  return (s.emit .blockEntry).goto s.cursor.next

def fetchKey (s : ScanState) : Except Fault ScanState := do
  let s ← beginBlock .blockMappingStart s
  let s ← (s.allowKey !s.inFlow).forgetKey
  return (s.emit .key).goto s.cursor.next

/-- A colon: behind a possible key it makes it one, else it stands for an explicit value. -/
def fetchValue (s : ScanState) : Except Fault ScanState := do
  match s.keyHere? with
  | some place =>
      let s := s.eraseKey.insert place.token .key
      let s :=
        if s.inFlow then s
        else
          match s.openBlock place.column with
          | (true, s) => s.insert place.token .blockMappingStart
          | (false, s) => s
      let s := s.allowKey false
      return (s.emit .value).goto s.cursor.next
  | none =>
      let s ← beginBlock .blockMappingStart s
      let s ← (s.allowKey !s.inFlow).forgetKey
      return (s.emit .value).goto s.cursor.next

/-- Something that may begin a key, read by `read`. -/
def fetchNode (read : Cursor → Except Fault (Token × Cursor)) (s : ScanState) :
    Except Fault ScanState := do
  let s ← s.rememberKey
  let (t, k) ← read s.cursor
  return ((s.allowKey false).emit t).goto k

def fetchBlockScalar (s : ScanState) : Except Fault ScanState := do
  let s ← (s.allowKey true).forgetKey
  let (cs, k) ← blockScalar s.indent s.cursor
  return (s.emit (.scalar (String.ofList cs) false)).goto k

/-- A plain scalar; behind its last line break a key may begin. -/
def fetchPlain (s : ScanState) : Except Fault ScanState := do
  let s ← s.rememberKey
  let (cs, broken, k) := plainScalar s.inFlow s.indent s.cursor
  return ((s.allowKey broken).emit (.scalar (String.ofList cs) true)).goto k

/-- Whether a plain scalar may begin at the cursor. -/
def beginsPlain (s : ScanState) : Bool :=
  let c := s.cursor.here
  !(isBlankOrEnd c || "-?:,[]\x7b\x7d#&*!|>'\"%@\x60".toList.contains c) ||
    (!isBlankOrEnd (s.cursor.peek 1) && (c == '-' || (!s.inFlow && (c == '?' || c == ':'))))

def fetchHere (s : ScanState) : Except Fault ScanState :=
  let k := s.cursor
  let c := k.here
  let blankNext := isBlankOrEnd (k.peek 1)
  if c == endMark then s.fetchEnd
  else if c == '%' && k.column == 0 then s.fetchDirective
  else if c == '-' && k.column == 0 && k.atMark then s.fetchDocumentMark .documentStart
  else if c == '.' && k.column == 0 && k.atMark then s.fetchDocumentMark .documentEnd
  else if c == '[' then s.fetchFlowStart .flowSequenceStart
  else if c == '\x7b' then s.fetchFlowStart .flowMappingStart
  else if c == ']' then s.fetchFlowEnd .flowSequenceEnd
  else if c == '\x7d' then s.fetchFlowEnd .flowMappingEnd
  else if c == ',' then s.fetchFlowEntry
  else if c == '-' && blankNext then s.fetchBlockEntry
  else if c == '?' && (s.inFlow || blankNext) then s.fetchKey
  else if c == ':' && (s.inFlow || blankNext) then s.fetchValue
  else if c == '*' then
    s.fetchNode fun k => (anchorName k).map fun (n, k) => (.reference n, k)
  else if c == '&' then
    s.fetchNode fun k => (anchorName k).map fun (n, k) => (.anchor n, k)
  else if c == '!' then s.fetchNode tag
  else if (c == '|' || c == '>') && !s.inFlow then s.fetchBlockScalar
  else if c == '\'' || c == '"' then
    s.fetchNode fun k => (quotedScalar k).map fun (cs, k) => (.scalar (String.ofList cs) false, k)
  else if s.beginsPlain then s.fetchPlain
  else refuse .token

/-- Reads the next token, with the ends of block collections before it. -/
def fetch (s : ScanState) : Except Fault ScanState := do
  let s ← s.toNextToken.dropStaleKeys
  (s.unwind s.cursor.column).fetchHere

def done (s : ScanState) : Bool := s.tokens.back? == some .streamEnd

/-- Reads up to the end of the text or a fault. -/
def fetchAll : Nat → ScanState → List Token × Option Fault
  | 0, s => (s.tokens.toList, some (.malformed .token))
  | fuel + 1, s =>
      if s.done then (s.tokens.toList, none)
      else
        match s.fetch with
        | .ok s => fetchAll fuel s
        | .error f => (s.tokens.toList, some f)

end ScanState

/-- The tokens of a text, and the fault that ends them early. A text with a character that none may
hold has no tokens. -/
def Token.scan (text : List Char) : List Token × Option Fault :=
  if text.all isAllowed then ScanState.fetchAll (text.length + 2) (ScanState.start text)
  else ([], some (.malformed .character))

end ApiDiscovery.Yaml
