import ApiDiscovery.Text.Digit
import ApiDiscovery.Text.Surrogate
import ApiDiscovery.Yaml.Cursor
import ApiDiscovery.Yaml.Fault

/-!
# Scalars as they stand in a YAML text

Reads the three written forms of a scalar from a cursor on. A plain scalar runs to a mark that ends
it; a quoted one to its closing quote, with escapes in double quotes; a block scalar holds all lines
of its indentation. Each form folds line breaks in its own way. `fuel` bounds the number of rounds;
each round passes a character.
-/

namespace ApiDiscovery.Yaml

open Text

def refuse (what : Malformed) : Except Fault α := .error (.malformed what)

/-! ## Quoted scalars -/

def shortEscape? : Char → Option Char
  | '0' => some '\x00'
  | 'a' => some '\x07'
  | 'b' => some '\x08'
  | 't' => some '\t'
  | '\t' => some '\t'
  | 'n' => some '\n'
  | 'v' => some '\x0b'
  | 'f' => some '\x0c'
  | 'r' => some '\r'
  | 'e' => some '\x1b'
  | ' ' => some ' '
  | '"' => some '"'
  | '\\' => some '\\'
  | '/' => some '/'
  | 'N' => some '\x85'
  | '_' => some '\xa0'
  | 'L' => some '\u2028'
  | 'P' => some '\u2029'
  | _ => none

def numberedEscape? : Char → Option Nat
  | 'x' => some 2
  | 'u' => some 4
  | 'U' => some 8
  | _ => none

def hexNumber? (k : Cursor) (n : Nat) : Option Nat :=
  let ds := k.rest.take n
  if ds.length < n then none
  else (ds.mapM hexValue?).map fun vs => vs.foldl (fun a d => a * 16 + d) 0

/-- The number of an escape by number, from its letter on; none if it is no such escape. -/
def escapedNumber? (k : Cursor) : Option (Except Fault (Nat × Cursor)) :=
  (numberedEscape? k.here).map fun n =>
    match hexNumber? k.next n with
    | none => refuse .flowScalar
    | some code =>
        if code < 0x110000 then .ok (code, k.next.forward n)
        else .error (.noSuchCharacter (code < 0x80000000))

/-- The low half of a pair at the cursor, as an escape by number. -/
def escapedLow? (k : Cursor) : Option (Nat × Cursor) :=
  if k.here == '\\' then
    match escapedNumber? k.next with
    | some (.ok (n, k)) => if isLowSurrogate n then some (n, k) else none
    | _ => none
  else none

/-- The character of a number, with what follows; a high half takes the low one behind it. -/
def escapedChar (n : Nat) (k : Cursor) : List Char × Cursor :=
  match if isHighSurrogate n then escapedLow? k else none with
  | some (low, k) => ([joinSurrogates n low], k)
  | none => ([charOrReplacement n], k)

/-- The line breaks of a quoted scalar from the start of a line on, blanks around them aside. -/
def quotedBreaks : Nat → Cursor → Except Fault (List Char × Cursor)
  | 0, _ => refuse .flowScalar
  | fuel + 1, k =>
      if k.atMark then refuse .flowScalar
      else
        let k := k.skip fun c => c == ' ' || c == '\t'
        if isBreak k.here then do
          let (b, k) := k.lineBreak
          let (bs, k) ← quotedBreaks fuel k
          return (b ++ bs, k)
        else .ok ([], k)

/-- One step inside quotes that is neither space nor the closing quote: what it stands for, or none
where the run of such steps ends. -/
def quotedStep (double : Bool) (k : Cursor) : Except Fault (Option (List Char × Cursor)) := do
  let c := k.here
  if !double && c == '\'' && k.peek 1 == '\'' then return some (['\''], k.forward 2)
  else if (double && c == '\'') || (!double && (c == '"' || c == '\\')) then
    return some ([c], k.next)
  else if double && c == '\\' then
    let k := k.next
    let e := k.here
    match shortEscape? e with
    | some d => return some ([d], k.next)
    | none =>
        match escapedNumber? k with
        | some r =>
            let (n, k) ← r
            return some (escapedChar n k)
        | none =>
            if isBreak e then
              let (_, k) := k.lineBreak
              let (bs, k) ← quotedBreaks (k.rest.length + 1) k
              return some (bs, k)
            else refuse .flowScalar
  else if c == '\'' || c == '"' || c == '\\' || isBlankOrEnd c then return none
  else return some ([c], k.next)

/-- The steps inside quotes up to space or the closing quote. -/
def quotedRun (double : Bool) : Nat → Cursor → Except Fault (List Char × Cursor)
  | 0, k => .ok ([], k)
  | fuel + 1, k => do
      match ← quotedStep double k with
      | none => return ([], k)
      | some (cs, k) =>
          let (ds, k) ← quotedRun double fuel k
          return (cs ++ ds, k)

/-- The space inside quotes: blanks stand for themselves, a single line break for a space. -/
def quotedSpace (k : Cursor) : Except Fault (List Char × Cursor) := do
  let isGap (c : Char) := c == ' ' || c == '\t'
  let gap := k.run isGap
  let k := k.skip isGap
  if k.here == endMark then refuse .flowScalar
  else if isBreak k.here then
    let (b, k) := k.lineBreak
    let (bs, k) ← quotedBreaks (k.rest.length + 1) k
    let first := if b != ['\n'] then b else if bs.isEmpty then [' '] else []
    return (first ++ bs, k)
  else return (gap, k)

/-- The rest of a quoted scalar, through its closing quote. -/
def quotedRest (double : Bool) : Nat → Cursor → Except Fault (List Char × Cursor)
  | 0, _ => refuse .flowScalar
  | fuel + 1, k => do
      let (cs, k) ← quotedRun double (k.rest.length + 1) k
      if k.here == (if double then '"' else '\'') then return (cs, k.next)
      else
        let (ss, k) ← quotedSpace k
        let (ds, k) ← quotedRest double fuel k
        return (cs ++ ss ++ ds, k)

def quotedScalar (k : Cursor) : Except Fault (List Char × Cursor) :=
  quotedRest (k.here == '"') (k.rest.length + 1) k.next

/-! ## Plain scalars -/

/-- Whether the text of a plain scalar stops at a character that `after` follows. -/
def endsPlain (inFlow : Bool) (c after : Char) : Bool :=
  isBlankOrEnd c ||
    (c == ':' && (isBlankOrEnd after ||
      (inFlow && (after == ',' || after == '[' || after == ']' || after == '\x7b' ||
        after == '\x7d')))) ||
    (inFlow && (c == ',' || c == '?' || c == '[' || c == ']' || c == '\x7b' || c == '\x7d'))

def plainRun (inFlow : Bool) : List Char → List Char
  | [] => []
  | c :: rest =>
      if endsPlain inFlow c (rest.headD endMark) then [] else c :: plainRun inFlow rest

/-- The breaks and spaces behind a line of a plain scalar; none at a document mark. -/
def plainBreaks : Nat → Cursor → Option (List Char) × Cursor
  | 0, k => (some [], k)
  | fuel + 1, k =>
      if k.here == ' ' then plainBreaks fuel k.next
      else if isBreak k.here then
        let (b, k) := k.lineBreak
        if k.atMark then (none, k)
        else
          let (bs, k) := plainBreaks fuel k
          (bs.map (b ++ ·), k)
      else (some [], k)

/-- The space behind a run of a plain scalar, and whether a line ended in it. Nothing is returned
where the scalar cannot go on. -/
def plainSpace (k : Cursor) : Option (List Char) × Bool × Cursor :=
  let gap := k.run (· == ' ')
  let k := k.skip (· == ' ')
  if isBreak k.here then
    let (b, k) := k.lineBreak
    if k.atMark then (none, true, k)
    else
      match plainBreaks (k.rest.length + 1) k with
      | (none, k) => (none, true, k)
      | (some bs, k) =>
          let first := if b != ['\n'] then b else if bs.isEmpty then [' '] else []
          (some (first ++ bs), true, k)
  else if gap.isEmpty then (none, false, k)
  else (some gap, false, k)

/-- A plain scalar of lines indented by at least `indent`; `gap` is the space before the next run.
The flag says whether the last thing passed is a line break. -/
def plainRest (inFlow : Bool) (indent : Int) : Nat → List Char → Bool → Cursor →
    List Char × Bool × Cursor
  | 0, _, broken, k => ([], broken, k)
  | fuel + 1, gap, broken, k =>
      let run := if k.here == '#' then [] else plainRun inFlow k.rest
      if run.isEmpty then ([], broken, k)
      else
        let k := k.forward run.length
        match plainSpace k with
        | (none, broken, k) => (gap ++ run, broken, k)
        | (some next, broken, k) =>
            if k.here == '#' || (!inFlow && (k.column : Int) < indent) then
              (gap ++ run, broken, k)
            else
              let (more, broken, k) := plainRest inFlow indent fuel next broken k
              (gap ++ run ++ more, broken, k)

def plainScalar (inFlow : Bool) (indent : Int) (k : Cursor) : List Char × Bool × Cursor :=
  plainRest inFlow (indent + 1) (k.rest.length + 1) [] false k

/-! ## Block scalars -/

/-- What becomes of the line breaks at the end of a block scalar. -/
inductive Chomping where
  | strip
  | clip
  | keep
deriving DecidableEq, Repr

def chomping? : Char → Option Chomping
  | '+' => some .keep
  | '-' => some .strip
  | _ => none

/-- An indentation of one to nine spaces. -/
def increment? (k : Cursor) : Except Fault (Option Nat × Cursor) :=
  if k.here.isDigit then
    let n := k.here.toNat - 0x30
    if n = 0 then refuse .blockScalar else .ok (some n, k.next)
  else .ok (none, k)

/-- The marks behind the indicator of a block scalar, in either order. -/
def blockHeader (k : Cursor) : Except Fault (Chomping × Option Nat × Cursor) := do
  let (chomping, increment, k) ←
    match chomping? k.here with
    | some c => do
        let (n, k) ← increment? k.next
        pure (c, n, k)
    | none => do
        let (n, k) ← increment? k
        match n, chomping? k.here with
        | some _, some c => pure (c, n, k.next)
        | _, _ => pure (Chomping.clip, n, k)
  if isSpaceOrEnd k.here then return (chomping, increment, k) else refuse .blockScalar

def restOfLine (what : Malformed) (k : Cursor) : Except Fault Cursor :=
  let k := k.skip (· == ' ')
  let k := if k.here == '#' then k.skip (!isBreakOrEnd ·) else k
  if isBreakOrEnd k.here then .ok k.lineBreak.2 else refuse what

/-- The empty lines before the first line of a block scalar, and the greatest column reached. -/
def leadingLines : Nat → Nat → Cursor → List Char × Nat × Cursor
  | 0, widest, k => ([], widest, k)
  | fuel + 1, widest, k =>
      if k.here == ' ' then
        let k := k.next
        leadingLines fuel (max widest k.column) k
      else if isBreak k.here then
        let (b, k) := k.lineBreak
        let (bs, widest, k) := leadingLines fuel widest k
        (b ++ bs, widest, k)
      else ([], widest, k)

def emptyLines (indent : Nat) : Nat → Cursor → List Char × Cursor
  | 0, k => ([], k)
  | fuel + 1, k =>
      let k := k.skipTo indent
      if isBreak k.here then
        let (b, k) := k.lineBreak
        let (bs, k) := emptyLines indent fuel k
        (b ++ bs, k)
      else ([], k)

/-- The lines of a block scalar at an indentation: their text, the last line break, and the breaks
of the empty lines behind it. `breaks` are those before the next line. -/
def blockLines (folded : Bool) (indent : Nat) :
    Nat → List Char → Cursor → List Char × List Char × List Char × Cursor
  | 0, breaks, k => ([], [], breaks, k)
  | fuel + 1, breaks, k =>
      if k.column == indent && k.here != endMark then
        let flush := k.here != ' ' && k.here != '\t'
        let line := k.run (!isBreakOrEnd ·)
        let k := k.forward line.length
        let (b, k) := k.lineBreak
        let (bs, k) := emptyLines indent (k.rest.length + 1) k
        if k.column == indent && k.here != endMark then
          let folds := folded && b == ['\n'] && flush && k.here != ' ' && k.here != '\t'
          let joint := if folds then if bs.isEmpty then [' '] else [] else b
          let (more, last, tail, k) := blockLines folded indent fuel bs k
          (breaks ++ line ++ joint ++ more, last, tail, k)
        else (breaks ++ line, b, bs, k)
      else ([], [], breaks, k)

/-- A block scalar from its indicator on, inside a collection at column `parent`. -/
def blockScalar (parent : Int) (k : Cursor) : Except Fault (List Char × Cursor) := do
  let folded := k.here == '>'
  let (chomping, increment, k) ← blockHeader k.next
  let k ← restOfLine .blockScalar k
  let least : Int := max (parent + 1) 1
  let (indent, breaks, k) :=
    match increment with
    | some n =>
        let indent := (least + (n : Int) - 1).toNat
        let (bs, k) := emptyLines indent (k.rest.length + 1) k
        (indent, bs, k)
    | none =>
        let (bs, widest, k) := leadingLines (k.rest.length + 1) 0 k
        ((max least (widest : Int)).toNat, bs, k)
  let (body, last, tail, k) := blockLines folded indent (k.rest.length + 1) breaks k
  let ending :=
    match chomping with
    | .strip => []
    | .clip => last
    | .keep => last ++ tail
  return (body ++ ending, k)

end ApiDiscovery.Yaml
