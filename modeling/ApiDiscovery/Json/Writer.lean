import ApiDiscovery.Value.Text

/-!
# Writing JSON

Values are written without any space. A `Style` says whether names are sorted, whether characters
beyond ASCII are written by number, and whether infinities and NaN are written as words. What JSON
has no form for is refused: bytes, dates and sets as values, and such keys as have no text. So is a
whole number with too many digits.
-/

namespace ApiDiscovery.Json

open Number Text

/-- The choices of a writer. -/
structure Style where
  sorted : Bool
  ascii : Bool
  special : Bool

/-- Names sorted, ASCII only. -/
def Style.canonical : Style := ⟨true, true, true⟩

/-- Names in their order, all characters as they are, finite numbers only. -/
def Style.wire : Style := ⟨false, false, false⟩

/-- Why a value has no form. -/
inductive WriteFault where
  | outOfRange
  | longNumber
  | valueKind (kind : String)
  | keyKind (kind : String)
  /-- Two keys that have no order, by their kinds. -/
  | incomparable (left right : String)
deriving DecidableEq, Repr

/-- Infinities and NaN are words. -/
def numberLayout : Layout := ⟨-3, 16, 2, "Infinity", "NaN"⟩

def escapeUnit (n : Nat) : List Char := '\\' :: 'u' :: hexPadded 4 n

/-- A character by number, as a pair beyond the first 65536. -/
def escapeChar (c : Char) : List Char :=
  let n := c.toNat
  if n < 0x10000 then escapeUnit n
  else
    escapeUnit (0xd800 + (n - 0x10000) / 0x400) ++ escapeUnit (0xdc00 + (n - 0x10000) % 0x400)

def writeChar (ascii : Bool) (c : Char) : List Char :=
  if c == '"' then ['\\', '"']
  else if c == '\\' then ['\\', '\\']
  else if c == '\n' then ['\\', 'n']
  else if c == '\r' then ['\\', 'r']
  else if c == '\t' then ['\\', 't']
  else if c == '\x08' then ['\\', 'b']
  else if c == '\x0c' then ['\\', 'f']
  else if c.toNat < 0x20 || (ascii && 0x7f ≤ c.toNat) then escapeChar c
  else [c]

def writeString (ascii : Bool) (s : String) : String :=
  String.ofList ('"' :: s.toList.flatMap (writeChar ascii) ++ ['"'])

def writeDouble (style : Style) (x : Double) : Except WriteFault String :=
  if x.isFinite || style.special then .ok (numberLayout.render x) else .error .outOfRange

def writeWhole (n : Int) : Except WriteFault String :=
  if Number.isWritable n then .ok (toString n) else .error .longNumber

def keyText (style : Style) : Value → Except WriteFault String
  | .str s => .ok s
  | .null => .ok "null"
  | .bool b => .ok (if b then "true" else "false")
  | .int n => writeWhole n
  | .float x => writeDouble style x
  | v => .error (.keyKind v.qualifiedKindName)

/-- Whether two keys have an order: both texts, or both numbers. -/
def comparable (a b : Value) : Bool :=
  match a, b with
  | .str _, .str _ => true
  | _, _ => a.number?.isSome && b.number?.isSome

/-- Whether one key comes before another: texts by code point, numbers by value. -/
def keyLt (a b : Value) : Bool :=
  match a, b with
  | .str a, .str b => a < b
  | _, _ =>
      match a.number?, b.number? with
      | some (.inl m), some (.inl n) => m < n
      | some (.inl m), some (.inr y) => (Double.ofInt m).orderKey < y.orderKey
      | some (.inr x), some (.inl n) => x.orderKey < (Double.ofInt n).orderKey
      | some (.inr x), some (.inr y) => x.orderKey < y.orderKey
      | _, _ => false

/-- The first two neighbours without an order, the later one first. -/
def incomparable? : List Value → Option WriteFault
  | a :: b :: rest =>
      if comparable b a then incomparable? (b :: rest)
      else some (.incomparable b.qualifiedKindName a.qualifiedKindName)
  | _ => none

def sortEntries (entries : List (Value × α)) : Except WriteFault (List (Value × α)) :=
  match incomparable? (entries.map (·.1)) with
  | some w => .error w
  | none => .ok (entries.mergeSort fun a b => !keyLt b.1 a.1)

mutual

def write (style : Style) : Value → Except WriteFault String
  | .null => .ok "null"
  | .bool b => .ok (if b then "true" else "false")
  | .int n => writeWhole n
  | .float x => writeDouble style x
  | .str s => .ok (writeString style.ascii s)
  | .list items | .tuple items => do
      return "[" ++ ",".intercalate (← writeItems style items) ++ "]"
  | .map entries => do
      let texts := writeEntries style entries
      let texts ← if style.sorted then sortEntries texts else pure texts
      return "\x7b" ++ ",".intercalate (← texts.mapM (·.2)) ++ "\x7d"
  | v => .error (.valueKind v.kindName)

def writeItems (style : Style) : List Value → Except WriteFault (List String)
  | [] => .ok []
  | v :: rest => do
      let s ← write style v
      return s :: (← writeItems style rest)

/-- The texts of the entries of an object, each under its key. -/
def writeEntries (style : Style) :
    List (Value × Value) → List (Value × Except WriteFault String)
  | [] => []
  | (k, v) :: rest =>
      let entry := do
        let name ← keyText style k
        let s ← write style v
        return writeString style.ascii name ++ ":" ++ s
      (k, entry) :: writeEntries style rest

end

def WriteFault.message : WriteFault → String
  | .longNumber => Number.unwritableMessage
  | .outOfRange => "Out of range float values are not JSON compliant"
  | .valueKind kind => "Object of type " ++ kind ++ " is not JSON serializable"
  | .keyKind kind => "keys must be str, int, float, bool or None, not " ++ kind
  | .incomparable left right =>
      "'<' not supported between instances of '" ++ left ++ "' and '" ++ right ++ "'"

end ApiDiscovery.Json
