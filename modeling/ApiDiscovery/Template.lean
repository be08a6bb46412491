import ApiDiscovery.Url.Percent
import ApiDiscovery.Value.Text

/-!
# Path templates

A template is text with holes. A hole is a name between braces; a plus sign before the name lets the
value keep the characters that part a URL. Braces that enclose no name are text. `Template.pieces`
takes a template apart, `Template.render` puts it together again, and `Template.expand` fills the
holes from left to right. What fills a hole is never looked at for holes.
-/

namespace ApiDiscovery

/-- A required parameter without a value, with the method that requires it. -/
structure MissingParameter where
  parameter : String
  method : Option String
deriving DecidableEq, Repr

/-- Why a template is not filled. -/
inductive FillFault where
  | missing (m : MissingParameter)
  /-- A value holds a number that cannot be written. -/
  | unwritable
deriving DecidableEq, Repr

def MissingParameter.message (m : MissingParameter) : String :=
  "Missing required parameter: " ++ m.parameter ++
    (match m.method.filter fun t => !t.isEmpty with
      | some id => " for " ++ id
      | none => "")

namespace Template

inductive Piece where
  | literal (text : List Char)
  | hole (reserved : Bool) (name : List Char)
deriving DecidableEq, Repr

def isBrace (c : Char) : Bool := c == '{' || c == '}'

/-- The hole behind an opening brace, with the rest behind its closing brace. The first plus sign is
a mark unless the name is nothing else. -/
def hole? (s : List Char) : Option (Piece × List Char) :=
  let inner := s.takeWhile (!isBrace ·)
  match s.dropWhile (!isBrace ·) with
  | '}' :: rest =>
      match inner with
      | [] => none
      | '+' :: c :: name => some (.hole true (c :: name), rest)
      | name => some (.hole false name, rest)
  | _ => none

theorem length_of_hole? {s : List Char} {p : Piece} {rest : List Char}
    (h : hole? s = some (p, rest)) : rest.length < s.length := by
  have hs : s = s.takeWhile (!isBrace ·) ++ s.dropWhile (!isBrace ·) :=
    List.takeWhile_append_dropWhile.symm
  unfold hole? at h
  dsimp only at h
  split at h
  · next r hd =>
    have hl : s.length = (s.takeWhile (!isBrace ·)).length + (r.length + 1) := by
      conv => lhs; rw [hs, hd]
      simp
    split at h <;> simp at h <;> obtain ⟨_, rfl⟩ := h <;> omega
  · simp at h

def prepend (c : Char) : List Piece → List Piece
  | .literal t :: ps => .literal (c :: t) :: ps
  | ps => .literal [c] :: ps

def pieces (s : List Char) : List Piece :=
  match s with
  | [] => []
  | c :: rest =>
      if c == '{' then
        match h : hole? rest with
        | some (p, after) =>
            have := length_of_hole? h
            p :: pieces after
        | none => prepend c (pieces rest)
      else prepend c (pieces rest)
termination_by s.length

def Piece.text : Piece → List Char
  | .literal t => t
  | .hole true name => '{' :: '+' :: name ++ ['}']
  | .hole false name => '{' :: name ++ ['}']

def render (ps : List Piece) : List Char := ps.flatMap Piece.text

def Piece.name? : Piece → Option String
  | .literal _ => none
  | .hole _ name => some (String.ofList name)

def names (template : String) : List String := (pieces template.toList).filterMap Piece.name?

/-! ## Expansion -/

/-- Null and the empty text count as no value. -/
def isMissing : Option Value → Bool
  | none => true
  | some .null => true
  | some (.str s) => s.isEmpty
  | some _ => false

mutual

/-- The text of a value in a path, if it can be written: words for truth values, commas between the items of
a list. -/
def valueText : Value → String
  | .bool b => if b then "true" else "false"
  | .list items => ",".intercalate (valueTexts items)
  | .tuple items => ",".intercalate (valueTexts items)
  | v => v.text

def valueTexts : List Value → List String
  | [] => []
  | v :: rest => valueText v :: valueTexts rest

end

def filling (reserved : Bool) (v : Value) : List Char :=
  if reserved then Percent.encodeReserved (valueText v).toList
  else Percent.encodeSimple (valueText v).toList

/-- The pieces with their holes filled, and the names that were used; the first hole without a value, or with
one that cannot be written, is reported. -/
def fill (lookup : String → Option Value) (method : Option String) :
    List Piece → Except FillFault (List Char × List String)
  | [] => .ok ([], [])
  | .literal t :: ps => do
      let (text, used) ← fill lookup method ps
      return (t ++ text, used)
  | .hole reserved name :: ps =>
      let name := String.ofList name
      match lookup name with
      | none => .error (.missing ⟨name, method⟩)
      | some v =>
          if isMissing (some v) then .error (.missing ⟨name, method⟩)
          else if !v.isWritable then .error .unwritable
          else do
            let (text, used) ← fill lookup method ps
            return (filling reserved v ++ text, name :: used)

/-- The text of a template with its holes filled, and the names it uses. -/
def expand (template : String) (lookup : String → Option Value) (method : Option String) :
    Except FillFault (String × List String) := do
  let (text, used) ← fill lookup method (pieces template.toList)
  return (String.ofList text, used)

end Template

end ApiDiscovery
