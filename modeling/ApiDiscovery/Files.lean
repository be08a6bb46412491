import ApiDiscovery.Files.Path
import ApiDiscovery.Table
import ApiDiscovery.Text.Quoted
import ApiDiscovery.Text.Utf8

/-!
# Files

A tree of directories and files. Its view is `Node.find?`: what stands at a sequence of names. A path
is walked name by name (`Files.locate?`): each name before the last has to be a directory, two dots lead
back, and a name has a greatest length.

There are two trees, one for paths from the root and one for paths from where the program runs.

A program that only reads files needs less of them: what it is told of a path (`FileSystem`). There it may be told
anything, as files are guarded and disks fail.
-/

namespace ApiDiscovery

open Text

/-- A file with its bytes, or a directory with its entries. -/
inductive Node where
  | file (bytes : List UInt8)
  | dir (entries : List (String × Node))
deriving Inhabited

/-- Why an operation on files fails. -/
inductive FileFault where
  | notFound
  | notDirectory
  | isDirectory
  | exists
  | nameTooLong
  /-- Whatever else there is, by its number and in the words for it. -/
  | other (number : Nat) (words : String)
deriving DecidableEq, Repr

namespace FileFault

def number : FileFault → Nat
  | notFound => 2
  | .exists => 17
  | notDirectory => 20
  | isDirectory => 21
  | nameTooLong => 36
  | other number _ => number

def words : FileFault → String
  | notFound => "No such file or directory"
  | .exists => "File exists"
  | notDirectory => "Not a directory"
  | isDirectory => "Is a directory"
  | nameTooLong => "File name too long"
  | other _ words => words

/-- A fault in words, with the path that it is about. -/
def message (f : FileFault) (p : Path) : String :=
  "[Errno " ++ toString f.number ++ "] " ++ f.words ++ ": " ++ quoted p.render

/-- Whether a fault says no more of a path than that nothing is there: it leads nowhere, through a file, through
something that is no longer open, or round in a circle. -/
def isAbsence (f : FileFault) : Bool := [2, 20, 9, 40].contains f.number

end FileFault

namespace Node

def entries : Node → List (String × Node)
  | dir es => es
  | file _ => []

def isDir : Node → Bool
  | dir _ => true
  | file _ => false

def find? (n : Node) : List String → Option Node
  | [] => some n
  | name :: rest =>
      match lookupEntry name n.entries with
      | some c => c.find? rest
      | none => none

/-- Puts a node at a sequence of names, the directories of which are there. -/
def put (n : Node) (new : Node) : List String → Except FileFault Node
  | [] => .ok new
  | name :: rest =>
      match n with
      | file _ => .error .notDirectory
      | dir es =>
          match lookupEntry name es with
          | some c => do return dir (setEntry name (← put c new rest) es)
          | none => if rest.isEmpty then .ok (dir (setEntry name new es)) else .error .notFound

def remove (n : Node) : List String → Except FileFault Node
  | [] => .error .notFound
  | name :: rest =>
      match n with
      | file _ => .error .notDirectory
      | dir es =>
          match lookupEntry name es with
          | none => .error .notFound
          | some c =>
              if rest.isEmpty then .ok (dir (es.filter fun e => e.1 != name))
              else do return dir (setEntry name (← remove c rest) es)

end Node

/-- The two trees. -/
structure Files where
  root : Node := .dir []
  here : Node := .dir []

namespace Files

def tree (fs : Files) (p : Path) : Node := if p.anchor.isEmpty then fs.here else fs.root

def setTree (fs : Files) (p : Path) (n : Node) : Files :=
  if p.anchor.isEmpty then { fs with here := n } else { fs with root := n }

def nameLimit : Nat := 255

/-- Goes from a place by names to a place, both given from the top: all but the last place have to be
directories. -/
def walk (n : Node) (place : List String) : List String → Except FileFault (List String)
  | [] => .ok place
  | name :: rest =>
      match n.find? place with
      | none => .error .notFound
      | some (.file _) => .error .notDirectory
      | some (.dir _) =>
          if nameLimit < (Utf8.encode name.toList).length then .error .nameTooLong
          else if name == ".." then walk n place.dropLast rest
          else walk n (place ++ [name]) rest

/-- The place that a path leads to, whether something stands there or not. -/
def locate? (fs : Files) (p : Path) : Except FileFault (List String) := walk (fs.tree p) [] p.names

def node? (fs : Files) (p : Path) : Except FileFault Node := do
  match (fs.tree p).find? (← fs.locate? p) with
  | some n => return n
  | none => throw .notFound

/-- Whether something of a kind stands at a path. Only a name that is too long is a fault. -/
def test (fs : Files) (kind : Node → Bool) (p : Path) : Except FileFault Bool :=
  match fs.node? p with
  | .ok n => .ok (kind n)
  | .error .nameTooLong => .error .nameTooLong
  | .error _ => .ok false

def isFile (fs : Files) (p : Path) : Except FileFault Bool := fs.test (!·.isDir) p

def isDir (fs : Files) (p : Path) : Except FileFault Bool := fs.test (·.isDir) p

def read (fs : Files) (p : Path) : Except FileFault (List UInt8) := do
  match ← fs.node? p with
  | .file bytes => return bytes
  | .dir _ => throw .isDirectory

def list (fs : Files) (p : Path) : Except FileFault (List (String × Node)) := do
  match ← fs.node? p with
  | .dir es => return es
  | .file _ => throw .notDirectory

def write (fs : Files) (p : Path) (bytes : List UInt8) : Except FileFault Files := do
  let place ← fs.locate? p
  match (fs.tree p).find? place with
  | some (.dir _) => throw .isDirectory
  | _ => return fs.setTree p (← (fs.tree p).put (.file bytes) place)

/-- Makes the directories on a way, as far as they are not there. -/
def makeDirsFrom (n : Node) (place : List String) : List String → Except FileFault Node
  | [] => .ok n
  | name :: rest =>
      if nameLimit < (Utf8.encode name.toList).length then .error .nameTooLong
      else
        let next := if name == ".." then place.dropLast else place ++ [name]
        match n.find? next with
        | some (.dir _) => makeDirsFrom n next rest
        | some (.file _) => .error (if rest.isEmpty then .exists else .notDirectory)
        | none => do makeDirsFrom (← n.put (.dir []) next) next rest

/-- Makes the directories of a path, as far as they are not there. -/
def makeDirs (fs : Files) (p : Path) : Except FileFault Files := do
  return fs.setTree p (← makeDirsFrom (fs.tree p) [] p.names)

def remove (fs : Files) (p : Path) : Except FileFault Files := do
  return fs.setTree p (← (fs.tree p).remove (← fs.locate? p))

end Files

/-! ## What a program is told -/

/-- What a program is told of paths. -/
structure FileSystem where
  /-- Whether a file stands at a path, rather than something else. -/
  status : Path → Except FileFault Bool
  read : Path → Except FileFault (List UInt8)

def FileSystem.isFile (v : FileSystem) (p : Path) : Except FileFault Bool :=
  match v.status p with
  | .ok b => .ok b
  | .error f => if f.isAbsence then .ok false else .error f

/-- What is told of the two trees. -/
def Files.system (fs : Files) : FileSystem where
  status p := (fs.node? p).map (!·.isDir)
  read := fs.read

/-! ## Text in files -/

/-- A text with every end of a line as a single line feed. -/
def normalizeLines : List Char → List Char
  | '\r' :: '\n' :: rest => '\n' :: normalizeLines rest
  | '\r' :: rest => '\n' :: normalizeLines rest
  | c :: rest => c :: normalizeLines rest
  | [] => []

def fileText (bytes : List UInt8) : Except Utf8.Fault String :=
  (Utf8.decode? bytes).map fun cs => String.ofList (normalizeLines cs)

end ApiDiscovery
