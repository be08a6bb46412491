import ApiDiscovery.Error

/-!
# Bundled documents

Documents lie in files, one directory for each API and one file for each version. `Bundle.find?` looks a
file up, `Bundle.available` lists all. A document is read once and kept: later changes of the files do not
show (`Bundle.get`). A failure is not kept.
-/

namespace ApiDiscovery

open Text

def formatOfName (name : String) : Content.Format :=
  match suffixOf name with
  | ".json" => .json
  | ".yaml" => .yaml
  | ".yml" => .yaml
  | _ => .unknown

/-- The document in a file, whose path is given as a text. -/
def FileSystem.load (v : FileSystem) (shown : String) : Except Error Document := do
  let p := Path.ofText shown
  let there ←
    match v.isFile p with
    | .ok b => pure b
    | .error f => throw (.file f)
  if !there then throw (.document (.notFound shown))
  let bytes ←
    match v.read p with
    | .ok b => pure b
    | .error f => throw (.document (.notRead shown p f))
  let text ←
    match fileText bytes with
    | .ok t => pure t
    | .error f => throw (.undecodable f)
  if text.toList.all isBlank then throw (.document (.blank shown))
  match Content.document text (formatOfName p.name) with
  | .ok d => return d
  | .error f => throw (.ofContent f)

def loadDocument (fs : Files) (shown : String) : Except Error Document := fs.system.load shown

/-- A directory of documents, with those that have been read. -/
structure Bundle where
  directory : Path
  documents : List ((String × String) × Document) := []

namespace Bundle

/-- The suffixes of files with documents, those that are looked for first in front. -/
def suffixes : List String := [".json", ".yaml", ".yml"]

/-- Whether a text can lead out of its directory. -/
def leadsOut (s : String) : Bool :=
  s.toList.contains '/' || s.toList.contains '\\' ||
    (s.toList.zip (s.toList.drop 1)).contains ('.', '.')

/-- The first of several paths at which there is a file. -/
def firstFile (fs : Files) : List Path → Except FileFault (Option Path)
  | [] => .ok none
  | p :: rest => do if ← fs.isFile p then return some p else firstFile fs rest

/-- The paths at which the document of a version is looked for. -/
def candidates (b : Bundle) (name version : String) : List Path :=
  suffixes.map fun s => (b.directory.child name).child (version ++ s)

def find? (b : Bundle) (fs : Files) (name version : String) : Except FileFault (Option Path) :=
  if name.isEmpty || version.isEmpty || leadsOut name || leadsOut version then .ok none
  else firstFile fs (b.candidates name version)

/-- The document of a version, if it has been read. -/
def kept? (b : Bundle) (name version : String) : Option Document :=
  b.documents.lookup (name, version)

/-- The document of a version, read from its file unless it has been before. -/
def get (b : Bundle) (fs : Files) (name version : String) : Except Error Document × Bundle :=
  match b.kept? name version with
  | some d => (.ok d, b)
  | none =>
      match b.find? fs name version with
      | .error f => (.error (.file f), b)
      | .ok none => (.error (.unknownApi name version none), b)
      | .ok (some p) =>
          match loadDocument fs p.render with
          | .error e => (.error e, b)
          | .ok d => (.ok d, { b with documents := ((name, version), d) :: b.documents })

def isDocumentName (name : String) : Bool := suffixes.contains (suffixOf name)

def versionsIn (n : Node) : List String :=
  (n.entries.filter fun e => !e.2.isDir && isDocumentName e.1).map fun e => stemOf e.1

/-- Whether one pair comes before another, by API and then by version. -/
def pairLe (a b : String × String) : Bool := a.1 < b.1 || (a.1 == b.1 && a.2 ≤ b.2)

/-- All APIs with their versions, in order and each once. -/
def available (b : Bundle) (fs : Files) : Except FileFault (List (String × String)) := do
  if !(← fs.isDir b.directory) then return []
  let apis ← fs.list b.directory
  let pairs := apis.flatMap fun e => (versionsIn e.2).map fun v => (e.1, v)
  return (pairs.mergeSort pairLe).eraseReps

def versions (b : Bundle) (fs : Files) (name : String) : Except FileFault (List String) := do
  return ((← b.available fs).filter fun p => p.1 == name).map (·.2)

/-- Whether there is a document of an API, of one version or of any. -/
def hasApi (b : Bundle) (fs : Files) (name : String) (version : Option String) :
    Except FileFault Bool := do
  match version with
  | some v => return (← b.find? fs name v).isSome
  | none => return (← b.available fs).any fun p => p.1 == name

end Bundle

end ApiDiscovery
