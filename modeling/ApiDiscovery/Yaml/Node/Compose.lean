import ApiDiscovery.Yaml.Node
import ApiDiscovery.Yaml.Token.Scan

/-!
# The graph of a YAML text

`Graph.ofText?` reads the tokens of a text as one document, or as none. One token decides at each
place how to go on. Anchors name nodes for later aliases; a name is given once in a document. A
collection gets its number and its name before what is in it is read, so an alias can stand inside of
the collection that it names.

`fuel` bounds the number of calls; each node takes at most a few calls for each token.
-/

namespace ApiDiscovery.Yaml

/-- The tokens that are left, the fault behind them, the nodes so far and those named among them. -/
structure ComposeState where
  tokens : List Token
  fault : Option Fault
  nodes : List Node
  anchors : List (String × NodeId)
  handles : List (String × String)

abbrev Compose := StateT ComposeState (Except Fault)

namespace Compose

def fail (what : Malformed) : Compose α := throw (.malformed what)

def peek : Compose Token := do
  let s ← get
  match s.tokens, s.fault with
  | t :: _, _ => return t
  | [], some f => throw f
  | [], none => fail .order

def advance : Compose Unit := modify fun s => { s with tokens := s.tokens.drop 1 }

def accept (t : Token) : Compose Bool := do
  if (← peek) == t then
    advance
    return true
  else return false

def sees (ts : List Token) : Compose Bool := do return ts.contains (← peek)

def anchor? : Compose (Option String) := do
  match ← peek with
  | .anchor name => do
      advance
      return some name
  | _ => return none

/-- The tag at the front, its handle expanded later. -/
def tag? : Compose (Option (Option String × String)) := do
  match ← peek with
  | .tag handle suffix => do
      advance
      return some (handle, suffix)
  | _ => return none

def expandTag : Option (Option String × String) → Compose (Option String)
  | none => return none
  | some (none, suffix) => return some suffix
  | some (some handle, suffix) => do
      match (← get).handles.lookup handle with
      | some expansion => return some (expansion ++ suffix)
      | none => fail .tagHandle

/-- The anchor and the tag of a node, in either order. -/
def properties : Compose (Option String × Option String) := do
  match ← anchor? with
  | some name => return (some name, ← expandTag (← tag?))
  | none => do
      let tag ← tag?
      let name ← if tag.isSome then anchor? else pure none
      return (name, ← expandTag tag)

/-- Gives a node the next number. -/
def add (n : Node) : Compose NodeId := do
  let s ← get
  set { s with nodes := s.nodes ++ [n] }
  return s.nodes.length

/-- Puts a collection that was read in the place that was kept for it. -/
def settle (i : NodeId) (n : Node) : Compose Unit := modify fun s => { s with nodes := s.nodes.set i n }

def declare (name : Option String) (i : NodeId) : Compose Unit :=
  match name with
  | none => return
  | some name => modify fun s => { s with anchors := (name, i) :: s.anchors }

def checkFresh (name : Option String) : Compose Unit := do
  match name with
  | none => return
  | some name => if ((← get).anchors.lookup name).isSome then fail .duplicateAnchor else return

def resolveAlias (name : String) : Compose NodeId := do
  match (← get).anchors.lookup name with
  | some i => return i
  | none => fail .undefinedAlias

/-- The tag of a collection: its own, or the common one of its kind. -/
def collectionTag (tag : Option String) (common : Tag) : Tag :=
  match tag with
  | none => common
  | some "!" => common
  | some uri => Tag.ofUri uri

/-- The tag of a scalar: a plain one without a tag and any one under the mark alone are read by their
text; a quoted one without a tag is a string. -/
def scalarTag (tag : Option String) (plain : Bool) (text : String) : Tag :=
  match tag with
  | some "!" => impliedTag text
  | some uri => Tag.ofUri uri
  | none => if plain then impliedTag text else .str

/-- Reads a node unless one of `stops` comes next, where the empty node stands. -/
def orEmpty (stops : List Token) (node : Compose NodeId) : Compose NodeId := do
  if ← sees stops then add Node.empty else node

/-- A scalar, perhaps with a name. -/
def leaf (name : Option String) (n : Node) : Compose NodeId := do
  checkFresh name
  let i ← add n
  declare name i
  return i

/-- A collection, perhaps with a name: its place is kept while what is in it is read. -/
def collection (name : Option String) (read : Compose Node) : Compose NodeId := do
  checkFresh name
  let i ← add Node.empty
  declare name i
  settle i (← read)
  return i

mutual

/-- A node. Block collections are allowed if `block`, and a sequence without indentation if
`indentless`. -/
def node (fuel : Nat) (block indentless : Bool) : Compose NodeId :=
  match fuel with
  | 0 => fail .order
  | fuel + 1 => do
      match ← peek with
      | .reference name => do
          advance
          resolveAlias name
      | _ => do
          let (name, tag) ← properties
          let nothing : Compose NodeId :=
            if name.isSome || tag.isSome then leaf name (.scalar (scalarTag tag true "") "")
            else fail .order
          match ← peek with
          | .scalar text plain => do
              advance
              leaf name (.scalar (scalarTag tag plain text) text)
          | .flowSequenceStart => do
              advance
              collection name do return .sequence (collectionTag tag .seq) (← flowItems fuel true)
          | .flowMappingStart => do
              advance
              collection name do return .mapping (collectionTag tag .map) (← flowEntries fuel true)
          | .blockEntry =>
              if indentless then
                collection name do return .sequence (collectionTag tag .seq) (← indentlessItems fuel)
              else nothing
          | .blockSequenceStart =>
              if block then do
                advance
                collection name do return .sequence (collectionTag tag .seq) (← blockItems fuel)
              else nothing
          | .blockMappingStart =>
              if block then do
                advance
                collection name do return .mapping (collectionTag tag .map) (← blockEntries fuel)
              else nothing
          | _ => nothing

def blockItems (fuel : Nat) : Compose (List NodeId) :=
  match fuel with
  | 0 => fail .order
  | fuel + 1 => do
      if ← accept .blockEntry then
        let n ← orEmpty [.blockEntry, .blockEnd] (node fuel true false)
        return n :: (← blockItems fuel)
      else if ← accept .blockEnd then return []
      else fail .order

/-- The items of a sequence at the indentation of the mapping around it. -/
def indentlessItems (fuel : Nat) : Compose (List NodeId) :=
  match fuel with
  | 0 => fail .order
  | fuel + 1 => do
      if ← accept .blockEntry then
        let n ← orEmpty [.blockEntry, .key, .value, .blockEnd] (node fuel true false)
        return n :: (← indentlessItems fuel)
      else return []

def blockEntries (fuel : Nat) : Compose (List NodeEntry) :=
  match fuel with
  | 0 => fail .order
  | fuel + 1 => do
      let stops : List Token := [.key, .value, .blockEnd]
      let valueNode : Compose NodeId := do
        if ← accept .value then orEmpty stops (node fuel true true) else add Node.empty
      if ← accept .key then
        let k ← orEmpty stops (node fuel true true)
        let v ← valueNode
        return (k, v) :: (← blockEntries fuel)
      else if ← accept .blockEnd then return []
      else fail .order

/-- The items of a sequence in brackets; a key among them begins a mapping of one entry. -/
def flowItems (fuel : Nat) (first : Bool) : Compose (List NodeId) :=
  match fuel with
  | 0 => fail .order
  | fuel + 1 => do
      if ← accept .flowSequenceEnd then return []
      else
        if !first then
          if !(← accept .flowEntry) then fail .order
        if ← accept .key then
          let k ← orEmpty [.value, .flowEntry, .flowSequenceEnd] (node fuel false false)
          let v ← (do
            if ← accept .value then
              orEmpty [.flowEntry, .flowSequenceEnd] (node fuel false false)
            else add Node.empty)
          let i ← add (.mapping .map [(k, v)])
          return i :: (← flowItems fuel false)
        else if ← accept .flowSequenceEnd then return []
        else
          let n ← node fuel false false
          return n :: (← flowItems fuel false)

def flowEntries (fuel : Nat) (first : Bool) : Compose (List NodeEntry) :=
  match fuel with
  | 0 => fail .order
  | fuel + 1 => do
      if ← accept .flowMappingEnd then return []
      else
        if !first then
          if !(← accept .flowEntry) then fail .order
        if ← accept .key then
          let k ← orEmpty [.value, .flowEntry, .flowMappingEnd] (node fuel false false)
          let v ← (do
            if ← accept .value then
              orEmpty [.flowEntry, .flowMappingEnd] (node fuel false false)
            else add Node.empty)
          return (k, v) :: (← flowEntries fuel false)
        else if ← accept .flowMappingEnd then return []
        else
          let k ← node fuel false false
          let v ← add Node.empty
          return (k, v) :: (← flowEntries fuel false)

end

/-- The handles that every document has. -/
def commonHandles : List (String × String) := [("!", "!"), ("!!", Tag.core)]

/-- The directives at the head of a document: at most one version, of the first major number, and
each handle once. -/
def directives : Nat → Bool → List (String × String) → Compose (List (String × String))
  | 0, _, _ => fail .order
  | fuel + 1, versioned, handles => do
      match ← peek with
      | .directive d => do
          advance
          match d with
          | .version major _ =>
              if versioned || major != 1 then fail .directive else directives fuel true handles
          | .handle name expansion =>
              if (handles.lookup name).isSome then fail .directive
              else directives fuel versioned ((name, expansion) :: handles)
          | .other => directives fuel versioned handles
      | _ => return handles

def documentEnds : Nat → Compose Unit
  | 0 => return
  | fuel + 1 => do
      if ← accept .documentEnd then documentEnds fuel else return

def document (fuel : Nat) : Compose (Option NodeId) := do
  match ← peek with
  | .streamEnd => return none
  | .directive _ | .documentStart => do
      let own ← directives fuel false []
      modify fun s => { s with handles := own ++ commonHandles }
      if !(← accept .documentStart) then fail .order
      let stops ← (do
        match ← peek with
        | .directive _ | .documentStart | .documentEnd | .streamEnd => return true
        | _ => return false)
      let i ← if stops then add Node.empty else node fuel true false
      finish i
  | _ => do
      let i ← node fuel true false
      finish i
where
  /-- Nothing may follow the document. -/
  finish (i : NodeId) : Compose (Option NodeId) := do
    documentEnds fuel
    if (← peek) == .streamEnd then return some i else fail .secondDocument

end Compose

/-- The graph of a text that holds one document; nothing for a text without any. -/
def Graph.ofText? (text : String) : Except Fault (Option Graph) :=
  let (tokens, fault) := Token.scan text.toList
  let start : ComposeState := ⟨tokens, fault, [], [], Compose.commonHandles⟩
  (Compose.document (4 * tokens.length + 8) start).map fun (root, s) => root.map fun i => ⟨s.nodes, i⟩

end ApiDiscovery.Yaml
