import ApiDiscovery.Text.Base64
import ApiDiscovery.Text.LetterCase
import ApiDiscovery.Value
import ApiDiscovery.Yaml.Node.Compose

/-!
# The value of a YAML text

Every node denotes a value, which its tag decides. A mapping takes over the entries of the mappings
that it merges, in front of its own, so that its own win (`Graph.merge`).

A collection is made empty, and filled only after everything around it has been (`Building`), so that
one that stands in itself is there when it is met again. This order decides which of several faults is
reported. A collection that contains itself is no value; it comes out as `Loaded.looped`.

The fuel of each computation here counts what it uses up: entries that merge, nodes on a way down, or
collections to be filled.
-/

namespace ApiDiscovery.Yaml

open Number Text

/-! ## Scalars -/

def truthWord? (word : String) : Option Bool :=
  if ["yes", "true", "on"].contains word then some true
  else if ["no", "false", "off"].contains word then some false
  else none

def wholeIn (base : Nat) (cs : List Char) : Except Fault Int :=
  match wholeNumber? base cs with
  | .ok n => .ok n
  | .error .malformed => .error (.notWhole base (String.ofList cs))
  | .error (.tooLong n) => .error (.tooLong n)

def splitColons (cs : List Char) : List (List Char) :=
  cs.foldr (fun c parts =>
    if c == ':' then [] :: parts
    else
      match parts with
      | [] => [[c]]
      | p :: rest => (c :: p) :: rest) [[]]

/-- A whole number. Underscores do not count; a leading zero announces base eight, and colons part
the places of base sixty. -/
def wholeValue (cs : List Char) : Except Fault Int := do
  let body := cs.filter (· != '_')
  let some first := body.head? | throw .emptyNumber
  let body := if first == '+' || first == '-' then body.drop 1 else body
  let n ←
    match body with
    | '0' :: 'b' :: ds => wholeIn 2 ds
    | '0' :: 'x' :: ds => wholeIn 16 ds
    | ['0'] => pure 0
    | '0' :: _ => wholeIn 8 body
    | [] => throw .emptyNumber
    | _ =>
        if body.contains ':' then do
          let places ← (splitColons body).mapM (wholeIn 10)
          pure (places.foldl (fun n p => n * 60 + p) 0)
        else wholeIn 10 body
  return if first == '-' then -n else n

def numberIn (cs : List Char) : Except Fault Double :=
  match Double.read? (String.ofList cs) with
  | some x => .ok x
  | none => .error (.notNumber (String.ofList cs))

/-- Adds a place of base sixty to the sum of those behind it, which comes with what a one counts for there. -/
def addPlace (sum : Double × Nat) (place : Double) : Except Fault (Double × Nat) :=
  let weight := Double.ofInt sum.2
  if weight.isFinite then .ok (sum.1.add (place.mul weight), sum.2 * 60) else .error .tooLarge

/-- A fractional number. Colons part the places of base sixty, which are added up from the last to
the first. -/
def numberValue (cs : List Char) : Except Fault Double := do
  let body := lowerFrom false (cs.filter (· != '_'))
  let some first := body.head? | throw .emptyNumber
  let body := if first == '+' || first == '-' then body.drop 1 else body
  let x ←
    if String.ofList body == ".inf" then pure (Double.infinite false)
    else if String.ofList body == ".nan" then pure Double.nan
    else if body.contains ':' then do
      let places ← (splitColons body).mapM numberIn
      let sum ← places.reverse.foldlM addPlace (Double.zero false, 1)
      pure sum.1
    else numberIn body
  return if first == '-' then x.negate else x

/-- The first six digits of a fraction of a second, in millionths. -/
def millionths (fraction : List Char) : Nat :=
  decimalDigits ((fraction.take 6) ++ List.replicate (6 - fraction.length) '0')

def timestampValue (cs : List Char) : Except Fault Value := do
  let some p := timestampParts? cs | throw .notTimestamp
  let year := decimalDigits p.year
  let month := decimalDigits p.month
  let day := decimalDigits p.day
  if p.hour.isEmpty then
    match Date.make? year month day with
    | .ok d => return .date d
    | .error f => throw (.calendar f)
  else
    let offset : Option Int := p.zone.map fun z =>
      match z with
      | none => 0
      | some (west, hours, minutes) =>
          let seconds : Int := decimalDigits hours * 3600 + decimalDigits minutes * 60
          if west then -seconds else seconds
    match Timestamp.make? year month day (decimalDigits p.hour) (decimalDigits p.minute)
        (decimalDigits p.second) (millionths p.fraction) offset with
    | .ok t => return .timestamp t
    | .error f => throw (.calendar f)

def scalarValue (tag : Tag) (text : String) : Except Fault Value :=
  match tag with
  | .null => .ok .null
  | .bool =>
      let word := lower text
      match truthWord? word with
      | some b => .ok (.bool b)
      | none => .error (.noTruthValue word)
  | .int => (wholeValue text.toList).map .int
  | .float => (numberValue text.toList).map .float
  | .binary =>
      match if text.toList.all (·.toNat < 0x80) then Base64.decode? text.toList else none with
      | some bytes => .ok (.bytes bytes)
      | none => refuse .base64
  | .timestamp => timestampValue text.toList
  | .str => .ok (.str text)
  | _ => refuse .unknownTag

/-- The text of a node under a scalar's tag: its own, or that of a mapping's default value. -/
def Graph.scalarText (g : Graph) : Nat → NodeId → Except Fault String
  | 0, _ => .error .endlessDefault
  | fuel + 1, i =>
      match g.node? i with
      | some (.scalar _ text) => .ok text
      | some (.mapping _ entries) =>
          match entries.find? fun e => g.hasTag .default e.1 with
          | some e => g.scalarText fuel e.2
          | none => refuse .scalarExpected
      | _ => refuse .scalarExpected

/-- The value of a node under the tag of a scalar, or under one that denotes nothing. -/
def Graph.leaf (g : Graph) (i : NodeId) (n : Node) : Except Fault Value :=
  match n.tag with
  | .other _ | .merge | .default => refuse .unknownTag
  | tag => do
      let text ← g.scalarText (g.nodes.length + 1) i
      match tag, n with
      | .timestamp, .mapping .. => .error .timestampMapping
      | _, _ => scalarValue tag text

/-! ## Merging -/

namespace Graph

/-- From when a mapping is merged, the mark of a default value is a text among its keys. -/
def plainKey (g : Graph) (i : NodeId) : Graph :=
  match g.node? i with
  | some n => if n.tag = .default then g.put i (n.withTag .str) else g
  | none => g

/-- Puts what a mapping takes over in front of its entries. -/
def takeOver (g : Graph) (i : NodeId) (merged : List NodeEntry) : Graph :=
  let own := g.entries i
  (own.foldl (fun g e => g.plainKey e.1) g).setEntries i (merged ++ own)

/-- The first merge among the entries of a mapping: what is merged, and the graph without the entry. -/
def nextMerge? (g : Graph) (i : NodeId) : Option (NodeId × Graph) :=
  let isMerge (e : NodeEntry) := g.hasTag .merge e.1
  ((g.entries i).find? isMerge).map fun e => (e.2, g.setEntries i ((g.entries i).eraseP isMerge))

/-- The entries of several mappings, those of the last one first, when each of them is merged. -/
def mergeItems (merge : Graph → NodeId → Except Fault Graph) :
    Graph → List NodeId → Except Fault (Graph × List NodeEntry)
  | g, [] => .ok (g, [])
  | g, i :: rest =>
      match g.node? i with
      | some (.mapping ..) => do
          let g ← merge g i
          let here := g.entries i
          let (g, more) ← mergeItems merge g rest
          return (g, more ++ here)
      | _ => refuse .merge

/-- The entries that a node gives to a mapping which merges it. -/
def mergeSource (merge : Graph → NodeId → Except Fault Graph) (g : Graph) (source : NodeId) :
    Except Fault (Graph × List NodeEntry) :=
  match g.node? source with
  | some (.mapping ..) => do
      let g ← merge g source
      return (g, g.entries source)
  | some (.sequence _ items) => mergeItems merge g items
  | _ => refuse .merge

/-- Carries out the merges of a mapping, behind those that were. An entry that merges is taken out before
what it merges is looked at, so a mapping may even merge itself. -/
def mergeFrom : Nat → List NodeEntry → Graph → NodeId → Except Fault Graph
  | 0, _, _, _ => refuse .merge
  | fuel + 1, merged, g, i =>
      match g.nextMerge? i with
      | none => .ok (g.takeOver i merged)
      | some (source, g) => do
          let (g, more) ← mergeSource (mergeFrom fuel []) g source
          mergeFrom fuel (merged ++ more) g i

def entryCount (g : Graph) : Nat := ((List.range g.nodes.length).flatMap g.entries).length

/-- Carries out the merges of a mapping. -/
def merge (g : Graph) (i : NodeId) : Except Fault Graph := mergeFrom (g.entryCount + 1) [] g i

end Graph

/-! ## Collections -/

/-- What a node was made to be. -/
inductive Part where
  | leaf (v : Value)
  | collection
deriving DecidableEq

/-- A document on its way to a value: its nodes, those that have been made, and the collections that
are still to be filled, in this order. -/
structure Building where
  graph : Graph
  made : List (NodeId × Part) := []
  queue : List NodeId := []

namespace Building

/-- Makes a node, unless it has been made: a scalar, or a collection that is to be filled. -/
def make (b : Building) (i : NodeId) : Except Fault Building :=
  match b.made.lookup i, b.graph.node? i with
  | none, some n =>
      if n.tag.isCollection then
        .ok { b with made := (i, .collection) :: b.made, queue := b.queue ++ [i] }
      else do
        let v ← b.graph.leaf i n
        return { b with made := (i, .leaf v) :: b.made }
  | _, _ => .ok b

/-- Makes the key and the value of an entry. A collection is no key. -/
def makeEntry (b : Building) (e : NodeEntry) : Except Fault Building := do
  let b ← b.make e.1
  if b.made.lookup e.1 = some .collection then refuse .unhashableKey else b.make e.2

/-- Makes the parts of a pair, which is a mapping of one entry. -/
def makePair (b : Building) (i : NodeId) : Except Fault Building :=
  match b.graph.node? i with
  | some (.mapping _ [e]) => do (← b.make e.1).make e.2
  | some (.mapping ..) => refuse .singleEntryExpected
  | _ => refuse .mappingExpected

/-- Makes what is in a collection. -/
def fill (b : Building) (i : NodeId) : Except Fault Building :=
  match b.graph.node? i with
  | none => .ok b
  | some n =>
      match n.tag, n with
      | .seq, .sequence _ items => items.foldlM make b
      | .orderedMap, .sequence _ items | .pairs, .sequence _ items => items.foldlM makePair b
      | .map, .mapping .. | .set, .mapping .. => do
          let g ← b.graph.merge i
          (g.entries i).foldlM makeEntry { b with graph := g }
      | .map, _ | .set, _ => refuse .mappingExpected
      | _, _ => refuse .sequenceExpected

/-- Fills all collections, and those in them after them. -/
def run : Nat → Building → Except Fault Building
  | 0, b => .ok b
  | fuel + 1, b =>
      match b.queue with
      | [] => .ok b
      | i :: rest => do run fuel (← fill { b with queue := rest } i)

/-- The value of a node, unless the way down to it is longer than the fuel. -/
def valueOf? (b : Building) : Nat → NodeId → Option Value
  | 0, _ => none
  | fuel + 1, i =>
      match b.made.lookup i, b.graph.node? i with
      | some (.leaf v), _ => some v
      | _, some (.sequence .seq items) => (items.mapM (b.valueOf? fuel)).map .list
      | _, some (.sequence _ items) =>
          (items.mapM fun j => do
            let e ← (b.graph.entries j).head?
            return Value.tuple [← b.valueOf? fuel e.1, ← b.valueOf? fuel e.2]).map .list
      | _, some (.mapping .set entries) =>
          (entries.mapM fun e => b.valueOf? fuel e.1).map fun keys =>
            .set ((Value.putAll (keys.map fun k => (k, .null))).map (·.1))
      | _, some (.mapping _ entries) =>
          (entries.mapM fun (k, v) => do return (← b.valueOf? fuel k, ← b.valueOf? fuel v)).map fun es =>
            .map (Value.putAll es)
      | _, _ => none

end Building

/-- What a text denotes. -/
inductive Loaded where
  | value (v : Value)
  /-- A collection of the tag that contains itself, or one that does, and so is no value: all its nodes. -/
  | looped (tag : Tag) (g : Graph)

def Graph.load (g : Graph) : Except Fault Loaded := do
  let count := g.nodes.length + 1
  let b ← Building.run count (← Building.make { graph := g } g.root)
  match b.valueOf? count g.root with
  | some v => return .value v
  | none => return .looped (((g.node? g.root).map Node.tag).getD .seq) b.graph

/-- What a text denotes; an empty one denotes null. -/
def parse (text : String) : Except Fault Loaded := do
  match ← Graph.ofText? text with
  | none => return .value .null
  | some g => g.load

end ApiDiscovery.Yaml
