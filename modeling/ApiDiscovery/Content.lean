import ApiDiscovery.Document.Fault
import ApiDiscovery.Document.Reader
import ApiDiscovery.Value.Text
import ApiDiscovery.Yaml.Value

/-!
# The text of a document

A document is written in JSON or in YAML. A text whose format is not known is read as JSON, and as
YAML if that fails. Either way it has to hold a mapping. `Content.parse` gives the mapping,
`Content.document` the document that its entries describe.

In YAML a mapping can contain itself. It is a mapping like any other to `Content.parse`; what it
describes is left open.
-/

namespace ApiDiscovery.Content

open Validation

/-- What is known about the format of a text. -/
inductive Format where
  | json
  | yaml
  | unknown
deriving DecidableEq, Repr

abbrev Entries := List (Value × Value)

def entriesOf : Value → Except ContentFault Entries
  | .map es => .ok es
  | v => .error (.document (.notMapping v))

/-- The mapping that a text holds. -/
inductive Mapping where
  | entries (es : Entries)
  /-- One that contains itself, by the nodes of its text. -/
  | looped (g : Yaml.Graph)

def mappingOf : Yaml.Loaded → Except ContentFault Mapping
  | .value v => (entriesOf v).map .entries
  | .looped .map g => .ok (.looped g)
  | .looped tag _ => .error (.document (.notMapping tag.emptyValue))

/-- The mapping of a text in YAML; `json` is why it is not JSON, if that was tried. -/
def parseYaml (text : String) (json : Option Json.Error) : Except ContentFault Mapping :=
  match Yaml.parse text with
  | .ok l => mappingOf l
  | .error (.malformed _) => .error (.document (.unreadable json))
  | .error f => .error (.scalar f)

def parse (text : String) (format : Format) : Except ContentFault Mapping :=
  if format = .yaml then parseYaml text none
  else
    match Json.parse text with
    | .ok v => (entriesOf v).map .entries
    | .error (.tooLong n) => .error (.longNumber (.tooLong n))
    | .error e =>
        if format = .json then .error (.document (.notJson e)) else parseYaml text (some e)

def givenName : Value → String
  | .map es => ((Value.entry? es "name").map Value.text).getD "<unnamed>"
  | _ => "<invalid>"

def documentOf (v : Value) : Except Document.Fault Document :=
  match Document.ofValue? v with
  | .ok d => .ok d
  | .error r => .error (.malformed (givenName v) r)

/-- The entries of a mapping that is a value. -/
def Mapping.values : Mapping → Except ContentFault Entries
  | .entries es => .ok es
  | .looped g => .error (.looped g)

/-- The entries of the mapping of a text. -/
def readEntries (text : String) (format : Format) : Except ContentFault Entries := do
  (← parse text format).values

def document (text : String) (format : Format) : Except ContentFault Document := do
  let es ← readEntries text format
  match documentOf (.map es) with
  | .ok d => return d
  | .error f => throw (.document f)

end ApiDiscovery.Content
