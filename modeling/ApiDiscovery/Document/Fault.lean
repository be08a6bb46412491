import ApiDiscovery.Files
import ApiDiscovery.Json.Reader
import ApiDiscovery.Validation.Issue
import ApiDiscovery.Yaml.Node

/-!
# What is amiss with a document

`Document.Fault` names what keeps a discovery document, or the directory of a discovery service, from
being used: its text, the form of its data, its methods, or that it is not there. Two more causes are
about a single number or scalar in the text and are no verdict on the document: `ContentFault` keeps
them apart, and with them the mappings that contain themselves.
-/

namespace ApiDiscovery

open Validation

/-- What keeps a document from being used. -/
inductive Document.Fault where
  /-- A text that holds a value of another kind than a mapping. -/
  | notMapping (v : Value)
  /-- A text that was to be JSON and is not. -/
  | notJson (e : Json.Error)
  /-- A text that is not YAML; it was tried as JSON before, if that was asked for. -/
  | unreadable (json : Option Json.Error)
  /-- Data that do not describe an API, with the name that they give. -/
  | malformed (name : String) (r : Rejection)
  | notFound (path : String)
  /-- A file that is there and cannot be read, with its path as it was given and as it is taken. -/
  | notRead (path : String) (place : Path) (f : FileFault)
  | blank (path : String)
  /-- A directory with rows that are none. -/
  | malformedDirectory (url : String) (r : Rejection)
  | noVerb (method : String)
  | noPath (method : String)
  /-- A name that is both a resource and a method at its place. -/
  | clash (place method : String)

namespace Document.Fault

def contentWord : Value → String
  | .null => "empty document"
  | v => v.kindName

def message : Fault → String
  | notMapping v => "Discovery document must be a JSON/YAML object (got " ++ contentWord v ++ ")"
  | notJson e => "Invalid JSON: " ++ e.message
  | unreadable json =>
      "Failed to parse discovery document as JSON or YAML" ++
        (json.map fun e => "\n  JSON error: " ++ e.message).getD "" ++ "\n  YAML error"
  | malformed name r => "Malformed discovery document '" ++ name ++ "': " ++ r.message
  | notFound path => "Discovery document not found: " ++ path
  | notRead path place f => "Failed to read discovery document " ++ path ++ ": " ++ f.message place
  | blank path => "Discovery document is empty: " ++ path
  | malformedDirectory url r => "Malformed discovery directory at " ++ url ++ ": " ++ r.message
  | noVerb method => "Method " ++ method ++ " has no httpMethod"
  | noPath method => "Method " ++ method ++ " has no path"
  | clash place _ => place ++ " is declared as both a resource and a method"

def method? : Fault → Option String
  | noVerb method | noPath method | clash _ method => some method
  | _ => none

def rejection? : Fault → Option Rejection
  | malformed _ r | malformedDirectory _ r => some r
  | _ => none

end Document.Fault

/-- Why a text gives no document. -/
inductive ContentFault where
  | document (f : Document.Fault)
  /-- A whole number in JSON of more digits than are converted. -/
  | longNumber (e : Json.Error)
  /-- A scalar in YAML that denotes nothing. -/
  | scalar (f : Yaml.Fault)
  /-- A mapping in YAML that contains itself. Whether it describes an API is left open. -/
  | looped (g : Yaml.Graph)

end ApiDiscovery
