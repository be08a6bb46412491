import ApiDiscovery.Table
import ApiDiscovery.Url.Join
import ApiDiscovery.Value

/-!
# Discovery documents

A discovery document describes an API: a tree of resources with methods, and the parameters that
methods take. Keys that the description does not know are kept with every part of it.
-/

namespace ApiDiscovery

/-- Where a parameter goes in a request. -/
inductive Location where
  | path
  | query
  | body
deriving DecidableEq, Repr

def Location.word : Location → String
  | .path => "path"
  | .query => "query"
  | .body => "body"

/-- A parameter of a method, or of all methods of a document. -/
structure Parameter where
  type : String
  location : Location
  required : Bool
  /-- What the server assumes when the parameter is left out. -/
  default : Value
  repeated : Bool
  choices : Option (List String)
  description : Option String
  pattern : Option String
  format : Option String
  unknown : Table Value

/-- An operation of the API. Its verb and its path may be missing here; a client refuses it then. -/
structure Method where
  id : Option String
  verb : Option String
  path : Option String
  flatPath : Option String
  description : Option String
  parameters : Table Parameter
  parameterOrder : List String
  request : Option (Table Value)
  response : Option (Table Value)
  scopes : List String
  unknown : Table Value

/-- A group of methods and of further groups. -/
inductive Resource where
  | mk (methods : Table Method) (resources : List (String × Resource)) (unknown : Table Value)

namespace Resource

def methods : Resource → Table Method
  | mk ms _ _ => ms

def resources : Resource → List (String × Resource)
  | mk _ rs _ => rs

def unknown : Resource → Table Value
  | mk _ _ u => u

end Resource

/-- The description of an API. Its tree is the outermost resource. -/
structure Document where
  name : String
  version : String
  title : Option String
  description : Option String
  rootUrl : Option String
  servicePath : Option String
  basePath : Option String
  baseUrl : Option String
  parameters : Table Parameter
  schemas : Table Value
  tree : Resource

/-- A text that is there and not empty. -/
def present (s : Option String) : Option String := s.filter fun t => !t.isEmpty

/-- The URL that relative paths of methods are appended to: root and service path if there is a
root, else the base URL, else the base path. -/
def Document.apiBase (d : Document) : String :=
  match present d.rootUrl, present d.baseUrl with
  | some root, _ => joinUrl root (d.servicePath.getD "")
  | none, some base => base
  | none, none => d.basePath.getD ""

end ApiDiscovery
