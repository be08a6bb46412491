import ApiDiscovery.Client.Tree
import ApiDiscovery.Error

/-!
# Access to the members of a client

A member is reached by its name as an item or as an attribute. Attributes are not only members: every
node has some of its own, which win, all with a leading underscore. A member whose name is a reserved word
is also reached with an underscore behind it, unless another member has that very name.
-/

namespace ApiDiscovery

open Text

/-- The words that cannot be written as the name of an attribute. -/
def reservedWords : List String := [
  "False", "None", "True", "and", "as", "assert", "async", "await", "break", "class", "continue",
  "def", "del", "elif", "else", "except", "finally", "for", "from", "global", "if", "import", "in",
  "is", "lambda", "nonlocal", "not", "or", "pass", "raise", "return", "try", "while", "with",
  "yield"]

/-! ## Attributes that are no members -/

/-- The attributes that every object has, with the words for their kinds. -/
def commonAttributes : List (String × String) :=
  ["__delattr__", "__eq__", "__ge__", "__getattribute__", "__gt__", "__hash__", "__le__", "__lt__",
    "__ne__", "__str__"].map (fun n => (n, "method-wrapper")) ++
  ["__format__", "__getstate__", "__init_subclass__", "__new__", "__reduce__", "__reduce_ex__",
    "__sizeof__", "__subclasshook__"].map (fun n => (n, "builtin_function_or_method")) ++
  [("__class__", "type"), ("__dict__", "dict"), ("__doc__", "str"), ("__init__", "method"),
    ("__module__", "str"), ("__repr__", "method"), ("__weakref__", "NoneType")]

/-- The attributes that every node has besides, with the words for their kinds. -/
def nodeAttributes : List (String × String) :=
  ["__contains__", "__dir__", "__getattr__", "__getitem__", "__setattr__", "_iter_methods",
    "_method_paths"].map (fun n => (n, "method")) ++ [("_children", "dict"), ("_name", "str")]

def clientAttributes : List (String × String) := [
  ("_context", "BuildContext"), ("_document", "DiscoveryDocument"), ("_options", "ClientOptions"),
  ("_params", "mappingproxy")]

def methodAttributes : List (String × String) := [
  ("__call__", "method"), ("__dir__", "builtin_function_or_method"),
  ("__setattr__", "method-wrapper"), ("_context", "BuildContext"), ("_schema", "MethodSchema"),
  ("id", "str"), ("invoke", "method"), ("name", "str"), ("prepare", "method"),
  ("schema", "MethodSchema")]

/-! ## Places -/

/-- What accesses lead to. A member is known by the names on the way to it. -/
inductive Place where
  | client
  | member (way : List String) (m : Member)
  | text (s : String)
  | nothing
  /-- The members of a node. -/
  | members (ms : Members)
  /-- Something of a kind that is nobody's concern. -/
  | internal (kind : String)

/-- One access. -/
inductive Access where
  | attr (name : String)
  | item (name : String)
deriving DecidableEq, Repr

/-- A node: its kind, its name, its members and the names on the way to it. -/
structure Branch where
  isClient : Bool
  name : String
  members : Members
  way : List String

namespace Branch

def kindName (n : Branch) : String := if n.isClient then "Client" else "Resource"

def described (n : Branch) : String := n.kindName ++ " " ++ quoted n.name

/-- The attributes of a node that are no members. -/
def ownAttributes (n : Branch) : List (String × String) :=
  commonAttributes ++ nodeAttributes ++ if n.isClient then clientAttributes else []

/-- An attribute of a node that is no member. -/
def own? (n : Branch) (name : String) : Option Place :=
  if name == "_name" then some (.text n.name)
  else if name == "_children" then some (.members n.members)
  else if name == "__weakref__" then some .nothing
  else (n.ownAttributes.lookup name).map .internal

def child? (n : Branch) (name : String) : Option Place :=
  (lookupEntry name n.members).map fun m => .member (n.way ++ [name]) m

/-- The reserved word that a name is with an underscore behind it. -/
def reservedWord? (name : String) : Option String :=
  let word := String.ofList name.toList.dropLast
  if name.endsWith "_" && reservedWords.contains word then some word else none

def attr (n : Branch) (name : String) : Except Error Place :=
  match (n.own? name).or ((n.child? name).or ((reservedWord? name).bind n.child?)) with
  | some p => .ok p
  | none => .error (.member (.noMember n.described name))

def item (n : Branch) (name : String) : Except Error Place :=
  match n.child? name with
  | some p => .ok p
  | none => .error (.member (.noItem name))

/-- Whether the listing of a node's attributes has a name. -/
def lists (n : Branch) (name : String) : Bool :=
  (n.ownAttributes.lookup name).isSome || (lookupEntry name n.members).isSome

end Branch

namespace Client

def methodAttr (name : String) (m : Method) (attr : String) : Except Error Place :=
  let ofText (t : Option String) : Place := (t.map Place.text).getD .nothing
  if attr == "name" then .ok (.text name)
  else if attr == "id" then .ok (ofText m.id)
  else if attr == "__doc__" then .ok (ofText m.description)
  else if attr == "__weakref__" then .ok .nothing
  else
    match (methodAttributes ++ commonAttributes).lookup attr with
    | some kind => .ok (.internal kind)
    | none => .error (.member (.noAttribute "ApiMethod" attr))

end Client

namespace Place

def node? (c : Client) : Place → Option Branch
  | client => some ⟨true, c.document.name, c.members, []⟩
  | member way (.group name ms) => some ⟨false, name, ms, way⟩
  | _ => none

def kindName : Place → String
  | client => "Client"
  | member _ m => m.kindName
  | text _ => "str"
  | nothing => "NoneType"
  | members _ => "dict"
  | internal kind => kind

def access (c : Client) (p : Place) (a : Access) : Except Error Place :=
  match p.node? c, p, a with
  | some n, _, .attr name => n.attr name
  | some n, _, .item name => n.item name
  | none, .member _ (.method own m), .attr name => Client.methodAttr own m name
  | none, _, .attr name => .error (.member (.noAttribute p.kindName name))
  | none, _, .item _ => .error (.usage (.notSubscriptable p.kindName))

/-- Whether the listing of the attributes at a place has a name. -/
def lists (c : Client) (p : Place) (name : String) : Bool :=
  match p.node? c, p with
  | some n, _ => n.lists name
  | none, .member .. => ((methodAttributes ++ commonAttributes).lookup name).isSome
  | none, _ => (commonAttributes.lookup name).isSome

def same : Place → Place → Bool
  | client, client => true
  | member w _, member v _ => w == v
  | text s, text t => s == t
  | nothing, nothing => true
  | _, _ => false

end Place

namespace Client

def follow (c : Client) (way : List Access) : Except Error Place :=
  way.foldlM (Place.access c) .client

/-- The method that stands at a place; `operation` is what it is wanted for. -/
def methodAt (c : Client) (p : Place) (operation : String) : Except Error (String × Method) :=
  match p with
  | .member _ (.method name m) => .ok (name, m)
  | p =>
      match p.node? c with
      | some n => .error (.member (.noMember n.described operation))
      | none => .error (.member (.noAttribute p.kindName operation))

def callableAt (p : Place) : Except Error (String × Method) :=
  match p with
  | .member _ (.method name m) => .ok (name, m)
  | p => .error (.usage (.notCallable p.kindName))

/-- The node that stands at a place; `operation` is what it is wanted for. -/
def nodeAt (c : Client) (p : Place) (operation : String) : Except Error Branch :=
  match p.node? c with
  | some n => .ok n
  | none => .error (.member (.noAttribute p.kindName operation))

def computedAttributes : List String := ["id", "schema"]

/-- Nothing can be assigned in a client. -/
def assign (c : Client) (p : Place) (name : String) : Error :=
  match p.node? c, p with
  | some n, _ => .member (.readOnly n.described)
  | none, .member .. =>
      if computedAttributes.contains name then .member (.computed p.kindName name)
      else .member (.noAttribute p.kindName name)
  | none, _ => .member (.noAttribute p.kindName name)

/-- Nor can a default be set. -/
def setDefault : Error := .usage (.noItemAssignment "mappingproxy")

end Client

end ApiDiscovery
