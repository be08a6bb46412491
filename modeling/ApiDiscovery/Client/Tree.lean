import ApiDiscovery.Document.Fault
import ApiDiscovery.Options
import ApiDiscovery.Text.Quoted
import ApiDiscovery.Document

/-!
# The tree of a client

A client has a member for each resource and each method of its document, nested as they are. At every
level the resources come before the methods, both in the order of the document.

Building stops at the first defect: all resources of a level, each as a whole, are looked at before the
methods of the level. A method is defective if its name is a resource's, if it has no verb, or if it has no
path. `Member.methods` lists the methods with their dotted paths.
-/

namespace ApiDiscovery

open Text

/-- A method, or a group of further members. -/
inductive Member where
  | method (name : String) (schema : Method)
  | group (name : String) (members : List (String × Member))
deriving Inhabited

abbrev Members := List (String × Member)

namespace Member

/-! ## Building -/

/-- The member of a method among those before it, at a place. -/
def ofMethod (place : String) (before : Members) (name : String) (m : Method) :
    Except Document.Fault Member :=
  let dotted := place ++ "." ++ name
  if before.any fun e => e.1 == name then .error (.clash dotted ((present m.id).getD dotted))
  else if (present m.verb).isNone then .error (.noVerb ((present m.id).getD name))
  else if m.path.isNone then .error (.noPath ((present m.id).getD name))
  else .ok (.method name m)

def addMethods (place : String) (before : Members) :
    List (String × Method) → Except Document.Fault Members
  | [] => .ok before
  | (name, m) :: rest => do
      let member ← ofMethod place before name m
      addMethods place (before ++ [(name, member)]) rest

mutual

def ofResource (place : String) : Resource → Except Document.Fault Members
  | .mk methods resources _ => do
      addMethods place (← ofResources place resources) methods.entries

def ofResources (place : String) : List (String × Resource) → Except Document.Fault Members
  | [] => .ok []
  | (name, r) :: rest => do
      let members ← ofResource (place ++ "." ++ name) r
      let others ← ofResources place rest
      return (name, .group name members) :: others

end

/-! ## Listing -/

def dotted (path name : String) : String := if path.isEmpty then name else path ++ "." ++ name

mutual

def methodsAt (path : String) : Member → List (String × String × Method)
  | .method name m => [(path, name, m)]
  | .group _ members => methodsBelow path members

/-- The methods of members, which stand below a path: path, name and schema of each. -/
def methodsBelow (path : String) : Members → List (String × String × Method)
  | [] => []
  | (name, m) :: rest => methodsAt (dotted path name) m ++ methodsBelow path rest

end

end Member

/-- A client: what it was made from, and its members. -/
structure Client where
  document : Document
  options : Options
  members : Members

namespace Client

def build (d : Document) (o : Options) : Except Document.Fault Client := do
  return ⟨d, o, ← Member.ofResource d.name d.tree⟩

/-- The parameters that every call starts from. -/
def defaults (c : Client) : Table Value := c.options.params

def methods (c : Client) : List (String × String × Method) := Member.methodsBelow "" c.members

def sortedPaths (ms : List (String × String × Method)) : List String :=
  (ms.map (·.1)).mergeSort fun a b => a ≤ b

def shown (c : Client) : String := "<Client " ++ c.document.name ++ " " ++ c.document.version ++ ">"

end Client

namespace Member

def kindName : Member → String
  | method .. => "ApiMethod"
  | group .. => "Resource"

def shown : Member → String
  | method name m =>
      "<ApiMethod " ++ (present m.id).getD name ++ ": " ++ m.verb.getD "None" ++ " " ++
        m.path.getD "None" ++ ">"
  | group name members =>
      "<Resource " ++ quoted name ++ ": " ++
        ", ".intercalate ((members.map (·.1)).mergeSort fun a b => a ≤ b) ++ ">"

end Member

end ApiDiscovery
