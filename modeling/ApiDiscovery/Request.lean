import ApiDiscovery.Json.Writer
import ApiDiscovery.Options
import ApiDiscovery.Parameters
import ApiDiscovery.Text.LetterCase
import ApiDiscovery.Url.Query

/-!
# Requests

The parameters of a call become a request. Those that fill holes of the path go there. A parameter
named as the body is the body, unless the method declares a parameter of that name; those declared
for the body become its fields. All others go to the query, by increasing name.
-/

namespace ApiDiscovery

open Json

/-- A request that is ready to be sent. -/
structure Request where
  verb : String
  url : String
  query : String
  /-- The values that the query was written from. -/
  queryParameters : Table Value
  body : Option Value
  headers : Table String

def Request.fullUrl (r : Request) : String :=
  if r.query.isEmpty then r.url else r.url ++ "?" ++ r.query

/-- Why no request can be made. -/
inductive RequestFault where
  | missing (m : MissingParameter)
  | unwritable (w : WriteFault)
deriving DecidableEq

def RequestFault.ofFill : FillFault → RequestFault
  | .missing m => .missing m
  | .unwritable => .unwritable .longNumber

/-! ## The query -/

/-- The text of a value that is written as it is. -/
def textValue (v : Value) : Except WriteFault Value :=
  if v.isWritable then .ok (.str v.text) else .error .longNumber

mutual

/-- The value that goes to the query: a mapping as text, a list item by item. -/
def queryValue : Value → Except WriteFault Value
  | .bool b => .ok (.str (if b then "true" else "false"))
  | .list items => do return .list (← queryValues items)
  | .tuple items => do return .list (← queryValues items)
  | .map entries => do return .str (← write Style.canonical (.map entries))
  | .str s => .ok (.str s)
  | .int n => .ok (.int n)
  | .float x => .ok (.float x)
  | v => textValue v

def queryValues : List Value → Except WriteFault (List Value)
  | [] => .ok []
  | v :: rest => do
      let w ← queryValue v
      return w :: (← queryValues rest)

end

/-- The text of one item in the query; null is empty. -/
def queryItemText : Value → String
  | .bool b => if b then "true" else "false"
  | .null => ""
  | v => v.text

/-- The pairs that a name has in the query: one for each item of a list, else one. -/
def queryPairs (e : String × Value) : List (String × String) :=
  match e.2 with
  | .list items => items.map fun v => (e.1, queryItemText v)
  | v => [(e.1, queryItemText v)]

def queryEntries (t : Table Value) : Except WriteFault (List (String × Value)) :=
  t.sorted.mapM fun e => do return (e.1, ← queryValue e.2)

/-- The values of the query, and its text if all of them can be written. -/
def writeQuery (t : Table Value) : Except WriteFault (List (String × Value) × String) := do
  let entries ← queryEntries t
  if entries.all (·.2.isWritable) then return (entries, Query.render (entries.flatMap queryPairs))
  else throw .longNumber

/-! ## The body -/

/-- The names that carry a whole body; the last one given counts. -/
def bodyNames : List String := ["resource", "requestBody"]

/-- Takes one name of a whole body out of the parameters, where the method does not declare it. -/
def takeNamed (m : Method) (taken : Option Value × Table Value) (name : String) :
    Option Value × Table Value :=
  if m.parameters.contains name then taken
  else
    match taken.2.get? name with
    | some v => (some v, taken.2.erase name)
    | none => taken

def takeBody (m : Method) (t : Table Value) : Option Value × Table Value :=
  bodyNames.foldl (takeNamed m) (none, t)

/-- Takes the fields of the body out of the parameters, in the order of the declarations. -/
def takeBodyFields (m : Method) (t : Table Value) : List (String × Value) × Table Value :=
  let names := (m.parameters.entries.filter fun p => p.2.location == .body).map (·.1)
  (names.filterMap fun n => (t.get? n).map fun v => (n, v), t.filter fun k _ => !names.contains k)

/-- The body with its fields, and the parameters that are left. Fields go under the keys of a mapping
that is the body; beside any other body they are left. -/
def mergeBody (body : Option Value) (fields : List (String × Value)) (rest : Table Value) :
    Option Value × Table Value :=
  if fields.isEmpty then (body, rest)
  else
    match body with
    | none => (some (.ofFields fields), rest)
    | some (.map entries) =>
        (some (.map (entries.foldl (fun acc e => Value.put e.1 e.2 acc)
          (fields.map fun f => (.str f.1, f.2)))), rest)
    | some v => (some v, rest.setAll fields)

/-! ## The request -/

/-- The URL of a path: from the root if it begins with a slash, else from the base of the API. A
given root takes the place of the document's. -/
def requestUrl (d : Document) (path : String) (root : Option String) : String :=
  match (present root).or (present d.rootUrl) with
  | some root =>
      if path.startsWith "/" then joinUrl root path
      else joinUrl (joinUrl root (d.servicePath.getD "")) path
  | none => joinUrl d.apiBase path

def Method.requestVerb (m : Method) : String :=
  Text.upper ((present m.verb).getD "GET")

def buildRequest (m : Method) (d : Document) (parameters : Table Value) (options : Option Options) :
    Except RequestFault Request := do
  let (path, used) ← (Template.expand (m.path.getD "") parameters.get? m.id).mapError .ofFill
  let remaining := parameters.filter fun k v => !used.contains k && v != .null
  let (body, remaining) := takeBody m remaining
  let (fields, remaining) := takeBodyFields m remaining
  let (body, remaining) := mergeBody body fields remaining
  let (entries, query) ← (writeQuery remaining).mapError .unwritable
  return {
    verb := m.requestVerb
    url := requestUrl d path (options.bind (·.rootUrl))
    query
    queryParameters := Table.ofList entries
    body
    headers := (options.map (·.headers)).getD ∅ }

/-- The request of a call: resolves its parameters, then builds it. -/
def resolveRequest (defaults given : Table Value) (m : Method) (d : Document)
    (options : Option Options) : Except RequestFault Request :=
  match resolveParameters defaults given m d.parameters with
  | .ok parameters => buildRequest m d parameters options
  | .error e => .error (.missing e)

end ApiDiscovery
