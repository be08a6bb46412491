import ApiDiscovery.Client.Loop
import ApiDiscovery.Source.Bundle
import ApiDiscovery.Source.Remote

/-!
# Factories of clients

A factory makes clients of documents, whether they are bundled, served by the discovery service, or at
hand. Its own options lie under those that are given for each client.

A factory remembers what it last learned from the service's directory (`Factory.discover`), name by name.
`Factory.maker` tells how an API is made by its name alone: the bundled documents come first, then what
was discovered.
-/

namespace ApiDiscovery

open Http

/-- What is given for one client: options, and settings by name over them. -/
structure Choices where
  given : Options.Given := .data .null
  settings : List (String × Value) := []

/-- No setting may have the name of an argument that is given already. -/
def Choices.check (c : Choices) (operation : String) (taken : List String) : Except Error Unit :=
  match c.settings.find? fun s => taken.contains s.1 with
  | some s => .error (.usage (.twice operation s.1))
  | none => .ok ()

def Choices.options (c : Choices) : Except Error Options :=
  match Options.coerce c.given c.settings with
  | .ok o => .ok o
  | .error f => .error (.ofGiven f)

/-- Options over others. -/
def Options.layered (upper lower : Options) : Except Error Options :=
  match upper.layer lower with
  | .ok o => .ok o
  | .error r => .error (.rejected r)

/-- How requests of clients with the options are carried out. -/
def Http.Transport.ofOptions (o : Options) : Transport := { retries := o.maxRetries }

structure Factory where
  options : Options
  bundle : Option Bundle
  remote : Remote
  /-- The rows of the directory that were seen last, by the names of the APIs. -/
  discovered : Table Listing := ∅
  /-- What carries out the requests of all clients, if they share it. -/
  shared : Option (Responder World) := none

namespace Factory

/-- The factory of settings, with options over them. Bundled documents are those of the settings unless
others are given. -/
def ofSettings (s : Settings) (given : Options.Given) (bundle : Option Bundle)
    (shared : Option (Responder World)) : Except Error Factory := do
  let o ← Choices.options { given }
  return {
    options := ← o.layered s.options
    bundle := bundle.or ((present s.bundleDir).map fun d => { directory := Path.ofText d })
    remote := Remote.ofUrl s.discoveryUrl
    shared }

/-- The factory of the settings that are in force where the program runs. -/
def ofEnvironment (e : Environment) (given : Options.Given) (bundle : Option Bundle)
    (shared : Option (Responder World)) (fs : Files) : Except Error Factory × Files :=
  match e.resolve fs with
  | (.ok s, fs) => (ofSettings s given bundle shared, fs)
  | (.error f, fs) => (.error (.ofStore f), fs)

/-- What carries out the requests of a client with the options. -/
def responder (f : Factory) (o : Options) : Responder World :=
  f.shared.getD (Responder.network (Transport.ofOptions o))

/-! ## Making clients -/

def fromDocument (f : Factory) (d : Document) (c : Choices) : Except Error Client := do
  c.check "DiscoGen.from_document" ["self", "document", "options"]
  match Client.build d (← (← c.options).layered f.options) with
  | .ok client => return client
  | .error fault => throw (.document fault)

def fromData (f : Factory) (v : Value) (c : Choices) : Except Error Client := do
  c.check "DiscoGen.from_document" ["self", "document", "options"]
  match Content.documentOf v with
  | .ok d => f.fromDocument d c
  | .error fault => throw (.document fault)

/-- The error of a factory without bundled documents. -/
def notBundled (name version : String) : Error :=
  .unknownApi name version
    (some ("Unknown API: " ++ name ++ " " ++ version ++ " (no bundled documents configured)"))

def create (f : Factory) (fs : Files) (name version : String) (c : Choices) :
    Except Error Client × Factory :=
  match c.check "DiscoGen.create" ["self", "name", "version", "options"], f.bundle with
  | .error e, _ => (.error e, f)
  | .ok _, none => (.error (notBundled name version), f)
  | .ok _, some b =>
      let (d, b) := b.get fs name version
      (d.bind fun d => f.fromDocument d c, { f with bundle := some b })

/-- The client of a document that the service serves. -/
def load (f : Factory) (name version : String) (c : Choices) (n : Network) :
    Except Error Client × Network :=
  match c.check "DiscoGen.load" ["self", "name", "version", "options"] with
  | .error e => (.error e, n)
  | .ok _ =>
      let (d, n) := f.remote.get name version n
      (d.bind fun d => f.fromDocument d c, n)

/-! The factory that the program keeps for all is used without naming it; a setting is then first looked
at as an argument of the operation without an owner. -/

/-- The client of a bundled document, by the factory for all. -/
def createForAll (f : Factory) (fs : Files) (name version : String) (c : Choices) :
    Except Error Client × Factory :=
  match c.check "create" ["name", "version", "options"] with
  | .error e => (.error e, f)
  | .ok _ => f.create fs name version c

/-- The client of a document that the service serves, by the factory for all. -/
def loadForAll (f : Factory) (name version : String) (c : Choices) (n : Network) :
    Except Error Client × Network :=
  match c.check "load" ["name", "version", "options"] with
  | .error e => (.error e, n)
  | .ok _ => f.load name version c n

/-- Whether a place is on the network, not among the files. -/
def isOnNetwork (place : String) : Bool :=
  place.startsWith "http://" || place.startsWith "https://"

def loadFrom (f : Factory) (fs : Files) (place : String) (c : Choices) (n : Network) :
    Except Error Client × Network :=
  match c.check "DiscoGen.load_url" ["self", "location", "options"] with
  | .error e => (.error e, n)
  | .ok _ =>
      let (d, n) := if isOnNetwork place then Remote.getUrl place n else (loadDocument fs place, n)
      (d.bind fun d => f.fromDocument d c, n)

/-! ## The directory -/

/-- Remembers rows, later ones over earlier ones of the same name. -/
def remember (f : Factory) (rows : List Listing) : Factory :=
  { f with discovered := f.discovered.setAll (rows.map fun r => (r.name, r)) }

/-- Fetches the directory and remembers its rows. -/
def discover (f : Factory) (preferredOnly : Bool) (n : Network) :
    Except Error (List Listing) × Factory × Network :=
  match f.remote.list preferredOnly n with
  | (.ok rows, n) => (.ok rows, f.remember rows, n)
  | (.error e, n) => (.error e, f, n)

def bundledNames (f : Factory) (fs : Files) : Except Error (List String) :=
  match f.bundle with
  | none => .ok []
  | some b =>
      match b.available fs with
      | .ok pairs => .ok (pairs.map (·.1))
      | .error fault => .error (.file fault)

/-- The names of all bundled and discovered APIs, in order and each once. -/
def apis (f : Factory) (fs : Files) : Except Error (List String) := do
  return ((f.discovered.keys ++ (← f.bundledNames fs)).mergeSort fun a b => a ≤ b).eraseReps

/-! ## Making clients by the names of APIs -/

def ownAttributes : List String :=
  commonAttributes.map (·.1) ++
    ["__dir__", "__getattr__", "__setattr__", "_bundled", "_discovered", "_http_transport", "_options",
      "_remote", "_transport", "apis", "bundled", "create", "discover", "from_document", "load",
      "load_url", "options", "remote"]

/-- How a name of a factory makes a client. -/
inductive Maker where
  /-- It does not: it is an attribute of the factory. -/
  | own
  | bundled
  | remote (row : Listing)

def maker (f : Factory) (fs : Files) (name : String) : Except Error Maker := do
  if ownAttributes.contains name then return .own
  if name.startsWith "_" then throw (.member (.hidden name))
  if (← f.bundledNames fs).contains name then return .bundled
  match f.discovered.get? name with
  | some row => return .remote row
  | none => throw (.member (.noApi name))

/-- The client that a name makes. A discovered API has a version of its own where none is given. -/
def make (f : Factory) (fs : Files) (name : String) (version : Option String) (c : Choices)
    (n : Network) : Except Error Client × Factory × Network :=
  match f.maker fs name with
  | .error e => (.error e, f, n)
  | .ok .own => (.error (.usage (.notCallable "method")), f, n)
  | .ok .bundled =>
      let operation := "DiscoGen.__getattr__.<locals>._create"
      match c.check operation ["version", "options"], version with
      | .error e, _ => (.error e, f, n)
      | .ok _, none => (.error (.usage (.noArgument operation "version")), f, n)
      | .ok _, some v =>
          let (client, f) := f.create fs name v c
          (client, f, n)
  | .ok (.remote row) =>
      match c.check "DiscoGen.__getattr__.<locals>._load" ["version", "options"] with
      | .error e => (.error e, f, n)
      | .ok _ =>
          let (client, n) := f.load name ((present version).getD row.version) c n
          (client, f, n)

end Factory

end ApiDiscovery
