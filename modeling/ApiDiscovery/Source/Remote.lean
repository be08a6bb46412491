import ApiDiscovery.Error
import ApiDiscovery.Listing

/-!
# The discovery service

A service answers with documents and with a directory of the APIs that it knows. Every fetch is made
once; a redirection is followed, a failure is not repeated.
-/

namespace ApiDiscovery

open Http

/-- A discovery service by its URL, which has no slash at its end. -/
structure Remote where
  url : String

namespace Remote

def ofUrl (url : String) : Remote := ⟨String.ofList (Text.trimRight isSlash url.toList)⟩

def documentUrl (r : Remote) (name version : String) : String :=
  r.url ++ "/apis/" ++ name ++ "/" ++ version ++ "/rest"

/-- The URL of the directory, of all versions or of the preferred ones. -/
def directoryUrl (r : Remote) (preferredOnly : Bool) : String :=
  r.url ++ "/apis" ++ (if preferredOnly then "?preferred=true" else "")

def occursIn (part s : List Char) : Bool :=
  match s with
  | [] => part.isEmpty
  | _ :: rest => part.isPrefixOf s || occursIn part rest

def formatOf (r : Response) : Content.Format :=
  let kind := ((r.headers.get? "content-type").getD "").toList
  if occursIn "yaml".toList kind || occursIn "yml".toList kind then .yaml else .unknown

def entriesOf (r : Response) : Except Error Content.Entries := do
  let text ←
    match r.text with
    | .ok t => pure t
    | .error f => throw (.unreadable f)
  match Content.readEntries text (formatOf r) with
  | .ok es => return es
  | .error f => throw (.ofContent f)

def fetchError (url : String) : SendFault → Error
  | .network f => .transport (.fetchFailed url f.text)
  | f => .ofSend f

def fetch (url : String) (n : Network) : Except Error Content.Entries × Network :=
  match Request.make? "GET" url [] none with
  | .error f => (.error (fetchError url f), n)
  | .ok wire =>
      match send wire n with
      | (.error f, n) => (.error (fetchError url f), n)
      | (.ok r, n) =>
          if r.isSuccess then (entriesOf r, n)
          else (.error (.transport (.fetchRefused url r.status)), n)

def documentOf (es : Content.Entries) : Except Error Document :=
  match Content.documentOf (.map es) with
  | .ok d => .ok d
  | .error f => .error (.document f)

def getUrl (url : String) (n : Network) : Except Error Document × Network :=
  let (r, n) := fetch url n
  (r.bind documentOf, n)

/-- The error of a version that the service does not have is that the API is unknown. -/
def unknownIfMissing (name version : String) : Error → Error
  | .transport (.fetchRefused _ 404) => .unknownApi name version none
  | e => e

def get (r : Remote) (name version : String) (n : Network) : Except Error Document × Network :=
  let (es, n) := fetch (r.documentUrl name version) n
  ((es.mapError (unknownIfMissing name version)).bind documentOf, n)

/-- The rows that entries list; the first that is none is reported. -/
def rowsOf (url : String) (es : Content.Entries) : Except Error (List Listing) := do
  let items := (Value.entry? es "items").getD .null
  let items ←
    if !items.truthy then pure []
    else
      match Options.itemsOf? items with
      | some l => pure l
      | none => throw (.usage (.notIterable items.qualifiedKindName))
  items.mapM fun v =>
    match Listing.ofValue? v with
    | .ok row => .ok row
    | .error r => .error (.document (.malformedDirectory url r))

/-- Fetches the directory; with `preferredOnly` only the rows that are flagged are kept. -/
def list (r : Remote) (preferredOnly : Bool) (n : Network) :
    Except Error (List Listing) × Network :=
  let url := r.directoryUrl preferredOnly
  let (es, n) := fetch url n
  let rows := es.bind (rowsOf url)
  (if preferredOnly then rows.map fun l => l.filter (·.preferred) else rows, n)

end Remote

end ApiDiscovery
