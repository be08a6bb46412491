import ApiDiscovery.Http.Outgoing

/-!
# Failed calls

`TransportFault` says why a request that was made ready got no good answer. Each fault is of a kind
that callers tell apart; it carries a status where a response was received.
-/

namespace ApiDiscovery

/-- The kinds of faults that callers tell apart. -/
inductive TransportKind where
  | general
  /-- A document could not be fetched. -/
  | fetch
  /-- The caller is not allowed. -/
  | auth
  | notFound
  | server
  | connection
deriving DecidableEq, Repr

def TransportKind.ofStatus (status : Int) : TransportKind :=
  if status = 401 || status = 403 then .auth else if status = 404 then .notFound else .server

inductive TransportFault where
  /-- A response whose status is an error, with what its body says. -/
  | refused (status : Int) (detail : String)
  /-- A response to a fetch whose status is no success. -/
  | fetchRefused (url : String) (status : Int)
  | fetchFailed (url text : String)
  /-- The network failed in every attempt, the last time with these words. -/
  | unreachable (attempts : Nat) (text : String)
  /-- No attempt was allowed. -/
  | exhausted
  /-- A fault in the words of another carrier. -/
  | described (kind : TransportKind) (text : String) (status : Option Int) (answered : Bool)
deriving DecidableEq, Repr

namespace TransportFault

def kind : TransportFault → TransportKind
  | refused status _ => .ofStatus status
  | fetchRefused .. | fetchFailed .. => .fetch
  | unreachable .. => .connection
  | exhausted => .server
  | described kind .. => kind

def status? : TransportFault → Option Int
  | refused status _ | fetchRefused _ status => some status
  | described _ _ status _ => status
  | _ => none

def isAnswered : TransportFault → Bool
  | refused .. | fetchRefused .. => true
  | described _ _ _ answered => answered
  | _ => false

def message : TransportFault → String
  | refused status detail =>
      "HTTP " ++ toString status ++ (if detail.isEmpty then "" else ": " ++ detail)
  | fetchRefused url status =>
      "HTTP " ++ toString status ++ " fetching discovery document from " ++ url
  | fetchFailed url text => "Failed to fetch discovery document from " ++ url ++ ": " ++ text
  | unreachable attempts text =>
      "Connection failed after " ++ toString attempts ++ " attempts: " ++ text
  | exhausted => "Request failed after all retries"
  | described _ text _ _ => text

end TransportFault

/-- Why a call has no response. -/
inductive CallFault where
  | transport (f : TransportFault)
  | send (f : Http.SendFault)
  /-- The body of a response is not read as a text. -/
  | unreadable (f : Text.Charset.Fault)

end ApiDiscovery
