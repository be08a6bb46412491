import ApiDiscovery.Http.Fault

/-!
# Carrying out requests

A request is attempted until it gets a response below 500 or fails for good, at most a given number of
times more than once. Attempts wait longer and longer for each other: one second, two, four. A
response whose status is an error becomes a fault with what its body says.

`retrying` is the loop, over any way to make one attempt and any way to wait. Every attempt hands the same
`Dispatch` to a `Sender`; `execute` takes the network for one.
-/

namespace ApiDiscovery.Http

/-! ## Attempts -/

/-- What an attempt amounts to. -/
inductive AttemptEnd where
  /-- A response that is taken as it is. -/
  | response (r : Response)
  /-- A response that says that the server failed. -/
  | serverFailure (r : Response)
  /-- A failure that may pass. -/
  | transient (f : Failure)
  | failed (f : SendFault)

def AttemptEnd.of : Except SendFault Response → AttemptEnd
  | .ok r => if r.status < 500 then .response r else .serverFailure r
  | .error (.network f) => if f.kind.isTransient then .transient f else .failed (.network f)
  | .error f => .failed f

/-- The seconds to wait after an attempt, counted from zero. -/
def delayAfter (attempt : Nat) : Nat := Nat.pow 2 attempt

abbrev Clock (σ : Type) := Nat → σ → σ

/-- Attempts from number `i` on, `left` more than this one at most, with waiting in between. -/
def retrying (attempt : σ → Except SendFault Response × σ) (wait : Clock σ) :
    Nat → Nat → σ → Except CallFault Response × σ
  | i, 0, s =>
      let (r, s) := attempt s
      match AttemptEnd.of r with
      | .response r | .serverFailure r => (.ok r, s)
      | .transient f => (.error (.transport (.unreachable (i + 1) f.text)), s)
      | .failed f => (.error (.send f), s)
  | i, left + 1, s =>
      let (r, s) := attempt s
      match AttemptEnd.of r with
      | .response r => (.ok r, s)
      | .failed f => (.error (.send f), s)
      | .serverFailure _ | .transient _ => retrying attempt wait (i + 1) left (wait (delayAfter i) s)

/-- All attempts, `retries` more than one at most; a negative number allows none. -/
def attemptAll (attempt : σ → Except SendFault Response × σ) (wait : Clock σ) (retries : Int) (s : σ) :
    Except CallFault Response × σ :=
  if retries < 0 then (.error (.transport .exhausted), s)
  else retrying attempt wait 0 retries.toNat s

/-! ## Statuses that are errors -/

/-- The text of the first value that counts as an answer. -/
def firstAnswer (vs : List (Option Value)) : String :=
  ((vs.filterMap id).find? Value.truthy).elim "" Value.text

/-- What a value says about an error: the message of its error, or the error, message or detail that it
has; what is no mapping speaks for itself. -/
def valueDetail (v : Value) : String :=
  match v with
  | .map _ =>
      match v.get? "error" with
      | some (.map es) => firstAnswer [(Value.map es).get? "message"]
      | error => firstAnswer [error, v.get? "message", v.get? "detail"]
  | v => v.text

/-- The greatest length of a text that stands for an error. -/
def detailLimit : Nat := 200

/-- What a response says about an error: its value in JSON, or the beginning of its text. -/
def Response.detail (r : Response) : Except Text.Charset.Fault String :=
  match r.json? with
  | some v => .ok (valueDetail v)
  | none => r.text.map fun s => String.ofList (s.toList.take detailLimit)

/-- The response, unless its status is an error. -/
def checkStatus (r : Response) : Except CallFault Response :=
  if r.status < 400 then .ok r
  else
    match r.detail with
    | .ok detail => .error (.transport (.refused r.status detail))
    | .error f => .error (.unreadable f)

/-! ## The transport -/

/-- How requests are carried out: the header that they share, and how often they are repeated. -/
structure Transport where
  headers : Table String := ∅
  retries : Int := 3

/-- The header that every request starts from. -/
def Transport.basicHeaders : Table String := Table.ofList [("Accept", "application/json")]

/-- The header of a request: its own fields over the shared ones over the basic ones. -/
def Transport.layered (t : Transport) (r : ApiDiscovery.Request) : Headers :=
  (r.headers.onto (t.headers.onto Transport.basicHeaders)).entries

/-- What every attempt at a request hands over. -/
structure Dispatch where
  verb : String
  url : String
  headers : Headers
  body : Option Value

def Transport.dispatch (t : Transport) (r : ApiDiscovery.Request) : Dispatch where
  verb := r.verb
  url := r.fullUrl
  headers := t.layered r
  body := r.body

/-- What takes what is handed over to a server: any function on a state. -/
abbrev Sender (σ : Type) := Dispatch → σ → Except SendFault Response × σ

/-- What is handed over is made ready and goes over the network. -/
def Sender.network : Sender Network := fun d n =>
  match Request.make? d.verb d.url d.headers d.body with
  | .ok wire => send wire n
  | .error f => (.error f, n)

def Transport.executeBy (t : Transport) (sender : Sender σ) (wait : Clock σ)
    (r : ApiDiscovery.Request) (s : σ) : Except CallFault Response × σ :=
  let (result, s) := attemptAll (sender (t.dispatch r)) wait t.retries s
  (result.bind checkStatus, s)

/-! ## What is to be seen of a request -/

/-- What is handed over, or some waiting. -/
inductive AttemptStep where
  | sent (d : Dispatch)
  | waited (seconds : Nat)

def AttemptStep.delay? : AttemptStep → Option Nat
  | sent _ => none
  | waited seconds => some seconds

def Sender.traced (send : Sender σ) : Sender (σ × List AttemptStep) := fun d (s, trace) =>
  let (a, s) := send d s
  (a, s, trace ++ [.sent d])

def Clock.traced (wait : Clock σ) : Clock (σ × List AttemptStep) := fun seconds (s, trace) =>
  (wait seconds s, trace ++ [.waited seconds])

/-- A request that was carried out: its result, the seconds between the attempts, and the state after
it. -/
structure Run (σ α : Type) where
  result : α
  delays : List Nat
  state : σ

/-- Carries out a request over the network, where waiting changes nothing. -/
def Transport.execute (t : Transport) (r : ApiDiscovery.Request) (n : Network) :
    Run Network (Except CallFault Response) :=
  let idle : Clock Network := fun _ n => n
  let (result, n, trace) := t.executeBy Sender.network.traced idle.traced r (n, [])
  ⟨result, trace.filterMap AttemptStep.delay?, n⟩

end ApiDiscovery.Http
