import ApiDiscovery.Client.Access
import ApiDiscovery.Http.Transport

/-!
# Calls

A method is called with parameters, with a callback, or with both, and with further parameters by name.
However it is called, the call comes down to one thing to do (`Pending`): to fail, or to make a request of
the parameters and have it carried out. The result goes to the callback if there is one, else back to the
caller.

A call hands something back at once (`Handed`). Without a callback that is something to wait for, and nothing
is done before. With one, it is a task where an event loop is running, and else nothing: the call has run to
its end by then.

What carries out requests and what a callback does are any functions on a state (`Carrier`, `Callback`), so
that all that is said about calls holds for every behaviour of them. Both may also be interrupted, when the
task that they run in is cancelled or the program is to end. An interruption is no error: it goes past all
that catches errors, so a callback is not told of it.
-/

namespace ApiDiscovery

/-- Why something ends without a result. -/
inductive Stop where
  | error (e : Error)
  /-- A cancelled task, or the end of the program, in words of its own. -/
  | interruption (reason : String)

/-- What comes to a result or stops, and changes a state. -/
abbrev Effect (σ α : Type) := σ → Except Stop α × σ

/-- First an effect; then what is to follow its error or its result. What that stops with goes out, and so
does an interruption of the first. -/
def Effect.either (first : Effect σ α) (failed : Error → Effect σ β) (done : α → Effect σ β) :
    Effect σ β := fun s =>
  match first s with
  | (.error (.error e), s) => failed e s
  | (.error (.interruption reason), s) => (.error (.interruption reason), s)
  | (.ok a, s) => done a s

/-- What carries out requests. -/
abbrev Carrier (σ : Type) := Request → Effect σ Http.Response

/-- What a caller does with the error or the response of a call. -/
abbrev Callback (σ : Type) := Option Error → Option Http.Response → Effect σ Unit

namespace Client

/-- The request of a method with the given parameters. -/
def request (c : Client) (m : Method) (given : Table Value) : Except Error Request :=
  match resolveRequest c.defaults given m c.document (some c.options) with
  | .ok r => .ok r
  | .error f => .error (.ofRequest f)

end Client

/-! ## What a call is made with -/

/-- An argument: a value, or the caller's callback. -/
inductive Argument where
  | value (v : Value)
  | callback

/-- What is given by position. -/
inductive CallShape where
  | plain (parameters : Option Value)
  | callback
  | parametersCallback (parameters : Value)

namespace CallShape

/-- The arguments that are given by position, by the names that they have. -/
def positional : CallShape → List (String × Argument)
  | plain none => []
  | plain (some v) => [("params", .value v)]
  | callback => [("params", .callback)]
  | parametersCallback v => [("params", .value v), ("callback", .callback)]

end CallShape

/-- Arguments by the names that an operation has for them, and parameters by names of their own. -/
structure Bound where
  arguments : List (String × Argument)
  parameters : Table Value

/-- Gives names their values: those that an operation takes itself, each once, and all others to
parameters. -/
def bindNames (operation : String) (own : List String) (arguments : List (String × Argument)) :
    List (String × Value) → Table Value → Except Error Bound
  | [], ps => .ok ⟨arguments, ps⟩
  | (name, v) :: rest, ps =>
      if name == "self" || (arguments.lookup name).isSome then .error (.usage (.twice operation name))
      else if own.contains name then
        bindNames operation own (arguments ++ [(name, .value v)]) rest ps
      else bindNames operation own arguments rest (ps.set name v)

/-- An argument, null if it is not given. -/
def Bound.argument (b : Bound) (name : String) : Argument :=
  (b.arguments.lookup name).getD (.value .null)

/-- The parameters of a mapping with text keys. -/
def parametersOf (es : List (Value × Value)) : Table Value :=
  Table.ofList (es.filterMap fun e =>
    match e.1 with
    | .str s => some (s, e.2)
    | _ => none)

namespace Client

/-- The request of a method, without carrying it out. -/
def prepare (c : Client) (m : Method) (parameters : Option Value) (named : List (String × Value)) :
    Except Error Request := do
  let b ← bindNames "ApiMethod.prepare" ["params"] (CallShape.plain parameters).positional named ∅
  match b.argument "params" with
  | .value (.map es) => c.request m (b.parameters.onto (parametersOf es))
  | .value v =>
      if v.truthy then throw (.usage (.notMapping v.qualifiedKindName)) else c.request m b.parameters
  | .callback => throw (.usage (.notMapping "function"))

end Client

/-! ## Starting a call -/

/-- What a call comes down to. -/
inductive Pending where
  | fail (e : Error)
  | invoke (given : Table Value)

/-- Who gets the result of a call. -/
inductive Receiver where
  | caller
  | callback
  /-- Something of a kind that cannot be called, in the place of a callback. -/
  | uncallable (kind : String)

/-- A call that is ready to run. -/
structure Started where
  pending : Pending
  receiver : Receiver

namespace Started

def pendingOf (m : Method) (parameters : Argument) (named : Table Value) : Pending :=
  match parameters with
  | .value .null => .invoke named
  | .value (.map es) => .invoke (named.onto (parametersOf es))
  | .value v => .fail (.usage (.parameters m.id v.kindName))
  | .callback => .fail (.usage (.parameters m.id "function"))

/-- The call that bound arguments make. A callback in the place of the parameters counts as one. -/
def ofBound (m : Method) (b : Bound) : Started :=
  match b.argument "params", b.argument "callback" with
  | .callback, .value .null => ⟨pendingOf m (.value .null) b.parameters, .callback⟩
  | ps, .value .null => ⟨pendingOf m ps b.parameters, .caller⟩
  | ps, .value v => ⟨pendingOf m ps b.parameters, .uncallable v.kindName⟩
  | ps, .callback => ⟨pendingOf m ps b.parameters, .callback⟩

end Started

def startCall (m : Method) (shape : CallShape) (named : List (String × Value)) :
    Except Error Started := do
  return .ofBound m
    (← bindNames "ApiMethod.__call__" ["params", "callback"] shape.positional named ∅)

/-! ## Running a call -/

/-- What a call comes to if nothing interrupts it: a response or an error. -/
abbrev Outcome := Except Error Http.Response

/-- How a call ends: with a response, an error or an interruption. -/
abbrev Ending := Except Stop Http.Response

/-- What is asked for, or why nothing is. -/
def Pending.asked (p : Pending) (c : Client) (m : Method) : Except Error Request :=
  match p with
  | .fail e => .error e
  | .invoke given => c.request m given

def Pending.run (p : Pending) (c : Client) (m : Method) (carry : Carrier σ) (s : σ) : Ending × σ :=
  match p with
  | .fail e => (.error (.error e), s)
  | .invoke given =>
      match c.request m given with
      | .ok r => carry r s
      | .error e => (.error (.error e), s)

/-- Does what a call comes down to, and tells a callback what it came to, unless it is interrupted. -/
def Pending.report (p : Pending) (c : Client) (m : Method) (carry : Carrier σ)
    (callback : Callback σ) : Effect σ Unit :=
  Effect.either (p.run c m carry) (fun e => callback (some e) none) (fun r => callback none (some r))

/-- What is told of a call, unless its caller waits for it. What cannot be called fails when it is. -/
def Receiver.callback? (callback : Callback σ) : Receiver → Option (Callback σ)
  | caller => none
  | .callback => some callback
  | uncallable kind => some fun _ _ s => (.error (.error (.usage (.notCallable kind))), s)

/-- What a call hands back at once. -/
inductive Handed (σ : Type) where
  /-- What the caller waits for. -/
  | awaitable (run : Effect σ Http.Response)
  /-- What the event loop runs later. -/
  | task (run : Effect σ Unit)
  | nothing

/-- Hands a started call to who is to run it. -/
def Started.hand (st : Started) (c : Client) (m : Method) (inLoop : Bool) (carry : Carrier σ)
    (callback : Callback σ) : Effect σ (Handed σ) := fun s =>
  match st.receiver.callback? callback with
  | none => (.ok (.awaitable (st.pending.run c m carry)), s)
  | some callback =>
      let report := st.pending.report c m carry callback
      if inLoop then (.ok (.task report), s)
      else
        let (told, s) := report s
        (told.map fun _ => .nothing, s)

/-- Calls a method, inside of an event loop or not. -/
def Client.start (c : Client) (m : Method) (inLoop : Bool) (shape : CallShape)
    (named : List (String × Value)) (carry : Carrier σ) (callback : Callback σ) :
    Effect σ (Handed σ) := fun s =>
  match startCall m shape named with
  | .ok st => st.hand c m inLoop carry callback s
  | .error e => (.error (.error e), s)

/-! ## What is to be seen of a call -/

/-- A request that is carried out, or what a callback is told. -/
inductive CallStep where
  | sent (r : Request)
  | calledBack (error : Option Error) (response : Option Http.Response)

def CallStep.outcome? : CallStep → Option Outcome
  | calledBack (some e) none => some (.error e)
  | calledBack none (some r) => some (.ok r)
  | _ => none

def Carrier.traced (carry : Carrier σ) : Carrier (σ × List CallStep) := fun r (s, trace) =>
  let (a, s) := carry r s
  (a, s, trace ++ [.sent r])

/-- Writes down whatever the callback is told. -/
def Callback.traced (callback : Callback σ) : Callback (σ × List CallStep) := fun e r (s, trace) =>
  let (told, s) := callback e r s
  (told, s, trace ++ [.calledBack e r])

/-- How a call ends for the caller: with a response, or with what its callback was told. -/
inductive CallEnd where
  | response (r : Http.Response)
  | calledBack (outcomes : List Outcome)

/-- Calls a method outside of an event loop, and waits for what is to be waited for. The callback may fail
in words of its own. -/
def Client.call (c : Client) (m : Method) (shape : CallShape) (named : List (String × Value))
    (callbackFailure : Option String) (carry : Carrier σ) (s : σ) : Except Stop CallEnd × σ :=
  let callback : Callback σ := fun _ _ s =>
    (match callbackFailure with
      | some text => .error (.error (.callback text))
      | none => .ok (), s)
  match c.start m false shape named carry.traced callback.traced (s, []) with
  | (.ok (.awaitable run), s) =>
      let (ending, s, _) := run s
      (ending.map .response, s)
  | (.ok _, s, trace) => (.ok (.calledBack (trace.filterMap CallStep.outcome?)), s)
  | (.error e, s, _) => (.error e, s)

/-! ## Responders -/

/-- What carries out requests and is never interrupted. -/
abbrev Responder (σ : Type) := Request → σ → Outcome × σ

def Responder.carrier (respond : Responder σ) : Carrier σ := fun r s =>
  let (outcome, s) := respond r s
  (outcome.mapError .error, s)

/-- The outside world of clients: the network, the requests that a recorder saw, and the seconds that were
waited. -/
structure World where
  network : Http.Network
  recorded : List Request := []
  delays : List Nat := []

def Responder.network (t : Http.Transport) : Responder World := fun r w =>
  let run := t.execute r w.network
  (match run.result with
    | .ok a => .ok a
    | .error f => .error (.ofCall f),
    { w with network := run.state, delays := w.delays ++ run.delays })

/-- Requests are recorded, and all have one outcome. -/
def Responder.recorder (outcome : Outcome) : Responder World := fun r w =>
  (outcome, { w with recorded := w.recorded ++ [r] })

end ApiDiscovery
