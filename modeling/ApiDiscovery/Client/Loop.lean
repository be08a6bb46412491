import ApiDiscovery.Client.Call

/-!
# Calls in an event loop

In an event loop, the calls on the methods of one client take turns. A call goes on by one step at a time:

    made         the method is called; if it has a callback, there is a task for it now
    resolved     its parameters are, or it ends with an error
    sent         the transport has its request, and knows it by a ticket
    ended        it has come to the answer with that ticket, or to its error
    told         the callback of a task was called with that
    processed    the loop is through with the task

and the transport answers in any order, and when it likes. So what takes place is a list of turns (`Turn`), each
of a call or of the transport. A turn that is not due changes nothing.

`Client.gather` runs such a loop: all calls are made, then each is taken to its end.
-/

namespace ApiDiscovery

/-- A method, and what it is called with. -/
abbrev Call := Method × CallShape × List (String × Value)

namespace Call

def method (call : Call) : Method := call.1

def start (call : Call) : Except Error Started := startCall call.1 call.2.1 call.2.2

end Call

/-- Whether a call runs as a task of the loop. -/
def Started.isTask (st : Started) : Bool :=
  match st.receiver with
  | .caller => false
  | _ => true

/-! ## How far a call is -/

/-- How far a call is that could be made. -/
inductive Progress where
  | made
  | resolved (r : Request)
  | sent (ticket : Nat)
  | ended (o : Outcome)
  | told (o : Outcome)
  | processed (o : Outcome)

inductive Stage where
  | unmade
  /-- Its arguments do not go together, so that calling fails at once. -/
  | refused (e : Error)
  | running (st : Started) (p : Progress)

namespace Stage

/-- What a call came to. -/
def outcome? : Stage → Option Outcome
  | refused e => some (.error e)
  | running _ (.ended o) | running _ (.told o) | running _ (.processed o) => some o
  | _ => none

/-- Whether a call that was made is a task. -/
def task? : Stage → Option Bool
  | running st _ => some st.isTask
  | _ => none

def isProcessed : Stage → Bool
  | running _ (.processed _) => true
  | _ => false

/-- Whether nothing is left to be done for a call. -/
def isOver : Stage → Bool
  | refused _ | running _ (.processed _) => true
  | running st (.ended _) => !st.isTask
  | _ => false

end Stage

/-- A call on its way. -/
structure Flight where
  call : Call
  stage : Stage := .unmade

/-! ## The loop -/

/-- A request that the transport has, and its answer to it. -/
structure Exchange where
  request : Request
  answer? : Option Outcome := none

/-- What is to be seen of several calls: that one was made, as a task or not, and what a callback was
given. -/
inductive CallEvent where
  | scheduled (index : Nat) (asTask : Bool)
  | calledBack (index : Nat) (outcome : Outcome)

structure EventLoop where
  client : Client
  flights : List Flight
  /-- What the transport has. A ticket is a place in this list. -/
  exchanges : List Exchange := []
  /-- The tasks that are kept until they are processed, each named by the place of its call. -/
  pending : List Nat := []
  events : List CallEvent := []

namespace EventLoop

/-- A loop with calls that are to be made. -/
def start (c : Client) (calls : List Call) : EventLoop where
  client := c
  flights := calls.map fun call => { call := call }

def stage? (l : EventLoop) (i : Nat) : Option Stage := l.flights[i]?.map (·.stage)

/-- The answer with a ticket. -/
def answer? (l : EventLoop) (ticket : Nat) : Option Outcome := l.exchanges[ticket]?.bind (·.answer?)

section

variable (l : EventLoop) (i : Nat)

def put (f : Flight) (s : Stage) : EventLoop :=
  { l with flights := l.flights.set i { f with stage := s } }

/-- Keeps the task of a call that was made, if it is one. -/
def schedule (asTask : Bool) : EventLoop :=
  { l with
    pending := if asTask then l.pending.insert i else l.pending
    events := l.events ++ [.scheduled i asTask] }

/-- Hands a request to the transport. -/
def hand (r : Request) : EventLoop := { l with exchanges := l.exchanges ++ [{ request := r }] }

/-- Has the transport answer a request that it has. -/
def reply (ticket : Nat) (r : Request) (o : Outcome) : EventLoop :=
  { l with exchanges := l.exchanges.set ticket ⟨r, some o⟩ }

def callBack (o : Outcome) : EventLoop := { l with events := l.events ++ [.calledBack i o] }

def discard : EventLoop := { l with pending := l.pending.filter (· != i) }

end

/-! ## Turns -/

/-- Makes a call. -/
def make (l : EventLoop) (i : Nat) (f : Flight) : EventLoop :=
  match f.call.start with
  | .error e => l.put i f (.refused e)
  | .ok st => (l.put i f (.running st .made)).schedule i st.isTask

/-- Takes a call that was made one step on. What a callback does with what it is told, and whether it fails, is
all the same to the loop: its task is through. -/
def advance? (l : EventLoop) (i : Nat) (f : Flight) (st : Started) : Progress → Option EventLoop
  | .made =>
      match st.pending.asked l.client f.call.method with
      | .error e => some (l.put i f (.running st (.ended (.error e))))
      | .ok r => some (l.put i f (.running st (.resolved r)))
  | .resolved r => some ((l.put i f (.running st (.sent l.exchanges.length))).hand r)
  | .sent ticket => (l.answer? ticket).map fun o => l.put i f (.running st (.ended o))
  | .ended o =>
      match st.receiver with
      | .caller => none
      | .callback => some ((l.put i f (.running st (.told o))).callBack i o)
      | .uncallable _ => some (l.put i f (.running st (.told o)))
  | .told o => some ((l.put i f (.running st (.processed o))).discard i)
  | .processed _ => none

end EventLoop

/-- Who goes on: a call by one step, or the transport with an answer. -/
inductive Turn where
  | call (i : Nat)
  | answer (ticket : Nat) (o : Outcome)

namespace EventLoop

/-- The loop after a turn, if that is due. A request is answered once. -/
def step? (l : EventLoop) : Turn → Option EventLoop
  | .call i =>
      match l.flights[i]? with
      | none => none
      | some f =>
          match f.stage with
          | .unmade => some (l.make i f)
          | .refused _ => none
          | .running st p => l.advance? i f st p
  | .answer ticket o =>
      match l.exchanges[ticket]? with
      | some ⟨r, none⟩ => some (l.reply ticket r o)
      | _ => none

def turn (l : EventLoop) (t : Turn) : EventLoop := (l.step? t).getD l

def run (l : EventLoop) (turns : List Turn) : EventLoop := turns.foldl turn l

/-! ## Several calls at once -/

/-- The request that a call waits for, with its ticket. -/
def waiting? (l : EventLoop) (i : Nat) : Option (Nat × Request) :=
  match l.stage? i with
  | some (.running _ (.sent ticket)) => l.exchanges[ticket]?.map fun x => (ticket, x.request)
  | _ => none

/-- Takes a call that was made to its end. Its request is carried out at once. -/
def finish (respond : Responder σ) (w : EventLoop × σ) (i : Nat) : EventLoop × σ :=
  let l := w.1.run [.call i, .call i]
  let (l, s) :=
    match l.waiting? i with
    | some (ticket, r) =>
        let (o, s) := respond r w.2
        (l.turn (.answer ticket o), s)
    | none => (l, w.2)
  (l.run [.call i, .call i, .call i], s)

/-- The first call that could not be made. -/
def refusal? (l : EventLoop) : Option Error :=
  l.flights.findSome? fun f =>
    match f.stage with
    | .refused e => some e
    | _ => none

/-- Whether a call was made as a task. -/
def isTask (l : EventLoop) (i : Nat) : Bool := (l.stage? i).bind Stage.task? == some true

/-- The places of the calls: of those that are tasks, then of those that are waited for. -/
def order (l : EventLoop) : List Nat :=
  let places := List.range l.flights.length
  places.filter l.isTask ++ places.filter (!l.isTask ·)

/-- A loop in which each call was made. -/
def made (c : Client) (calls : List Call) : EventLoop :=
  (start c calls).run ((List.range calls.length).map .call)

end EventLoop

/-- Makes calls at once: all are made, then each is taken to its end. -/
def Client.gather (c : Client) (calls : List Call) (respond : Responder σ) (s : σ) :
    Except Error (List CallEvent) × σ :=
  let l := EventLoop.made c calls
  match l.refusal? with
  | some e => (.error e, s)
  | none =>
      let (l, s) := l.order.foldl (EventLoop.finish respond) (l, s)
      (.ok l.events, s)

end ApiDiscovery
