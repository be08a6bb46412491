import ApiDiscovery.Client.Call

/-!
# Shapes of calls

A method is called with parameters, with parameters and a callback, or, where there are no parameters, with a
callback alone. All of these end in one way, and it is the one that preparing the request foretells:

    not a mapping            no request; an error
    prepare gives an error   no request; that error
    prepare gives a request  that request, once; what the carrier makes of it

A callback is told the response or the error, once, and then all is over. Where the carrier is interrupted
there is neither: nobody is told, and the interruption goes out to who runs the call, whatever its shape.

What is to be seen of a call is written down as it runs (`Carrier.traced`, `Callback.traced`), so a trace is
the requests and the calls of the callback, each as often as it takes place.

Main statement: `start_agrees`. It is for every carrier and every callback, those that fail or are
interrupted among them.
-/

namespace ApiDiscovery

/-! ## What a call is made with -/

namespace CallShape

/-- The parameters of a call, null if there are none. -/
def parameters : CallShape → Value
  | plain ps => ps.getD .null
  | callback => .null
  | parametersCallback ps => ps

/-- Whether a call has a callback. -/
def hasCallback : CallShape → Bool
  | plain _ => false
  | callback => true
  | parametersCallback _ => true

end CallShape

/-- Whether a value can be the parameters of a call: a mapping, or null for none. -/
def Value.isParameters : Value → Bool
  | .null => true
  | .map _ => true
  | _ => false

/-- The names that a call keeps for itself. -/
def callNames : List String := ["self", "params", "callback"]

/-- The request that a call is to make, or why there is none. -/
def Client.requested (c : Client) (m : Method) (params : Value) (named : List (String × Value)) :
    Except Error Request :=
  if params.isParameters then c.prepare m (some params) named
  else .error (.usage (.parameters m.id params.kindName))

/-- What a call with parameters, and further ones by name, comes down to. -/
def pendingFor (m : Method) (params : Value) (named : List (String × Value)) : Pending :=
  Started.pendingOf m (.value params) ((∅ : Table Value).setAll named)

/-! ## What a callback is told -/

/-- Tells a callback how a call ended. An interruption goes out without it. -/
def Callback.tell (callback : Callback σ) : Ending → Effect σ Unit
  | .error (.error e) => callback (some e) none
  | .error (.interruption reason) => fun s => (.error (.interruption reason), s)
  | .ok r => callback none (some r)

/-- A callback being told an outcome. -/
def CallStep.told : Outcome → CallStep
  | .error e => .calledBack (some e) none
  | .ok r => .calledBack none (some r)

/-- What a callback sees of the end of a call: one outcome, and nothing of an interruption. -/
def Ending.told : Ending → List CallStep
  | .error (.error e) => [.told (.error e)]
  | .error (.interruption _) => []
  | .ok r => [.told (.ok r)]

/-- The outcomes that a trace shows to have been told: requests are none. -/
theorem CallStep.outcomes_sent (sent : List Request) (rest : List CallStep) :
    (sent.map CallStep.sent ++ rest).filterMap CallStep.outcome? = rest.filterMap CallStep.outcome? := by
  induction sent with
  | nil => rfl
  | cons r sent ih => exact ih

theorem CallStep.outcomes_told (o : Outcome) :
    (Ending.told (o.mapError .error)).filterMap CallStep.outcome? = [o] := by
  cases o <;> rfl

section

variable {σ : Type} {c : Client} {m : Method} {named : List (String × Value)}

theorem tell_traced (callback : Callback σ) (ending : Ending) (s : σ) (trace : List CallStep) :
    callback.traced.tell ending (s, trace) =
      ((callback.tell ending s).1, (callback.tell ending s).2, trace ++ ending.told) := by
  rcases ending with (e | reason) | r
  · rfl
  · rw [Ending.told, List.append_nil]
    rfl
  · rfl

/-! ## Arguments by name -/

/-- Names that an operation does not take itself all go to parameters. -/
theorem bindNames_free {operation : String} {own : List String} {arguments : List (String × Argument)}
    (h : ∀ e ∈ named, e.1 ≠ "self" ∧ e.1 ∉ own ∧ arguments.lookup e.1 = none) (ps : Table Value) :
    bindNames operation own arguments named ps = .ok ⟨arguments, ps.setAll named⟩ := by
  induction named generalizing ps with
  | nil => rfl
  | cons e rest ih =>
      obtain ⟨name, v⟩ := e
      obtain ⟨hself, hown, hargs⟩ := h (name, v) List.mem_cons_self
      have hrest := ih (fun e he => h e (List.mem_cons_of_mem _ he)) (ps.set name v)
      rw [bindNames, if_neg (by simp [hself, hargs]), if_neg (by simp [hown]), hrest]
      rfl

/-- A name that is none of those of a call is that of no argument by position. -/
theorem lookup_positional (shape : CallShape) {name : String} (h : name ∉ callNames) :
    shape.positional.lookup name = none := by
  simp only [callNames, List.mem_cons, List.not_mem_nil, or_false, not_or] at h
  obtain ⟨-, hparams, hcallback⟩ := h
  have hp : (name == "params") = false := by simpa using hparams
  have hc : (name == "callback") = false := by simpa using hcallback
  cases shape with
  | plain ps => cases ps <;> simp [CallShape.positional, List.lookup_cons, hp]
  | callback => simp [CallShape.positional, List.lookup_cons, hp]
  | parametersCallback ps => simp [CallShape.positional, List.lookup_cons, hp, hc]

/-- Names that are none of those of a call leave what is given by position alone. -/
theorem bindNames_shape {operation : String} {own : List String} (hown : ∀ name ∈ own, name ∈ callNames)
    (hn : ∀ e ∈ named, e.1 ∉ callNames) (shape : CallShape) (ps : Table Value) :
    bindNames operation own shape.positional named ps =
      .ok ⟨shape.positional, ps.setAll named⟩ := by
  refine bindNames_free (fun e he => ?_) ps
  have hne := hn e he
  refine ⟨fun h => hne ?_, fun h => hne (hown e.1 h), lookup_positional shape hne⟩
  rw [h]
  exact List.mem_cons_self

/-- A call starts from its parameters, and goes to the callback if there is one. -/
theorem startCall_free (hn : ∀ e ∈ named, e.1 ∉ callNames) (shape : CallShape) :
    startCall m shape named =
      .ok ⟨pendingFor m shape.parameters named, if shape.hasCallback then .callback else .caller⟩ := by
  rw [startCall, bindNames_shape (by decide) hn]
  cases shape with
  | plain ps => cases ps <;> rfl
  | callback => rfl
  | parametersCallback ps => rfl

theorem prepare_free (hn : ∀ e ∈ named, e.1 ∉ callNames) (params : Value) :
    c.prepare m (some params) named =
      match params with
      | .map es => c.request m (((∅ : Table Value).setAll named).onto (parametersOf es))
      | v =>
          if v.truthy then .error (.usage (.notMapping v.qualifiedKindName))
          else c.request m ((∅ : Table Value).setAll named) := by
  rw [Client.prepare, bindNames_shape (by decide) hn]
  cases params <;> rfl

/-! ## What a call comes down to -/

/-- A call comes down to what preparing its request foretells. -/
theorem asked_pendingFor (hn : ∀ e ∈ named, e.1 ∉ callNames) (params : Value) :
    (pendingFor m params named).asked c m = c.requested m params named := by
  rw [Client.requested, prepare_free hn]
  cases params <;> rfl

theorem run_eq_asked (p : Pending) (carry : Carrier σ) (s : σ) :
    p.run c m carry s =
      match p.asked c m with
      | .error e => (.error (.error e), s)
      | .ok r => carry r s := by
  cases p with
  | fail e => rfl
  | invoke given =>
      simp only [Pending.run, Pending.asked]
      cases c.request m given <;> rfl

/-- The one request that is made, or none. -/
def sentFor : Except Error Request → List Request
  | .error _ => []
  | .ok r => [r]

theorem run_traced (p : Pending) (carry : Carrier σ) (s : σ) (trace : List CallStep) :
    p.run c m carry.traced (s, trace) =
      ((p.run c m carry s).1, (p.run c m carry s).2, trace ++ (sentFor (p.asked c m)).map .sent) := by
  rw [run_eq_asked, run_eq_asked]
  cases p.asked c m with
  | error e => simp [sentFor]
  | ok r => rfl

theorem report_eq (p : Pending) (carry : Carrier σ) (callback : Callback σ) (s : σ) :
    p.report c m carry callback s =
      callback.tell (p.run c m carry s).1 (p.run c m carry s).2 := by
  rw [Pending.report, Effect.either]
  rcases p.run c m carry s with ⟨(e | reason) | r, s'⟩ <;> rfl

/-- A callback is told once, and after everything else; also if it fails. -/
theorem report_traced (p : Pending) (carry : Carrier σ) (callback : Callback σ) (s : σ)
    (trace : List CallStep) {ending : Ending} {s' : σ} (h : p.run c m carry s = (ending, s')) :
    p.report c m carry.traced callback.traced (s, trace) =
      ((callback.tell ending s').1, (callback.tell ending s').2,
        trace ++ (sentFor (p.asked c m)).map .sent ++ ending.told) := by
  rw [report_eq, run_traced, h, tell_traced]

/-! ## Shapes agree -/

/-- A call without a callback does nothing but hand out what is to be waited for. -/
theorem start_plain (hn : ∀ e ∈ named, e.1 ∉ callNames) {shape : CallShape}
    (hs : shape.hasCallback = false) (inLoop : Bool) (carry : Carrier σ) (callback : Callback σ) (s : σ) :
    c.start m inLoop shape named carry callback s =
      (.ok (.awaitable ((pendingFor m shape.parameters named).run c m carry)), s) := by
  rw [Client.start, startCall_free hn, hs]
  rfl

/-- A call with a callback runs on its own: as a task in an event loop, else at once. -/
theorem start_callback (hn : ∀ e ∈ named, e.1 ∉ callNames) {shape : CallShape}
    (hs : shape.hasCallback = true) (inLoop : Bool) (carry : Carrier σ) (callback : Callback σ) (s : σ) :
    c.start m inLoop shape named carry callback s =
      let report := (pendingFor m shape.parameters named).report c m carry callback
      if inLoop then (.ok (.task report), s)
      else ((report s).1.map fun _ => .nothing, (report s).2) := by
  rw [Client.start, startCall_free hn, hs]
  rfl

/-- How a call ends, whatever its shape, and what is sent on the way. -/
theorem exists_ending (hn : ∀ e ∈ named, e.1 ∉ callNames) (params : Value) (carry : Carrier σ) (s : σ) :
    ∃ (ending : Ending) (s' : σ),
      (∀ r, c.requested m params named = .ok r → carry r s = (ending, s')) ∧
      (∀ e, c.requested m params named = .error e → ending = .error (.error e) ∧ s' = s) ∧
      (pendingFor m params named).run c m carry s = (ending, s') := by
  rw [run_eq_asked, asked_pendingFor hn]
  cases c.requested m params named with
  | error e => exact ⟨.error (.error e), s, nofun, fun _ h => ⟨by rw [Except.error.inj h], rfl⟩, rfl⟩
  | ok r => exact ⟨(carry r s).1, (carry r s).2, fun _ h => by rw [Except.ok.inj h], nofun, rfl⟩

/-- All shapes of a call agree. They end as the request does which `prepare` gives, sent once, and if there is
none they end with an error and nothing is sent. A call without a callback only hands out what is to be
waited for. A callback is told the response or the error, once and last, whatever it does then; its own
failure is the only one that such a call has. An interruption is neither: it ends a call of every shape as
it is, and the callback is not told. -/
theorem start_agrees (hn : ∀ e ∈ named, e.1 ∉ callNames) (params : Value) (carry : Carrier σ)
    (callback : Callback σ) (s : σ) :
    ∃ (ending : Ending) (s' : σ) (sent : List Request),
      (∀ r, params.isParameters → c.prepare m (some params) named = .ok r →
        sent = [r] ∧ carry r s = (ending, s')) ∧
      (∀ e, params.isParameters → c.prepare m (some params) named = .error e →
        sent = [] ∧ ending = .error (.error e) ∧ s' = s) ∧
      (¬ params.isParameters →
        sent = [] ∧ ending = .error (.error (.usage (.parameters m.id params.kindName))) ∧ s' = s) ∧
      (∀ shape : CallShape, shape.parameters = params → shape.hasCallback = false →
        ∀ inLoop, ∃ run,
          (∀ w, c.start m inLoop shape named carry.traced callback.traced w =
            (.ok (.awaitable run), w)) ∧
          run (s, []) = (ending, s', sent.map .sent)) ∧
      (∀ shape : CallShape, shape.parameters = params → shape.hasCallback = true →
        c.start m false shape named carry.traced callback.traced (s, []) =
          ((callback.tell ending s').1.map fun _ => .nothing, (callback.tell ending s').2,
            sent.map .sent ++ ending.told) ∧
        ∃ run,
          (∀ w, c.start m true shape named carry.traced callback.traced w = (.ok (.task run), w)) ∧
          run (s, []) = ((callback.tell ending s').1, (callback.tell ending s').2,
            sent.map .sent ++ ending.told)) := by
  obtain ⟨ending, s', hok, herror, hrun⟩ := exists_ending (c := c) (m := m) hn params carry s
  -- Whatever the shape, the same `Pending` runs: once for the caller, once before the callback is told.
  have hwaited := run_traced (c := c) (m := m) (pendingFor m params named) carry s []
  have hreported := report_traced _ carry callback s [] hrun
  rw [asked_pendingFor hn, hrun] at hwaited
  rw [asked_pendingFor hn] at hreported
  refine ⟨ending, s', sentFor (c.requested m params named), fun r hp hr => ?_, fun e hp he => ?_,
    fun hp => ?_, fun shape hshape hs inLoop => ?_, fun shape hshape hs => ⟨?_, ?_⟩⟩
  · have hreq : c.requested m params named = .ok r := by rw [Client.requested, if_pos hp, hr]
    exact ⟨by rw [hreq]; rfl, hok r hreq⟩
  · have hreq : c.requested m params named = .error e := by rw [Client.requested, if_pos hp, he]
    exact ⟨by rw [hreq]; rfl, herror e hreq⟩
  · have hreq : c.requested m params named = .error (.usage (.parameters m.id params.kindName)) := by
      rw [Client.requested, if_neg hp]
    exact ⟨by rw [hreq]; rfl, herror _ hreq⟩
  · subst hshape
    exact ⟨_, fun w => start_plain hn hs inLoop carry.traced callback.traced w, hwaited⟩
  · subst hshape
    rw [start_callback hn hs]
    simp only [hreported]
    rfl
  · subst hshape
    exact ⟨_, fun w => start_callback hn hs true carry.traced callback.traced w, hreported⟩

/-- Where the carrier is interrupted, the callback is not told of the request that was sent. -/
theorem start_interrupted (hn : ∀ e ∈ named, e.1 ∉ callNames) {shape : CallShape}
    (hs : shape.hasCallback = true) {r : Request} (hr : c.requested m shape.parameters named = .ok r)
    {carry : Carrier σ} {s s' : σ} {reason : String}
    (hcarry : carry r s = (.error (.interruption reason), s')) (callback : Callback σ) :
    c.start m false shape named carry.traced callback.traced (s, []) =
      (.error (.interruption reason), s', [.sent r]) := by
  have hasked : (pendingFor m shape.parameters named).asked c m = .ok r := by rw [asked_pendingFor hn, hr]
  have hrun : (pendingFor m shape.parameters named).run c m carry s =
      (.error (.interruption reason), s') := by
    rw [run_eq_asked, hasked]
    exact hcarry
  have hreport := report_traced _ carry callback s [] hrun
  rw [hasked] at hreport
  rw [start_callback hn hs]
  simp only [hreport]
  rfl

/-- Without interruptions, calls that are waited for come to an outcome, or, with a callback, to this having
been told. -/
theorem call_agrees (hn : ∀ e ∈ named, e.1 ∉ callNames) (params : Value) (respond : Responder σ) (s : σ) :
    ∃ (outcome : Outcome) (s' : σ), ∀ shape : CallShape, shape.parameters = params →
      c.call m shape named none respond.carrier s =
        if shape.hasCallback then (.ok (.calledBack [outcome]), s')
        else ((outcome.mapError .error).map .response, s') := by
  obtain ⟨ending, s', hok, herror, hrun⟩ :=
    exists_ending (c := c) (m := m) hn params respond.carrier s
  obtain ⟨outcome, rfl⟩ : ∃ outcome : Outcome, ending = outcome.mapError .error := by
    cases hasked : c.requested m params named with
    | error e => exact ⟨.error e, (herror e hasked).1⟩
    | ok r => exact ⟨(respond r s).1, (congrArg Prod.fst (hok r hasked)).symm⟩
  refine ⟨outcome, s', fun shape hshape => ?_⟩
  subst hshape
  cases hs : shape.hasCallback with
  | false =>
      simp only [Client.call, start_plain hn hs, run_traced, hrun]
      rfl
  | true =>
      have htold : Callback.tell (fun _ _ (s : σ) => (Except.ok (), s)) (outcome.mapError .error) s' =
          (.ok (), s') := by
        cases outcome <;> rfl
      simp only [Client.call, start_callback hn hs, report_traced _ respond.carrier _ s [] hrun, htold,
        Bool.false_eq_true, if_false, Except.map, List.nil_append, CallStep.outcomes_sent,
        CallStep.outcomes_told, if_true]

end

/-- A method with one hole. -/
def readNote : Method where
  id := some "notes.read"
  verb := some "GET"
  path := some "notes/{id}"
  flatPath := none
  description := none
  parameters := ∅
  parameterOrder := ["id"]
  request := none
  response := none
  scopes := []
  unknown := ∅

def noteClient : Client :=
  ⟨⟨"notes", "v1", none, none, none, none, none, none, ∅, ∅, .mk ∅ [] ∅⟩, {},
    [("read", .method "read" readNote)]⟩

/-- A carrier that counts, and has one response. -/
def countingCarrier : Carrier Nat := fun _ n => (.ok (.bare 200), n + 1)

/-- A callback that fails. -/
def failingCallback : Callback Nat := fun _ _ n => (.error (.error (.callback "no")), n)

/-- With a callback that fails: the one request is sent, and the callback told once. -/
theorem start_agrees_readNote :
    ∃ r, noteClient.prepare readNote (some .null) [("id", .str "7")] = .ok r ∧
      noteClient.start readNote false .callback [("id", .str "7")] countingCarrier.traced
          failingCallback.traced (0, []) =
        (.error (.error (.callback "no")), 1, [.sent r, .calledBack none (some (.bare 200))]) := by
  have hok : (noteClient.prepare readNote (some .null) [("id", .str "7")]).isOk = true := by
    decide +kernel
  cases hr : noteClient.prepare readNote (some .null) [("id", .str "7")] with
  | error e => rw [hr] at hok; cases hok
  | ok r =>
      obtain ⟨ending, n, sent, hsent, -, -, -, hcallback⟩ := @start_agrees Nat noteClient readNote
        [("id", .str "7")] (by decide) .null countingCarrier failingCallback 0
      obtain ⟨rfl, hcarry⟩ := hsent r rfl hr
      cases hcarry
      exact ⟨r, rfl, (hcallback .callback rfl rfl).1⟩

end ApiDiscovery
