import ApiDiscovery.Proofs.Turns
import ApiDiscovery.Proofs.Calls

/-!
# Calls do not get in each other's way

Whatever turns an event loop takes, and in whatever order, the calls in it stay apart: none sends another's
request, comes to another's answer, or has its callback told of anything else; and each comes to its end.

The invariant is `EventLoop.Sent`. It names the calls that have sent something in the order in which they did, so
that the ticket of a call leads back to it, and it says what each stage of a call tells of it (`Fits`).

Main statement: `EventLoop.calls_independent`. It is for every list of calls and every list of turns.
-/

namespace ApiDiscovery

/-- What a call asks for, or why it asks for nothing. -/
def Call.asked (c : Client) (call : Call) : Except Error Request :=
  match call.start with
  | .error e => .error e
  | .ok st => st.pending.asked c call.method

/-- Whether a call is made with a callback. -/
def Call.hasCallback (call : Call) : Bool :=
  match call.start with
  | .ok ⟨_, .callback⟩ => true
  | _ => false

section

variable {m : Method} {shape : CallShape} {named : List (String × Value)}

/-- A call asks for the request that `prepare` gives, unless what it is given can be no parameters. -/
theorem Call.asked_eq_requested (hn : ∀ e ∈ named, e.1 ∉ callNames) (c : Client) :
    Call.asked c (m, shape, named) = c.requested m shape.parameters named := by
  have h : Call.start (m, shape, named) = _ := startCall_free hn shape
  rw [Call.asked, h]
  exact asked_pendingFor hn shape.parameters

theorem Call.hasCallback_eq (hn : ∀ e ∈ named, e.1 ∉ callNames) :
    Call.hasCallback (m, shape, named) = shape.hasCallback := by
  have h : Call.start (m, shape, named) = _ := startCall_free hn shape
  rw [Call.hasCallback, h]
  cases shape.hasCallback with
  | true => rfl
  | false => rfl

end

namespace EventLoop

/-! ## Who sent what -/

/-- The request of a call of the loop, if it asks for one. -/
def request? (l : EventLoop) (i : Nat) : Option Request :=
  l.calls[i]?.bind fun call => (call.asked l.client).toOption

/-- A call came to its own error and has sent nothing, or to the answer to what it has sent itself. -/
def CameTo (l : EventLoop) (senders : List Nat) (i : Nat) (asked : Except Error Request) (o : Outcome) :
    Prop :=
  (∃ e, asked = .error e ∧ o = .error e ∧ i ∉ senders) ∨
    ∃ ticket, senders[ticket]? = some i ∧ l.answer? ticket = some o

/-- What the stage of a call says of it. -/
def Fits (l : EventLoop) (senders : List Nat) (i : Nat) (call : Call) : Stage → Prop
  | .unmade => i ∉ senders
  | .refused e => call.start = .error e ∧ i ∉ senders
  | .running st p =>
      call.start = .ok st ∧
        match p with
        | .made => i ∉ senders
        | .resolved r => call.asked l.client = .ok r ∧ i ∉ senders
        | .sent ticket => senders[ticket]? = some i
        | .ended o | .told o | .processed o => l.CameTo senders i (call.asked l.client) o

/-- The calls that have sent something, in the order in which they did: none of them twice, each its own
request. -/
structure Sent (l : EventLoop) (senders : List Nat) : Prop where
  nodup : senders.Nodup
  own : l.exchanges.map (fun x => some x.request) = senders.map l.request?
  each : ∀ i f, l.flights[i]? = some f → l.Fits senders i f.call f.stage

section

variable {l l' : EventLoop} {t : Turn} {i : Nat} {f : Flight} {s : Stage} {senders : List Nat} {call : Call}

theorem CameTo.mono {asked : Except Error Request} {o : Outcome} (h : l.CameTo senders i asked o)
    (hanswer : ∀ ticket o, l.answer? ticket = some o → l'.answer? ticket = some o) {more : List Nat}
    (hi : i ∉ more) : l'.CameTo (senders ++ more) i asked o := by
  rcases h with ⟨e, hasked, ho, hsenders⟩ | ⟨ticket, hsenders, ho⟩
  · exact .inl ⟨e, hasked, ho, by simp [hsenders, hi]⟩
  · obtain ⟨hlt, -⟩ := List.getElem?_eq_some_iff.1 hsenders
    exact .inr ⟨ticket, (List.getElem?_append_left hlt).trans hsenders, hanswer ticket o ho⟩

/-- What another call sends, and what the transport answers, leaves a call where it is. -/
theorem Fits.mono (h : l.Fits senders i call s) (hclient : l'.client = l.client)
    (hanswer : ∀ ticket o, l.answer? ticket = some o → l'.answer? ticket = some o) {more : List Nat}
    (hi : i ∉ more) : l'.Fits (senders ++ more) i call s := by
  have hnot : i ∉ senders → i ∉ senders ++ more := fun hs => by simp [hs, hi]
  cases s with
  | unmade => exact hnot h
  | refused e => exact ⟨h.1, hnot h.2⟩
  | running st p =>
      refine ⟨h.1, ?_⟩
      have hp := h.2
      cases p with
      | made => exact hnot hp
      | resolved r => exact ⟨hclient ▸ hp.1, hnot hp.2⟩
      | sent ticket =>
          obtain ⟨hlt, -⟩ := List.getElem?_eq_some_iff.1 hp
          exact (List.getElem?_append_left hlt).trans hp
      | ended o => exact hclient ▸ CameTo.mono hp hanswer hi
      | told o => exact hclient ▸ CameTo.mono hp hanswer hi
      | processed o => exact hclient ▸ CameTo.mono hp hanswer hi

theorem request?_put (hf : l.flights[i]? = some f) : (l.put i f s).request? = l.request? := by
  funext j
  show (l.put i f s).calls[j]?.bind _ = _
  rw [calls_put hf]
  rfl

theorem request?_eq (hf : l.flights[i]? = some f) : l.request? i = (f.call.asked l.client).toOption := by
  unfold request? calls
  rw [List.getElem?_map, hf]
  rfl

theorem asked_of_start {c : Client} {st : Started} (h : call.start = .ok st) :
    call.asked c = st.pending.asked c call.method := by
  rw [Call.asked, h]

theorem answer?_hand {r : Request} {ticket : Nat} {o : Outcome} (h : l.answer? ticket = some o) :
    (l.hand r).answer? ticket = some o := by
  obtain ⟨x, hx, ho⟩ := Option.bind_eq_some_iff.1 h
  obtain ⟨hlt, -⟩ := List.getElem?_eq_some_iff.1 hx
  show (l.exchanges ++ [_])[ticket]?.bind _ = some o
  rw [List.getElem?_append_left hlt, hx]
  exact ho

theorem Sent.put (h : l.Sent senders) (hf : l.flights[i]? = some f)
    (hs : l.Fits senders i f.call s) : (l.put i f s).Sent senders := by
  refine ⟨h.nodup, (request?_put (s := s) hf) ▸ h.own, fun j f' hf' => ?_⟩
  rw [flights_put hf] at hf'
  split at hf'
  next hj =>
    obtain rfl := Option.some.inj hf'
    exact hj ▸ hs
  next => exact h.each j f' hf'

theorem Sent.length_eq (h : l.Sent senders) : senders.length = l.exchanges.length := by
  have hlength := congrArg List.length h.own
  simpa using hlength.symm

theorem Sent.send (h : l.Sent senders) (hf : l.flights[i]? = some f) {st : Started} {r : Request}
    (hs : f.stage = .running st (.resolved r)) :
    ((l.put i f (.running st (.sent l.exchanges.length))).hand r).Sent (senders ++ [i]) := by
  have hfits := h.each i f hf
  rw [hs] at hfits
  obtain ⟨hstart, hasked, hi⟩ := hfits
  refine ⟨?_, ?_, fun j f' hf' => ?_⟩
  · simpa [List.nodup_append, h.nodup] using fun a ha => ne_of_mem_of_not_mem ha hi
  · show (l.exchanges ++ [Exchange.mk r none]).map _ = (senders ++ [i]).map (l.put i f _).request?
    rw [request?_put hf, List.map_append, List.map_append, h.own, List.map_singleton, List.map_singleton,
      request?_eq hf, hasked]
    rfl
  · have hj : (l.put i f _).flights[j]? = some f' := hf'
    rw [flights_put hf] at hj
    split at hj
    next hj' =>
      obtain rfl := Option.some.inj hj
      subst hj'
      exact ⟨hstart, by rw [← h.length_eq]; simp⟩
    next hj' =>
      refine (h.each j f' hj).mono ?_ (fun _ _ => answer?_hand) (by simpa using Ne.symm hj')
      rfl

theorem Sent.answer (h : l.Sent senders) {ticket : Nat} {r : Request} (o : Outcome)
    (hx : l.exchanges[ticket]? = some ⟨r, none⟩) :
    (l.reply ticket r o).Sent senders := by
  refine ⟨h.nodup, ?_, fun j f hf => ?_⟩
  · show (l.exchanges.set ticket ⟨r, some o⟩).map _ = senders.map l.request?
    exact (map_set_same hx ⟨r, some o⟩ rfl).trans h.own
  rw [← List.append_nil senders]
  refine (h.each j f hf).mono ?_ (fun ticket' o' ho' => ?_) List.not_mem_nil
  · rfl
  -- The request had no answer yet, so this is the answer to another one.
  have hne : ticket ≠ ticket' := by
    rintro rfl
    rw [answer?, hx] at ho'
    cases ho'
  show (l.exchanges.set ticket _)[ticket']?.bind _ = _
  rw [List.getElem?_set_ne hne]
  exact ho'

theorem Sent.fits (h : l.Sent senders) (hf : l.flights[i]? = some f) (hs : f.stage = s) :
    l.Fits senders i f.call s :=
  hs ▸ h.each i f hf

theorem Sent.schedule (h : l.Sent senders) (asTask : Bool) : (l.schedule i asTask).Sent senders :=
  ⟨h.nodup, h.own, h.each⟩

theorem Sent.callBack (h : l.Sent senders) (o : Outcome) : (l.callBack i o).Sent senders :=
  ⟨h.nodup, h.own, h.each⟩

theorem Sent.discard (h : l.Sent senders) : (l.discard i).Sent senders := ⟨h.nodup, h.own, h.each⟩

theorem Step.sent (hstep : l.Step t l') (h : l.Sent senders) : ∃ senders', l'.Sent senders' := by
  cases hstep with
  | refuse hf hs hstart => exact ⟨senders, h.put hf ⟨hstart, h.fits hf hs⟩⟩
  | make hf hs hstart => exact ⟨senders, (h.put (s := .running _ .made) hf ⟨hstart, h.fits hf hs⟩).schedule _⟩
  | fail hf hs hasked =>
      obtain ⟨hstart, hi⟩ := h.fits hf hs
      exact ⟨senders, h.put hf ⟨hstart, .inl ⟨_, (asked_of_start hstart).trans hasked, rfl, hi⟩⟩⟩
  | resolve hf hs hasked =>
      obtain ⟨hstart, hi⟩ := h.fits hf hs
      exact ⟨senders, h.put hf ⟨hstart, (asked_of_start hstart).trans hasked, hi⟩⟩
  | send hf hs => exact ⟨_, h.send hf hs⟩
  | receive hf hs ho =>
      obtain ⟨hstart, hi⟩ := h.fits hf hs
      exact ⟨senders, h.put hf ⟨hstart, .inr ⟨_, hi, ho⟩⟩⟩
  | tell hf hs _ =>
      obtain ⟨hstart, hcame⟩ := h.fits hf hs
      exact ⟨senders, (h.put (s := .running _ (.told _)) hf ⟨hstart, hcame⟩).callBack _⟩
  | tellNobody hf hs _ =>
      obtain ⟨hstart, hcame⟩ := h.fits hf hs
      exact ⟨senders, h.put hf ⟨hstart, hcame⟩⟩
  | process hf hs =>
      obtain ⟨hstart, hcame⟩ := h.fits hf hs
      exact ⟨senders, (h.put (s := .running _ (.processed _)) hf ⟨hstart, hcame⟩).discard⟩
  | answer hx => exact ⟨senders, h.answer _ hx⟩

/-- The loop is never stuck: while a call is not over, it can go on or the transport owes it an answer. -/
theorem exists_turn (h : l.Sent senders) (hf : l.flights[i]? = some f) (hover : f.stage.isOver = false) :
    (l.step? (.call i)).isSome = true ∨ ∃ ticket, ∀ o, (l.step? (.answer ticket o)).isSome = true := by
  cases hs : f.stage with
  | unmade => exact .inl (by simp [step?, hf, hs])
  | refused e =>
      rw [hs] at hover
      cases hover
  | running st p =>
      cases p with
      | made =>
          refine .inl ?_
          simp only [step?, hf, hs, advance?]
          cases st.pending.asked l.client f.call.method with
          | error e => rfl
          | ok r => rfl
      | resolved r => exact .inl (by simp [step?, hf, hs, advance?])
      | sent ticket =>
          obtain ⟨-, hi⟩ := h.fits hf hs
          obtain ⟨hlt, -⟩ := List.getElem?_eq_some_iff.1 hi
          rw [h.length_eq] at hlt
          obtain ⟨⟨r, given⟩, hx⟩ : ∃ x, l.exchanges[ticket]? = some x :=
            ⟨_, List.getElem?_eq_getElem hlt⟩
          cases given with
          | none => exact .inr ⟨ticket, fun o => by simp [step?, hx]⟩
          | some o =>
              have ho : l.answer? ticket = some o := by rw [answer?, hx]; rfl
              exact .inl (by simp [step?, hf, hs, advance?, ho])
      | ended o =>
          refine .inl ?_
          rw [hs] at hover
          simp only [step?, hf, hs, advance?]
          cases hr : st.receiver with
          | caller => simp [Stage.isOver, Started.isTask, hr] at hover
          | callback => rfl
          | uncallable kind => rfl
      | told o => exact .inl (by simp [step?, hf, hs, advance?])
      | processed o =>
          rw [hs] at hover
          cases hover

/-! ## What follows for the calls -/

theorem Sent.cameTo (h : l.Sent senders) (hf : l.flights[i]? = some f) {o : Outcome}
    (ho : f.stage.outcome? = some o) : l.CameTo senders i (f.call.asked l.client) o := by
  cases hs : f.stage with
  | unmade => rw [hs] at ho; cases ho
  | refused e =>
      obtain ⟨hstart, hi⟩ := h.fits hf hs
      rw [hs] at ho
      cases ho
      exact .inl ⟨e, by rw [Call.asked, hstart], rfl, hi⟩
  | running st p =>
      obtain ⟨-, hp⟩ := h.fits hf hs
      rw [hs] at ho
      cases p with
      | made => cases ho
      | resolved r => cases ho
      | sent ticket => cases ho
      | ended o' => cases ho; exact hp
      | told o' => cases ho; exact hp
      | processed o' => cases ho; exact hp

/-- What a call comes to if it has sent something: the answer to what it asks for. -/
theorem Sent.exists_exchange (h : l.Sent senders) (hf : l.flights[i]? = some f) {ticket : Nat}
    (hi : senders[ticket]? = some i) :
    ∃ x ∈ l.exchanges, f.call.asked l.client = .ok x.request ∧ x.answer? = l.answer? ticket := by
  obtain ⟨hlt, -⟩ := List.getElem?_eq_some_iff.1 hi
  rw [h.length_eq] at hlt
  have hx := List.getElem?_eq_getElem hlt
  have hown := congrArg (·[ticket]?) h.own
  simp only [List.getElem?_map, hx, hi, Option.map_some, Option.some.injEq, request?_eq hf] at hown
  refine ⟨_, List.getElem_mem hlt, ?_, by rw [answer?, hx]; rfl⟩
  cases hasked : f.call.asked l.client with
  | error e => rw [hasked] at hown; cases hown
  | ok r => rw [hasked] at hown; cases hown; rfl

/-- Where the transport answers each request in its own way, so does each call end. -/
theorem Sent.outcome_eq (h : l.Sent senders) (hf : l.flights[i]? = some f) {o : Outcome}
    (ho : f.stage.outcome? = some o) {reply : Request → Outcome}
    (hreply : ∀ x ∈ l.exchanges, ∀ o, x.answer? = some o → o = reply x.request) :
    o = (f.call.asked l.client).bind reply := by
  rcases h.cameTo hf ho with ⟨e, hasked, rfl, -⟩ | ⟨ticket, hi, hanswer⟩
  · rw [hasked]
    rfl
  · obtain ⟨x, hx, hasked, hxa⟩ := h.exists_exchange hf hi
    rw [hasked]
    exact hreply x hx o (hxa.trans hanswer)

/-- A call that came to something has sent a request if it asked for one. -/
theorem Sent.mem_iff (h : l.Sent senders) (hf : l.flights[i]? = some f) {o : Outcome}
    (ho : f.stage.outcome? = some o) : i ∈ senders ↔ ∃ r, f.call.asked l.client = .ok r := by
  rcases h.cameTo hf ho with ⟨e, hasked, -, hi⟩ | ⟨ticket, hi, -⟩
  · rw [hasked]
    exact iff_of_false hi nofun
  · obtain ⟨x, -, hasked, -⟩ := h.exists_exchange hf hi
    exact iff_of_true (List.mem_of_getElem? hi) ⟨_, hasked⟩

theorem outcome?_of_told? {o : Outcome} (h : s.told? = some o) : s.outcome? = some o := by
  unfold Stage.told? at h
  split at h
  · split at h
    · exact h
    · cases h
  · split at h
    · exact h
    · cases h
  · cases h

theorem Shown.told_cases (h : l.Shown) (i : Nat) :
    l.told i = [] ∨ ∃ o, l.outcome? i = some o ∧ l.told i = [o] := by
  rw [h.told, outcome?]
  cases l.stage? i with
  | none => exact .inl rfl
  | some s =>
      cases ho : s.told? with
      | none => exact .inl (by rw [Option.bind_some, ho]; rfl)
      | some o => exact .inr ⟨o, outcome?_of_told? ho, by rw [Option.bind_some, ho]; rfl⟩

theorem exists_outcome_of_isOver (h : s.isOver = true) : ∃ o, s.outcome? = some o := by
  unfold Stage.isOver at h
  split at h
  · exact ⟨_, rfl⟩
  · exact ⟨_, rfl⟩
  · exact ⟨_, rfl⟩
  · cases h

/-- A task is over when the loop is through with it. -/
theorem exists_processed {st : Started} {p : Progress} (h : (Stage.running st p).isOver = true)
    (htask : st.isTask = true) : ∃ o, p = .processed o := by
  cases p with
  | processed o => exact ⟨o, rfl⟩
  | ended o =>
      rw [Stage.isOver, htask] at h
      cases h
  | _ => cases h

theorem isProcessed_of_isOver (h : s.isOver = true) (htask : s.task? = some true) :
    s.isProcessed = true := by
  cases s with
  | unmade => cases htask
  | refused e => cases htask
  | running st p =>
      obtain ⟨o, rfl⟩ := exists_processed h (Option.some.inj htask)
      rfl

theorem receiver_of_hasCallback {st : Started} (h : call.start = .ok st) (hc : call.hasCallback = true) :
    st.receiver = .callback := by
  rw [Call.hasCallback, h] at hc
  obtain ⟨pending, receiver⟩ := st
  cases receiver with
  | callback => rfl
  | caller => cases hc
  | uncallable kind => cases hc

/-- A call with a callback is over when that was told what the call came to. -/
theorem Sent.told_of_isOver (hsent : l.Sent senders) (hshown : l.Shown) (hf : l.flights[i]? = some f)
    (hover : f.stage.isOver = true) (hcallback : f.call.hasCallback = true) {o : Outcome}
    (ho : f.stage.outcome? = some o) : l.told i = [o] ∧ .scheduled i true ∈ l.events := by
  have hstage := stage?_eq hf
  cases hs : f.stage with
  | unmade => rw [hs] at hover; cases hover
  | refused e =>
      have hstart := (hsent.fits hf hs).1
      rw [Call.hasCallback, hstart] at hcallback
      cases hcallback
  | running st p =>
      have hreceiver := receiver_of_hasCallback (hsent.fits hf hs).1 hcallback
      have htask : st.isTask = true := by rw [Started.isTask, hreceiver]
      rw [hs] at hover ho hstage
      obtain ⟨o', rfl⟩ := exists_processed hover htask
      obtain rfl := Option.some.inj ho
      refine ⟨?_, (hshown.scheduled i true).2 ?_⟩
      · rw [hshown.told, hstage, Option.bind_some, Stage.told?, hreceiver]
        rfl
      · rw [hstage, Option.bind_some, Stage.task?, htask]

/-! ## Main statement -/

/-- What holds of calls that go their ways in a loop, however far they are. -/
structure Independent (c : Client) (calls : List Call) (l : EventLoop) : Prop where
  /-- Nothing of the client changes: its tree, its document, its defaults and its options. -/
  client_eq : l.client = c
  calls_eq : l.calls = calls
  /-- The transport gets no two requests of one call, and each is what its call asks for. A call comes to its own
  error, or to the answer to its own request. When all are over, those have sent one that ask for one. -/
  requests : ∃ senders : List Nat, senders.Nodup ∧
    (l.exchanges.map fun x => some x.request) =
      senders.map (fun i => calls[i]?.bind fun call => (call.asked c).toOption) ∧
    (∀ i call o, calls[i]? = some call → l.outcome? i = some o → l.CameTo senders i (call.asked c) o) ∧
    (l.settled = true → ∀ i call, calls[i]? = some call →
      (i ∈ senders ↔ ∃ r, call.asked c = .ok r))
  /-- A callback is told no more than once, and only what its call came to. -/
  told : ∀ i, l.told i = [] ∨ ∃ o, l.outcome? i = some o ∧ l.told i = [o]
  /-- When all are over, each has come to something, and every callback was told that, by a task. -/
  complete : l.settled = true → ∀ i call, calls[i]? = some call → ∃ o, l.outcome? i = some o ∧
    (call.hasCallback = true → l.told i = [o] ∧ .scheduled i true ∈ l.events)
  /-- Kept are the tasks that were created and that the loop is not through with. -/
  pending : ∀ i, i ∈ l.pending ↔ .scheduled i true ∈ l.events ∧ l.isProcessed i = false
  drained : (∀ i, .scheduled i true ∈ l.events → l.isProcessed i = true) → l.pending = []
  processed : l.settled = true → ∀ i, .scheduled i true ∈ l.events → l.isProcessed i = true
  /-- If the transport's answers depend on nothing but the requests, what a call comes to depends on nothing but
  the call. -/
  outcome : ∀ reply : Request → Outcome, (∀ x ∈ l.exchanges, ∀ o, x.answer? = some o → o = reply x.request) →
    ∀ i call o, calls[i]? = some call → l.outcome? i = some o → o = (call.asked c).bind reply
  /-- While not all are over, a call can go on, or the transport can give an answer, whatever it is. -/
  unstuck : l.settled = true ∨ (∃ i, (l.step? (.call i)).isSome = true) ∨
    ∃ ticket, ∀ o, (l.step? (.answer ticket o)).isSome = true
  /-- And that does not go on forever. -/
  bounded : ∀ t l', l.step? t = some l' → l'.remaining < l.remaining

theorem Sent.independent (hsent : l.Sent senders) (hshown : l.Shown) :
    Independent l.client l.calls l := by
  have hover : l.settled = true → ∀ {i} {f : Flight}, l.flights[i]? = some f → f.stage.isOver = true :=
    fun h i f hf => List.all_eq_true.1 h f (List.mem_of_getElem? hf)
  refine ⟨rfl, rfl, ⟨senders, hsent.nodup, hsent.own, fun i call o hi ho => ?_, fun h i call hi => ?_⟩,
    hshown.told_cases, fun h i call hi => ?_, hshown.pending, fun h => ?_, fun h i hi => ?_,
    fun reply hreply i call o hi ho => ?_, ?_, fun t l' h => (step_of_step? h).remaining_lt⟩
  · obtain ⟨f, hf, rfl⟩ := exists_flight hi
    exact hsent.cameTo hf ((outcome?_eq hf).symm.trans ho)
  · obtain ⟨f, hf, rfl⟩ := exists_flight hi
    obtain ⟨o, ho⟩ := exists_outcome_of_isOver (hover h hf)
    exact hsent.mem_iff hf ho
  · obtain ⟨f, hf, rfl⟩ := exists_flight hi
    obtain ⟨o, ho⟩ := exists_outcome_of_isOver (hover h hf)
    exact ⟨o, (outcome?_eq hf).trans ho, fun hc => hsent.told_of_isOver hshown hf (hover h hf) hc ho⟩
  · refine List.eq_nil_iff_forall_not_mem.2 fun i hi => ?_
    obtain ⟨hevent, hprocessed⟩ := (hshown.pending i).1 hi
    rw [h i hevent] at hprocessed
    cases hprocessed
  · obtain ⟨s, hs, htask⟩ := Option.bind_eq_some_iff.1 ((hshown.scheduled i true).1 hi)
    obtain ⟨f, hf, rfl⟩ := Option.map_eq_some_iff.1 hs
    rw [isProcessed, hs]
    exact isProcessed_of_isOver (hover h hf) htask
  · obtain ⟨f, hf, rfl⟩ := exists_flight hi
    exact hsent.outcome_eq hf ((outcome?_eq hf).symm.trans ho) hreply
  · cases h : l.settled with
    | true => exact .inl rfl
    | false =>
        obtain ⟨f, hf, hnot⟩ := List.all_eq_false.1 h
        obtain ⟨i, hi⟩ := List.mem_iff_getElem?.1 hf
        exact .inr ((exists_turn hsent hi (Bool.eq_false_iff.2 hnot)).imp_left fun h => ⟨i, h⟩)

end

theorem start_unmade {c : Client} {calls : List Call} {i : Nat} {f : Flight}
    (hf : (start c calls).flights[i]? = some f) : f.stage = .unmade := by
  obtain ⟨call, -, rfl⟩ := Option.map_eq_some_iff.1 ((List.getElem?_map ..).symm.trans hf)
  rfl

theorem calls_start (c : Client) (calls : List Call) : (start c calls).calls = calls := by
  unfold EventLoop.calls start
  rw [List.map_map]
  exact List.map_id calls

theorem start_sent (c : Client) (calls : List Call) : (start c calls).Sent [] :=
  ⟨List.nodup_nil, rfl, fun i f hf => by
    rw [start_unmade hf]
    exact List.not_mem_nil⟩

theorem start_shown (c : Client) (calls : List Call) : (start c calls).Shown := by
  have hview : ∀ {β : Type} (g : Stage → Option β), g .unmade = none → ∀ i,
      ((start c calls).stage? i).bind g = none := by
    intro β g hg i
    refine Option.bind_eq_none_iff.2 fun s hs => ?_
    obtain ⟨f, hf, rfl⟩ := Option.map_eq_some_iff.1 hs
    rw [start_unmade hf, hg]
  refine ⟨fun i => ?_, fun i asTask => ?_, fun i => ?_⟩
  · rw [hview Stage.told? rfl]
    rfl
  · rw [hview Stage.task? rfl]
    exact iff_of_false List.not_mem_nil nofun
  · exact iff_of_false List.not_mem_nil fun h => List.not_mem_nil h.1

theorem run_independent (c : Client) (calls : List Call) (turns : List Turn) :
    ((start c calls).run turns).Independent c calls := by
  obtain ⟨hclient, hcalls, ⟨senders, hsent⟩, hshown⟩ := run_induction
    (P := fun l => l.client = c ∧ l.calls = calls ∧ (∃ senders, l.Sent senders) ∧ l.Shown)
    (fun l t l' hstep ⟨hclient, hcalls, ⟨senders, hsent⟩, hshown⟩ =>
      ⟨hstep.client.trans hclient, hstep.calls.trans hcalls, hstep.sent hsent, hstep.shown hshown⟩)
    turns ⟨rfl, calls_start c calls, ⟨[], start_sent c calls⟩, start_shown c calls⟩
  have h := hsent.independent hshown
  rwa [hclient, hcalls] at h

/-- Calls in an event loop are independent, whatever turns it takes; and what a call asks for is what `prepare`
gives, where it keeps no name for itself that it is given. -/
theorem calls_independent (c : Client) (calls : List Call) (turns : List Turn) :
    ((start c calls).run turns).Independent c calls ∧
      ∀ m shape named, (m, shape, named) ∈ calls → (∀ e ∈ named, e.1 ∉ callNames) →
        Call.asked c (m, shape, named) = c.requested m shape.parameters named ∧
          Call.hasCallback (m, shape, named) = shape.hasCallback :=
  ⟨run_independent c calls turns,
    fun _ _ _ _ hn => ⟨Call.asked_eq_requested hn c, Call.hasCallback_eq hn⟩⟩

/-- A note that is read with a callback, one without its name, and one that is waited for. -/
def noteCalls : List Call :=
  [(readNote, .callback, [("id", .str "7")]), (readNote, .plain none, []),
    (readNote, .plain none, [("id", .str "8")])]

/-- Turns of these in which the request that was sent last is answered first. -/
def noteTurns : List Turn :=
  [.call 0, .call 1, .call 2, .call 0, .call 0, .call 2, .call 1, .call 2, .answer 1 (.ok (.bare 404)),
    .answer 0 (.ok (.bare 200)), .call 0, .call 2, .call 0, .call 0]

/-- The callback is told the answer to its own request, which came last, and no task is kept. -/
theorem calls_independent_noteCalls :
    ((start noteClient noteCalls).run noteTurns).told 0 = [.ok (.bare 200)] ∧
      ((start noteClient noteCalls).run noteTurns).pending = [] := by
  obtain ⟨h, hprepared⟩ := calls_independent noteClient noteCalls noteTurns
  have hsettled : ((start noteClient noteCalls).run noteTurns).settled = true := by decide +kernel
  have houtcome : ((start noteClient noteCalls).run noteTurns).outcome? 0 = some (.ok (.bare 200)) := by cbv
  have hcallback := (hprepared readNote .callback [("id", .str "7")] List.mem_cons_self (by decide)).2
  obtain ⟨o, ho, htold⟩ := h.complete hsettled 0 _ rfl
  obtain rfl := Option.some.inj (houtcome.symm.trans ho)
  exact ⟨(htold hcallback).1, h.drained (h.processed hsettled)⟩

end EventLoop

end ApiDiscovery
