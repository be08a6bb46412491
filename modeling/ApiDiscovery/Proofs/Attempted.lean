import ApiDiscovery.Proofs.Attempts
import ApiDiscovery.Proofs.Layering
import ApiDiscovery.Proofs.Sending

/-!
# Whether anything is attempted

The number of retries is a whole number of any size and sign, whichever way it comes: validation lets all of them
through, and layering takes one of those that it is given. It decides whether there is an attempt at all:

    0 or more       at least one attempt; the result is a response or tells what went wrong
    below 0         no attempt, nothing sent, no waiting; the result is that all retries have failed

Main statement: `Transport.ofOptions_attempts`.
-/

namespace ApiDiscovery

namespace Http

/-! ## What attempts do not end in -/

theorem checkStatus_ne_exhausted (a : Response) : checkStatus a ≠ .error (.transport .exhausted) := by
  rw [checkStatus]
  split
  · intro h
    cases h
  · split
    · intro h
      cases h
    · intro h
      cases h

/-- Once there was an attempt, its result is told. -/
theorem concluded_ne_exhausted (attempts : Nat) (last : Except SendFault Response) :
    (concluded attempts last).bind checkStatus ≠ .error (.transport .exhausted) := by
  rw [concluded]
  cases AttemptEnd.of last with
  | response a => exact checkStatus_ne_exhausted a
  | serverFailure a => exact checkStatus_ne_exhausted a
  | transient f =>
      intro h
      cases h
  | failed f =>
      intro h
      cases h

/-! ## What is sent first -/

/-- A request that is sent comes right behind what was sent before. -/
theorem follow_first (left : Nat) (w : Request) (n : Network) :
    n.sent ++ [w] <+: (follow (left + 1) w n).2.sent := by
  rw [follow]
  unfold Network.exchange
  cases n.script n.sent.length with
  | failure f => exact List.prefix_rfl
  | response a =>
      dsimp only
      split
      · exact List.prefix_rfl
      · cases a.redirection? with
        | none => exact List.prefix_rfl
        | some place =>
            dsimp only
            cases w.redirect? a.status place with
            | error f => exact List.prefix_rfl
            | ok next =>
                obtain ⟨-, chain, hsent, -⟩ := follow_sent left next { n with sent := n.sent ++ [w] }
                exact ⟨chain, hsent.symm⟩

/-- Whatever attempts and waiting keep, is kept from the end of the first attempt on. -/
theorem retrying_first {σ : Type} (attempt : σ → Except SendFault Response × σ) (wait : Clock σ)
    {R : σ → σ → Prop} (hrefl : ∀ s, R s s) (htrans : ∀ {a b c}, R a b → R b c → R a c)
    (hattempt : ∀ s, R s (attempt s).2) (hwait : ∀ k s, R s (wait k s)) (i left : Nat) (s : σ) :
    R (attempt s).2 (retrying attempt wait i left s).2 := by
  cases left with
  | zero =>
      rw [retrying_zero]
      exact hrefl _
  | succ left =>
      cases hsettles : settles (attempt s).1 with
      | true =>
          rw [retrying_of_settles hsettles]
          exact hrefl _
      | false =>
          rw [retrying_succ hsettles]
          refine htrans (hwait (delayAfter i) _) ?_
          exact retrying_keeps attempt wait (R := R) htrans hattempt hwait left (i + 1) _

/-- With any number of retries that is not negative, a request that can be made ready is sent. -/
theorem execute_first {t : Transport} {r : ApiDiscovery.Request} {w : Request} (hretries : 0 ≤ t.retries)
    (hmake : Request.make? r.verb r.fullUrl (t.layered r) r.body = .ok w) (n : Network) :
    n.sent ++ [w] <+: (t.execute r n).state.sent := by
  have hnetwork : ∀ n, Sender.network (t.dispatch r) n = send w n := fun _ =>
    Sender.network_ok (d := t.dispatch r) hmake
  have hkept := retrying_first (Sender.network.traced (t.dispatch r)) (Clock.traced fun _ n => n)
    (R := fun s s' => s.1.sent <+: s'.1.sent) (fun _ => List.prefix_rfl) List.IsPrefix.trans
    (fun s => by
      show s.1.sent <+: (Sender.network (t.dispatch r) s.1).2.sent
      rw [hnetwork]
      obtain ⟨more, hmore⟩ := (send_opened w s.1).kept
      exact ⟨more, hmore.symm⟩)
    (fun _ _ => List.prefix_rfl) 0 t.retries.toNat (n, [])
  have hfirst : n.sent ++ [w] <+: (Sender.network.traced (t.dispatch r) (n, [])).2.1.sent := by
    show n.sent ++ [w] <+: (Sender.network (t.dispatch r) n).2.sent
    rw [hnetwork]
    exact follow_first redirectionLimit w n
  show n.sent ++ [w] <+:
    (attemptAll (Sender.network.traced (t.dispatch r)) (Clock.traced fun _ n => n) t.retries (n, [])).2.1.sent
  rw [attemptAll, if_neg (Int.not_lt.2 hretries)]
  exact hfirst.trans hkept

/-- With a negative number of retries, nothing happens. -/
theorem execute_negative {t : Transport} (hretries : t.retries < 0) (r : ApiDiscovery.Request) (n : Network) :
    t.execute r n = ⟨.error (.transport .exhausted), [], n⟩ := by
  rw [Transport.execute, Transport.executeBy, attemptAll, if_pos hretries]
  rfl

theorem executeBy_attempted {σ : Type} (t : Transport) (send : Sender σ) (wait : Clock σ) (r : ApiDiscovery.Request)
    (s : σ) :
    ∃ attempts result s',
      t.executeBy send.traced wait.traced r (s, []) = (result, s', traceOf (t.dispatch r) attempts) ∧
      (0 < attempts ↔ 0 ≤ t.retries) ∧ (result = .error (.transport .exhausted) ↔ t.retries < 0) := by
  rcases executeBy_run t send wait r s with ⟨hneg, hrun⟩ | ⟨hpos, k, s', -, -, -, hrun⟩
  · refine ⟨0, _, s, hrun, ⟨fun hlt => absurd hlt (Nat.lt_irrefl 0), fun hpos => ?_⟩, ⟨fun _ => hneg, fun _ => rfl⟩⟩
    exact absurd hneg (Int.not_lt.2 hpos)
  · refine ⟨k + 1, _, s', hrun, ⟨fun _ => hpos, fun _ => Nat.succ_pos k⟩, ⟨fun hexhausted => ?_, fun hneg => ?_⟩⟩
    · exact absurd hexhausted (concluded_ne_exhausted _ _)
    · exact absurd hneg (Int.not_lt.2 hpos)

/-! ## Main statement -/

/-- A transport with the number of retries of some options attempts every request at least once exactly if the number
is not negative, and reports that all retries have failed exactly if it is negative. Then a request that can be made
ready is sent first of all, or nothing is done. The number is the one that settings have, or the one of the upper
options where options are layered and the upper ones set it. -/
theorem Transport.ofOptions_attempts (o : Options) (r : ApiDiscovery.Request) :
    (∀ (σ : Type) (send : Sender σ) (wait : Clock σ) (s : σ),
      ∃ attempts result s', (ofOptions o).executeBy send.traced wait.traced r (s, []) =
          (result, s', traceOf ((ofOptions o).dispatch r) attempts) ∧
        (0 < attempts ↔ 0 ≤ o.maxRetries) ∧ (result = .error (.transport .exhausted) ↔ o.maxRetries < 0)) ∧
    (∀ n : Network,
      (0 ≤ o.maxRetries → ∀ w, Request.make? r.verb r.fullUrl ((ofOptions o).layered r) r.body = .ok w →
        n.sent ++ [w] <+: ((ofOptions o).execute r n).state.sent) ∧
      (o.maxRetries < 0 → (ofOptions o).execute r n = ⟨.error (.transport .exhausted), [], n⟩)) ∧
    (∀ s : Settings, s.options = o → o.maxRetries = s.maxRetries) ∧
    ∀ upper lower : Options, upper.layered lower = .ok o → o.maxRetries = upper.maxRetries?.getD lower.maxRetries := by
  refine ⟨fun σ send wait s => executeBy_attempted (ofOptions o) send wait r s, fun n => ⟨?_, ?_⟩, fun s h => ?_,
    fun upper lower h => ?_⟩
  · intro hretries w hmake
    exact execute_first (t := ofOptions o) hretries hmake n
  · intro hretries
    exact execute_negative (t := ofOptions o) hretries r n
  · rw [← h]
    rfl
  · rw [Options.layered_eq] at h
    cases h
    exact Options.onto_maxRetries upper lower

/-- A request that is sent once, to be carried out with one of the two numbers of retries. -/
theorem Transport.ofOptions_attempts_plainRequest :
    ∃ w, Request.make? plainRequest.verb plainRequest.fullUrl
        ((ofOptions { maxRetries? := some 0 }).layered plainRequest) plainRequest.body = .ok w ∧
      [w] <+: ((ofOptions { maxRetries? := some 0 }).execute plainRequest (.ofList [])).state.sent ∧
      ((ofOptions { maxRetries? := some (-1) }).execute plainRequest (.ofList [])).state.sent = [] := by
  obtain ⟨-, honce, -⟩ := Transport.ofOptions_attempts { maxRetries? := some 0 } plainRequest
  obtain ⟨-, hnever, -⟩ := Transport.ofOptions_attempts { maxRetries? := some (-1) } plainRequest
  have hverb : (Request.make? plainRequest.verb plainRequest.fullUrl
      ((ofOptions { maxRetries? := some 0 }).layered plainRequest) plainRequest.body).toOption.map (·.verb) =
      some "GET" := by decide +kernel
  obtain ⟨w, hmake, -⟩ := exists_of_toOption_map hverb
  have hsent := (honce (.ofList [])).1 (by decide) w hmake
  have hnothing := (hnever (.ofList [])).2 (by decide)
  refine ⟨w, hmake, hsent, ?_⟩
  rw [hnothing]
  rfl

/-- Surroundings without a file of settings, in which the number of retries is set to a negative one. -/
def negativeRetries : Environment := ⟨"Linux", .ofList [("HOME", "/home"), ("DISCOGEN_MAX_RETRIES", "-1")]⟩

/-- A negative number of retries passes, given as an option or in the surroundings, and with it a request that can be
made ready is never attempted. -/
theorem Transport.ofOptions_no_attempt :
    (∃ w, Request.make? plainRequest.verb plainRequest.fullUrl (({} : Transport).layered plainRequest)
      plainRequest.body = .ok w) ∧
    (∃ o, Options.ofValue? (.ofFields [("max_retries", .int (-1))]) = .ok o ∧
      (ofOptions o).execute plainRequest (.ofList []) = ⟨.error (.transport .exhausted), [], .ofList []⟩) ∧
    ∃ s, (negativeRetries.resolve {}).1 = .ok s ∧
      (ofOptions s.options).execute plainRequest (.ofList []) = ⟨.error (.transport .exhausted), [], .ofList []⟩ := by
  have hverb : (Request.make? plainRequest.verb plainRequest.fullUrl (({} : Transport).layered plainRequest)
      plainRequest.body).toOption.map (·.verb) = some "GET" := by decide +kernel
  have hoption : (Options.ofValue? (.ofFields [("max_retries", .int (-1))])).toOption.map (·.maxRetries) =
      some (-1) := by decide +kernel
  have hsettings : (negativeRetries.resolve {}).1.toOption.map (·.maxRetries) = some (-1) := by decide +kernel
  obtain ⟨w, hmake, -⟩ := exists_of_toOption_map hverb
  obtain ⟨o, ho, hretries⟩ := exists_of_toOption_map hoption
  obtain ⟨s, hs, hown⟩ := exists_of_toOption_map hsettings
  have hnegative : (ofOptions o).retries < 0 := by
    rw [ofOptions, hretries]
    decide
  have hownNegative : (ofOptions s.options).retries < 0 := by
    show s.maxRetries < 0
    rw [hown]
    decide
  exact ⟨⟨w, hmake⟩, ⟨o, ho, execute_negative hnegative _ _⟩, s, hs, execute_negative hownNegative _ _⟩

end Http

end ApiDiscovery
