import ApiDiscovery.Http.Transport

/-!
# What is sent for a request

Carrying out a request sends more than one: there are attempts, and in each attempt there may be redirections,
which are followed. Only what a redirection asks for differs from the request that is made ready at first. That is
kept from one state of the network to the next (`Opened`), and so by all attempts (`execute_keeps`).

Main statement: `Transport.Sends.make?`.
-/

namespace ApiDiscovery

namespace Http

/-! ## Following redirections -/

/-- Answers that can lead on to another request. -/
def Answer.redirects : Answer → Bool
  | .response a => a.redirection?.isSome
  | .failure _ => false

/-- `Opened w n n'`: what `n'` has been sent beyond `n` is `w`, or follows an answer that redirects. -/
structure Opened (w : Request) (n n' : Network) : Prop where
  script : n'.script = n.script
  kept : ∃ more, n'.sent = n.sent ++ more
  opens : ∀ i w', n.sent.length ≤ i → n'.sent[i]? = some w' →
    w' = w ∨ (n.sent.length < i ∧ (n.script (i - 1)).redirects = true)

namespace Opened

variable {w : Request} {n n' n'' : Network}

theorem refl (w : Request) (n : Network) : Opened w n n where
  script := rfl
  kept := ⟨[], (List.append_nil _).symm⟩
  opens := fun i w' hi hw => by
    rw [List.getElem?_eq_none hi] at hw
    cases hw

theorem trans (h : Opened w n n') (h' : Opened w n' n'') : Opened w n n'' where
  script := h'.script.trans h.script
  kept := by
    obtain ⟨more, hmore⟩ := h.kept
    obtain ⟨more', hmore'⟩ := h'.kept
    exact ⟨more ++ more', by rw [hmore', hmore, List.append_assoc]⟩
  opens := fun i w' hi hw => by
    obtain ⟨more, hmore⟩ := h.kept
    obtain ⟨more', hmore'⟩ := h'.kept
    have hlength : n.sent.length ≤ n'.sent.length := by
      rw [hmore, List.length_append]
      exact Nat.le_add_right _ _
    by_cases hlt : i < n'.sent.length
    · rw [hmore', List.getElem?_append_left hlt] at hw
      exact h.opens i w' hi hw
    · rcases h'.opens i w' (Nat.le_of_not_lt hlt) hw with hw | ⟨hi', hredirects⟩
      · exact .inl hw
      · rw [h.script] at hredirects
        exact .inr ⟨Nat.lt_of_le_of_lt hlength hi', hredirects⟩

end Opened

/-- Following redirections sends the request itself first, and then only what redirections ask for. -/
theorem follow_sent (left : Nat) (w : Request) (n : Network) :
    (follow left w n).2.script = n.script ∧
      ∃ chain, (follow left w n).2.sent = n.sent ++ chain ∧ (∀ w' ∈ chain.head?, w' = w) ∧
        ∀ i, i + 1 < chain.length → (n.script (n.sent.length + i)).redirects = true := by
  induction left generalizing w n with
  | zero => exact ⟨rfl, [], (List.append_nil _).symm, nofun, nofun⟩
  | succ left ih =>
      have hone : ∃ chain, n.sent ++ [w] = n.sent ++ chain ∧ (∀ w' ∈ chain.head?, w' = w) ∧
          ∀ i, i + 1 < chain.length → (n.script (n.sent.length + i)).redirects = true :=
        ⟨[w], rfl, fun w' hw => (Option.some.inj hw).symm, fun i hi => by simp at hi⟩
      rw [follow]
      unfold Network.exchange
      cases hanswer : n.script n.sent.length with
      | failure f => exact ⟨rfl, hone⟩
      | response a =>
          dsimp only
          split
          · exact ⟨rfl, hone⟩
          · cases hplace : a.redirection? with
            | none => exact ⟨rfl, hone⟩
            | some place =>
                dsimp only
                cases hnext : w.redirect? a.status place with
                | error f => exact ⟨rfl, hone⟩
                | ok next =>
                    obtain ⟨hscript, chain, hsent, -, hredirects⟩ := ih next { n with sent := n.sent ++ [w] }
                    refine ⟨hscript, w :: chain, ?_, fun w' hw => (Option.some.inj hw).symm, fun i hi => ?_⟩
                    · rw [hsent, List.append_assoc, List.singleton_append]
                    · -- What leads on to the first request of the rest is the answer to the request itself.
                      cases i with
                      | zero =>
                          rw [Nat.add_zero, hanswer, Answer.redirects, hplace]
                          rfl
                      | succ i =>
                          have hrest := hredirects i (by simpa using hi)
                          rw [List.length_append, List.length_singleton] at hrest
                          rwa [Nat.add_comm i 1, ← Nat.add_assoc]

theorem send_opened (w : Request) (n : Network) : Opened w n (send w n).2 := by
  obtain ⟨hscript, chain, hsent, hfirst, hredirects⟩ := follow_sent (redirectionLimit + 1) w n
  refine ⟨hscript, ⟨chain, hsent⟩, fun i w' hi hw => ?_⟩
  rw [send, hsent, List.getElem?_append_right hi] at hw
  rcases Nat.eq_or_lt_of_le hi with rfl | hlt
  · rw [Nat.sub_self, ← List.head?_eq_getElem?] at hw
    exact .inl (hfirst w' hw)
  · have hlength := (List.getElem?_eq_some_iff.1 hw).1
    have hled := hredirects (i - 1 - n.sent.length) (by omega)
    rw [show n.sent.length + (i - 1 - n.sent.length) = i - 1 by omega] at hled
    exact .inr ⟨hlt, hled⟩

/-! ## Attempts -/

/-- What every attempt and all waiting keep is kept by all attempts. -/
theorem retrying_keeps {σ : Type} (attempt : σ → Except SendFault Response × σ) (wait : Clock σ)
    {R : σ → σ → Prop} (htrans : ∀ {a b c}, R a b → R b c → R a c) (hattempt : ∀ s, R s (attempt s).2)
    (hwait : ∀ k s, R s (wait k s)) (left i : Nat) (s : σ) : R s (retrying attempt wait i left s).2 := by
  induction left generalizing i s with
  | zero =>
      have hone := hattempt s
      rw [retrying]
      dsimp only
      split <;> exact hone
  | succ left ih =>
      have hone := hattempt s
      rw [retrying]
      dsimp only
      split
      · exact hone
      · exact hone
      · exact htrans hone (htrans (hwait _ _) (ih _ _))
      · exact htrans hone (htrans (hwait _ _) (ih _ _))

/-- What every attempt keeps is kept by carrying out a request. -/
theorem execute_keeps {R : Network → Network → Prop} {tr : Transport} {r : ApiDiscovery.Request}
    (hrefl : ∀ n, R n n) (htrans : ∀ {a b c}, R a b → R b c → R a c)
    (hattempt : ∀ n, R n (Sender.network (tr.dispatch r) n).2) (n : Network) :
    R n (tr.execute r n).state := by
  show R n (attemptAll (Sender.network.traced (tr.dispatch r)) (Clock.traced fun _ n => n) tr.retries (n, [])).2.1
  rw [attemptAll]
  split
  · exact hrefl n
  · exact retrying_keeps (Sender.network.traced (tr.dispatch r)) (Clock.traced fun _ n => n)
      (R := fun s s' => R s.1 s'.1) htrans (fun s => hattempt s.1) (fun _ s => hrefl s.1) _ _ (n, [])

/-! ## Main statement -/

theorem Sender.network_ok {d : Dispatch} {wire : Request} {n : Network}
    (h : Request.make? d.verb d.url d.headers d.body = .ok wire) : Sender.network d n = send wire n := by
  simp only [Sender.network, h]

theorem Sender.network_error {d : Dispatch} {f : SendFault} {n : Network}
    (h : Request.make? d.verb d.url d.headers d.body = .error f) : Sender.network d n = (.error f, n) := by
  simp only [Sender.network, h]

/-- A request is sent on behalf of another: it opens an attempt, and is not what a redirection asks for. -/
def Transport.Sends (tr : Transport) (r : ApiDiscovery.Request) (n : Network) (w : Request) : Prop :=
  ∃ i, n.sent.length ≤ i ∧ (tr.execute r n).state.sent[i]? = some w ∧
    (i = n.sent.length ∨ (n.script (i - 1)).redirects = false)

/-- All that is sent on behalf of a request is the request that is made ready from it. -/
theorem Transport.Sends.make? {tr : Transport} {r : ApiDiscovery.Request} {n : Network} {w : Request}
    (h : tr.Sends r n w) : Request.make? r.verb r.fullUrl (tr.layered r) r.body = .ok w := by
  obtain ⟨i, hi, hw, hopens⟩ := h
  cases hmake : Request.make? r.verb r.fullUrl (tr.layered r) r.body with
  | error f =>
      have hnetwork : ∀ n, Sender.network (tr.dispatch r) n = (.error f, n) := fun _ =>
        Sender.network_error (d := tr.dispatch r) hmake
      have hsent : (tr.execute r n).state = n :=
        execute_keeps (R := fun n n' => n' = n) (fun _ => rfl) (fun h h' => h'.trans h)
          (fun n => by rw [hnetwork]) n
      rw [hsent, List.getElem?_eq_none hi] at hw
      cases hw
  | ok wire =>
      have hnetwork : ∀ n, Sender.network (tr.dispatch r) n = send wire n := fun _ =>
        Sender.network_ok (d := tr.dispatch r) hmake
      have hopened : Opened wire n (tr.execute r n).state :=
        execute_keeps (.refl wire) .trans (fun n => by rw [hnetwork]; exact send_opened wire n) n
      rcases hopened.opens i w hi hw with rfl | ⟨hlt, hredirects⟩
      · rfl
      · rcases hopens with rfl | hdirect
        · exact absurd hlt (Nat.lt_irrefl _)
        · rw [hdirect] at hredirects
          cases hredirects

end Http

end ApiDiscovery
