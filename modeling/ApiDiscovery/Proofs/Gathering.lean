import ApiDiscovery.Proofs.Interleaving

/-!
# Calls that are made at once

`Client.gather` is one of the ways that an event loop can go: it makes all calls, and then takes one after the
other to its end. So what holds of calls in a loop holds of these, and they are all over when it returns.

Main statement: `Client.gather_independent`.
-/

namespace ApiDiscovery

namespace EventLoop

section

variable {l : EventLoop} {t : Turn} {i j : Nat} {f : Flight} {s : Stage} {st : Started} {p : Progress}

theorem run_append (l : EventLoop) (before after : List Turn) :
    l.run (before ++ after) = (l.run before).run after :=
  List.foldl_append

/-! ## The turns of one call -/

theorem Step.stage?_ne {l' : EventLoop} (h : l.Step t l') (ht : t ≠ .call j) :
    l'.stage? j = l.stage? j := by
  have hne : ∀ {i}, Turn.call i ≠ .call j → i ≠ j := fun h hij => h (congrArg _ hij)
  cases h with
  | answer _ => rfl
  | refuse hf | fail hf | resolve hf | receive hf | tellNobody hf =>
      exact (stage?_put hf j).trans (if_neg (hne ht))
  | make hf | send hf | tell hf | process hf =>
      exact (stage?_put hf j).trans (if_neg (hne ht))

/-- A turn of others leaves a call where it is. -/
theorem stage?_turn (l : EventLoop) (ht : t ≠ .call j) : (l.turn t).stage? j = l.stage? j := by
  unfold turn
  cases h : l.step? t with
  | none => rfl
  | some l' => exact (step_of_step? h).stage?_ne ht

theorem stage?_run {turns : List Turn} (h : ∀ t ∈ turns, t ≠ .call j) :
    (l.run turns).stage? j = l.stage? j := by
  induction turns generalizing l with
  | nil => rfl
  | cons t rest ih =>
      have hrest := ih (l := l.turn t) fun t ht => h t (List.mem_cons_of_mem _ ht)
      exact hrest.trans (stage?_turn l (h t List.mem_cons_self))

/-- The turn of a call that was made. -/
theorem turn_running (hf : l.flights[i]? = some f) (hs : f.stage = .running st p) :
    l.turn (.call i) = (l.advance? i f st p).getD l := by
  rw [turn, step?, hf]
  simp only [hs]

theorem turn_of_isOver (h : l.stage? i = some s) (hover : s.isOver = true) : l.turn (.call i) = l := by
  obtain ⟨f, hf, hs⟩ := Option.map_eq_some_iff.1 h
  cases s with
  | unmade => cases hover
  | refused e =>
      rw [turn, step?, hf]
      simp only [hs, Option.getD_none]
  | running st p =>
      rw [turn_running hf hs]
      cases p with
      | processed o => rfl
      | ended o =>
          cases hr : st.receiver with
          | caller => simp only [advance?, hr, Option.getD_none]
          | callback => simp [Stage.isOver, Started.isTask, hr] at hover
          | uncallable kind => simp [Stage.isOver, Started.isTask, hr] at hover
      | _ => cases hover

theorem run_of_isOver (h : l.stage? i = some s) (hover : s.isOver = true) (n : Nat) :
    l.run (List.replicate n (.call i)) = l := by
  induction n with
  | zero => rfl
  | succ n ih =>
      show (l.turn (.call i)).run (List.replicate n (.call i)) = l
      rw [turn_of_isOver h hover, ih]

/-- A call that came to something goes on with telling that. -/
theorem turn_of_outcome? (h : l.stage? i = some s) {o : Outcome} (ho : s.outcome? = some o)
    (hover : s.isOver = false) :
    ∃ s', (l.turn (.call i)).stage? i = some s' ∧ s'.outcome? = some o ∧ s'.left < s.left := by
  obtain ⟨f, hf, hs⟩ := Option.map_eq_some_iff.1 h
  cases s with
  | unmade => cases ho
  | refused e => cases hover
  | running st p =>
      rw [turn_running hf hs]
      cases p with
      | ended o' =>
          cases ho
          refine ⟨.running st (.told o), ?_, rfl, Nat.one_lt_two⟩
          cases hr : st.receiver with
          | caller => simp [Stage.isOver, Started.isTask, hr] at hover
          | callback =>
              simp only [advance?, hr]
              exact (stage?_put hf i).trans (if_pos rfl)
          | uncallable kind =>
              simp only [advance?, hr]
              exact (stage?_put hf i).trans (if_pos rfl)
      | told o' =>
          cases ho
          exact ⟨.running st (.processed o), (stage?_put hf i).trans (if_pos rfl), rfl, Nat.one_pos⟩
      | processed o' => cases hover
      | _ => cases ho

theorem isOver_of_left {o : Outcome} (h : s.left = 0) (ho : s.outcome? = some o) : s.isOver = true := by
  cases s with
  | unmade => cases ho
  | refused e => rfl
  | running st p =>
      cases p with
      | processed o => rfl
      | ended o => cases h
      | told o => cases h
      | _ => cases ho

/-- Enough turns take a call that came to something to its end. -/
theorem run_of_outcome? {n : Nat} (h : l.stage? i = some s) {o : Outcome} (ho : s.outcome? = some o)
    (hn : s.left ≤ n) :
    ∃ s', (l.run (List.replicate n (.call i))).stage? i = some s' ∧ s'.isOver = true := by
  induction n generalizing l s with
  | zero => exact ⟨s, h, isOver_of_left (Nat.le_zero.1 hn) ho⟩
  | succ n ih =>
      cases hover : s.isOver with
      | true => exact ⟨s, by rw [run_of_isOver h hover, h], hover⟩
      | false =>
          obtain ⟨s', hs', ho', hlt⟩ := turn_of_outcome? h ho hover
          exact ih hs' ho' (by omega)

theorem turn_made (h : l.stage? i = some (.running st .made)) :
    (∃ e, (l.turn (.call i)).stage? i = some (.running st (.ended (.error e)))) ∨
      ∃ r, (l.turn (.call i)).stage? i = some (.running st (.resolved r)) := by
  obtain ⟨f, hf, hs⟩ := Option.map_eq_some_iff.1 h
  rw [turn_running hf hs]
  cases hasked : st.pending.asked l.client f.call.method with
  | error e =>
      simp only [advance?, hasked]
      exact .inl ⟨e, (stage?_put hf i).trans (if_pos rfl)⟩
  | ok r =>
      simp only [advance?, hasked]
      exact .inr ⟨r, (stage?_put hf i).trans (if_pos rfl)⟩

theorem turn_resolved {r : Request} (h : l.stage? i = some (.running st (.resolved r))) :
    (l.turn (.call i)).stage? i = some (.running st (.sent l.exchanges.length)) ∧
      (l.turn (.call i)).exchanges = l.exchanges ++ [⟨r, none⟩] := by
  obtain ⟨f, hf, hs⟩ := Option.map_eq_some_iff.1 h
  rw [turn_running hf hs]
  exact ⟨(stage?_put hf i).trans (if_pos rfl), rfl⟩

theorem turn_sent {ticket : Nat} {o : Outcome} (h : l.stage? i = some (.running st (.sent ticket)))
    (ho : l.answer? ticket = some o) : (l.turn (.call i)).stage? i = some (.running st (.ended o)) := by
  obtain ⟨f, hf, hs⟩ := Option.map_eq_some_iff.1 h
  rw [turn_running hf hs, advance?, ho]
  exact (stage?_put hf i).trans (if_pos rfl)

theorem answer?_turn_answer {ticket : Nat} {r : Request} (h : l.exchanges[ticket]? = some ⟨r, none⟩)
    (o : Outcome) : (l.turn (.answer ticket o)).answer? ticket = some o := by
  obtain ⟨hlt, -⟩ := List.getElem?_eq_some_iff.1 h
  have hturn : l.turn (.answer ticket o) = l.reply ticket r o := by
    rw [turn, step?, h]
    rfl
  rw [hturn, answer?, reply, List.getElem?_set_self hlt]
  rfl

theorem waiting?_eq_none {o : Outcome} (h : l.stage? i = some s) (ho : s.outcome? = some o) :
    l.waiting? i = none := by
  rw [waiting?, h]
  split
  next hs =>
    cases hs
    cases ho
  next => rfl

theorem waiting?_eq_some {ticket : Nat} {x : Exchange} (h : l.stage? i = some (.running st (.sent ticket)))
    (hx : l.exchanges[ticket]? = some x) : l.waiting? i = some (ticket, x.request) := by
  rw [waiting?, h]
  simp only [hx, Option.map_some]

/-- Taking a call to its end is a list of turns, none of them of another call. -/
theorem finish_run {σ : Type} (respond : Responder σ) (w : σ) (h : l.stage? i = some (.running st .made)) :
    ∃ turns, (finish respond (l, w) i).1 = l.run turns ∧ (∀ j, i ≠ j → ∀ t ∈ turns, t ≠ .call j) ∧
      ∃ s, (l.run turns).stage? i = some s ∧ s.isOver = true := by
  have hcall : ∀ j, i ≠ j → Turn.call i ≠ .call j := fun j hj h => hj (Turn.call.inj h)
  have hanswer : ∀ k o j, Turn.answer k o ≠ .call j := fun k o j h => by cases h
  have hcalls : ∀ n j, i ≠ j → ∀ t ∈ List.replicate n (Turn.call i), t ≠ .call j :=
    fun n j hj t ht => List.eq_of_mem_replicate ht ▸ hcall j hj
  rcases turn_made h with ⟨e, hended⟩ | ⟨r, hresolved⟩
  · refine ⟨List.replicate 5 (.call i), ?_, hcalls 5, run_of_outcome? (n := 4) hended rfl (by simp [Stage.left])⟩
    have hwaiting : (l.run [.call i, .call i]).waiting? i = none := by
      cases hover : (Stage.running st (.ended (.error e))).isOver with
      | true =>
          show ((l.turn (.call i)).turn (.call i)).waiting? i = none
          rw [turn_of_isOver hended hover]
          exact waiting?_eq_none hended rfl
      | false =>
          obtain ⟨s, hs, ho, -⟩ := turn_of_outcome? hended rfl hover
          exact waiting?_eq_none hs ho
    simp only [finish, hwaiting]
    rfl
  · obtain ⟨hsent, hexchanges⟩ := turn_resolved hresolved
    have hx : (l.run [.call i, .call i]).exchanges[(l.turn (.call i)).exchanges.length]? = some ⟨r, none⟩ := by
      show ((l.turn (.call i)).turn (.call i)).exchanges[_]? = _
      rw [hexchanges]
      exact List.getElem?_concat_length
    let answer := Turn.answer (l.turn (.call i)).exchanges.length (respond r w).1
    have hended := turn_sent ((stage?_turn _ (t := answer) (hanswer _ _ i)).trans hsent)
      (answer?_turn_answer hx (respond r w).1)
    have hwaiting : (l.run [.call i, .call i]).waiting? i = some (_, r) := waiting?_eq_some hsent hx
    refine ⟨.call i :: .call i :: answer :: List.replicate 3 (.call i), ?_, fun j hj t ht => ?_,
      run_of_outcome? (n := 2) hended rfl (by simp [Stage.left])⟩
    · simp only [finish, hwaiting]
      rfl
    · simp only [List.mem_cons] at ht
      rcases ht with rfl | rfl | rfl | ht
      · exact hcall j hj
      · exact hcall j hj
      · exact hanswer _ _ j
      · exact hcalls 3 j hj t ht

/-! ## All calls -/

/-- Taking calls to their ends one after the other. -/
theorem finish_all {σ : Type} (respond : Responder σ) {order : List Nat} (hnodup : order.Nodup) (w : σ)
    (h : ∀ i ∈ order, ∃ st, l.stage? i = some (.running st .made)) :
    ∃ turns, (order.foldl (finish respond) (l, w)).1 = l.run turns ∧
      (∀ j ∉ order, (l.run turns).stage? j = l.stage? j) ∧
      ∀ i ∈ order, ∃ s, (l.run turns).stage? i = some s ∧ s.isOver = true := by
  induction order generalizing l w with
  | nil => exact ⟨[], rfl, fun _ _ => rfl, nofun⟩
  | cons i rest ih =>
      obtain ⟨hi, hrest⟩ := List.nodup_cons.1 hnodup
      obtain ⟨st, hmade⟩ := h i List.mem_cons_self
      obtain ⟨turns, hfinish, hothers, s, hs, hover⟩ := finish_run respond w hmade
      obtain ⟨w', hw⟩ : ∃ w', finish respond (l, w) i = (l.run turns, w') := ⟨_, Prod.ext hfinish rfl⟩
      obtain ⟨more, hmore, hkeep, hends⟩ := ih hrest w' fun j hj => by
        rw [stage?_run (hothers j (ne_of_mem_of_not_mem hj hi).symm)]
        exact h j (List.mem_cons_of_mem _ hj)
      refine ⟨turns ++ more, ?_, fun j hj => ?_, fun j hj => ?_⟩
      · rw [List.foldl_cons, hw, hmore, run_append]
      · rw [List.mem_cons, not_or] at hj
        rw [run_append, hkeep j hj.2, stage?_run (hothers j (Ne.symm hj.1))]
      · rw [run_append]
        rcases List.mem_cons.1 hj with rfl | hj
        · exact ⟨s, (hkeep j hi).trans hs, hover⟩
        · exact hends j hj

theorem turn_unmade (h : l.stage? i = some .unmade) :
    (∃ e, (l.turn (.call i)).stage? i = some (.refused e)) ∨
      ∃ st, (l.turn (.call i)).stage? i = some (.running st .made) := by
  obtain ⟨f, hf, hs⟩ := Option.map_eq_some_iff.1 h
  have hturn : l.turn (.call i) = l.make i f := by
    rw [turn, step?, hf]
    simp only [hs, Option.getD_some]
  rw [hturn, make]
  cases f.call.start with
  | error e => exact .inl ⟨e, (stage?_put hf i).trans (if_pos rfl)⟩
  | ok st => exact .inr ⟨st, (stage?_put hf i).trans (if_pos rfl)⟩

end

section

variable {l : EventLoop} {i : Nat}

/-- Each call is made. -/
theorem stage?_made (c : Client) (calls : List Call) {i : Nat} (hi : i < calls.length) :
    (∃ e, (made c calls).stage? i = some (.refused e)) ∨
      ∃ st, (made c calls).stage? i = some (.running st .made) := by
  obtain ⟨before, after, hrange⟩ := List.append_of_mem (List.mem_range.2 hi)
  have hnodup : (before ++ i :: after).Nodup := hrange ▸ List.nodup_range
  obtain ⟨hnot, -⟩ := List.nodup_cons.1 (List.nodup_middle.1 hnodup)
  rw [List.mem_append, not_or] at hnot
  have hothers : ∀ places : List Nat, i ∉ places → ∀ t ∈ places.map Turn.call, t ≠ .call i := by
    rintro places hplaces _ ht rfl
    obtain ⟨j, hj, hij⟩ := List.mem_map.1 ht
    exact hplaces (Turn.call.inj hij ▸ hj)
  have hunmade : ((start c calls).run (before.map .call)).stage? i = some .unmade := by
    rw [stage?_run (hothers before hnot.1), stage?, start, List.getElem?_map, List.getElem?_eq_getElem hi]
    rfl
  have hkeep : ∀ l : EventLoop, (l.run (after.map .call)).stage? i = l.stage? i :=
    fun l => stage?_run (hothers after hnot.2)
  have hmade : (made c calls).stage? i =
      (((start c calls).run (before.map .call)).turn (.call i)).stage? i := by
    rw [made, hrange, List.map_append, run_append]
    exact hkeep _
  rw [hmade]
  exact turn_unmade hunmade

theorem ne_refused (h : l.refusal? = none) (e : Error) : l.stage? i ≠ some (.refused e) := by
  intro hs
  obtain ⟨f, hf, hs⟩ := Option.map_eq_some_iff.1 hs
  have hnone := List.findSome?_eq_none_iff.1 h f (List.mem_of_getElem? hf)
  rw [hs] at hnone
  cases hnone

/-- The order has each call once. -/
theorem order_perm (l : EventLoop) : l.order.Perm (List.range l.flights.length) :=
  List.filter_append_perm l.isTask (List.range l.flights.length)

theorem Independent.length_flights {c : Client} {calls : List Call} (h : l.Independent c calls) :
    l.flights.length = calls.length :=
  (List.length_map ..).symm.trans (congrArg List.length h.calls_eq)

end

end EventLoop

open EventLoop in
/-- Calls that are made at once are independent, and all are over in the end. -/
theorem Client.gather_independent {σ : Type} (c : Client) (calls : List Call) (respond : Responder σ) (w : σ)
    {events : List CallEvent} (h : (c.gather calls respond w).1 = .ok events) :
    ∃ l : EventLoop, l.events = events ∧ l.settled = true ∧ l.Independent c calls := by
  unfold Client.gather at h
  cases hrefusal : (made c calls).refusal? with
  | some e =>
      simp only [hrefusal] at h
      cases h
  | none =>
      simp only [hrefusal, Except.ok.injEq] at h
      have hlength : (made c calls).flights.length = calls.length :=
        (run_independent c calls _).length_flights
      have horder := order_perm (made c calls)
      rw [hlength] at horder
      have hmade : ∀ i ∈ (made c calls).order, ∃ st, (made c calls).stage? i = some (.running st .made) :=
        fun i hi => (stage?_made c calls (List.mem_range.1 (horder.mem_iff.1 hi))).resolve_left
          fun ⟨e, he⟩ => ne_refused hrefusal e he
      obtain ⟨turns, hrun, -, hover⟩ := finish_all respond (horder.nodup_iff.2 List.nodup_range) w hmade
      have hindependent := run_independent c calls ((List.range calls.length).map .call ++ turns)
      rw [run_append] at hindependent
      refine ⟨(made c calls).run turns, (congrArg EventLoop.events hrun).symm.trans h,
        List.all_eq_true.2 fun f hf => ?_, hindependent⟩
      obtain ⟨i, hi⟩ := List.mem_iff_getElem?.1 hf
      obtain ⟨hlt, -⟩ := List.getElem?_eq_some_iff.1 hi
      obtain ⟨s, hs, hs'⟩ := hover i
        (horder.mem_iff.2 (List.mem_range.2 (hindependent.length_flights ▸ hlt)))
      rw [stage?_eq hi] at hs
      exact Option.some.inj hs ▸ hs'

end ApiDiscovery
