import ApiDiscovery.Client.Loop
import Mathlib

/-!
# Turns of an event loop

What one turn can do is said once (`EventLoop.Step`), as a rule for each stage that a call can be in. From these
rules come

    Step.client, Step.calls    what stays
    Step.shown                 that callbacks, scheduled tasks and kept tasks are as the stages tell
    Step.remaining_lt          that there is less left to do after every turn that is due

and `run_induction` takes what every turn keeps to all of them.
-/

namespace ApiDiscovery

/-- A place in a list, and what putting something else there does. -/
theorem exists_set {α : Type} {xs : List α} {i : Nat} {a : α} (h : xs[i]? = some a) :
    ∃ before after, xs = before ++ a :: after ∧ ∀ b, xs.set i b = before ++ b :: after := by
  obtain ⟨hi, rfl⟩ := List.getElem?_eq_some_iff.1 h
  refine ⟨xs.take i, xs.drop (i + 1), ?_, fun b => List.set_eq_take_append_cons_drop.trans (if_pos hi)⟩
  rw [← List.drop_eq_getElem_cons hi, List.take_append_drop]

theorem map_set_same {α β : Type} {g : α → β} {xs : List α} {i : Nat} {a : α} (h : xs[i]? = some a) (b : α)
    (hg : g b = g a) : (xs.set i b).map g = xs.map g := by
  obtain ⟨before, after, hxs, hset⟩ := exists_set h
  rw [hset, hxs]
  simp [hg]

theorem sum_map_set {α : Type} {xs : List α} {i : Nat} {a : α} (h : xs[i]? = some a) (b : α)
    (g : α → Nat) : ((xs.set i b).map g).sum + g a = (xs.map g).sum + g b := by
  obtain ⟨before, after, hxs, hset⟩ := exists_set h
  rw [hset, hxs]
  simp only [List.map_append, List.map_cons, List.sum_append, List.sum_cons]
  omega

/-- What the callback of a call was told. -/
def Stage.told? : Stage → Option Outcome
  | running st (.told o) | running st (.processed o) =>
      match st.receiver with
      | .callback => some o
      | _ => none
  | _ => none

/-- What of a stage is to be seen: what a callback was told, whether there is a task, and whether that is
through. -/
def Stage.shown (s : Stage) : Option Outcome × Option Bool × Bool := (s.told?, s.task?, s.isProcessed)

/-- A bound on the turns that a call takes yet, its answer among them. -/
def Stage.left : Stage → Nat
  | unmade => 7
  | refused _ => 0
  | running _ .made => 6
  | running _ (.resolved _) => 5
  | running _ (.sent _) => 3
  | running _ (.ended _) => 2
  | running _ (.told _) => 1
  | running _ (.processed _) => 0

namespace EventLoop

/-! ## What is to be seen of a loop -/

def calls (l : EventLoop) : List Call := l.flights.map (·.call)

def outcome? (l : EventLoop) (i : Nat) : Option Outcome := (l.stage? i).bind Stage.outcome?

/-- What the callback of a call was told. -/
def told (l : EventLoop) (i : Nat) : List Outcome :=
  l.events.filterMap fun
    | .calledBack j o => if j = i then some o else none
    | .scheduled .. => none

/-- Whether the loop is through with a task. -/
def isProcessed (l : EventLoop) (i : Nat) : Bool := (l.stage? i).any Stage.isProcessed

/-- A bound on the turns that are left: for the calls, and for answers to what was sent. -/
def remaining (l : EventLoop) : Nat :=
  (l.flights.map (·.stage.left)).sum + l.exchanges.countP (·.answer?.isNone)

/-- Whether all calls are over. -/
def settled (l : EventLoop) : Bool := l.flights.all (·.stage.isOver)

/-! ## One turn -/

/-- What a turn does that is due: one rule for the transport, and one or two for each stage of a call. -/
inductive Step (l : EventLoop) : Turn → EventLoop → Prop
  | refuse {i f e} (hf : l.flights[i]? = some f) (hs : f.stage = .unmade) (h : f.call.start = .error e) :
      Step l (.call i) (l.put i f (.refused e))
  | make {i f st} (hf : l.flights[i]? = some f) (hs : f.stage = .unmade) (h : f.call.start = .ok st) :
      Step l (.call i) ((l.put i f (.running st .made)).schedule i st.isTask)
  | fail {i f st e} (hf : l.flights[i]? = some f) (hs : f.stage = .running st .made)
      (h : st.pending.asked l.client f.call.method = .error e) :
      Step l (.call i) (l.put i f (.running st (.ended (.error e))))
  | resolve {i f st r} (hf : l.flights[i]? = some f) (hs : f.stage = .running st .made)
      (h : st.pending.asked l.client f.call.method = .ok r) :
      Step l (.call i) (l.put i f (.running st (.resolved r)))
  | send {i f st r} (hf : l.flights[i]? = some f) (hs : f.stage = .running st (.resolved r)) :
      Step l (.call i) ((l.put i f (.running st (.sent l.exchanges.length))).hand r)
  | receive {i f st ticket o} (hf : l.flights[i]? = some f) (hs : f.stage = .running st (.sent ticket))
      (h : l.answer? ticket = some o) : Step l (.call i) (l.put i f (.running st (.ended o)))
  | tell {i f st o} (hf : l.flights[i]? = some f) (hs : f.stage = .running st (.ended o))
      (h : st.receiver = .callback) :
      Step l (.call i) ((l.put i f (.running st (.told o))).callBack i o)
  | tellNobody {i f st o kind} (hf : l.flights[i]? = some f) (hs : f.stage = .running st (.ended o))
      (h : st.receiver = .uncallable kind) : Step l (.call i) (l.put i f (.running st (.told o)))
  | process {i f st o} (hf : l.flights[i]? = some f) (hs : f.stage = .running st (.told o)) :
      Step l (.call i) ((l.put i f (.running st (.processed o))).discard i)
  | answer {ticket r o} (h : l.exchanges[ticket]? = some ⟨r, none⟩) :
      Step l (.answer ticket o) (l.reply ticket r o)

section

variable {l l' : EventLoop} {t : Turn} {i : Nat} {f : Flight} {s : Stage}

theorem step_make (hf : l.flights[i]? = some f) (hs : f.stage = .unmade) :
    l.Step (.call i) (l.make i f) := by
  unfold make
  cases h : f.call.start with
  | error e => exact .refuse hf hs h
  | ok st => exact .make hf hs h

theorem step_of_advance? {st : Started} {p : Progress} (hf : l.flights[i]? = some f)
    (hs : f.stage = .running st p) (h : l.advance? i f st p = some l') : l.Step (.call i) l' := by
  cases p with
  | made =>
      cases hr : st.pending.asked l.client f.call.method with
      | error e =>
          simp only [advance?, hr, Option.some.injEq] at h
          exact h ▸ .fail hf hs hr
      | ok r =>
          simp only [advance?, hr, Option.some.injEq] at h
          exact h ▸ .resolve hf hs hr
  | resolved r => exact Option.some.inj h ▸ .send hf hs
  | sent ticket =>
      obtain ⟨o, ho, rfl⟩ := Option.map_eq_some_iff.1 h
      exact .receive hf hs ho
  | ended o =>
      cases hr : st.receiver with
      | caller =>
          simp only [advance?, hr] at h
          cases h
      | callback =>
          simp only [advance?, hr, Option.some.injEq] at h
          exact h ▸ .tell hf hs hr
      | uncallable kind =>
          simp only [advance?, hr, Option.some.injEq] at h
          exact h ▸ .tellNobody hf hs hr
  | told o => exact Option.some.inj h ▸ .process hf hs
  | processed o => cases h

theorem step_of_step? (h : l.step? t = some l') : l.Step t l' := by
  cases t with
  | call i =>
      cases hf : l.flights[i]? with
      | none =>
          simp only [step?, hf] at h
          cases h
      | some f =>
          cases hs : f.stage with
          | unmade =>
              simp only [step?, hf, hs, Option.some.injEq] at h
              exact h ▸ step_make hf hs
          | refused e =>
              simp only [step?, hf, hs] at h
              cases h
          | running st p =>
              simp only [step?, hf, hs] at h
              exact step_of_advance? hf hs h
  | answer ticket o =>
      cases hx : l.exchanges[ticket]? with
      | none =>
          simp only [step?, hx] at h
          cases h
      | some x =>
          obtain ⟨r, given⟩ := x
          cases given with
          | none =>
              simp only [step?, hx, Option.some.injEq] at h
              exact h ▸ .answer hx
          | some o' =>
              simp only [step?, hx] at h
              cases h

/-- What holds after every turn that is due if it held before, holds after all turns. -/
theorem run_induction {P : EventLoop → Prop} (hstep : ∀ l t l', l.Step t l' → P l → P l')
    (turns : List Turn) (h : P l) : P (l.run turns) := by
  induction turns generalizing l with
  | nil => exact h
  | cons t rest ih =>
      refine ih ?_
      unfold turn
      cases ht : l.step? t with
      | none => exact h
      | some l' => exact hstep l t l' (step_of_step? ht) h

/-! ## What stays -/

theorem calls_put (hf : l.flights[i]? = some f) : (l.put i f s).calls = l.calls :=
  map_set_same hf _ rfl

theorem Step.client (h : l.Step t l') : l'.client = l.client := by
  cases h <;> rfl

theorem Step.calls (h : l.Step t l') : l'.calls = l.calls := by
  cases h with
  | answer h => rfl
  | _ => exact calls_put ‹_›

theorem stage?_eq (hf : l.flights[i]? = some f) : l.stage? i = some f.stage := by
  rw [stage?, hf]
  rfl

theorem outcome?_eq (hf : l.flights[i]? = some f) : l.outcome? i = f.stage.outcome? := by
  rw [outcome?, stage?_eq hf]
  rfl

theorem exists_flight {call : Call} (h : l.calls[i]? = some call) :
    ∃ f : Flight, l.flights[i]? = some f ∧ f.call = call :=
  Option.map_eq_some_iff.1 ((List.getElem?_map ..).symm.trans h)

theorem flights_put (hf : l.flights[i]? = some f) (j : Nat) :
    (l.put i f s).flights[j]? = if i = j then some { f with stage := s } else l.flights[j]? := by
  obtain ⟨hi, -⟩ := List.getElem?_eq_some_iff.1 hf
  show (l.flights.set i { f with stage := s })[j]? = _
  rw [List.getElem?_set, if_pos hi]

theorem stage?_put (hf : l.flights[i]? = some f) (j : Nat) :
    (l.put i f s).stage? j = if i = j then some s else l.stage? j := by
  rw [stage?, flights_put hf]
  split
  · rfl
  · rfl

/-- What is read off a stage stays, if putting another in its place does not change it. -/
theorem view_put {β : Type} (g : Option Stage → β) (hf : l.flights[i]? = some f)
    (hg : g (some s) = g (some f.stage)) (j : Nat) : g ((l.put i f s).stage? j) = g (l.stage? j) := by
  rw [stage?_put hf]
  split
  next hj => rw [← hj, stage?_eq hf, hg]
  next => rfl

/-! ## What is to be seen of the calls -/

/-- The callbacks, the scheduled tasks and the kept ones are those that the stages of the calls tell of. -/
structure Shown (l : EventLoop) : Prop where
  told : ∀ i, l.told i = ((l.stage? i).bind Stage.told?).toList
  scheduled : ∀ i asTask, .scheduled i asTask ∈ l.events ↔ (l.stage? i).bind Stage.task? = some asTask
  pending : ∀ i, i ∈ l.pending ↔ .scheduled i true ∈ l.events ∧ l.isProcessed i = false

theorem told_callBack (o : Outcome) (j : Nat) :
    (l.callBack i o).told j = l.told j ++ if i = j then [o] else [] := by
  show List.filterMap _ (l.events ++ [.calledBack i o]) = _
  rw [List.filterMap_append]
  congr 1
  by_cases h : i = j
  · simp [h]
  · simp [h]

theorem told_schedule (asTask : Bool) (j : Nat) : (l.schedule i asTask).told j = l.told j := by
  show List.filterMap _ (l.events ++ [.scheduled i asTask]) = _
  rw [List.filterMap_append]
  exact List.append_nil _

/-- A step that nobody sees. -/
theorem Shown.put (h : l.Shown) (hf : l.flights[i]? = some f) (hs : s.shown = f.stage.shown) :
    (l.put i f s).Shown := by
  obtain ⟨htold, hs⟩ := Prod.mk.inj hs
  obtain ⟨htask, hprocessed⟩ := Prod.mk.inj hs
  refine ⟨fun j => (h.told j).trans ?_, fun j asTask => (h.scheduled j asTask).trans ?_,
    fun j => (h.pending j).trans ?_⟩
  · rw [view_put (fun x => x.bind Stage.told?) hf htold]
  · rw [view_put (fun x => x.bind Stage.task?) hf htask]
  · unfold isProcessed
    rw [view_put (fun x => x.any Stage.isProcessed) hf hprocessed]
    rfl

theorem mem_pending_schedule (asTask : Bool) (j : Nat) :
    j ∈ (l.schedule i asTask).pending ↔ (asTask = true ∧ j = i) ∨ j ∈ l.pending := by
  cases asTask with
  | false => simp [schedule]
  | true => simp [schedule, List.mem_insert_iff]

theorem mem_events_schedule (asTask : Bool) (j : Nat) (b : Bool) :
    .scheduled j b ∈ (l.schedule i asTask).events ↔ .scheduled j b ∈ l.events ∨ (j = i ∧ b = asTask) := by
  simp [schedule]

theorem mem_events_callBack (o : Outcome) (j : Nat) (b : Bool) :
    .scheduled j b ∈ (l.callBack i o).events ↔ .scheduled j b ∈ l.events := by
  simp [callBack]

theorem Shown.make (h : l.Shown) (hf : l.flights[i]? = some f) (hs : f.stage = .unmade) (st : Started) :
    ((l.put i f (.running st .made)).schedule i st.isTask).Shown := by
  have hstage : l.stage? i = some .unmade := (stage?_eq hf).trans (congrArg some hs)
  have htold := view_put (s := .running st .made) (fun x => (x.bind Stage.told?).toList) hf
    (by rw [hs]; rfl)
  have hprocessed := view_put (s := .running st .made) (fun x => x.any Stage.isProcessed) hf
    (by rw [hs]; rfl)
  refine ⟨fun j => ?_, fun j asTask => ?_, fun j => ?_⟩
  · rw [told_schedule]
    exact (h.told j).trans (htold j).symm
  · rw [mem_events_schedule]
    refine (or_congr_left (h.scheduled j asTask)).trans ?_
    show _ ↔ ((l.put i f _).stage? j).bind _ = _
    rw [stage?_put hf]
    by_cases hj : i = j
    · subst hj
      simp [hstage, Stage.task?, eq_comm]
    · simp [hj, Ne.symm hj]
  · -- The call that is made here had no stage in which it could be through.
    have hunmade : j = i → l.isProcessed j = false := by
      rintro rfl
      rw [isProcessed, hstage]
      rfl
    have hsame : ((l.put i f (.running st .made)).schedule i st.isTask).isProcessed j = l.isProcessed j :=
      hprocessed j
    rw [mem_pending_schedule, mem_events_schedule, hsame]
    refine (or_congr_right (h.pending j)).trans ?_
    constructor
    · rintro (⟨htask, rfl⟩ | ⟨hevent, hj⟩)
      · exact ⟨.inr ⟨rfl, htask.symm⟩, hunmade rfl⟩
      · exact ⟨.inl hevent, hj⟩
    · rintro ⟨hevent | ⟨rfl, htask⟩, hj⟩
      · exact .inr ⟨hevent, hj⟩
      · exact .inl ⟨htask.symm, rfl⟩

theorem Shown.tell (h : l.Shown) (hf : l.flights[i]? = some f) {st : Started} {o : Outcome}
    (hs : f.stage = .running st (.ended o)) (hr : st.receiver = .callback) :
    ((l.put i f (.running st (.told o))).callBack i o).Shown := by
  have hstage : l.stage? i = some (.running st (.ended o)) := (stage?_eq hf).trans (congrArg some hs)
  have htask := view_put (s := .running st (.told o)) (fun x => x.bind Stage.task?) hf (by rw [hs]; rfl)
  have hprocessed := view_put (s := .running st (.told o)) (fun x => x.any Stage.isProcessed) hf
    (by rw [hs]; rfl)
  refine ⟨fun j => ?_, fun j asTask => ?_, fun j => ?_⟩
  · rw [told_callBack]
    show l.told j ++ _ = (((l.put i f _).stage? j).bind _).toList
    rw [h.told, stage?_put hf]
    by_cases hj : i = j
    · subst hj
      simp [hstage, Stage.told?, hr]
    · simp [hj]
  · rw [mem_events_callBack]
    show _ ↔ ((l.put i f _).stage? j).bind _ = _
    rw [htask]
    exact h.scheduled j asTask
  · rw [mem_events_callBack]
    show j ∈ l.pending ↔ _ ∧ ((l.put i f _).stage? j).any _ = _
    rw [hprocessed]
    exact h.pending j

theorem Shown.process (h : l.Shown) (hf : l.flights[i]? = some f) {st : Started} {o : Outcome}
    (hs : f.stage = .running st (.told o)) :
    ((l.put i f (.running st (.processed o))).discard i).Shown := by
  have htold := view_put (s := .running st (.processed o)) (fun x => (x.bind Stage.told?).toList) hf
    (by rw [hs]; rfl)
  have htask := view_put (s := .running st (.processed o)) (fun x => x.bind Stage.task?) hf (by rw [hs]; rfl)
  refine ⟨fun j => (h.told j).trans (htold j).symm, fun j asTask => ?_, fun j => ?_⟩
  · show _ ↔ ((l.put i f _).stage? j).bind _ = _
    rw [htask]
    exact h.scheduled j asTask
  · show j ∈ l.pending.filter (· != i) ↔
      .scheduled j true ∈ l.events ∧ ((l.put i f _).stage? j).any _ = false
    rw [List.mem_filter, h.pending, stage?_put hf]
    by_cases hj : i = j
    · simp [hj, Stage.isProcessed]
    · simp [hj, Ne.symm hj, isProcessed]

theorem Step.shown (hstep : l.Step t l') (h : l.Shown) : l'.Shown := by
  cases hstep with
  | refuse hf hs _ => exact h.put hf (by rw [hs]; rfl)
  | make hf hs _ => exact h.make hf hs _
  | fail hf hs _ => exact h.put hf (by rw [hs]; rfl)
  | resolve hf hs _ => exact h.put hf (by rw [hs]; rfl)
  | send hf hs =>
      obtain ⟨htold, hscheduled, hpending⟩ := h.put hf (s := .running _ (.sent l.exchanges.length))
        (by rw [hs]; rfl)
      exact ⟨htold, hscheduled, hpending⟩
  | receive hf hs _ => exact h.put hf (by rw [hs]; rfl)
  | tell hf hs hr => exact h.tell hf hs hr
  | tellNobody hf hs hr => exact h.put hf (by rw [hs, Stage.shown, Stage.told?, hr]; rfl)
  | process hf hs => exact h.process hf hs
  | answer _ => exact ⟨h.told, h.scheduled, h.pending⟩

/-! ## What is left to do -/

theorem remaining_put (hf : l.flights[i]? = some f) :
    (l.put i f s).remaining + f.stage.left = l.remaining + s.left := by
  have hsum := sum_map_set hf { f with stage := s } (·.stage.left)
  simp only [remaining, put] at hsum ⊢
  omega

theorem remaining_hand (r : Request) : (l.hand r).remaining = l.remaining + 1 := by
  simp [remaining, hand, List.countP_append, Nat.add_assoc]

theorem remaining_reply {ticket : Nat} {r : Request} (h : l.exchanges[ticket]? = some ⟨r, none⟩)
    (o : Outcome) : (l.reply ticket r o).remaining + 1 = l.remaining := by
  obtain ⟨before, after, hxs, hset⟩ := exists_set h
  have hreply : (l.reply ticket r o).exchanges = before ++ ⟨r, some o⟩ :: after := hset _
  unfold remaining
  rw [hreply, hxs]
  simp only [List.countP_append, List.countP_cons, Option.isNone_some, Option.isNone_none, if_true,
    Bool.false_eq_true, if_false]
  exact Nat.add_assoc _ _ _

theorem remaining_put_lt (hf : l.flights[i]? = some f) (h : s.left < f.stage.left) :
    (l.put i f s).remaining < l.remaining := by
  have hput := remaining_put (s := s) hf
  omega

theorem Step.remaining_lt (h : l.Step t l') : l'.remaining < l.remaining := by
  cases h with
  | refuse hf hs _ => exact remaining_put_lt hf (by simp [hs, Stage.left])
  | make hf hs _ => exact remaining_put_lt (s := .running _ .made) hf (by simp [hs, Stage.left])
  | fail hf hs _ => exact remaining_put_lt hf (by simp [hs, Stage.left])
  | resolve hf hs _ => exact remaining_put_lt hf (by simp [hs, Stage.left])
  | @send i f st r hf hs =>
      -- The answer to what is sent here is left to be given.
      have hput := remaining_put (s := .running st (.sent l.exchanges.length)) hf
      rw [hs] at hput
      rw [remaining_hand]
      simp only [Stage.left] at hput
      omega
  | receive hf hs _ => exact remaining_put_lt hf (by simp [hs, Stage.left])
  | tell hf hs _ => exact remaining_put_lt (s := .running _ (.told _)) hf (by simp [hs, Stage.left])
  | tellNobody hf hs _ => exact remaining_put_lt hf (by simp [hs, Stage.left])
  | process hf hs => exact remaining_put_lt (s := .running _ (.processed _)) hf (by simp [hs, Stage.left])
  | answer hx => exact Nat.lt_of_lt_of_eq (Nat.lt_succ_self _) (remaining_reply hx _)

end

end EventLoop

end ApiDiscovery
