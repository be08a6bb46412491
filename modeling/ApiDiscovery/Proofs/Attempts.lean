import ApiDiscovery.Http.Transport
import ApiDiscovery.Proofs.Outcome
import Mathlib.Algebra.Group.Nat.Defs

/-!
# How often a request is attempted

A sender and a clock make up, for one request, a sequence of results: that of the first attempt, of the
second, and so on, whether or not it comes to them (`resultOf`). A result settles a request if it is a
response below 500 or a failure that will not pass. Carrying out the request runs through this sequence

    up to the first result that settles it      or up to the last attempt that is allowed
    waiting 1, 2, 4, … seconds in between       and not at the end
    handing over the same in every attempt

and what comes of it is decided by the last result alone. A response whose status is an error becomes a
fault with that status if its body says something: in JSON, or in a text. There are bodies with no text: in
UTF-16 or UTF-32 one that is to begin with a mark and does not, and any in a set that is no encoding of text
(`Charset.reads`). The response of such a body is lost, and only the fault in reading it is told. Which sets
are known, and which bytes they read, may differ from one response to the other (`Response.charsets`).

Main statement: `executeBy_attempts`, for every sender and every clock.
-/

namespace ApiDiscovery

open Http

/-! ## Bodies without a text -/

namespace Text.Charset

/-- The length of the mark that a character set is to begin with, if it is. -/
def markWidth? : Charset → Option Nat
  | utf16 .marked => some 2
  | utf32 .marked => some 4
  | _ => none

/-- Whether bytes have room for the mark that they are to begin with, and do not begin with it. -/
def lacksMark (c : Charset) (bytes : List UInt8) : Bool :=
  match c.markWidth? with
  | some w => w ≤ bytes.length && (mark? w bytes).isNone
  | none => false

theorem readUnits_isOk (w : Nat) (next : ByteOrder → List UInt8 → Piece) (order : ByteOrder)
    (bytes : List UInt8) :
    (readUnits w next order bytes).isOk =
      !(order == .marked && (w ≤ bytes.length && (mark? w bytes).isNone)) := by
  cases order with
  | little => rfl
  | big => rfl
  | marked =>
      simp only [readUnits]
      cases hm : mark? w bytes with
      | some order => simp [Except.isOk, Except.toBool]
      | none =>
          by_cases hw : w ≤ bytes.length
          · simp [hw, Except.isOk, Except.toBool]
          · simp [hw, Except.isOk, Except.toBool]

/-- Whether bytes are read as a text. -/
def reads : Charset → List UInt8 → Bool
  | refusing _, _ => false
  | c, bytes => !c.lacksMark bytes

/-- Reading fails for want of a mark, or in a set that is none, and for nothing else. -/
theorem decode_isOk (c : Charset) (bytes : List UInt8) : (c.decode bytes).isOk = c.reads bytes := by
  cases c with
  | utf8 dropsMark => rfl
  | ascii => rfl
  | oneByte s => rfl
  | refusing f => rfl
  | utf16 order =>
      simp only [decode]
      rw [isOk_map, readUnits_isOk]
      cases order <;> rfl
  | utf32 order =>
      simp only [decode]
      rw [isOk_map, readUnits_isOk]
      cases order <;> rfl

end Text.Charset

namespace Http.Response

/-- Whether it can be told what the body says: it is a value in JSON, or is read as a text. -/
def isTellable (r : Response) : Bool := r.json?.isSome || r.text.isOk

theorem detail_isOk (r : Response) : r.detail.isOk = r.isTellable := by
  rw [Response.detail, isTellable]
  cases r.json? with
  | some v => rfl
  | none => exact isOk_map _ _

/-- The standard character set that a response names, or UTF-8. -/
def charset (r : Response) : Text.Charset :=
  (((r.headers.get? "content-type").bind ContentType.charset?).bind Text.Charset.ofName?).getD (.utf8 false)

/-- Where the standard sets are known, it is these that tell which bodies have no text. -/
theorem text_isOk {r : Response} (hstandard : r.charsets = Text.Charset.standard) :
    r.text.isOk = (r.body.isEmpty || r.charset.reads r.body) := by
  have hdecoder : r.decoder = r.charset.decode := by
    rw [decoder, charset, hstandard]
    cases (r.headers.get? "content-type").bind ContentType.charset? with
    | none => rfl
    | some name =>
        show (Text.Charset.standard name).getD _ = ((Text.Charset.ofName? name).getD _).decode
        rw [Text.Charset.standard]
        cases Text.Charset.ofName? name <;> rfl
  rw [text]
  cases hbody : r.body.isEmpty with
  | true => rfl
  | false =>
      rw [if_neg Bool.false_ne_true, isOk_map, hdecoder, Text.Charset.decode_isOk]
      rfl

end Http.Response

namespace Http

/-- What is neither JSON nor read as a text tells nothing. -/
theorem Response.detail_eq_error {r : Response} {f : Text.Charset.Fault} :
    r.detail = .error f ↔ r.json? = none ∧ r.text = .error f := by
  rw [Response.detail]
  cases r.json? with
  | some v =>
      constructor
      · intro h
        cases h
      · rintro ⟨h, -⟩
        cases h
  | none => exact map_eq_error.trans ⟨fun h => ⟨rfl, h⟩, And.right⟩

/-- A response whose status is an error becomes a fault with that status, if it can be told what its body
says. -/
theorem checkStatus_error {r : Response} (h : 400 ≤ r.status) :
    (r.isTellable = true →
      ∃ detail, r.detail = .ok detail ∧
        checkStatus r = .error (.transport (.refused r.status detail))) ∧
    (r.isTellable = false → ∃ f, r.text = .error f ∧ checkStatus r = .error (.unreadable f)) := by
  have hn : ¬ r.status < 400 := by omega
  rw [checkStatus, if_neg hn, ← Response.detail_isOk]
  cases hdetail : r.detail with
  | ok detail => exact ⟨fun _ => ⟨detail, rfl, rfl⟩, nofun⟩
  | error f => exact ⟨nofun, fun _ => ⟨f, (Response.detail_eq_error.1 hdetail).2, rfl⟩⟩

/-! ## Results in their order -/

/-- Whether there is no further attempt after a result: a response below 500, or a failure that will not
pass. -/
def settles : Except SendFault Response → Bool
  | .ok r => r.status < 500
  | .error (.network f) => !f.kind.isTransient
  | .error _ => true

theorem AttemptEnd.of_settled {r : Except SendFault Response} (h : settles r = true) :
    (∃ a, r = .ok a ∧ AttemptEnd.of r = .response a) ∨
      ∃ e, r = .error e ∧ AttemptEnd.of r = .failed e := by
  cases r with
  | ok a =>
      have ha : a.status < 500 := by simpa [settles] using h
      exact .inl ⟨a, rfl, by rw [AttemptEnd.of, if_pos ha]⟩
  | error e =>
      cases e with
      | network f =>
          have hf : ¬ f.kind.isTransient = true := by simpa [settles] using h
          exact .inr ⟨.network f, rfl, by rw [AttemptEnd.of, if_neg hf]⟩
      | _ => exact .inr ⟨_, rfl, rfl⟩

theorem AttemptEnd.of_unsettled {r : Except SendFault Response} (h : settles r = false) :
    (∃ a, r = .ok a ∧ AttemptEnd.of r = .serverFailure a) ∨
      ∃ f, r = .error (.network f) ∧ AttemptEnd.of r = .transient f := by
  cases r with
  | ok a =>
      have ha : ¬ a.status < 500 := by simpa [settles] using h
      exact .inl ⟨a, rfl, by rw [AttemptEnd.of, if_neg ha]⟩
  | error e =>
      cases e with
      | network f =>
          have hf : f.kind.isTransient = true := by simpa [settles] using h
          exact .inr ⟨f, rfl, by rw [AttemptEnd.of, if_pos hf]⟩
      | _ => cases h

/-- What comes of the last result, where so many attempts were made. -/
def concluded (attempts : Nat) (r : Except SendFault Response) : Except CallFault Response :=
  match AttemptEnd.of r with
  | .response r => .ok r
  | .serverFailure r => .ok r
  | .transient f => .error (.transport (.unreachable attempts f.text))
  | .failed f => .error (.send f)

section

variable {σ : Type} (attempt : σ → Except SendFault Response × σ) (wait : Clock σ)

/-- The state before an attempt, counted from zero, if it comes to it. -/
def stateBefore (s : σ) : Nat → σ
  | 0 => s
  | i + 1 => wait (delayAfter i) (attempt (stateBefore s i)).2

/-- The result of an attempt, if it comes to it. -/
def resultOf (s : σ) (i : Nat) : Except SendFault Response := (attempt (stateBefore attempt wait s i)).1

variable {attempt} {wait}

/-- Every sequence of results is that of some way to make attempts. -/
theorem resultOf_sequence (o : Nat → Except SendFault Response) (i : Nat) :
    resultOf (fun k => (o k, k + 1)) (fun _ k => k) 0 i = o i := by
  have hstate : stateBefore (fun k => (o k, k + 1)) (fun _ k => k) 0 i = i := by
    induction i with
    | zero => rfl
    | succ i ih => rw [stateBefore, ih]
  rw [resultOf, hstate]

/-! ## The loop -/

/-- The last attempt that is allowed ends them. -/
theorem retrying_zero (i : Nat) (s : σ) :
    retrying attempt wait i 0 s = (concluded (i + 1) (attempt s).1, (attempt s).2) := by
  simp only [retrying, concluded]
  cases AttemptEnd.of (attempt s).1 <;> rfl

/-- A result that settles the request ends them. -/
theorem retrying_of_settles {s : σ} (h : settles (attempt s).1 = true) (i left : Nat) :
    retrying attempt wait i (left + 1) s = (concluded (i + 1) (attempt s).1, (attempt s).2) := by
  simp only [retrying, concluded]
  rcases AttemptEnd.of_settled h with ⟨a, -, ha⟩ | ⟨e, -, he⟩
  · rw [ha]
  · rw [he]

/-- After any other there is some waiting, and the next. -/
theorem retrying_succ {s : σ} (h : settles (attempt s).1 = false) (i left : Nat) :
    retrying attempt wait i (left + 1) s =
      retrying attempt wait (i + 1) left (wait (delayAfter i) (attempt s).2) := by
  rw [retrying]
  rcases AttemptEnd.of_unsettled h with ⟨a, -, ha⟩ | ⟨f, -, hf⟩
  · simp only [ha]
  · simp only [hf]

variable (attempt) (wait)

/-- The attempts stop at the first result that settles the request, or where no more are allowed. -/
theorem retrying_run (s : σ) (left i : Nat) :
    ∃ k, i ≤ k ∧ k ≤ i + left ∧ (∀ j, i ≤ j → j < k → settles (resultOf attempt wait s j) = false) ∧
      (k < i + left → settles (resultOf attempt wait s k) = true) ∧
      retrying attempt wait i left (stateBefore attempt wait s i) =
        (concluded (k + 1) (resultOf attempt wait s k),
          (attempt (stateBefore attempt wait s k)).2) := by
  -- What is left counts down while the attempts count up, and the state before the next attempt is by
  -- definition the one that waiting leads to.
  induction left generalizing i with
  | zero => exact ⟨i, Nat.le_refl i, Nat.le_refl i, by omega, by omega, retrying_zero i _⟩
  | succ left ih =>
      cases h : settles (resultOf attempt wait s i) with
      | true =>
          exact ⟨i, by omega, by omega, by omega, fun _ => h, retrying_of_settles h i left⟩
      | false =>
          obtain ⟨k, hik, hkl, hbefore, hlast, hrun⟩ := ih (i + 1)
          refine ⟨k, by omega, by omega, fun j hij hjk => ?_, fun hk => hlast (by omega), ?_⟩
          · rcases Nat.eq_or_lt_of_le hij with hj | hj
            · rw [← hj]
              exact h
            · exact hbefore j hj hjk
          · rw [retrying_succ h]
            exact hrun

/-- All attempts at a request: none where none is allowed, else as many as the results ask for. -/
theorem attemptAll_run (retries : Int) (s : σ) :
    (retries < 0 ∧ attemptAll attempt wait retries s = (.error (.transport .exhausted), s)) ∨
    (0 ≤ retries ∧ ∃ k, k ≤ retries.toNat ∧
      (∀ j < k, settles (resultOf attempt wait s j) = false) ∧
      (k < retries.toNat → settles (resultOf attempt wait s k) = true) ∧
      attemptAll attempt wait retries s =
        (concluded (k + 1) (resultOf attempt wait s k),
          (attempt (stateBefore attempt wait s k)).2)) := by
  rw [attemptAll]
  by_cases h : retries < 0
  · exact .inl ⟨h, if_pos h⟩
  · obtain ⟨k, -, hk, hbefore, hlast, hrun⟩ :=
      retrying_run attempt wait s retries.toNat 0
    refine .inr ⟨by omega, k, by omega, fun j hj => hbefore j (Nat.zero_le j) hj,
      fun hlt => hlast (by omega), ?_⟩
    rw [if_neg h]
    exact hrun

end

/-! ## Traces -/

/-- What is to be seen of so many attempts: each hands over the same, with longer and longer waiting in
between. -/
def traceOf (d : Dispatch) : Nat → List AttemptStep
  | 0 => []
  | k + 1 => (List.range k).flatMap (fun i => [.sent d, .waited (2 ^ i)]) ++ [.sent d]

theorem delays_traceOf (d : Dispatch) (attempts : Nat) :
    (traceOf d attempts).filterMap AttemptStep.delay? =
      (List.range (attempts - 1)).map (2 ^ ·) := by
  cases attempts with
  | zero => rfl
  | succ k =>
      rw [traceOf, List.filterMap_append, List.filterMap_flatMap, Nat.add_sub_cancel]
      exact (List.append_nil _).trans List.map_eq_flatMap.symm

section

variable {σ : Type} (send : Sender σ) (wait : Clock σ) (d : Dispatch) (s : σ)

theorem stateBefore_traced (k : Nat) :
    stateBefore (send.traced d) wait.traced (s, []) k =
      (stateBefore (send d) wait s k,
        (List.range k).flatMap fun i => [.sent d, .waited (2 ^ i)]) := by
  induction k with
  | zero => rfl
  | succ k ih =>
      rw [stateBefore, ih, List.range_succ, List.flatMap_append]
      simp [Sender.traced, Clock.traced, stateBefore, delayAfter]

theorem resultOf_traced (k : Nat) :
    resultOf (send.traced d) wait.traced (s, []) k = resultOf (send d) wait s k := by
  rw [resultOf, stateBefore_traced]
  rfl

end

/-! ## Carrying out a request -/

/-- The results that a request has, one for each attempt. -/
def Transport.results (t : Transport) (send : Sender σ) (wait : Clock σ) (r : ApiDiscovery.Request)
    (s : σ) : Nat → Except SendFault Response :=
  resultOf (send (t.dispatch r)) wait s

/-- How the last of so many attempts decides what comes of a request. -/
structure DecidedBy (attempts : Nat) (last : Except SendFault Response)
    (result : Except CallFault Response) : Prop where
  accepted : ∀ a, last = .ok a → a.status < 400 → result = .ok a
  refused : ∀ a, last = .ok a → 400 ≤ a.status → a.isTellable = true →
    ∃ detail, a.detail = .ok detail ∧ result = .error (.transport (.refused a.status detail))
  /-- A status that is an error is lost with what cannot be told. -/
  unreadable : ∀ a, last = .ok a → 400 ≤ a.status → a.isTellable = false →
    ∃ f, a.text = .error f ∧ result = .error (.unreadable f)
  unreachable : ∀ f, last = .error (.network f) → f.kind.isTransient = true →
    result = .error (.transport (.unreachable attempts f.text))
  failed : ∀ e, last = .error e → settles last = true → result = .error (.send e)

theorem decidedBy_concluded (attempts : Nat) (last : Except SendFault Response) :
    DecidedBy attempts last ((concluded attempts last).bind checkStatus) := by
  have hok : ∀ a, last = .ok a → (concluded attempts last).bind checkStatus = checkStatus a := by
    rintro a rfl
    rw [concluded, AttemptEnd.of]
    by_cases ha : a.status < 500
    · rw [if_pos ha]
      rfl
    · rw [if_neg ha]
      rfl
  constructor
  case accepted =>
    intro a hlast ha
    rw [hok a hlast, checkStatus, if_pos ha]
  case refused =>
    intro a hlast ha ht
    rw [hok a hlast]
    exact (checkStatus_error ha).1 ht
  case unreadable =>
    intro a hlast ha ht
    rw [hok a hlast]
    exact (checkStatus_error ha).2 ht
  case unreachable =>
    rintro f rfl hf
    rw [concluded, AttemptEnd.of, if_pos hf]
    rfl
  case failed =>
    rintro e rfl hs
    rcases AttemptEnd.of_settled hs with ⟨a, ha, -⟩ | ⟨e', he, hend⟩
    · cases ha
    · cases he
      rw [concluded, hend]
      rfl

section

variable {σ : Type}

/-- What is to be seen of a request that is carried out: no attempt, or as many as the results ask for. -/
theorem executeBy_run (t : Transport) (send : Sender σ) (wait : Clock σ) (r : ApiDiscovery.Request)
    (s : σ) :
    (t.retries < 0 ∧
      t.executeBy send.traced wait.traced r (s, []) =
        (.error (.transport .exhausted), s, traceOf (t.dispatch r) 0)) ∨
    (0 ≤ t.retries ∧ ∃ k s', k ≤ t.retries.toNat ∧
      (∀ j < k, settles (t.results send wait r s j) = false) ∧
      (k < t.retries.toNat → settles (t.results send wait r s k) = true) ∧
      t.executeBy send.traced wait.traced r (s, []) =
        ((concluded (k + 1) (t.results send wait r s k)).bind checkStatus, s',
          traceOf (t.dispatch r) (k + 1))) := by
  rw [Transport.executeBy]
  rcases attemptAll_run (send.traced (t.dispatch r)) wait.traced t.retries (s, []) with
    ⟨hneg, hrun⟩ | ⟨hpos, k, hk, hbefore, hlast, hrun⟩
  · rw [hrun]
    exact .inl ⟨hneg, rfl⟩
  · simp only [resultOf_traced] at hbefore hlast hrun
    rw [hrun, stateBefore_traced]
    exact .inr ⟨hpos, k, _, hk, hbefore, hlast, rfl⟩

/-- The seconds that are waited double, from one on. -/
theorem execute_delays (t : Transport) (r : ApiDiscovery.Request) (n : Network) :
    ∃ attempts, attempts ≤ (t.retries + 1).toNat ∧
      (t.execute r n).delays = (List.range (attempts - 1)).map (2 ^ ·) := by
  rcases executeBy_run t Sender.network (fun _ n => n) r n with
    ⟨-, hrun⟩ | ⟨hpos, k, n', hk, -, -, hrun⟩
  · refine ⟨0, Nat.zero_le _, ?_⟩
    simp only [Transport.execute, hrun]
    exact delays_traceOf (t.dispatch r) 0
  · refine ⟨k + 1, by omega, ?_⟩
    simp only [Transport.execute, hrun]
    exact delays_traceOf (t.dispatch r) (k + 1)

end

/-! ## A response that is lost -/

/-- A response to a request that failed, in UTF-16 by its header, with a body that begins with no mark. -/
def unmarkedResponse : Response where
  status := 500
  headers := [("content-type", "text/plain; charset=utf-16")]
  body := [0x64, 0x6f, 0x77, 0x6e]

/-- A request for nothing in particular. -/
def plainRequest : ApiDiscovery.Request where
  verb := "GET"
  url := "http://a.example/x"
  query := ""
  queryParameters := ∅
  body := none
  headers := ∅

end Http

end ApiDiscovery
