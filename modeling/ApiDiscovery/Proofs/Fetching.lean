import ApiDiscovery.Proofs.DirectoryRows

/-!
# What a document comes to that is fetched

A document is asked for once. From then on the service leads: each further request is for the place that the answer
before it redirects to (`Exchange`), until a response does not redirect, or there is none. That is the ending of the
exchange, and it alone tells what the document comes to (`Remote.Outcome`):

    a success with a text            what the text comes to, as YAML if the content type says so
    any other success                the fault in reading its body
    404                              the API is unknown, or the fetch failed with that status
    any other status                 the fetch failed with that status
    a failure of the network         the fetch failed without a status

Whether a status is a success is asked for, not whether it is an error: so 1xx fail as well, and 3xx that do not
redirect. A success is lost if its body is not read as a text in the character set that it names: the fault goes out
as it is, and is none of a document (`exchange_unmarked`). Two more things can happen, and go out as they are: a
redirection leads to what is no URL, and a URL without a host is answered.

Main statement: `Remote.exchange_outcome`.
-/

namespace ApiDiscovery

open Http

namespace Http

/-! ## Exchanges -/

/-- `Exchange answers i left w chain ending`: beginning with `w`, the requests of `chain` are made, at most `left` of
them, and the last answer makes up the ending. The answers count from number `i` on. -/
inductive Exchange (answers : Nat → Answer) :
    Nat → Nat → Request → List Request → Except SendFault Response → Prop
  | answered {i left : Nat} {w : Request} {a : Response} (h : answers i = .response a)
      (hurl : w.url.isAbsolute = true) (hlast : a.redirection? = none) :
      Exchange answers i (left + 1) w [w] (.ok a)
  | redirected {i left : Nat} {w next : Request} {a : Response} {place : String} {chain : List Request}
      {ending : Except SendFault Response} (h : answers i = .response a) (hurl : w.url.isAbsolute = true)
      (hplace : a.redirection? = some place) (hnext : w.redirect? a.status place = .ok next)
      (hrest : Exchange answers (i + 1) left next chain ending) :
      Exchange answers i (left + 1) w (w :: chain) ending
  | failed {i left : Nat} {w : Request} {f : Failure} (h : answers i = .failure f) :
      Exchange answers i (left + 1) w [w] (.error (.network f))
  | endless {i : Nat} {w : Request} :
      Exchange answers i 0 w [] (.error (.network ⟨.redirections, "Exceeded maximum allowed redirects."⟩))
  /-- A redirection leads nowhere. -/
  | misled {i left : Nat} {w : Request} {a : Response} {place : String} {e : SendFault}
      (h : answers i = .response a) (hurl : w.url.isAbsolute = true) (hplace : a.redirection? = some place)
      (he : w.redirect? a.status place = .error e) : Exchange answers i (left + 1) w [w] (.error e)
  /-- A URL that names no host was answered. -/
  | hostless {i left : Nat} {w : Request} {a : Response} (h : answers i = .response a)
      (hurl : w.url.isAbsolute = false) : Exchange answers i (left + 1) w [w] (.error (.unknownScheme w.url.render))

section

variable {left : Nat} {w wire : Request} {n : Network} {chain chain' : List Request}
  {ending ending' : Except SendFault Response}

/-- The network after some more requests. -/
def Network.after (n : Network) (chain : List Request) : Network := { n with sent := n.sent ++ chain }

theorem Network.after_after (n : Network) (chain chain' : List Request) :
    (n.after chain).after chain' = n.after (chain ++ chain') := by
  rw [after, after, after, List.append_assoc]

theorem follow_response {a : Response} (h : n.script n.sent.length = .response a) (hurl : w.url.isAbsolute = true) :
    follow (left + 1) w n =
      match a.redirection? with
      | none => (.ok a, n.after [w])
      | some place =>
          match w.redirect? a.status place with
          | .ok next => follow left next (n.after [w])
          | .error e => (.error e, n.after [w]) := by
  rw [follow, Network.exchange, h]
  dsimp only
  rw [hurl]
  rfl

/-- Following redirections is having the exchange. -/
theorem Exchange.follow_eq (h : Exchange n.script n.sent.length left w chain ending) :
    follow left w n = (ending, n.after chain) := by
  generalize hi : n.sent.length = i at h
  generalize hanswers : n.script = answers at h
  induction h generalizing n with
  | endless => rw [follow, Network.after, List.append_nil]
  | failed h =>
      subst hi hanswers
      rw [follow, Network.exchange, h]
      rfl
  | hostless h hurl =>
      subst hi hanswers
      rw [follow, Network.exchange, h]
      dsimp only
      rw [hurl]
      rfl
  | answered h hurl hlast =>
      subst hi hanswers
      rw [follow_response h hurl, hlast]
  | misled h hurl hplace he =>
      subst hi hanswers
      rw [follow_response h hurl, hplace]
      dsimp only
      rw [he]
  | redirected h hurl hplace hnext hrest ih =>
      -- The rest is an exchange of the network that has this request behind it.
      subst hi hanswers
      rw [follow_response h hurl, hplace]
      dsimp only
      rw [hnext]
      dsimp only
      rw [ih (n := n.after [_]) List.length_append rfl, Network.after_after, List.singleton_append]

/-- Every network has an exchange. -/
theorem exists_exchange (answers : Nat → Answer) (i left : Nat) (w : Request) :
    ∃ chain ending, Exchange answers i left w chain ending := by
  induction left generalizing i w with
  | zero => exact ⟨_, _, .endless⟩
  | succ left ih =>
      cases h : answers i with
      | failure f => exact ⟨_, _, .failed h⟩
      | response a =>
          cases hurl : w.url.isAbsolute with
          | false => exact ⟨_, _, .hostless h hurl⟩
          | true =>
              cases hplace : a.redirection? with
              | none => exact ⟨_, _, .answered h hurl hplace⟩
              | some place =>
                  cases hnext : w.redirect? a.status place with
                  | error e => exact ⟨_, _, .misled h hurl hplace hnext⟩
                  | ok next =>
                      obtain ⟨chain, ending, hrest⟩ := ih (i + 1) next
                      exact ⟨_, _, .redirected h hurl hplace hnext hrest⟩

/-- There is one exchange only. -/
theorem Exchange.unique {answers : Nat → Answer} {i : Nat} (h : Exchange answers i left w chain ending)
    (h' : Exchange answers i left w chain' ending') : chain' = chain ∧ ending' = ending := by
  let n : Network := ⟨answers, List.replicate i w⟩
  have hi : n.sent.length = i := List.length_replicate
  have hfollow := Exchange.follow_eq (n := n) (hi.symm ▸ h)
  rw [Exchange.follow_eq (n := n) (hi.symm ▸ h')] at hfollow
  obtain ⟨hending, hafter⟩ := Prod.mk.inj hfollow
  exact ⟨List.append_cancel_left (Network.mk.inj hafter).2, hending⟩

end

/-- The request that fetches from a valid URL. -/
theorem Request.exists_make? {url : String} {u : Url} (hurl : (Url.parse url).bind Url.rooted = .ok u) :
    ∃ wire, Request.make? "GET" url [] none = .ok wire ∧ wire.verb = "GET" ∧ wire.url = u ∧ wire.body = [] := by
  unfold Request.make?
  rw [hurl]
  exact ⟨_, rfl, rfl, rfl, rfl⟩

end Http

/-! ## What a response comes to -/

/-- The content type of a response says YAML. -/
def Http.Response.SaysYaml (a : Response) : Prop :=
  "yaml".toList <:+: ((a.headers.get? "content-type").getD "").toList ∨
    "yml".toList <:+: ((a.headers.get? "content-type").getD "").toList

/-- What a text in a format comes to. -/
def Content.documentIn (text : String) (format : Content.Format) : Except Error Document :=
  (Content.document text format).mapError .ofContent

/-- The fetch failed, with the status of a response or without one. -/
def Error.IsFailedFetch (e : Error) (status : Option Int) (text : String) : Prop :=
  ∃ f, e = .transport f ∧ f.kind = .fetch ∧ f.status? = status ∧ f.isAnswered = status.isSome ∧ f.message = text

namespace Remote

/-- What a document comes to with the ending of the exchange for it; `missing` is for one that is not there. -/
structure Outcome (url : String) (missing : Error) (ending : Except SendFault Response)
    (result : Except Error Document) : Prop where
  served : ∀ a text, ending = .ok a → 200 ≤ a.status → a.status < 300 → a.text = .ok text →
    ∃ format, (format = .yaml ↔ a.SaysYaml) ∧ (format = .unknown ↔ ¬ a.SaysYaml) ∧
      result = Content.documentIn text format
  unreadable : ∀ a f, ending = .ok a → 200 ≤ a.status → a.status < 300 → a.text = .error f →
    result = .error (.unreadable f)
  missing : ∀ a, ending = .ok a → a.status = 404 → result = .error missing
  refused : ∀ a, ending = .ok a → a.status < 200 ∨ 300 ≤ a.status → a.status ≠ 404 →
    ∃ e, result = .error e ∧
      e.IsFailedFetch (some a.status) ("HTTP " ++ toString a.status ++ " fetching discovery document from " ++ url)
  failed : ∀ f, ending = .error (.network f) →
    ∃ e, result = .error e ∧ e.IsFailedFetch none ("Failed to fetch discovery document from " ++ url ++ ": " ++ f.text)
  /-- There was nothing to ask, or nothing that may answer. -/
  astray : ∀ e, ending = .error e → (∀ f, e ≠ .network f) → result = .error (.ofSend e)

section

variable {url : String} {a : Response} {es : Content.Entries} {e : Error}

theorem formatOf_eq_yaml : formatOf a = .yaml ↔ a.SaysYaml := by
  unfold formatOf Response.SaysYaml
  rw [← occursIn_iff, ← occursIn_iff, ← Bool.or_eq_true]
  dsimp only
  split
  next h => exact ⟨fun _ => h, fun _ => rfl⟩
  next h => exact ⟨nofun, fun h' => absurd h' h⟩

theorem formatOf_eq_unknown : formatOf a = .unknown ↔ ¬ a.SaysYaml := by
  rw [← formatOf_eq_yaml]
  unfold formatOf
  dsimp only
  split
  next => exact ⟨nofun, fun h => absurd rfl h⟩
  next => exact ⟨nofun, fun _ => rfl⟩

theorem entriesOf_of_text {text : String} (h : a.text = .ok text) :
    (entriesOf a).bind documentOf = Content.documentIn text (formatOf a) := by
  unfold entriesOf Content.documentIn Content.document documentOf
  rw [h]
  dsimp only
  rw [pure_bind]
  cases Content.readEntries text (formatOf a) with
  | error f => rfl
  | ok es =>
      rw [ok_bind]
      dsimp only [pure, Except.pure, Except.bind]
      cases Content.documentOf (.map es) <;> rfl

theorem entriesOf_of_text_error {f : Text.Charset.Fault} (h : a.text = .error f) :
    entriesOf a = .error (.unreadable f) := by
  unfold entriesOf
  rw [h]
  rfl

theorem entriesOf_ne_transport (h : entriesOf a = .error e) (f : TransportFault) : e ≠ .transport f := by
  cases htext : a.text with
  | error g =>
      rw [entriesOf_of_text_error htext] at h
      cases h
      exact nofun
  | ok text =>
      unfold entriesOf at h
      rw [htext] at h
      dsimp only at h
      rw [pure_bind] at h
      cases hparse : Content.readEntries text (formatOf a) with
      | ok es =>
          rw [hparse] at h
          cases h
      | error g =>
          rw [hparse] at h
          cases h
          cases g <;> exact nofun

/-- The entries that a fetch comes to with the ending of its exchange. -/
def fetched (url : String) : Except SendFault Response → Except Error Content.Entries
  | .ok a => if a.isSuccess then entriesOf a else .error (.transport (.fetchRefused url a.status))
  | .error e => .error (fetchError url e)

theorem fetch_eq {wire : Http.Request} {n : Network} {chain : List Http.Request} {ending : Except SendFault Response}
    (hwire : Http.Request.make? "GET" url [] none = .ok wire)
    (h : Http.Exchange n.script n.sent.length (redirectionLimit + 1) wire chain ending) :
    fetch url n = (fetched url ending, n.after chain) := by
  rw [fetch, hwire]
  dsimp only
  rw [send, h.follow_eq]
  cases ending with
  | error e => rfl
  | ok a =>
      dsimp only [fetched]
      split <;> rfl

theorem isSuccess_iff : a.isSuccess = true ↔ 200 ≤ a.status ∧ a.status < 300 := by
  rw [Response.isSuccess, Bool.and_eq_true, decide_eq_true_iff, decide_eq_true_iff]

theorem unknownIfMissing_eq {name version : String} (h : ∀ place, e ≠ .transport (.fetchRefused place 404)) :
    unknownIfMissing name version e = e := by
  unfold unknownIfMissing
  split
  next place => exact absurd rfl (h place)
  next => rfl

theorem fetched_of_refused (h : a.status < 200 ∨ 300 ≤ a.status) :
    fetched url (.ok a) = .error (.transport (.fetchRefused url a.status)) := by
  refine if_neg fun hsuccess => ?_
  obtain ⟨hmin, hmax⟩ := isSuccess_iff.1 hsuccess
  omega

/-- Nothing but the fault of a 404 is recast. -/
theorem outcome_fetched (url : String) {missing : Error} (recast : Error → Error)
    (hmissing : recast (.transport (.fetchRefused url 404)) = missing)
    (hother : ∀ e, (∀ place, e ≠ .transport (.fetchRefused place 404)) → recast e = e)
    (ending : Except SendFault Response) :
    Outcome url missing ending (((fetched url ending).mapError recast).bind documentOf) := by
  constructor
  case served =>
    rintro a text rfl hmin hmax htext
    refine ⟨formatOf a, formatOf_eq_yaml, formatOf_eq_unknown, ?_⟩
    rw [← entriesOf_of_text htext, fetched, if_pos (isSuccess_iff.2 ⟨hmin, hmax⟩)]
    cases hentries : entriesOf a with
    | ok es => rfl
    | error e => exact congrArg Except.error (hother e fun _ => entriesOf_ne_transport hentries _)
  case unreadable =>
    rintro a f rfl hmin hmax htext
    rw [fetched, if_pos (isSuccess_iff.2 ⟨hmin, hmax⟩), entriesOf_of_text_error htext]
    exact congrArg Except.error (hother _ fun _ => nofun)
  case missing =>
    rintro a rfl hstatus
    rw [fetched_of_refused (.inr (by omega)), hstatus]
    exact congrArg Except.error hmissing
  case refused =>
    rintro a rfl hrange hstatus
    have hrecast : recast (.transport (.fetchRefused url a.status)) = .transport (.fetchRefused url a.status) :=
      hother _ fun _ heq => hstatus (TransportFault.fetchRefused.inj (Error.transport.inj heq)).2
    rw [fetched_of_refused hrange]
    exact ⟨_, congrArg Except.error hrecast, _, rfl, rfl, rfl, rfl, rfl⟩
  case failed =>
    rintro f rfl
    exact ⟨_, congrArg Except.error (hother _ fun _ => nofun), _, rfl, rfl, rfl, rfl, rfl⟩
  case astray =>
    rintro e rfl he
    have hfault : fetchError url e = .ofSend e := by
      cases e with
      | network f => exact absurd rfl (he f)
      | _ => rfl
    rw [fetched, hfault]
    refine congrArg Except.error (hother _ fun place => ?_)
    cases e <;> exact nofun

/-- What a text fails for is a fault of its content. -/
theorem documentIn_eq_error {text : String} {format : Content.Format}
    (h : Content.documentIn text format = .error e) : ∃ f, e = .ofContent f := by
  rw [Content.documentIn] at h
  cases hmade : Content.document text format with
  | ok d =>
      rw [hmade] at h
      cases h
  | error f =>
      rw [hmade] at h
      cases h
      exact ⟨f, rfl⟩

theorem documentIn_ne_unknownApi {text : String} {format : Content.Format} {name version : String}
    {words : Option String} : Content.documentIn text format ≠ .error (.unknownApi name version words) := by
  intro h
  obtain ⟨f, hf⟩ := documentIn_eq_error h
  cases f <;> cases hf

/-- That the API is unknown is told of a 404 alone. -/
theorem Outcome.unknownApi_iff {name version : String} {ending : Except SendFault Response}
    {result : Except Error Document} (h : Outcome url (.unknownApi name version none) ending result)
    (name' version' : String) (words : Option String) :
    result = .error (.unknownApi name' version' words) ↔
      (name' = name ∧ version' = version ∧ words = none) ∧ ∃ a, ending = .ok a ∧ a.status = 404 := by
  constructor
  · intro hresult
    cases ending with
    | error e =>
        by_cases he : ∃ f, e = .network f
        · obtain ⟨f, rfl⟩ := he
          obtain ⟨e, he, f, rfl, -⟩ := h.failed f rfl
          cases hresult.symm.trans he
        · have hastray := h.astray e rfl fun f hf => he ⟨f, hf⟩
          cases e <;> cases hresult.symm.trans hastray
    | ok a =>
        by_cases hmissing : a.status = 404
        · cases hresult.symm.trans (h.missing a rfl hmissing)
          exact ⟨⟨rfl, rfl, rfl⟩, a, rfl, hmissing⟩
        · by_cases hrange : a.status < 200 ∨ 300 ≤ a.status
          · obtain ⟨e, he, f, rfl, -⟩ := h.refused a rfl hrange hmissing
            cases hresult.symm.trans he
          · cases htext : a.text with
            | ok text =>
                obtain ⟨format, -, -, hserved⟩ := h.served a text rfl (by omega) (by omega) htext
                exact absurd (hserved.symm.trans hresult) documentIn_ne_unknownApi
            | error f =>
                have hlost := h.unreadable a f rfl (by omega) (by omega) htext
                cases hlost.symm.trans hresult
  · rintro ⟨⟨rfl, rfl, rfl⟩, a, hending, hstatus⟩
    exact h.missing a hending hstatus

end

/-- A service that redirects and then has nothing. -/
def movedAnswers : List Answer :=
  [.response { status := 302, headers := [("location", "/moved")], body := [] }, .response (.bare 404)]

/-- A success in UTF-16 by its header, with a body that begins with no mark. -/
def unmarkedSuccess : Response where
  status := 200
  headers := [("content-type", "text/plain; charset=utf-16")]
  body := [0x64, 0x6f, 0x77, 0x6e]

end Remote

end ApiDiscovery
