import ApiDiscovery.Proofs.Calls
import ApiDiscovery.Proofs.Expansion
import ApiDiscovery.Proofs.Outcome
import ApiDiscovery.Proofs.Parameters
import Mathlib

/-!
# When a call is refused

A parameter without a value is looked for twice: when parameters are resolved, among all that are required,
and when the path is expanded, at each of its holes. The second look never finds anything, since every hole is
required: once parameters are resolved, the path expands, and uses its holes in order. So a call is refused for
a missing parameter exactly if resolving refuses it, in the same words, and nothing is sent then.

Main statement: `resolveRequest_refused`.
-/

namespace ApiDiscovery

variable {m : Method} {d : Document} {o : Option Options} {defaults given t : Table Value}
  {e : MissingParameter}

/-- The values of all holes of the path can be written. -/
def Method.FillsWritten (m : Method) (t : Table Value) : Prop :=
  ∀ name ∈ m.holes, ∀ v, t.get? name = some v → v.isWritable = true

/-- Resolved parameters leave no hole of the path without a value. -/
theorem isMissing_resolved (h : resolveParameters defaults given m d.parameters = .ok t) :
    ∀ name ∈ m.holes, Template.isMissing (t.get? name) = false :=
  fun _ hn => resolveParameters_filled h (Method.mem_requiredParameters.2 (.inr hn))

/-- So the path expands if the values of its holes can be written. -/
theorem expand_resolved (h : resolveParameters defaults given m d.parameters = .ok t) (hw : m.FillsWritten t) :
    ∃ path, Template.expand (m.path.getD "") t.get? m.id = .ok (path, m.holes) := by
  refine ⟨_, Template.expand_eq_ok fun name hn => Template.flaw?_eq_none.2 ⟨isMissing_resolved h name hn, ?_⟩⟩
  cases hv : t.get? name with
  | none => rfl
  | some v => exact hw name hn v hv

/-- A number that cannot be written is the only thing that keeps it from that. -/
theorem expand_resolved_cases (h : resolveParameters defaults given m d.parameters = .ok t) :
    (∃ path, Template.expand (m.path.getD "") t.get? m.id = .ok (path, m.holes)) ∨
      (Template.expand (m.path.getD "") t.get? m.id = .error .unwritable ∧ ¬ m.FillsWritten t) := by
  cases hx : Template.expand (m.path.getD "") t.get? m.id with
  | ok filled =>
      obtain ⟨path, used⟩ := filled
      obtain ⟨-, rfl, -⟩ := Template.expand_ok hx
      exact .inl ⟨path, rfl⟩
  | error f =>
      cases f with
      | missing e => exact absurd hx (Template.expand_ne_missing (isMissing_resolved h) e)
      | unwritable =>
          refine .inr ⟨rfl, fun hw => ?_⟩
          obtain ⟨path, hpath⟩ := expand_resolved h hw
          rw [hx] at hpath
          cases hpath

/-- Only the path is ever found to lack a parameter. -/
theorem buildRequest_eq_missing :
    buildRequest m d t o = .error (.missing e) ↔
      Template.expand (m.path.getD "") t.get? m.id = .error (.missing e) := by
  rw [buildRequest, bind_eq_error]
  cases Template.expand (m.path.getD "") t.get? m.id with
  | error f => cases f <;> simp [Except.mapError, RequestFault.ofFill]
  | ok filled =>
      refine iff_of_false ?_ nofun
      rintro (hfill | ⟨filled, -, hrest⟩)
      · cases hfill
      · rcases bind_eq_error.1 hrest with hquery | ⟨_, -, hdone⟩
        · cases hw : writeQuery _ with
          | error w => rw [hw] at hquery; cases hquery
          | ok written => rw [hw] at hquery; cases hquery
        · cases hdone

/-- What is resolved is not refused by the path. -/
theorem buildRequest_ne_missing (h : resolveParameters defaults given m d.parameters = .ok t) :
    buildRequest m d t o ≠ .error (.missing e) := by
  rw [Ne, buildRequest_eq_missing]
  exact Template.expand_ne_missing (isMissing_resolved h) e

theorem resolveRequest_eq_missing :
    resolveRequest defaults given m d o = .error (.missing e) ↔
      resolveParameters defaults given m d.parameters = .error e := by
  unfold resolveRequest
  cases h : resolveParameters defaults given m d.parameters with
  | error e' => simp
  | ok t => exact iff_of_false (buildRequest_ne_missing h) nofun

theorem Client.request_eq_missing {c : Client} :
    c.request m given = .error (.missing e) ↔
      resolveParameters c.defaults given m c.document.parameters = .error e := by
  rw [← resolveRequest_eq_missing (o := some c.options), Client.request]
  cases resolveRequest c.defaults given m c.document (some c.options) with
  | ok r => exact iff_of_false nofun nofun
  | error f => cases f <;> simp [Error.ofRequest]

/-! ## Main statement -/

/-- Once parameters are resolved, the path expands, with the names of its holes in order and as often as they stand
there, unless the value of one cannot be written; and no request fails for a missing parameter. So a request fails for
one exactly if resolving its parameters does, with the same error. A call of which that is true ends with that error
before its carrier has seen anything; all that is to be seen of it is what a callback is told. -/
theorem resolveRequest_refused (defaults given : Table Value) (m : Method) (d : Document)
    (o : Option Options) :
    (∀ t, resolveParameters defaults given m d.parameters = .ok t →
      ((∃ path, Template.expand (m.path.getD "") t.get? m.id = .ok (path, m.holes)) ∨
        (Template.expand (m.path.getD "") t.get? m.id = .error .unwritable ∧ ¬ m.FillsWritten t)) ∧
      ∀ e, buildRequest m d t o ≠ .error (.missing e)) ∧
    (∀ e, resolveRequest defaults given m d o = .error (.missing e) ↔
      resolveParameters defaults given m d.parameters = .error e) ∧
    (∀ (c : Client) (σ : Type) (carry : Carrier σ) (callback : Callback σ) (s : σ) (e : MissingParameter),
      resolveParameters c.defaults given m c.document.parameters = .error e →
      (Pending.invoke given).run c m carry.traced (s, []) = (.error (.error (.missing e)), s, []) ∧
      ((Pending.invoke given).report c m carry.traced callback.traced (s, [])).2.2 =
        [.told (.error (.missing e))]) := by
  refine ⟨fun t ht => ⟨expand_resolved_cases ht, fun e => buildRequest_ne_missing ht⟩,
    fun e => resolveRequest_eq_missing, fun c σ carry callback s e he => ?_⟩
  have hasked : (Pending.invoke given).asked c m = .error (.missing e) := Client.request_eq_missing.2 he
  have hrun : (Pending.invoke given).run c m carry s = (.error (.error (.missing e)), s) := by
    rw [run_eq_asked, hasked]
  constructor
  · rw [run_traced, hrun, hasked]
    rfl
  · rw [report_traced _ carry callback s [] hrun, hasked]
    rfl

/-- A hole that nobody declares. Without a value it is missing, and nothing is sent; with one it is used. -/
theorem resolveRequest_refused_readNote :
    resolveParameters ∅ ∅ readNote noteClient.document.parameters = .error ⟨"id", some "notes.read"⟩ ∧
      (Pending.invoke ∅).run noteClient readNote countingCarrier.traced (0, []) =
        (.error (.error (.missing ⟨"id", some "notes.read"⟩)), 0, []) ∧
      ∃ path, Template.expand (readNote.path.getD "") (Table.ofList [("id", .str "7")]).get? readNote.id =
        .ok (path, ["id"]) := by
  have hmissing : resolveParameters ∅ ∅ readNote noteClient.document.parameters =
      .error ⟨"id", some "notes.read"⟩ := by cbv
  have hfilled : resolveParameters ∅ (Table.ofList [("id", .str "7")]) readNote
      noteClient.document.parameters = .ok (Table.ofList [("id", .str "7")]) := by cbv
  have hholes : readNote.holes = ["id"] := by decide +kernel
  obtain ⟨-, -, hunsent⟩ := resolveRequest_refused ∅ ∅ readNote noteClient.document none
  obtain ⟨hexpands, -⟩ := resolveRequest_refused ∅ (Table.ofList [("id", .str "7")]) readNote
    noteClient.document none
  refine ⟨hmissing, (hunsent noteClient Nat countingCarrier failingCallback 0 _ hmissing).1, ?_⟩
  rcases (hexpands _ hfilled).1 with hpath | ⟨-, hlong⟩
  · rwa [hholes] at hpath
  · refine absurd (fun name hn v hv => ?_) hlong
    rw [hholes, List.mem_singleton] at hn
    subst hn
    cases hv
    rfl

end ApiDiscovery
