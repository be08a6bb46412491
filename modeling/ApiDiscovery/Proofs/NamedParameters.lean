import ApiDiscovery.Proofs.Calls
import ApiDiscovery.Proofs.Layering
import ApiDiscovery.Proofs.Reordering

/-!
# Parameters by name

Parameters can be given by name instead of in one mapping. They share their names with the operation that they are
given to, and that takes its own first:

    self        is given already: the call is refused
    params      stands for all parameters: its value takes the place of the mapping
    callback    stands for the callback: its value is called when the request has been made

Null under one of the last two is as good as nothing, here as everywhere. All other names reach the method, so a
table that spares these names (`Spares`) is the same by name and as one mapping, and no other table is. Preparing a
request takes `self` and `params`, and leaves `callback` alone.

That no other table is the same needs a method that shows what it was given (`recorder`): it has the names of the
table as fields of its body.

Main statement: `start_named`.
-/

namespace ApiDiscovery

/-! ## Tables as arguments -/

namespace Table

/-- Parameters as one mapping. -/
def asMapping (t : Table Value) : Value := .ofFields t.entries

/-- What a table has under a name, null for nothing. -/
def under (t : Table Value) (name : String) : Value := (t.get? name).getD .null

/-- What is left of a table without some names. -/
def besides (t : Table Value) (names : List String) : Table Value := t.filter fun k _ => !names.contains k

theorem get?_besides (t : Table Value) (names : List String) (k : String) :
    (t.besides names).get? k = if k ∈ names then none else t.get? k := by
  rw [besides, get?_filter]
  by_cases h : k ∈ names <;> cases t.get? k <;> simp [h, Option.filter]

theorem get?_of_under_ne {t : Table Value} {name : String} (h : t.under name ≠ .null) :
    t.get? name = some (t.under name) := by
  unfold under at h ⊢
  cases hv : t.get? name with
  | none => rw [hv] at h; exact absurd rfl h
  | some v => rfl

end Table

/-- The names that a call takes itself, besides that of its object. -/
def startNames : List String := ["params", "callback"]

/-- The names that preparing a request takes itself, besides that of its object. -/
def prepareNames : List String := ["params"]

/-- A table has nothing under the names that an operation takes itself; null is nothing, except under `self`. -/
structure Spares (own : List String) (t : Table Value) : Prop where
  self : t.get? "self" = none
  own : ∀ name ∈ own, t.under name = .null

theorem parametersOf_asMapping (t : Table Value) : parametersOf (fieldEntries t.entries) = t := by
  rw [parametersOf, fieldEntries, List.filterMap_map]
  exact (congrArg Table.ofList List.filterMap_some).trans t.ofList_entries

section

variable {c : Client} {m : Method} {t : Table Value}

theorem startCall_asMapping (m : Method) (t : Table Value) :
    startCall m (.plain (some t.asMapping)) [] = .ok ⟨.invoke t, .caller⟩ := by
  show Except.ok (Started.mk (.invoke (parametersOf (fieldEntries t.entries))) _) = _
  rw [parametersOf_asMapping]

theorem prepare_asMapping (c : Client) (m : Method) (t : Table Value) :
    c.prepare m (some t.asMapping) [] = c.request m t := by
  show c.request m (parametersOf (fieldEntries t.entries)) = _
  rw [parametersOf_asMapping]

/-! ## Names that are taken -/

theorem lookup_eq_lookupEntry (es : List (String × α)) (k : String) : es.lookup k = lookupEntry k es := by
  induction es with
  | nil => rfl
  | cons e rest ih =>
      rw [List.lookup_cons, lookupEntry, ih]
      by_cases h : e.1 = k
      · simp [h]
      · simp [h, beq_eq_false_iff_ne.2 (Ne.symm h)]

section Binding

variable {operation : String} {own : List String} {named : List (String × Value)}
  {arguments : List (String × Argument)}

/-- A name that is given once more is still not among other arguments. -/
theorem lookup_concat_eq_none {name k : String} (hk : arguments.lookup k = none) (hne : k ≠ name) (v : Value) :
    (arguments ++ [(name, Argument.value v)]).lookup k = none := by
  rw [List.lookup_append, hk, Option.none_or, List.lookup_cons, beq_eq_false_iff_ne.2 hne]
  rfl

/-- Different names, none of which is given already: those that the operation takes itself become its arguments, all
others are parameters. -/
theorem bindNames_distinct (hnodup : (named.map (·.1)).Nodup)
    (h : ∀ e ∈ named, e.1 ≠ "self" ∧ arguments.lookup e.1 = none) (ps : Table Value) :
    bindNames operation own arguments named ps =
      .ok ⟨arguments ++ (named.filter fun e => own.contains e.1).map fun e => (e.1, .value e.2),
        ps.setAll (named.filter fun e => !own.contains e.1)⟩ := by
  induction named generalizing arguments ps with
  | nil =>
      rw [bindNames, List.filter_nil, List.map_nil, List.append_nil]
      rfl
  | cons e rest ih =>
      obtain ⟨name, v⟩ := e
      rw [List.map_cons, List.nodup_cons] at hnodup
      obtain ⟨hself, hargs⟩ := h (name, v) List.mem_cons_self
      have hrest : ∀ e ∈ rest, e.1 ≠ "self" ∧ arguments.lookup e.1 = none :=
        fun e he => h e (List.mem_cons_of_mem _ he)
      rw [bindNames, if_neg (by simp [hself, hargs])]
      cases hown : own.contains name with
      | false =>
          rw [if_neg (by simp), ih hnodup.2 hrest, List.filter_cons_of_neg (by simpa using hown),
            List.filter_cons_of_pos (by simpa using hown)]
          rfl
      | true =>
          have hfree : ∀ e ∈ rest, e.1 ≠ "self" ∧ (arguments ++ [(name, Argument.value v)]).lookup e.1 = none := by
            intro e he
            have hne : e.1 ≠ name := fun heq => hnodup.1 (List.mem_map.2 ⟨e, he, heq⟩)
            exact ⟨(hrest e he).1, lookup_concat_eq_none (hrest e he).2 hne v⟩
          rw [if_pos rfl, ih hnodup.2 hfree, List.filter_cons_of_pos (by simpa using hown),
            List.filter_cons_of_neg (by simpa using hown), List.append_assoc]
          rfl

/-- The name of the object is given already, wherever it stands among different names. -/
theorem bindNames_self (hnodup : (named.map (·.1)).Nodup) (hself : "self" ∈ named.map (·.1))
    (h : ∀ e ∈ named, arguments.lookup e.1 = none) (ps : Table Value) :
    bindNames operation own arguments named ps = .error (.usage (.twice operation "self")) := by
  induction named generalizing arguments ps with
  | nil => cases hself
  | cons e rest ih =>
      obtain ⟨name, v⟩ := e
      rw [List.map_cons, List.nodup_cons] at hnodup
      have hrest : ∀ e ∈ rest, arguments.lookup e.1 = none := fun e he => h e (List.mem_cons_of_mem _ he)
      by_cases hname : name = "self"
      · rw [bindNames, if_pos (by simp [hname]), hname]
      · have hmem : "self" ∈ rest.map (·.1) := (List.mem_cons.1 hself).resolve_left (Ne.symm hname)
        have hargs := h (name, v) List.mem_cons_self
        rw [bindNames, if_neg (by simp [hname, hargs])]
        split
        · refine ih hnodup.2 hmem (fun e he => ?_) ps
          have hne : e.1 ≠ name := fun heq => hnodup.1 (List.mem_map.2 ⟨e, he, heq⟩)
          exact lookup_concat_eq_none (hrest e he) hne v
        · exact ih hnodup.2 hmem hrest _

/-- A table by name: what it has under the names of the operation becomes arguments, and the rest is left as it is. -/
theorem exists_bound (operation : String) (own : List String) (hself : t.get? "self" = none) :
    ∃ b, bindNames operation own [] t.entries ∅ = .ok b ∧ b.parameters = t.besides own ∧
      ∀ name ∈ own, b.argument name = .value (t.under name) := by
  have hfree : ∀ e ∈ t.entries, e.1 ≠ "self" ∧ ([] : List (String × Argument)).lookup e.1 = none := by
    intro e he
    refine ⟨fun heq => ?_, rfl⟩
    have hget : t.get? e.1 = some e.2 := Table.get?_eq_some.2 he
    rw [heq, hself] at hget
    cases hget
  refine ⟨_, bindNames_distinct t.distinct hfree ∅, (t.besides own).ofList_entries, fun name hname => ?_⟩
  have hlookup : (((t.entries.filter fun e => own.contains e.1).map fun e => (e.1, Argument.value e.2)).lookup name) =
      (t.get? name).map .value := by
    rw [lookup_eq_lookupEntry, lookupEntry_map, lookupEntry_filter (fun k _ => own.contains k) t.distinct]
    show ((t.get? name).filter _).map _ = _
    cases t.get? name with
    | none => rfl
    | some v => simp [Option.filter, hname]
  rw [Bound.argument, List.nil_append, hlookup, Table.under]
  cases t.get? name <;> rfl

theorem bindNames_of_self (hself : t.get? "self" ≠ none) :
    bindNames operation own [] t.entries ∅ = .error (.usage (.twice operation "self")) := by
  refine bindNames_self t.distinct ?_ (fun _ _ => rfl) ∅
  rw [← Table.keys, ← Table.contains_iff, Table.contains, Option.isSome_iff_ne_none]
  exact hself

end Binding

/-! ## Calls with parameters by name -/

/-- What a call with parameters by name comes down to. -/
def namedPending (m : Method) (t : Table Value) : Pending :=
  Started.pendingOf m (.value (t.under "params")) (t.besides startNames)

theorem startCall_named (m : Method) (hself : t.get? "self" = none) :
    startCall m (.plain none) t.entries =
      .ok ⟨namedPending m t,
        match t.under "callback" with
        | .null => .caller
        | v => .uncallable v.kindName⟩ := by
  obtain ⟨b, hb, hps, hargs⟩ := exists_bound "ApiMethod.__call__" startNames hself
  have hbound : startCall m (.plain none) t.entries = .ok (.ofBound m b) := by
    rw [startCall]
    show (bindNames "ApiMethod.__call__" startNames [] t.entries ∅ >>= fun b => pure (Started.ofBound m b)) = _
    rw [hb]
    rfl
  rw [hbound, Started.ofBound, hargs "params" (by decide), hargs "callback" (by decide), hps, namedPending]
  cases t.under "callback" <;> rfl

theorem startCall_self (m : Method) (hself : t.get? "self" ≠ none) :
    startCall m (.plain none) t.entries = .error (.usage (.twice "ApiMethod.__call__" "self")) := by
  rw [startCall]
  show (bindNames "ApiMethod.__call__" startNames [] t.entries ∅ >>= fun b => pure (Started.ofBound m b)) = _
  rw [bindNames_of_self hself]
  rfl

theorem prepare_named (c : Client) (m : Method) (hself : t.get? "self" = none) :
    c.prepare m none t.entries =
      match t.under "params" with
      | .map es => c.request m ((t.besides prepareNames).onto (parametersOf es))
      | v =>
          if v.truthy then .error (.usage (.notMapping v.qualifiedKindName))
          else c.request m (t.besides prepareNames) := by
  obtain ⟨b, hb, hps, hargs⟩ := exists_bound "ApiMethod.prepare" prepareNames hself
  rw [Client.prepare]
  show (bindNames "ApiMethod.prepare" prepareNames [] t.entries ∅ >>= fun b => _) = _
  rw [hb, ok_bind, hargs "params" (by decide), hps]
  cases t.under "params" <;> rfl

theorem prepare_self (c : Client) (m : Method) (hself : t.get? "self" ≠ none) :
    c.prepare m none t.entries = .error (.usage (.twice "ApiMethod.prepare" "self")) := by
  rw [Client.prepare]
  show (bindNames "ApiMethod.prepare" prepareNames [] t.entries ∅ >>= fun b => _) = _
  rw [bindNames_of_self hself]
  rfl

/-- What a call fails with if what it is to tell of its end cannot be called. An interruption is not told, so
it goes out all the same. -/
def Ending.uncalled (kind : String) : Ending → Stop
  | .error (.interruption reason) => .interruption reason
  | .error (.error _) | .ok _ => .error (.usage (.notCallable kind))

section Starting

variable {σ : Type} (inLoop : Bool) (carry : Carrier σ) (callback : Callback σ) (s : σ)

theorem start_asMapping (c : Client) (m : Method) (t : Table Value) :
    c.start m inLoop (.plain (some t.asMapping)) [] carry callback s =
      (.ok (.awaitable ((Pending.invoke t).run c m carry)), s) := by
  rw [Client.start, startCall_asMapping]
  rfl

theorem start_of_self (hself : t.get? "self" ≠ none) :
    c.start m inLoop (.plain none) t.entries carry callback s =
      (.error (.error (.usage (.twice "ApiMethod.__call__" "self"))), s) := by
  rw [Client.start, startCall_self m hself]

theorem start_awaited (hself : t.get? "self" = none) (hcallback : t.under "callback" = .null) :
    c.start m inLoop (.plain none) t.entries carry callback s =
      (.ok (.awaitable ((namedPending m t).run c m carry)), s) := by
  rw [Client.start, startCall_named m hself, hcallback]
  rfl

/-- What is told to a value that cannot be called is lost: the request has been made by then. -/
theorem start_uncallable (hself : t.get? "self" = none) (hcallback : t.under "callback" ≠ .null) :
    c.start m inLoop (.plain none) t.entries carry callback s =
      let failure := fun s => ((namedPending m t).run c m carry s).1.uncalled (t.under "callback").kindName
      let report := fun s => (Except.error (failure s), ((namedPending m t).run c m carry s).2)
      if inLoop then (.ok (.task report), s) else (.error (failure s), (report s).2) := by
  have hreport : (namedPending m t).report c m carry
      (fun _ _ s => (.error (.error (.usage (.notCallable (t.under "callback").kindName))), s)) =
        fun s => (.error (((namedPending m t).run c m carry s).1.uncalled (t.under "callback").kindName),
          ((namedPending m t).run c m carry s).2) := by
    funext s
    rw [report_eq]
    rcases ((namedPending m t).run c m carry s).1 with (e | reason) | r <;> rfl
  have hreceiver : (match t.under "callback" with
      | .null => Receiver.caller
      | v => .uncallable v.kindName) = .uncallable (t.under "callback").kindName := by
    cases hv : t.under "callback" with
    | null => exact absurd hv hcallback
    | _ => rfl
  rw [Client.start, startCall_named m hself, hreceiver]
  dsimp only [Started.hand, Receiver.callback?]
  rw [hreport]
  cases inLoop <;> rfl

/-- A value under `params` is what the call has for parameters, with the rest beside it. -/
theorem start_parameters (hself : t.get? "self" = none) (hcallback : t.under "callback" = .null) :
    c.start m inLoop (.plain none) t.entries carry callback s =
      c.start m inLoop (.plain (some (t.under "params"))) (t.besides startNames).entries carry callback s := by
  have hfree : ∀ e ∈ (t.besides startNames).entries, e.1 ∉ callNames := by
    intro e he hmem
    have hget := Table.get?_eq_some.2 he
    rw [Table.get?_besides] at hget
    split at hget
    · cases hget
    · next hown =>
        rcases List.mem_cons.1 hmem with hname | hname
        · rw [hname, hself] at hget
          cases hget
        · exact hown hname
  rw [start_awaited inLoop carry callback s hself hcallback, start_plain hfree rfl, namedPending, pendingFor]
  exact congrArg (fun ps => (Except.ok (Handed.awaitable ((Started.pendingOf m _ ps).run c m carry)), s))
    (t.besides startNames).ofList_entries.symm

end Starting

/-! ## Tables that spare the names -/

/-- Parameters that are null make no difference to a request. -/
theorem request_congr (c : Client) (m : Method) {given given' : Table Value}
    (h : dropNulls given = dropNulls given') : c.request m given = c.request m given' := by
  rw [Client.request, Client.request, resolveRequest, resolveRequest, resolveParameters, resolveParameters, h]

/-- Names under which there is nothing but null can be left out. -/
theorem dropNulls_besides {names : List String} (h : ∀ name ∈ names, t.under name = .null) :
    dropNulls (t.besides names) = dropNulls t := by
  refine Table.eq_of_entries ?_
  show (t.entries.filter _).filter _ = t.entries.filter _
  rw [List.filter_filter]
  refine List.filter_congr fun e he => ?_
  by_cases hname : e.1 ∈ names
  · have hnull : e.2 = .null := by
      have hunder := h e.1 hname
      rw [Table.under, Table.get?_eq_some.2 he] at hunder
      exact hunder
    simp [hnull]
  · simp [hname]

theorem Spares.asked (h : Spares startNames t) (c : Client) (m : Method) :
    (namedPending m t).asked c m = (Pending.invoke t).asked c m := by
  rw [namedPending, h.own "params" (by decide)]
  exact request_congr c m (dropNulls_besides h.own)

theorem Spares.prepare (h : Spares prepareNames t) (c : Client) (m : Method) :
    c.prepare m none t.entries = c.request m t := by
  rw [prepare_named c m h.self, h.own "params" (by decide)]
  exact request_congr c m (dropNulls_besides h.own)

/-! ## A method that shows what it is given -/

/-- A parameter that goes to the body. -/
def fieldOfBody : Parameter := ⟨"string", .body, false, .null, false, none, none, none, none, ∅⟩

/-- A method that takes the names of a table as fields of its body, and no whole body. -/
def recorder (t : Table Value) : Method :=
  { readNote with
    id := some "notes.record"
    path := some "notes"
    parameters := (t.mapValues fun _ => fieldOfBody).setAll (bodyNames.map fun name => (name, fieldOfBody))
    parameterOrder := [] }

def recorderClient : Client := ⟨notesDocument, {}, []⟩

theorem get?_recorder (t : Table Value) (k : String) :
    (recorder t).parameters.get? k = if k ∈ bodyNames ∨ t.contains k then some fieldOfBody else none := by
  have hnames : lookupEntry k (bodyNames.map fun name => (name, fieldOfBody)) =
      if k ∈ bodyNames then some fieldOfBody else none := by
    simp only [bodyNames, List.map_cons, List.map_nil, lookupEntry, List.mem_cons, List.not_mem_nil, or_false]
    by_cases h : "resource" = k
    · simp [h]
    · by_cases h' : "requestBody" = k
      · simp [h']
      · simp [h, h', Ne.symm h, Ne.symm h']
  show (Table.setAll _ _).get? k = _
  rw [Table.get?_setAll _ (by decide), hnames, Table.get?_mapValues]
  by_cases h : k ∈ bodyNames
  · simp [h]
  · cases hk : t.get? k <;> simp [h, Table.contains, hk]

theorem recorder_declaresField {k : String} {v : Value} (h : t.get? k = some v) :
    (recorder t).declaresField k = true := by
  rw [Method.declaresField, get?_recorder, if_pos (.inr (by rw [Table.contains, h]; rfl))]
  rfl

theorem recorder_wholeBody (p : Table Value) : (recorder t).wholeBody p = none := by
  have hnone : ∀ name ∈ bodyNames, (recorder t).wholeUnder p name = none := by
    intro name hname
    have hdeclared : (recorder t).parameters.contains name = true := by
      rw [Table.contains, get?_recorder, if_pos (Or.inl hname)]
      rfl
    rw [Method.wholeUnder, if_pos hdeclared]
  rw [Method.wholeBody, hnone "requestBody" (by decide), hnone "resource" (by decide)]
  rfl

theorem recorder_holes (t : Table Value) : (recorder t).holes = [] := by
  show Template.names "notes" = []
  decide +kernel

theorem recorder_requiredParameters (t : Table Value) : (recorder t).requiredParameters = [] := by
  have hrequires : (recorder t).requires = fun _ => false := by
    funext name
    rw [Method.requires, get?_recorder]
    split <;> rfl
  rw [Method.requiredParameters, hrequires, recorder_holes, List.filter_false, List.filter_false]
  rfl

theorem recorder_carried (given : Table Value) : (recorder t).carried (dropNulls given) = dropNulls given := by
  refine Table.eq_of_entries ?_
  show (given.entries.filter _).filter _ = given.entries.filter _
  rw [List.filter_filter, recorder_holes]
  exact List.filter_congr fun e _ => by simp

theorem recorder_request (t given : Table Value) :
    recorderClient.request (recorder t) given =
      (buildRequest (recorder t) notesDocument (dropNulls given) (some {})).mapError .ofRequest := by
  have hresolved : resolveParameters ∅ given (recorder t) notesDocument.parameters = .ok (dropNulls given) := by
    show resolveParameters ∅ given (recorder t) ∅ = _
    rw [resolveParameters, recorder_requiredParameters, fillRequired]
    exact congrArg _ (dropNulls given).onto_empty
  have hrequest : resolveRequest recorderClient.defaults given (recorder t) recorderClient.document
      (some recorderClient.options) = buildRequest (recorder t) notesDocument (dropNulls given) (some {}) := by
    show resolveRequest ∅ given (recorder t) notesDocument (some {}) = _
    simp only [resolveRequest, hresolved]
  rw [Client.request, hrequest]
  cases buildRequest (recorder t) notesDocument (dropNulls given) (some {}) <;> rfl

/-- What the method records under a name is what is given under it. -/
theorem recorder_body {given : Table Value} {r : Request}
    (h : recorderClient.request (recorder t) given = .ok r) {k : String} {v : Value} (hk : t.get? k = some v) :
    r.body.bind (·.get? k) = (dropNulls given).get? k := by
  rw [recorder_request] at h
  cases hr : buildRequest (recorder t) notesDocument (dropNulls given) (some {}) with
  | error f =>
      rw [hr] at h
      cases h
  | ok r' =>
      rw [hr] at h
      cases h
      obtain ⟨path, es, -, -, rfl⟩ := buildRequest_ok hr
      have hlookup : lookupEntry k ((recorder t).bodyFields (dropNulls given)) = (dropNulls given).get? k := by
        rw [bodyFields_eq, recorder_wholeBody]
        show lookupEntry k (takenFields _ _) = _
        rw [lookupEntry_takenFields, if_pos (recorder_declaresField hk)]
      dsimp only
      rw [handedOut_fst, recorder_carried, recorder_wholeBody, ← hlookup]
      cases (recorder t).bodyFields (dropNulls given) with
      | nil => rfl
      | cons f rest => exact entry?_fieldEntries (f :: rest) k

/-- Everything in the table that the method is made for goes to its body. -/
theorem recorder_left (t : Table Value) : (handedOut (recorder t) ((recorder t).carried (dropNulls t))).2 = ∅ := by
  refine Table.eq_of_entries (List.eq_nil_iff_forall_not_mem.2 fun e he => ?_)
  have hget := Table.get?_eq_some.2 he
  rw [get?_handedOut, recorder_carried, get?_dropNulls] at hget
  split at hget
  next hquery =>
    have hv := (Option.filter_eq_some_iff.1 hget).1
    have htakes := ((destination_eq_query _ _).1 hquery).2 (recorder_declaresField hv)
    rw [recorder_wholeBody] at htakes
    cases htakes
  next => cases hget

theorem exists_recorded (t : Table Value) : ∃ r, recorderClient.request (recorder t) t = .ok r := by
  obtain ⟨path, hpath⟩ : ∃ path, Template.expand ((recorder t).path.getD "") (dropNulls t).get? (recorder t).id =
      .ok (path, (recorder t).holes) := by
    refine ⟨_, Template.expand_eq_ok fun name hname => ?_⟩
    have hnames : Template.names ((recorder t).path.getD "") = [] := recorder_holes t
    rw [hnames] at hname
    cases hname
  have hquery : writeQuery ∅ = .ok ([], "") := by
    refine writeQuery_ok.2 ⟨?_, rfl, rfl⟩
    rw [queryEntries]
    show (List.mergeSort [] _).mapM _ = _
    rw [List.mergeSort_nil, List.mapM_nil]
    rfl
  rw [recorder_request, buildRequest_eq, hpath, recorder_left, hquery]
  exact ⟨_, rfl⟩

/-- What is given otherwise than it is in the table makes another request, or none. -/
theorem recorder_request_ne {given : Table Value} {k : String} {v : Value} (hk : t.get? k = some v)
    (hnull : v ≠ .null) (h : given.get? k ≠ some v) :
    recorderClient.request (recorder t) given ≠ recorderClient.request (recorder t) t := by
  intro heq
  obtain ⟨r, hr⟩ := exists_recorded t
  have hgiven := recorder_body (heq.trans hr) hk
  have hkept : (some v).filter (· != .null) = some v := by simp [Option.filter, hnull]
  rw [recorder_body hr hk, get?_dropNulls, get?_dropNulls, givenValue, givenValue, hk, hkept] at hgiven
  exact h (Option.filter_eq_some_iff.1 hgiven.symm).1

/-! ## Tables that do not spare them -/

/-- A mapping is not among its own values. -/
theorem parametersOf_ne (es : List (Value × Value)) (k : String) : (parametersOf es).get? k ≠ some (.map es) := by
  intro h
  have hmem := Table.mem_ofList (Table.get?_eq_some.1 h)
  obtain ⟨e, he, hk⟩ := List.mem_filterMap.1 hmem
  have hvalue : e.2 = .map es := by
    split at hk
    · exact congrArg Prod.snd (Option.some.inj hk)
    · cases hk
  have hsize : sizeOf e < sizeOf es := List.sizeOf_lt_of_mem he
  obtain ⟨key, value⟩ := e
  cases hvalue
  simp at hsize
  omega

/-- Neither what is left beside a mapping nor the mapping has it under its name. -/
theorem get?_onto_parametersOf_ne {names : List String} {name : String} (hname : name ∈ names)
    (es : List (Value × Value)) : ((t.besides names).onto (parametersOf es)).get? name ≠ some (.map es) := by
  rw [Table.get?_onto, Table.get?_besides, if_pos hname]
  exact parametersOf_ne es name

theorem namedPending_asked_ne (h : t.under "params" ≠ .null) :
    (namedPending (recorder t) t).asked recorderClient (recorder t) ≠
      (Pending.invoke t).asked recorderClient (recorder t) := by
  intro heq
  have hget := Table.get?_of_under_ne h
  obtain ⟨r, hr⟩ := exists_recorded t
  rw [namedPending] at heq
  cases hv : t.under "params" with
  | null => exact h hv
  | map es =>
      rw [hv] at heq hget
      exact recorder_request_ne hget nofun (get?_onto_parametersOf_ne (by decide) es) heq
  | _ =>
      rw [hv] at heq
      cases heq.trans hr

theorem prepare_ne (hself : t.get? "self" = none) (h : t.under "params" ≠ .null) :
    recorderClient.prepare (recorder t) none t.entries ≠ recorderClient.request (recorder t) t := by
  have hget := Table.get?_of_under_ne h
  obtain ⟨r, hr⟩ := exists_recorded t
  -- A value that counts as no mapping is either refused or left out.
  have hother : (if (t.under "params").truthy then
      Except.error (.usage (.notMapping (t.under "params").qualifiedKindName))
      else recorderClient.request (recorder t) (t.besides prepareNames)) ≠ recorderClient.request (recorder t) t := by
    split
    · rw [hr]
      nofun
    · refine recorder_request_ne hget h ?_
      rw [Table.get?_besides, if_pos (by decide)]
      nofun
  rw [prepare_named recorderClient (recorder t) hself]
  cases hv : t.under "params" with
  | null => exact absurd hv h
  | map es =>
      rw [hv] at hget
      exact recorder_request_ne hget nofun (get?_onto_parametersOf_ne (by decide) es)
  | _ =>
      rw [hv] at hother
      exact hother

/-- A carrier that keeps the request, and has one response. -/
def keeper : Carrier (Option Request) := fun r _ => (.ok (.bare 200), some r)

/-- What calls come to with such a carrier tells what they ask for. -/
theorem asked_of_run_keeper {p q : Pending} (h : p.run c m keeper none = q.run c m keeper none) :
    p.asked c m = q.asked c m := by
  rw [run_eq_asked, run_eq_asked] at h
  cases hp : p.asked c m with
  | error e =>
      cases hq : q.asked c m with
      | error f =>
          rw [hp, hq] at h
          cases h
          rfl
      | ok r =>
          rw [hp, hq] at h
          cases h
  | ok r =>
      cases hq : q.asked c m with
      | error f =>
          rw [hp, hq] at h
          cases h
      | ok r' =>
          rw [hp, hq] at h
          cases h
          rfl

end

/-! ## Main statement -/

/-- Calling a method with parameters by name is the same as calling it with one mapping of them, for every client and
every carrier, exactly if they spare the names that a call takes itself (`startNames`); and the same goes for
preparing a request (`prepareNames`). Otherwise, whatever the client and the method: under `self`, the call is
refused. What stands under `callback` is called when the request has been made, cannot be, and the outcome is lost;
only an interruption comes before that.
What stands under `params` takes the place of the mapping, with the other parameters beside it. -/
theorem start_named (t : Table Value) :
    ((∀ (c : Client) (m : Method) (σ : Type) (inLoop : Bool) (carry : Carrier σ) (callback : Callback σ) (s : σ),
        c.start m inLoop (.plain none) t.entries carry callback s =
          c.start m inLoop (.plain (some t.asMapping)) [] carry callback s) ↔ Spares startNames t) ∧
    ((∀ (c : Client) (m : Method), c.prepare m none t.entries = c.prepare m (some t.asMapping) []) ↔
      Spares prepareNames t) ∧
    ∀ (c : Client) (m : Method) (σ : Type) (carry : Carrier σ) (callback : Callback σ) (s : σ),
      (t.get? "self" ≠ none → ∀ inLoop, c.start m inLoop (.plain none) t.entries carry callback s =
        (.error (.error (.usage (.twice "ApiMethod.__call__" "self"))), s)) ∧
      (t.get? "self" = none → t.under "callback" ≠ .null →
        c.start m false (.plain none) t.entries carry callback s =
          let (ending, s') := (pendingFor m (t.under "params") (t.besides startNames).entries).run c m carry s
          (.error (ending.uncalled (t.under "callback").kindName), s')) ∧
      (t.get? "self" = none → t.under "callback" = .null → ∀ inLoop,
        c.start m inLoop (.plain none) t.entries carry callback s =
          c.start m inLoop (.plain (some (t.under "params"))) (t.besides startNames).entries carry callback s) := by
  refine ⟨⟨fun h => ?_, fun h => ?_⟩, ⟨fun h => ?_, fun h => ?_⟩, fun c m σ carry callback s => ⟨?_, ?_, ?_⟩⟩
  · -- The mapping is waited for, so the names must be too; then what is recorded tells the parameters apart.
    have hagree := fun inLoop => h recorderClient (recorder t) _ inLoop keeper (fun _ _ s => (.ok (), s)) none
    simp only [start_asMapping] at hagree
    have hself : t.get? "self" = none := by
      by_contra hself
      have hstart := hagree false
      rw [start_of_self false keeper _ none hself] at hstart
      cases hstart
    have hcallback : t.under "callback" = .null := by
      by_contra hcallback
      have hstart := hagree false
      rw [start_uncallable false keeper _ none hself hcallback] at hstart
      cases hstart
    have hparams : t.under "params" = .null := by
      by_contra hparams
      have hstart := hagree false
      rw [start_awaited false keeper _ none hself hcallback] at hstart
      have hrun := Handed.awaitable.inj (Except.ok.inj (Prod.mk.inj hstart).1)
      exact namedPending_asked_ne hparams (asked_of_run_keeper (congrFun hrun none))
    refine ⟨hself, fun name hname => ?_⟩
    rcases List.mem_cons.1 hname with rfl | hname
    · exact hparams
    · rw [List.mem_singleton.1 hname]
      exact hcallback
  · intro c m σ inLoop carry callback s
    have hrun : (namedPending m t).run c m carry = (Pending.invoke t).run c m carry := by
      funext s
      rw [run_eq_asked, run_eq_asked, h.asked]
    rw [start_awaited inLoop carry callback s h.self (h.own "callback" (by decide)), start_asMapping, hrun]
  · have hagree := h recorderClient (recorder t)
    rw [prepare_asMapping] at hagree
    have hself : t.get? "self" = none := by
      by_contra hself
      obtain ⟨r, hr⟩ := exists_recorded t
      rw [prepare_self recorderClient _ hself, hr] at hagree
      cases hagree
    refine ⟨hself, fun name hname => ?_⟩
    rw [List.mem_singleton.1 hname]
    by_contra hparams
    exact prepare_ne hself hparams hagree
  · intro c m
    rw [h.prepare, prepare_asMapping]
  · exact fun hself inLoop => start_of_self inLoop carry callback s hself
  · intro hself hcallback
    have hpending : pendingFor m (t.under "params") (t.besides startNames).entries = namedPending m t :=
      congrArg (Started.pendingOf m _) (t.besides startNames).ofList_entries
    rw [start_uncallable false carry callback s hself hcallback, hpending]
    rfl
  · exact fun hself hcallback inLoop => start_parameters inLoop carry callback s hself hcallback

/-- A method with a parameter that has the name of the callback. -/
def scriptNotes : Method :=
  { readNote with
    id := some "notes.list"
    path := some "notes"
    parameters := Table.ofList [("callback", { fieldOfBody with location := .query })]
    parameterOrder := [] }

/-- A carrier that keeps the queries, and has one response. -/
def queryKeeper : Carrier (List String) := fun r queries => (.ok (.bare 200), queries ++ [r.query])

/-- By name, the parameter is taken for the callback: a request is made without it, and the call fails. In a mapping
it is sent, and the call has a response. Preparing the request by name does not fail either. -/
theorem start_scriptNotes :
    let t : Table Value := .ofList [("callback", .str "show")]
    let named := noteClient.call scriptNotes (.plain none) t.entries none queryKeeper []
    let mapped := noteClient.call scriptNotes (.plain (some t.asMapping)) [] none queryKeeper []
    named.1.isOk = false ∧ named.2 = [""] ∧ mapped.1.isOk = true ∧ mapped.2 = ["callback=show"] ∧
      (noteClient.prepare scriptNotes none t.entries).toOption.map (·.query) = some "callback=show" := by
  decide +kernel

end ApiDiscovery
