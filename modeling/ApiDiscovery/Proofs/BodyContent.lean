import ApiDiscovery.Proofs.WrittenQuery

/-!
# What is given for the body is in the request

A value can be meant for the body in two ways: its name stands for a whole body, or its parameter is declared for the
body. There is one body, and what becomes of a value depends on what else is given:

    whole body, alone                       it is the body
    whole body, with fields                 a mapping is in the body entry by entry; any other is the body
    field, no whole body or a mapping       in the body under its own key, unless the mapping has a value for it
    field, any other whole body             in the query under its own name

So all of it is in the request (`Request.Holds`) but for what a mapping hides: itself as a whole once there are fields
(`Request.HoldsEntries`), and the fields that it has a value for. Of the two names for a whole body `requestBody` counts
where both are given; nothing is said of the value under the other one then.

Main statement: `buildRequest_holds`.
-/

namespace ApiDiscovery

namespace Value

/-! ## Entries of a mapping -/

/-- Keys are different from those in front of them. -/
def Distinct (es : List (Value × Value)) : Prop := (es.map (·.1)).Pairwise fun a b => sameKey a b = false

theorem keys_put (key value : Value) (es : List (Value × Value)) :
    (put key value es).map (·.1) =
      if ∃ k ∈ es.map (·.1), sameKey k key = true then es.map (·.1) else es.map (·.1) ++ [key] := by
  induction es with
  | nil => rfl
  | cons e rest ih =>
      obtain ⟨k, v⟩ := e
      unfold put
      by_cases hk : sameKey k key = true
      · rw [if_pos hk, if_pos ⟨k, List.mem_cons_self, hk⟩]
        rfl
      · rw [if_neg hk, List.map_cons, ih]
        simp only [List.map_cons, List.exists_mem_cons_iff, hk, Bool.false_eq_true, false_or]
        split <;> rfl

theorem Distinct.put {es : List (Value × Value)} (h : Distinct es) (key value : Value) :
    Distinct (put key value es) := by
  unfold Distinct
  rw [keys_put]
  split
  · exact h
  next hnone =>
    refine List.pairwise_append.2 ⟨h, List.pairwise_singleton _ _, fun k hk l hl => ?_⟩
    rw [List.mem_singleton.1 hl]
    exact Bool.not_eq_true _ ▸ fun hsame => hnone ⟨k, hk, hsame⟩

theorem distinct_putAll (pairs : List (Value × Value)) : Distinct (putAll pairs) :=
  List.foldlRecOn pairs _ List.Pairwise.nil fun _ h p _ => h.put p.1 p.2

theorem entry?_of_mem {es : List (Value × Value)} (hdistinct : Distinct es) {name : String} {v : Value}
    (h : (.str name, v) ∈ es) : entry? es name = some v := by
  induction es with
  | nil => cases h
  | cons e rest ih =>
      obtain ⟨k, w⟩ := e
      obtain ⟨hfirst, hrest⟩ := List.pairwise_cons.1 hdistinct
      rw [entry?_cons]
      rcases List.mem_cons.1 h with h | h
      · cases h
        exact if_pos rfl
      · have hother : k ≠ .str name := fun hk => by
          have hdifferent := hfirst _ (List.mem_map_of_mem h)
          rw [sameKey_str_right.2 hk] at hdifferent
          cases hdifferent
        rw [if_neg hother]
        exact ih hrest h

end Value

/-- A mapping that is laid over fields has all of its entries there. -/
theorem mem_overlaid {fields : List (String × Value)} {es : List (Value × Value)} (hdistinct : Value.Distinct es)
    {e : Value × Value} (h : e ∈ es) : e ∈ overlaid fields es := by
  obtain ⟨key, v⟩ := e
  cases hother : isOther fields key with
  | true => exact List.mem_append_right _ (List.mem_filter.2 ⟨h, hother⟩)
  | false =>
      obtain ⟨name, hname, rfl⟩ := isOther_eq_false.1 hother
      obtain ⟨f, hf, rfl⟩ := List.mem_map.1 hname
      refine List.mem_append_left _ (List.mem_map.2 ⟨f, hf, ?_⟩)
      rw [Value.entry?_of_mem hdistinct h, Option.getD_some]

theorem mem_of_entry? {es : List (Value × Value)} {name : String} {v : Value} (h : Value.entry? es name = some v) :
    (.str name, v) ∈ es := by
  obtain ⟨⟨key, w⟩, hfind, rfl⟩ := Option.map_eq_some_iff.1 h
  obtain rfl : key = .str name := Value.sameKey_str_right.1 (List.find?_some hfind :)
  exact List.mem_of_find?_eq_some hfind

theorem mem_of_wholeEntry {whole : Option Value} {k : String} {w : Value} (h : wholeEntry whole k = some w) :
    ∃ es, whole = some (.map es) ∧ (.str k, w) ∈ Value.putAll es := by
  unfold wholeEntry at h
  split at h
  next es => exact ⟨es, rfl, mem_of_entry? h⟩
  next => cases h

/-! ## What a request holds -/

/-- A value is in a request: as its body, under its own key in the body, or, as it is written there, under its own name
in the query. There it has a pair for each of its items. -/
def Request.Holds (r : Request) (name : String) (v : Value) : Prop :=
  r.body = some v ∨
  (∃ es, r.body = some (.map es) ∧ Value.entry? es name = some v) ∨
  ∃ w, queryValue v = .ok w ∧ r.queryParameters.get? name = some w ∧
    ∀ pair ∈ itemPairs (name, w), pair ∈ Query.parse r.query

/-- The body of a request has all entries of a mapping. -/
def Request.HoldsEntries (r : Request) (es : List (Value × Value)) : Prop :=
  ∃ fs, r.body = some (.map fs) ∧ ∀ e ∈ Value.putAll es, e ∈ fs

section

variable {m : Method} {d : Document} {t : Table Value} {o : Option Options} {r : Request} {k : String} {v : Value}

theorem get?_carried (hv : t.get? k = some v) (hnull : v ≠ .null) (hhole : k ∉ m.holes) :
    (m.carried t).get? k = some v := by
  rw [Method.carried, Table.get?_filter, hv]
  simp [Option.filter, hhole, hnull]

/-- A whole body is the body, or a mapping whose entries are there among the fields. -/
theorem composedBody_whole (v : Value) (fields : List (String × Value)) :
    composedBody (some v) fields = some v ∨
      fields ≠ [] ∧ ∃ es fs, v = .map es ∧ composedBody (some v) fields = some (.map fs) ∧
        ∀ e ∈ Value.putAll es, e ∈ fs := by
  cases fields with
  | nil => exact .inl rfl
  | cons f rest =>
      cases v with
      | map es =>
          exact .inr ⟨List.cons_ne_nil _ _, es, _, rfl, rfl, fun e he => mem_overlaid (Value.distinct_putAll es) he⟩
      | _ => exact .inl rfl

/-- A value under a name for a whole body is that, unless it stands under `resource` with one under `requestBody`. -/
theorem wholeBody_of_only {p : Table Value} (hnames : m.namesWhole k = true) (hv : p.get? k = some v)
    (hone : k = "resource" → m.wholeUnder p "requestBody" = none) : m.wholeBody p = some v := by
  rcases wholeBody_of_namesWhole hnames hv with hwhole | ⟨rfl, -⟩
  · exact hwhole
  · have hundeclared : m.parameters.contains "resource" = false := by
      rw [← Bool.not_eq_true']
      exact (Bool.and_eq_true_iff.1 hnames).2
    rw [Method.wholeBody, hone rfl, Option.none_or, Method.wholeUnder, hundeclared]
    exact hv

theorem holds_of_query (h : buildRequest m d t o = .ok r) (hv : (m.carried t).get? k = some v)
    (hquery : m.destination (m.carried t) k = .query) : r.Holds k v := by
  obtain ⟨path, es, -, hes, hr⟩ := buildRequest_ok h
  have hleft : (handedOut m (m.carried t)).2.get? k = some v := by rw [get?_handedOut, if_pos hquery, hv]
  obtain ⟨w, hw, hentry⟩ := exists_queryValue hes hleft
  refine .inr (.inr ⟨w, hw, ?_, fun pair hpair => ?_⟩)
  · rw [hr]
    exact hentry
  · have htext : r.query = Query.render (es.flatMap queryPairs) := by rw [hr]
    rw [htext, Query.parse_render, List.mem_flatMap]
    refine ⟨(k, w), (mem_queryEntries hes).2 ⟨v, hleft, hw⟩, ?_⟩
    rw [queryPairs_queryValue hw]
    exact hpair

theorem holds_of_field (h : buildRequest m d t o = .ok r) (hv : (m.carried t).get? k = some v)
    (hfield : m.destination (m.carried t) k = .field) :
    r.Holds k v ∨ ∃ es w fs, m.wholeBody (m.carried t) = some (.map es) ∧ (.str k, w) ∈ Value.putAll es ∧
      r.body = some (.map fs) ∧ Value.entry? fs k = some w := by
  obtain ⟨path, es, -, -, hr⟩ := buildRequest_ok h
  obtain ⟨fs, hfs, hentry⟩ := entry?_composedBody ((destination_eq_field m _).1 hfield).2 nodup_bodyFields
    (mem_bodyFields.2 ⟨hfield, hv⟩)
  have hbody : r.body = some (.map fs) := by
    rw [hr]
    exact (handedOut_fst m _).trans hfs
  cases hhidden : wholeEntry (m.wholeBody (m.carried t)) k with
  | none =>
      rw [hhidden] at hentry
      exact .inl (.inr (.inl ⟨fs, hbody, hentry⟩))
  | some w =>
      rw [hhidden] at hentry
      obtain ⟨es, hwhole, hmem⟩ := mem_of_wholeEntry hhidden
      exact .inr ⟨es, w, fs, hwhole, hmem, hbody, hentry⟩

theorem holds_of_whole (h : buildRequest m d t o = .ok r) (hv : m.wholeBody (m.carried t) = some v) :
    r.Holds k v ∨ m.bodyFields (m.carried t) ≠ [] ∧ ∃ es, v = .map es ∧ r.HoldsEntries es := by
  obtain ⟨path, es, -, -, hr⟩ := buildRequest_ok h
  have hbody : r.body = composedBody (some v) (m.bodyFields (m.carried t)) := by
    rw [hr, ← hv]
    exact handedOut_fst m _
  rcases composedBody_whole v (m.bodyFields (m.carried t)) with hsame | ⟨hfields, es, fs, rfl, hmap, hmem⟩
  · exact .inl (.inl (hbody.trans hsame))
  · exact .inr ⟨hfields, es, rfl, fs, hbody.trans hmap, hmem⟩

/-! ## Main statement -/

/-- A value that is not null and fills no hole is in the request: as the whole body, under its own key in the body, or
under its own name in the query. There are two cases besides. A mapping that stands for the whole body has fields
beside it; then all of its entries are in the body. Or the value is a field that such a mapping has a value for; then
that one is in its place. Nothing is said of `resource` where a whole body is given as `requestBody`, too. -/
theorem buildRequest_holds (h : buildRequest m d t o = .ok r) (hv : t.get? k = some v) (hnull : v ≠ .null)
    (hhole : k ∉ m.holes)
    (hone : k = "resource" → m.namesWhole k = true → m.wholeUnder (m.carried t) "requestBody" = none) :
    r.Holds k v ∨
    (m.namesWhole k = true ∧ m.bodyFields (m.carried t) ≠ [] ∧ ∃ es, v = .map es ∧ r.HoldsEntries es) ∨
    (m.declaresField k = true ∧ ∃ es w fs, m.wholeBody (m.carried t) = some (.map es) ∧
      (.str k, w) ∈ Value.putAll es ∧ r.body = some (.map fs) ∧ Value.entry? fs k = some w) := by
  have hcarried := get?_carried hv hnull hhole
  cases hd : m.destination (m.carried t) k with
  | query => exact .inl (holds_of_query h hcarried hd)
  | field =>
      rcases holds_of_field h hcarried hd with hholds | hhidden
      · exact .inl hholds
      · exact .inr (.inr ⟨((destination_eq_field m _).1 hd).1, hhidden⟩)
  | whole =>
      have hnames := destination_eq_whole.1 hd
      have hwhole := wholeBody_of_only hnames hcarried fun hname => hone hname hnames
      rcases holds_of_whole h hwhole with hholds | hentries
      · exact .inl hholds
      · exact .inr (.inl ⟨hnames, hentries⟩)

/-- A field beside a whole body that takes none. -/
theorem buildRequest_holds_title :
    ∃ r, buildRequest updateNote notesDocument
        (Table.ofList [("id", .str "7"), ("title", .str "a"), ("resource", .str "text")]) none = .ok r ∧
      r.Holds "title" (.str "a") := by
  have hverb : (buildRequest updateNote notesDocument
      (Table.ofList [("id", .str "7"), ("title", .str "a"), ("resource", .str "text")]) none).toOption.map (·.verb) =
      some "PUT" := by decide +kernel
  obtain ⟨r, h, -⟩ := exists_of_toOption_map hverb
  refine ⟨r, h, ?_⟩
  rcases buildRequest_holds (k := "title") (v := .str "a") h (by decide +kernel) nofun (by decide +kernel) nofun with
    hholds | ⟨hnames, -⟩ | ⟨-, es, w, fs, hwhole, -⟩
  · exact hholds
  · exact absurd hnames (by decide +kernel)
  · have htext : updateNote.wholeBody (updateNote.carried (Table.ofList [("id", .str "7"), ("title", .str "a"),
        ("resource", .str "text")])) = some (.str "text") := by decide +kernel
    rw [htext] at hwhole
    cases hwhole

theorem not_holds {es : List (Value × Value)} (hbody : r.body = some (.map es)) (hwhole : Value.map es ≠ v)
    (hkey : Value.entry? es k ≠ some v) (hquery : r.queryParameters.get? k = none) : ¬ r.Holds k v := by
  rintro (h | ⟨fs, h, hentry⟩ | ⟨w, -, hw, -⟩)
  · exact hwhole (Option.some.inj (hbody.symm.trans h))
  · cases hbody.symm.trans h
    exact hkey hentry
  · cases hquery.symm.trans hw

end

/-- With a field and a whole body beside it that has another value for its key, the field is nowhere in the request; nor
is the whole body, as it has fields now. -/
theorem buildRequest_hides :
    ∃ r whole, buildRequest updateNote notesDocument noteParameters none = .ok r ∧
      (noteParameters.get? "state" = some (.str "open") ∧ "state" ∉ updateNote.holes ∧
        updateNote.declaresField "state" = true ∧ ¬ r.Holds "state" (.str "open")) ∧
      noteParameters.get? "resource" = some whole ∧ "resource" ∉ updateNote.holes ∧ ¬ r.Holds "resource" whole := by
  have hall : (buildRequest updateNote notesDocument noteParameters none).toOption.map
      (fun r => (r.body, r.queryParameters.get? "state", r.queryParameters.get? "resource")) =
      some (some (.map [(.str "title", .str "a"), (.str "state", .str "closed"), (.str "tags", .null)]), none,
        none) := by
    decide +kernel
  obtain ⟨r, h, hparts⟩ := exists_of_toOption_map hall
  obtain ⟨hbody, hrest⟩ := Prod.mk.inj hparts
  obtain ⟨hstate, hresource⟩ := Prod.mk.inj hrest
  have hwhole : noteParameters.get? "resource" =
      some (.map [(.str "tags", .null), (.str "state", .str "closed")]) := by decide +kernel
  exact ⟨r, _, h, ⟨by decide +kernel, by decide +kernel, by decide +kernel,
      not_holds hbody nofun (by decide +kernel) hstate⟩,
    hwhole, by decide +kernel, not_holds hbody (by decide) (by decide) hresource⟩

end ApiDiscovery
