import ApiDiscovery.Proofs.Expansion
import ApiDiscovery.Proofs.Outcome
import ApiDiscovery.Request
import Mathlib.Data.List.Basic

/-!
# Where parameters go

`buildRequest` hands parameters out in passes over one table: holes of the path, the whole body, the fields
of the body, the query, with fields put back where the whole body takes none. Here each parameter is given
its place at a glance, from the declarations and the whole body alone:

    `carried`       the parameters that are to be placed: no nulls, none that fills a hole
    `wholeBody`     what is the body as it is
    `destination`   where a carried parameter goes: whole body, field of the body, or query

Main statement: `buildRequest_destinations`. The query holds exactly the carried parameters whose destination
it is, and the body is put together from exactly those of the other two.
-/

namespace ApiDiscovery

/-! ## Places -/

/-- Where a parameter goes that fills no hole. -/
inductive Destination where
  | whole
  | field
  | query
deriving DecidableEq, Repr

/-- Whether a body can take fields: there is none yet, or it is a mapping. -/
def takesFields : Option Value → Bool
  | none => true
  | some (.map _) => true
  | some _ => false

namespace Method

/-- The parameters that are to be placed. -/
def carried (m : Method) (t : Table Value) : Table Value :=
  t.filter fun k v => !m.holes.contains k && v != .null

/-- Whether a name stands for a whole body; not if it is declared for something else. -/
def namesWhole (m : Method) (k : String) : Bool := bodyNames.contains k && !m.parameters.contains k

/-- Whether a parameter is declared for the body. -/
def declaresField (m : Method) (k : String) : Bool :=
  ((m.parameters.get? k).map fun p => p.location == .body).getD false

/-- The value that stands under a name for a whole body. -/
def wholeUnder (m : Method) (p : Table Value) (name : String) : Option Value :=
  if m.parameters.contains name then none else p.get? name

/-- The whole body among parameters. -/
def wholeBody (m : Method) (p : Table Value) : Option Value :=
  (m.wholeUnder p "requestBody").or (m.wholeUnder p "resource")

/-- Where a parameter goes, among others. -/
def destination (m : Method) (p : Table Value) (k : String) : Destination :=
  if m.namesWhole k then .whole
  else if m.declaresField k && takesFields (m.wholeBody p) then .field
  else .query

/-- The fields of the body, in the order of the declarations. -/
def bodyFields (m : Method) (p : Table Value) : List (String × Value) :=
  m.parameters.keys.filterMap fun k =>
    if m.destination p k = .field then (p.get? k).map (k, ·) else none

end Method

/-- Whether a key is that of no field. -/
def isOther (fields : List (String × Value)) (key : Value) : Bool := !fields.any fun f => key == .str f.1

/-- Fields over which a mapping is laid: they come first, with the mapping's value where it has one for
their key, and the rest of the mapping behind them. -/
def overlaid (fields : List (String × Value)) (es : List (Value × Value)) : List (Value × Value) :=
  fields.map (fun f => (.str f.1, (Value.entry? es f.1).getD f.2)) ++
    es.filter fun e => isOther fields e.1

/-- The body that a whole body and fields make. -/
def composedBody : Option Value → List (String × Value) → Option Value
  | whole, [] => whole
  | none, fields => some (.ofFields fields)
  | some (.map es), fields => some (.map (overlaid fields (Value.putAll es)))
  | some v, _ => some v

/-- What the whole body has under a key, if it is a mapping. -/
def wholeEntry (whole : Option Value) (k : String) : Option Value :=
  match whole with
  | some (.map es) => Value.entry? (Value.putAll es) k
  | _ => none

/-! ## Laying a mapping over fields -/

section Overlay

variable {fields : List (String × Value)}

theorem entry?_fields_append (fields : List (String × Value)) (g : String → Value → Value)
    (tail : List (Value × Value)) (s : String) :
    Value.entry? (fields.map (fun f => (.str f.1, g f.1 f.2)) ++ tail) s =
      ((lookupEntry s fields).map (g s)).or (Value.entry? tail s) := by
  induction fields with
  | nil => rfl
  | cons f rest ih =>
      obtain ⟨n, v⟩ := f
      rw [List.map_cons, List.cons_append, Value.entry?_cons, ih, lookupEntry]
      by_cases h : n = s
      · subst h
        simp
      · simp [h]

/-- Setting a key that no field has passes the fields by. -/
theorem put_fields_append {key : Value} (h : ∀ f ∈ fields, key ≠ .str f.1) (value : Value)
    (g : String → Value → Value) (tail : List (Value × Value)) :
    Value.put key value (fields.map (fun f => (.str f.1, g f.1 f.2)) ++ tail) =
      fields.map (fun f => (.str f.1, g f.1 f.2)) ++ Value.put key value tail := by
  induction fields with
  | nil => rfl
  | cons f rest ih =>
      have hf : ¬ Value.sameKey (.str f.1) key = true := fun hs =>
        h f List.mem_cons_self (Value.sameKey_str_left.1 hs)
      rw [List.map_cons, List.cons_append, Value.put, if_neg hf,
        ih fun f' hf' => h f' (List.mem_cons_of_mem _ hf')]
      rfl

/-- Setting the key of a field changes that field. -/
theorem put_field_append (hnodup : (fields.map (·.1)).Nodup) {name : String} (h : name ∈ fields.map (·.1))
    (value : Value) (g : String → Value → Value) (tail : List (Value × Value)) :
    Value.put (.str name) value (fields.map (fun f => (.str f.1, g f.1 f.2)) ++ tail) =
      fields.map (fun f => (.str f.1, if f.1 = name then value else g f.1 f.2)) ++ tail := by
  induction fields with
  | nil => cases h
  | cons f rest ih =>
      rw [List.map_cons, List.nodup_cons] at hnodup
      rw [List.map_cons, List.cons_append, Value.put]
      by_cases hf : f.1 = name
      · have hs : Value.sameKey (.str f.1) (.str name) = true := Value.sameKey_str_left.2 (by rw [hf])
        have hrest : ∀ f' ∈ rest, f'.1 ≠ name := fun f' hf' hn =>
          hnodup.1 (List.mem_map.2 ⟨f', hf', hn.trans hf.symm⟩)
        rw [if_pos hs, List.map_cons, if_pos hf, List.cons_append]
        congr 2
        exact List.map_congr_left fun f' hf' => by rw [if_neg (hrest f' hf')]
      · have hs : ¬ Value.sameKey (.str f.1) (.str name) = true := fun hs =>
          hf (Value.str.inj (Value.sameKey_str_right.1 hs))
        have hmem : name ∈ rest.map (·.1) := by
          rcases List.mem_cons.1 h with hn | hn
          · exact absurd hn.symm hf
          · exact hn
        rw [if_neg hs, ih hnodup.2 hmem, List.map_cons, if_neg hf, List.cons_append]

/-- Setting a key that a filter on keys keeps, before the filter or after it; one that it drops changes
nothing that it keeps. -/
theorem filter_put {keep : Value → Bool} {key : Value}
    (h : ∀ k, Value.sameKey k key = true → keep k = keep key) (value : Value)
    (es : List (Value × Value)) :
    (Value.put key value es).filter (fun e => keep e.1) =
      if keep key = true then Value.put key value (es.filter fun e => keep e.1)
      else es.filter fun e => keep e.1 := by
  induction es with
  | nil => cases hkey : keep key <;> simp [Value.put, hkey]
  | cons e rest ih =>
      obtain ⟨k, v⟩ := e
      by_cases hs : Value.sameKey k key = true
      · have hk : keep k = keep key := h k hs
        cases hkey : keep key with
        | true => simp [Value.put, hs, hk, hkey]
        | false => simp [Value.put, hs, hk, hkey]
      · cases hk : keep k with
        | true =>
            cases hkey : keep key with
            | true => simpa [Value.put, hs, hk, hkey] using ih
            | false => simpa [Value.put, hs, hk, hkey] using ih
        | false => simpa [Value.put, hs, hk] using ih

theorem isOther_iff {key : Value} : isOther fields key = true ↔ ∀ f ∈ fields, key ≠ .str f.1 := by
  simp [isOther]

theorem isOther_eq_false {key : Value} :
    isOther fields key = false ↔ ∃ name ∈ fields.map (·.1), key = .str name := by
  simp [isOther]

/-- Setting a key of a mapping that is laid over fields sets it in the mapping. -/
theorem put_overlaid (hnodup : (fields.map (·.1)).Nodup) (key value : Value)
    (es : List (Value × Value)) :
    Value.put key value (overlaid fields es) = overlaid fields (Value.put key value es) := by
  unfold overlaid
  -- The key is that of no field and goes behind the fields, or it is that of one and changes it in place.
  cases hkey : isOther fields key with
  | true =>
      have hne : ∀ f ∈ fields, key ≠ .str f.1 := isOther_iff.1 hkey
      have hsame : ∀ k, Value.sameKey k key = true → isOther fields k = isOther fields key := by
        intro k hk
        rw [hkey]
        refine isOther_iff.2 fun f hf => ?_
        rintro rfl
        exact hne f hf (Value.sameKey_str_left.1 hk)
      rw [filter_put hsame, if_pos hkey,
        put_fields_append hne value fun n v => (Value.entry? es n).getD v]
      congr 1
      refine List.map_congr_left fun f hf => ?_
      rw [Value.entry?_put, if_neg (hne f hf)]
  | false =>
      obtain ⟨name, hname, rfl⟩ := isOther_eq_false.1 hkey
      have hsame : ∀ k, Value.sameKey k (.str name) = true →
          isOther fields k = isOther fields (.str name) := by
        intro k hk
        rw [Value.sameKey_str_right.1 hk]
      rw [filter_put hsame, if_neg (by simp [hkey]),
        put_field_append hnodup hname value fun n v => (Value.entry? es n).getD v]
      congr 1
      refine List.map_congr_left fun f hf => ?_
      rw [Value.entry?_put]
      by_cases hf : f.1 = name
      · simp [hf]
      · have hf' : ¬ (Value.str name = .str f.1) := fun h => hf (Value.str.inj h).symm
        rw [if_neg hf, if_neg hf']

/-- Setting the entries of a mapping in turn, from the fields on, lays it over them. -/
theorem foldl_put_fields (hnodup : (fields.map (·.1)).Nodup) (es : List (Value × Value)) :
    es.foldl (fun acc e => Value.put e.1 e.2 acc) (fields.map fun f => (.str f.1, f.2)) =
      overlaid fields (Value.putAll es) := by
  -- At every point, what there is so far is what was set so far, laid over the fields.
  have hrun : ∀ acc, es.foldl (fun acc e => Value.put e.1 e.2 acc) (overlaid fields acc) =
      overlaid fields (es.foldl (fun acc e => Value.put e.1 e.2 acc) acc) := by
    induction es with
    | nil => exact fun _ => rfl
    | cons e rest ih =>
        intro acc
        rw [List.foldl_cons, put_overlaid hnodup, ih, List.foldl_cons]
  have hstart : overlaid fields [] = fields.map fun f => (.str f.1, f.2) := by
    simp [overlaid, Value.entry?]
  rw [← hstart, hrun, Value.putAll]

end Overlay

/-! ## The passes -/

section Passes

variable (m : Method) (p : Table Value)

theorem takeNamed_fst (taken : Option Value × Table Value) (name : String) :
    (takeNamed m taken name).1 = (m.wholeUnder taken.2 name).or taken.1 := by
  unfold takeNamed Method.wholeUnder
  by_cases h : m.parameters.contains name = true
  · rw [if_pos h, if_pos h]
    rfl
  · rw [if_neg h, if_neg h]
    cases taken.2.get? name with
    | none => rfl
    | some v => rfl

theorem get?_takeNamed (taken : Option Value × Table Value) (name k : String) :
    (takeNamed m taken name).2.get? k =
      if k = name ∧ m.parameters.contains name = false then none else taken.2.get? k := by
  unfold takeNamed
  cases h : m.parameters.contains name with
  | true => simp
  | false =>
      cases hv : taken.2.get? name with
      | none =>
          by_cases hk : k = name
          · subst hk
            simp [hv]
          · simp [hk]
      | some v => simp [Table.get?_erase]

/-- The name that counts is taken last, and taking the other leaves it alone. -/
theorem takeBody_fst : (takeBody m p).1 = m.wholeBody p := by
  have hkept : (takeNamed m (none, p) "resource").2.get? "requestBody" = p.get? "requestBody" := by
    rw [get?_takeNamed, if_neg (by simp)]
  show (takeNamed m (takeNamed m (none, p) "resource") "requestBody").1 = _
  rw [takeNamed_fst, takeNamed_fst, Option.or_none, Method.wholeBody]
  unfold Method.wholeUnder
  rw [hkept]

theorem get?_takeBody (k : String) :
    (takeBody m p).2.get? k = if m.namesWhole k = true then none else p.get? k := by
  show (takeNamed m (takeNamed m (none, p) "resource") "requestBody").2.get? k = _
  rw [get?_takeNamed, get?_takeNamed]
  unfold Method.namesWhole bodyNames
  by_cases h₁ : k = "resource"
  · subst h₁
    cases m.parameters.contains "resource" <;> simp
  · by_cases h₂ : k = "requestBody"
    · subst h₂
      cases m.parameters.contains "requestBody" <;> simp
    · simp [h₁, h₂]

/-- The names that are declared for the body, in their order. -/
theorem fieldNames_eq :
    (m.parameters.entries.filter fun e => e.2.location == .body).map (·.1) =
      m.parameters.keys.filter m.declaresField := by
  rw [Table.keys, List.filter_map]
  congr 1
  refine List.filter_congr fun e he => ?_
  have hget : m.parameters.get? e.1 = some e.2 := Table.get?_eq_some.2 he
  simp [Method.declaresField, hget]

theorem mem_keys_of_declaresField {k : String} (h : m.declaresField k = true) :
    k ∈ m.parameters.keys := by
  rw [← Table.contains_iff, Table.contains]
  unfold Method.declaresField at h
  cases hp : m.parameters.get? k with
  | none => rw [hp] at h; cases h
  | some _ => rfl

/-- What is declared stands for no whole body. -/
theorem namesWhole_of_mem_keys {k : String} (h : k ∈ m.parameters.keys) : m.namesWhole k = false := by
  rw [Method.namesWhole, Table.contains_iff.2 h]
  simp

/-- The entries of a table under some names, in the order of the names. -/
def entriesUnder (t : Table Value) (names : List String) : List (String × Value) :=
  names.filterMap fun n => (t.get? n).map (n, ·)

theorem lookupEntry_entriesUnder (t : Table Value) (names : List String) (k : String) :
    lookupEntry k (entriesUnder t names) = if k ∈ names then t.get? k else none := by
  unfold entriesUnder
  induction names with
  | nil => rfl
  | cons n rest ih =>
      rw [List.filterMap_cons]
      by_cases h : n = k
      · subst h
        cases ht : t.get? n with
        | none => simpa [ht] using ih
        | some v => simp [lookupEntry]
      · have hk : ¬ k = n := fun hk => h hk.symm
        cases ht : t.get? n with
        | none => simpa [hk] using ih
        | some v => simpa [lookupEntry, h, hk] using ih

theorem keys_entriesUnder_sublist (t : Table Value) (names : List String) :
    ((entriesUnder t names).map (·.1)).Sublist names := by
  unfold entriesUnder
  induction names with
  | nil => exact List.Sublist.slnil
  | cons n rest ih =>
      rw [List.filterMap_cons]
      cases t.get? n with
      | none => exact ih.cons n
      | some v => exact ih.cons_cons n

theorem takeBodyFields_fst (t : Table Value) :
    (takeBodyFields m t).1 = entriesUnder t (m.parameters.keys.filter m.declaresField) := by
  rw [← fieldNames_eq]
  rfl

theorem get?_takeBodyFields (t : Table Value) (k : String) :
    (takeBodyFields m t).2.get? k = if m.declaresField k = true then none else t.get? k := by
  have hnames : ((m.parameters.entries.filter fun e => e.2.location == .body).map (·.1)).contains k =
      m.declaresField k := by
    rw [fieldNames_eq, Bool.eq_iff_iff, List.contains_iff_mem, List.mem_filter]
    exact and_iff_right_of_imp fun h => mem_keys_of_declaresField m h
  show (t.filter fun k _ => !((m.parameters.entries.filter fun e =>
    e.2.location == .body).map (·.1)).contains k).get? k = _
  rw [Table.get?_filter, hnames]
  cases m.declaresField k <;> cases t.get? k <;> rfl

/-- The fields that the passes take are those that are declared for the body, whether it takes fields or
not. -/
def takenFields : List (String × Value) := entriesUnder p (m.parameters.keys.filter m.declaresField)

theorem takenFields_eq : (takeBodyFields m (takeBody m p).2).1 = takenFields m p := by
  rw [takeBodyFields_fst, takenFields]
  unfold entriesUnder
  refine List.filterMap_congr fun k hk => ?_
  rw [get?_takeBody, namesWhole_of_mem_keys m (List.mem_filter.1 hk).1]
  rfl

theorem nodup_takenFields : ((takenFields m p).map (·.1)).Nodup :=
  (keys_entriesUnder_sublist p _).nodup (List.filter_sublist.nodup m.parameters.distinct)

theorem lookupEntry_takenFields (k : String) :
    lookupEntry k (takenFields m p) = if m.declaresField k = true then p.get? k else none := by
  rw [takenFields, lookupEntry_entriesUnder]
  have hmem : k ∈ m.parameters.keys.filter m.declaresField ↔ m.declaresField k = true := by
    rw [List.mem_filter]
    exact and_iff_right_of_imp fun h => mem_keys_of_declaresField m h
  simp only [hmem]

theorem destination_eq_field {k : String} :
    m.destination p k = .field ↔
      m.declaresField k = true ∧ takesFields (m.wholeBody p) = true := by
  unfold Method.destination
  cases hd : m.declaresField k with
  | false => cases m.namesWhole k <;> simp
  | true =>
      rw [namesWhole_of_mem_keys m (mem_keys_of_declaresField m hd)]
      cases takesFields (m.wholeBody p) <;> simp

/-- A body that takes fields gets all of them, any other none. -/
theorem bodyFields_eq :
    m.bodyFields p = if takesFields (m.wholeBody p) = true then takenFields m p else [] := by
  unfold Method.bodyFields
  simp only [destination_eq_field]
  cases takesFields (m.wholeBody p) with
  | false => simp
  | true =>
      rw [if_pos rfl, takenFields, entriesUnder, List.filterMap_filter]
      simp only [and_true]

/-- What the passes leave for the query, and the body that they make. -/
def handedOut : Option Value × Table Value :=
  mergeBody (m.wholeBody p) (takenFields m p) (takeBodyFields m (takeBody m p).2).2

theorem handedOut_fst : (handedOut m p).1 = composedBody (m.wholeBody p) (m.bodyFields p) := by
  rw [bodyFields_eq]
  unfold handedOut mergeBody
  have hnodup := nodup_takenFields m p
  cases hw : m.wholeBody p with
  | none =>
      cases hf : takenFields m p with
      | nil => rfl
      | cons f rest => rfl
  | some v =>
      cases hf : takenFields m p with
      | nil => cases v <;> rfl
      | cons f rest =>
          cases v with
          | map es =>
              rw [hf] at hnodup
              exact congrArg (fun es => some (Value.map es)) (foldl_put_fields hnodup es)
          | _ => rfl

theorem destination_eq_query {k : String} :
    m.destination p k = .query ↔ m.namesWhole k = false ∧
      (m.declaresField k = true → takesFields (m.wholeBody p) = false) := by
  unfold Method.destination
  cases m.namesWhole k <;> cases m.declaresField k <;> cases takesFields (m.wholeBody p) <;> simp

/-- Where the whole body takes no fields, they are put back among the rest. -/
theorem get?_putBack (k : String) :
    ((takeBodyFields m (takeBody m p).2).2.setAll (takenFields m p)).get? k =
      if m.namesWhole k = true then none else p.get? k := by
  rw [Table.get?_setAll _ (nodup_takenFields m p), lookupEntry_takenFields, get?_takeBodyFields,
    get?_takeBody]
  cases hd : m.declaresField k with
  | false => simp
  | true =>
      rw [namesWhole_of_mem_keys m (mem_keys_of_declaresField m hd)]
      simp

/-- Where it does, only what is declared for it is gone. -/
theorem get?_notPutBack (k : String) :
    (takeBodyFields m (takeBody m p).2).2.get? k =
      if m.namesWhole k = true ∨ m.declaresField k = true then none else p.get? k := by
  rw [get?_takeBodyFields, get?_takeBody]
  cases m.declaresField k <;> cases m.namesWhole k <;> rfl

theorem mergeBody_snd (body : Option Value) (fields : List (String × Value)) (rest : Table Value) :
    (mergeBody body fields rest).2 =
      if takesFields body = true then rest else rest.setAll fields := by
  unfold mergeBody
  cases fields with
  | nil => cases takesFields body <;> rfl
  | cons f fs =>
      cases body with
      | none => rfl
      | some v => cases v <;> rfl

theorem get?_handedOut (k : String) :
    (handedOut m p).2.get? k = if m.destination p k = .query then p.get? k else none := by
  simp only [destination_eq_query]
  unfold handedOut
  rw [mergeBody_snd]
  cases takesFields (m.wholeBody p) with
  | true =>
      rw [if_pos rfl, get?_notPutBack]
      cases m.namesWhole k <;> cases m.declaresField k <;> simp
  | false =>
      rw [if_neg (by simp), get?_putBack]
      cases m.namesWhole k <;> simp

end Passes

/-! ## The query -/

/-- Writing values keeps the names, and writes every value. -/
theorem mapM_queryValue {l out : List (String × Value)}
    (h : l.mapM (fun e => do return (e.1, ← queryValue e.2)) = Except.ok out) :
    out.map (·.1) = l.map (·.1) ∧
      (∀ k w, (k, w) ∈ out → ∃ v, (k, v) ∈ l ∧ queryValue v = .ok w) ∧
      ∀ k v, (k, v) ∈ l → ∃ w, queryValue v = .ok w ∧ (k, w) ∈ out := by
  induction l generalizing out with
  | nil =>
      cases h
      simp
  | cons e rest ih =>
      rw [List.mapM_cons] at h
      obtain ⟨e', he, h⟩ := bind_eq_ok.1 h
      obtain ⟨tail, htail, h⟩ := bind_eq_ok.1 h
      obtain ⟨w, hw, he⟩ := bind_eq_ok.1 he
      cases he
      cases h
      obtain ⟨hkeys, hback, hforth⟩ := ih htail
      refine ⟨by simp [hkeys], fun k x hx => ?_, fun k v hv => ?_⟩
      · rcases List.mem_cons.1 hx with hx | hx
        · cases hx
          exact ⟨e.2, List.mem_cons_self, hw⟩
        · obtain ⟨v, hv, hvx⟩ := hback k x hx
          exact ⟨v, List.mem_cons_of_mem _ hv, hvx⟩
      · rcases List.mem_cons.1 hv with hv | hv
        · cases hv
          exact ⟨w, hw, List.mem_cons_self⟩
        · obtain ⟨x, hx, hmem⟩ := hforth k v hv
          exact ⟨x, hx, List.mem_cons_of_mem _ hmem⟩

theorem mem_sorted {t : Table Value} {e : String × Value} : e ∈ t.sorted ↔ e ∈ t.entries :=
  (List.mergeSort_perm t.entries _).mem_iff

theorem nodup_sorted (t : Table Value) : (t.sorted.map (·.1)).Nodup :=
  ((List.mergeSort_perm t.entries _).map _).nodup_iff.2 t.distinct

theorem nodup_queryEntries {t : Table Value} {es : List (String × Value)} (h : queryEntries t = .ok es) :
    (es.map (·.1)).Nodup := (mapM_queryValue h).1 ▸ nodup_sorted t

/-- The query has the written value of every parameter that is left for it, and no other. -/
theorem mem_queryEntries {t : Table Value} {es : List (String × Value)} (h : queryEntries t = .ok es)
    {k : String} {w : Value} : (k, w) ∈ es ↔ ∃ v, t.get? k = some v ∧ queryValue v = .ok w := by
  obtain ⟨-, hback, hforth⟩ := mapM_queryValue h
  constructor
  · intro hm
    obtain ⟨v, hv, hvw⟩ := hback k w hm
    exact ⟨v, Table.get?_eq_some.2 (mem_sorted.1 hv), hvw⟩
  · rintro ⟨v, hv, hvw⟩
    obtain ⟨w', hw', hm⟩ := hforth k v (mem_sorted.2 (Table.get?_eq_some.1 hv))
    rw [hvw] at hw'
    cases hw'
    exact hm

theorem get?_queryEntries {t : Table Value} {es : List (String × Value)} (h : queryEntries t = .ok es)
    (k : String) (w : Value) :
    (Table.ofList es).get? k = some w ↔ ∃ v, t.get? k = some v ∧ queryValue v = .ok w := by
  rw [Table.get?_ofList (nodup_queryEntries h), lookupEntry_eq_some (nodup_queryEntries h)]
  exact mem_queryEntries h

/-- Every parameter that is left for the query can be written. -/
theorem exists_queryValue {t : Table Value} {es : List (String × Value)} (h : queryEntries t = .ok es)
    {k : String} {v : Value} (hv : t.get? k = some v) :
    ∃ w, queryValue v = .ok w ∧ (Table.ofList es).get? k = some w := by
  obtain ⟨-, -, hforth⟩ := mapM_queryValue h
  obtain ⟨w, hw, -⟩ := hforth k v (mem_sorted.2 (Table.get?_eq_some.1 hv))
  exact ⟨w, hw, (get?_queryEntries h k w).2 ⟨v, hv, hw⟩⟩

/-! ## The request -/

theorem textValue_ok {v w : Value} (h : textValue v = .ok w) : w = .str v.text := by
  rw [textValue] at h
  split at h <;> cases h
  rfl

theorem writeQuery_ok {t : Table Value} {es : List (String × Value)} {query : String} :
    writeQuery t = .ok (es, query) ↔
      queryEntries t = .ok es ∧ es.all (·.2.isWritable) = true ∧ query = Query.render (es.flatMap queryPairs) := by
  rw [writeQuery]
  cases queryEntries t with
  | error w => exact iff_of_false nofun fun h => nomatch h.1
  | ok es' =>
      show (if es'.all (·.2.isWritable) then _ else _) = _ ↔ _
      split
      next hall =>
        constructor
        · rintro ⟨⟩
          exact ⟨rfl, hall, rfl⟩
        · rintro ⟨⟨⟩, -, rfl⟩
          rfl
      next hall =>
        refine iff_of_false nofun ?_
        rintro ⟨⟨⟩, hes, -⟩
        exact hall hes

/-- All that a request is made of. -/
theorem buildRequest_ok {m : Method} {d : Document} {t : Table Value} {o : Option Options}
    {r : Request} (h : buildRequest m d t o = .ok r) :
    ∃ path es, Template.expand (m.path.getD "") t.get? m.id = .ok (path, m.holes) ∧
      queryEntries (handedOut m (m.carried t)).2 = .ok es ∧
      r = {
        verb := m.requestVerb
        url := requestUrl d path (o.bind (·.rootUrl))
        query := Query.render (es.flatMap queryPairs)
        queryParameters := Table.ofList es
        body := (handedOut m (m.carried t)).1
        headers := (o.map (·.headers)).getD ∅ } := by
  unfold buildRequest at h
  cases hx : Template.expand (m.path.getD "") t.get? m.id with
  | error e => rw [hx] at h; cases h
  | ok filled =>
      obtain ⟨path, used⟩ := filled
      obtain rfl : used = m.holes := (Template.expand_ok hx).2.1
      rw [hx] at h
      simp only [Except.mapError, ok_bind] at h
      rw [show t.filter (fun k v => !m.holes.contains k && v != .null) = m.carried t from rfl,
        takeBody_fst, takenFields_eq] at h
      cases hes : writeQuery (handedOut m (m.carried t)).2 with
      | error w =>
          unfold handedOut at hes
          rw [hes] at h
          cases h
      | ok written =>
          obtain ⟨es, query⟩ := written
          obtain ⟨hentries, -, rfl⟩ := writeQuery_ok.1 hes
          refine ⟨path, es, rfl, hentries, ?_⟩
          unfold handedOut at hes ⊢
          rw [hes] at h
          cases h
          rfl

/-! ## Each parameter in its place -/

section Places

variable {m : Method} {p : Table Value} {k : String} {v : Value}

theorem mem_bodyFields :
    (k, v) ∈ m.bodyFields p ↔ m.destination p k = .field ∧ p.get? k = some v := by
  unfold Method.bodyFields
  rw [List.mem_filterMap]
  constructor
  · rintro ⟨n, -, hn⟩
    by_cases hd : m.destination p n = .field
    · rw [if_pos hd] at hn
      obtain ⟨x, hx, he⟩ := Option.map_eq_some_iff.1 hn
      cases he
      exact ⟨hd, hx⟩
    · rw [if_neg hd] at hn
      cases hn
  · rintro ⟨hd, hv⟩
    have hkey : k ∈ m.parameters.keys :=
      mem_keys_of_declaresField m ((destination_eq_field m p).1 hd).1
    exact ⟨k, hkey, by rw [if_pos hd, hv]; rfl⟩

theorem mem_keys_bodyFields (h : k ∈ (m.bodyFields p).map (·.1)) :
    m.destination p k = .field ∧ ∃ v, p.get? k = some v := by
  obtain ⟨⟨n, v⟩, hmem, rfl⟩ := List.mem_map.1 h
  obtain ⟨hd, hv⟩ := mem_bodyFields.1 hmem
  exact ⟨hd, v, hv⟩

theorem nodup_bodyFields : ((m.bodyFields p).map (·.1)).Nodup := by
  rw [bodyFields_eq]
  cases takesFields (m.wholeBody p) with
  | true => exact nodup_takenFields m p
  | false => exact List.nodup_nil

/-- A body with a field is a mapping that has the field. -/
theorem entry?_composedBody {whole : Option Value} {fields : List (String × Value)}
    (hw : takesFields whole = true) (hnodup : (fields.map (·.1)).Nodup) (h : (k, v) ∈ fields) :
    ∃ es, composedBody whole fields = some (.map es) ∧
      Value.entry? es k = some ((wholeEntry whole k).getD v) := by
  have hlook : lookupEntry k fields = some v := (lookupEntry_eq_some hnodup).2 h
  cases fields with
  | nil => cases h
  | cons f rest =>
      cases whole with
      | none =>
          refine ⟨(f :: rest).map fun f => (.str f.1, f.2), rfl, ?_⟩
          have he := entry?_fields_append (f :: rest) (fun _ v => v) [] k
          rw [List.append_nil, hlook] at he
          exact he
      | some w =>
          cases w with
          | map es =>
              refine ⟨_, rfl, ?_⟩
              have he := entry?_fields_append (f :: rest)
                (fun n v => (Value.entry? (Value.putAll es) n).getD v)
                ((Value.putAll es).filter fun e => isOther (f :: rest) e.1) k
              rw [hlook] at he
              exact he
          | _ => cases hw

theorem destination_eq_whole : m.destination p k = .whole ↔ m.namesWhole k = true := by
  unfold Method.destination
  cases m.namesWhole k with
  | true => simp
  | false => cases m.declaresField k <;> cases takesFields (m.wholeBody p) <;> simp

/-- What stands under a name for a whole body is the whole body, unless the other name is there too and
counts. -/
theorem wholeBody_of_namesWhole (h : m.namesWhole k = true) (hv : p.get? k = some v) :
    m.wholeBody p = some v ∨
      k = "resource" ∧ ∃ w, p.get? "requestBody" = some w ∧ m.wholeBody p = some w := by
  unfold Method.namesWhole bodyNames at h
  obtain ⟨hname, hundeclared⟩ := Bool.and_eq_true_iff.1 h
  rw [Bool.not_eq_true'] at hundeclared
  unfold Method.wholeBody
  rcases List.mem_cons.1 (List.contains_iff_mem.1 hname) with rfl | hname
  · cases hother : m.wholeUnder p "requestBody" with
    | none =>
        refine .inl ?_
        rw [Option.none_or, Method.wholeUnder, hundeclared]
        exact hv
    | some w =>
        refine .inr ⟨rfl, w, ?_, rfl⟩
        unfold Method.wholeUnder at hother
        split at hother
        · cases hother
        · exact hother
  · obtain rfl := List.mem_singleton.1 hname
    refine .inl ?_
    rw [Method.wholeUnder, hundeclared, if_neg (by simp), hv]
    rfl

end Places

/-! ## Main statement -/

/-- The query has the written value of each carried parameter whose destination it is, and no other name. The
body is made of the whole body and the fields, in the order of the declarations. So each carried parameter is
in its one place: what stands for the whole body is that, unless `requestBody` counts instead; a field is in
the body, where a mapping that is the whole body wins; and all others are in the query. A whole body that
takes no fields is the body as it is. What fills a hole is nowhere. -/
theorem buildRequest_destinations {m : Method} {d : Document} {t : Table Value} {o : Option Options}
    {r : Request} (h : buildRequest m d t o = .ok r) :
    (∀ k w, r.queryParameters.get? k = some w ↔
      ∃ v, (m.carried t).get? k = some v ∧ m.destination (m.carried t) k = .query ∧
        queryValue v = .ok w) ∧
    r.body = composedBody (m.wholeBody (m.carried t)) (m.bodyFields (m.carried t)) ∧
    (∀ k v, (m.carried t).get? k = some v →
      match m.destination (m.carried t) k with
      | .whole =>
          r.queryParameters.get? k = none ∧ k ∉ (m.bodyFields (m.carried t)).map (·.1) ∧
            (m.wholeBody (m.carried t) = some v ∨ k = "resource" ∧
              ∃ w, (m.carried t).get? "requestBody" = some w ∧
                m.wholeBody (m.carried t) = some w)
      | .field =>
          r.queryParameters.get? k = none ∧ ∃ es, r.body = some (.map es) ∧
            Value.entry? es k = some ((wholeEntry (m.wholeBody (m.carried t)) k).getD v)
      | .query =>
          k ∉ (m.bodyFields (m.carried t)).map (·.1) ∧
            ∃ w, queryValue v = .ok w ∧ r.queryParameters.get? k = some w) ∧
    (∀ v, m.wholeBody (m.carried t) = some v → takesFields (some v) = false → r.body = some v) ∧
    (∀ k ∈ m.holes, r.queryParameters.get? k = none ∧
      k ∉ (m.bodyFields (m.carried t)).map (·.1) ∧ m.wholeUnder (m.carried t) k = none) := by
  obtain ⟨path, es, -, hes, rfl⟩ := buildRequest_ok h
  have hquery : ∀ k w, (Table.ofList es).get? k = some w ↔
      ∃ v, (m.carried t).get? k = some v ∧ m.destination (m.carried t) k = .query ∧
        queryValue v = .ok w := by
    intro k w
    rw [get?_queryEntries hes, get?_handedOut]
    by_cases hd : m.destination (m.carried t) k = .query
    · simp [hd]
    · simp [hd]
  have hnone : ∀ k, m.destination (m.carried t) k ≠ .query → (Table.ofList es).get? k = none := by
    intro k hd
    refine Option.eq_none_iff_forall_ne_some.2 fun w hw => ?_
    obtain ⟨v, -, hq, -⟩ := (hquery k w).1 hw
    exact hd hq
  have hhole : ∀ k ∈ m.holes, (m.carried t).get? k = none := by
    intro k hk
    rw [Method.carried, Table.get?_filter]
    cases t.get? k with
    | none => rfl
    | some v => simp [Option.filter, hk]
  have hbody := handedOut_fst m (m.carried t)
  -- What remains is the place of each parameter, a whole body without fields, and the holes.
  refine ⟨hquery, hbody, fun k v hv => ?_, fun v hw hv => ?_, fun k hk => ⟨?_, ?_, ?_⟩⟩
  · cases hd : m.destination (m.carried t) k with
    | whole =>
        refine ⟨hnone k (by simp [hd]), fun hmem => ?_,
          wholeBody_of_namesWhole (destination_eq_whole.1 hd) hv⟩
        exact absurd ((mem_keys_bodyFields hmem).1.symm.trans hd) (by decide)
    | field =>
        obtain ⟨fs, hfs, he⟩ := entry?_composedBody ((destination_eq_field m _).1 hd).2
          nodup_bodyFields (mem_bodyFields.2 ⟨hd, hv⟩)
        exact ⟨hnone k (by simp [hd]), fs, hbody.trans hfs, he⟩
    | query =>
        refine ⟨fun hmem => ?_, ?_⟩
        · exact absurd ((mem_keys_bodyFields hmem).1.symm.trans hd) (by decide)
        · exact exists_queryValue hes (by rw [get?_handedOut, if_pos hd, hv])
  · refine hbody.trans ?_
    have hno : m.bodyFields (m.carried t) = [] := by
      rw [bodyFields_eq, hw, if_neg (by simp [hv])]
    rw [hno, hw]
    rfl
  · refine Option.eq_none_iff_forall_ne_some.2 fun w hw => ?_
    obtain ⟨v, hv, -⟩ := (hquery k w).1 hw
    exact absurd (hv.symm.trans (hhole k hk)) (by simp)
  · intro hmem
    obtain ⟨-, v, hv⟩ := mem_keys_bodyFields hmem
    exact absurd (hv.symm.trans (hhole k hk)) (by simp)
  · rw [Method.wholeUnder, hhole k hk, ite_self]

/-- A method with a hole, two fields of the body and no other declaration. -/
def updateNote : Method where
  id := some "notes.update"
  verb := some "PUT"
  path := some "notes/{id}"
  flatPath := none
  description := none
  parameters := Table.ofList [
    ("id", ⟨"string", .path, true, .null, false, none, none, none, none, ∅⟩),
    ("title", ⟨"string", .body, false, .null, false, none, none, none, none, ∅⟩),
    ("state", ⟨"string", .body, false, .null, false, none, none, none, none, ∅⟩)]
  parameterOrder := []
  request := none
  response := none
  scopes := []
  unknown := ∅

def notesDocument : Document := ⟨"notes", "v1", none, none, none, none, none, none, ∅, ∅, .mk ∅ [] ∅⟩

/-- Parameters for all places: the whole body has a key that is a field too. -/
def noteParameters : Table Value :=
  Table.ofList [("id", .str "7"), ("state", .str "open"), ("title", .str "a"),
    ("resource", .map [(.str "tags", .null), (.str "state", .str "closed")]), ("trace", .bool true)]

theorem buildRequest_destinations_updateNote :
    ∃ r, buildRequest updateNote notesDocument noteParameters none = .ok r ∧
      r.body = some (.map [(.str "title", .str "a"), (.str "state", .str "closed"),
        (.str "tags", .null)]) ∧
      r.queryParameters.get? "trace" = some (.str "true") ∧
      r.queryParameters.get? "id" = none := by
  have hok : (buildRequest updateNote notesDocument noteParameters none).isOk = true := by decide +kernel
  cases h : buildRequest updateNote notesDocument noteParameters none with
  | error e => rw [h] at hok; cases hok
  | ok r =>
      obtain ⟨hquery, hbody, -, -, hholes⟩ := buildRequest_destinations h
      refine ⟨r, rfl, hbody.trans (by decide +kernel), ?_, (hholes "id" (by decide +kernel)).1⟩
      exact (hquery "trace" (.str "true")).2
        ⟨.bool true, by decide +kernel, by decide +kernel, rfl⟩

end ApiDiscovery
