/-!
# Tables

A table gives names values, in the order in which the names were first set. `Table.get?` is its
view: what each operation does to it is stated beside the operation. No name occurs twice, which the
type says.
-/

namespace ApiDiscovery

/-! ## Association lists -/

def lookupEntry (key : String) : List (String × α) → Option α
  | [] => none
  | (k, v) :: rest => if k = key then some v else lookupEntry key rest

/-- Gives a name a value: in place if it has one, else at the end. -/
def setEntry (key : String) (value : α) : List (String × α) → List (String × α)
  | [] => [(key, value)]
  | (k, v) :: rest => if k = key then (k, value) :: rest else (k, v) :: setEntry key value rest

theorem mem_keys_setEntry (key : String) (value : α) (es : List (String × α)) (k : String) :
    k ∈ (setEntry key value es).map (·.1) ↔ k = key ∨ k ∈ es.map (·.1) := by
  induction es with
  | nil => simp [setEntry]
  | cons e rest ih =>
    obtain ⟨l, v⟩ := e
    by_cases h : l = key
    · simp [setEntry, h]
    · simp only [setEntry, h, if_false, List.map_cons, List.mem_cons, ih]
      grind

theorem nodup_setEntry (key : String) (value : α) (es : List (String × α))
    (h : (es.map (·.1)).Nodup) : ((setEntry key value es).map (·.1)).Nodup := by
  induction es with
  | nil => simp [setEntry]
  | cons e rest ih =>
    obtain ⟨l, v⟩ := e
    rw [List.map_cons, List.nodup_cons] at h
    by_cases hl : l = key
    · simpa [setEntry, hl] using h
    · simp only [setEntry, hl, if_false, List.map_cons, List.nodup_cons]
      refine ⟨fun hm => ?_, ih h.2⟩
      rcases (mem_keys_setEntry key value rest l).1 hm with rfl | hm
      · exact hl rfl
      · exact h.1 hm

theorem lookupEntry_setEntry (key : String) (value : α) (es : List (String × α)) (k : String) :
    lookupEntry k (setEntry key value es) = if key = k then some value else lookupEntry k es := by
  induction es with
  | nil => simp [setEntry, lookupEntry]
  | cons e rest ih =>
    obtain ⟨l, v⟩ := e
    by_cases hl : l = key
    · subst hl
      by_cases hk : l = k <;> simp [setEntry, lookupEntry, hk]
    · by_cases hk : l = k
      · subst hk
        simp [setEntry, lookupEntry, hl, Ne.symm hl]
      · simp [setEntry, lookupEntry, hl, hk, ih]

theorem setEntry_of_not_mem {key : String} {es : List (String × α)} (h : key ∉ es.map (·.1)) (value : α) :
    setEntry key value es = es ++ [(key, value)] := by
  induction es with
  | nil => rfl
  | cons e rest ih =>
    rw [List.map_cons, List.mem_cons, not_or] at h
    rw [setEntry, if_neg (Ne.symm h.1), ih h.2, List.cons_append]

theorem lookupEntry_map (f : α → β) (es : List (String × α)) (k : String) :
    lookupEntry k (es.map fun e => (e.1, f e.2)) = (lookupEntry k es).map f := by
  induction es with
  | nil => rfl
  | cons e rest ih => by_cases h : e.1 = k <;> simp [lookupEntry, h, ih]

theorem lookupEntry_eq_none {es : List (String × α)} {k : String} :
    lookupEntry k es = none ↔ k ∉ es.map (·.1) := by
  induction es with
  | nil => simp [lookupEntry]
  | cons e rest ih =>
    obtain ⟨l, v⟩ := e
    by_cases h : l = k
    · simp [lookupEntry, h]
    · simp only [lookupEntry, h, if_false, ih, List.map_cons, List.mem_cons, not_or]
      grind

theorem lookupEntry_eq_some {es : List (String × α)} (h : (es.map (·.1)).Nodup) {k : String} {v : α} :
    lookupEntry k es = some v ↔ (k, v) ∈ es := by
  induction es with
  | nil => simp [lookupEntry]
  | cons e rest ih =>
    obtain ⟨l, w⟩ := e
    rw [List.map_cons, List.nodup_cons] at h
    by_cases hk : l = k
    · subst hk
      have hn : (l, v) ∉ rest := fun hm => h.1 (List.mem_map.2 ⟨(l, v), hm, rfl⟩)
      simp [lookupEntry, hn, eq_comm]
    · simp [lookupEntry, hk, ih h.2, Ne.symm hk]

theorem mem_of_lookupEntry {es : List (String × α)} {k : String} {v : α} (h : lookupEntry k es = some v) :
    (k, v) ∈ es := by
  induction es with
  | nil => cases h
  | cons e rest ih =>
    obtain ⟨l, w⟩ := e
    by_cases hk : l = k
    · rw [lookupEntry, if_pos hk] at h
      cases h
      rw [hk]
      exact List.mem_cons_self
    · rw [lookupEntry, if_neg hk] at h
      exact List.mem_cons_of_mem _ (ih h)

theorem lookupEntry_filter (p : String → α → Bool) {es : List (String × α)}
    (h : (es.map (·.1)).Nodup) (k : String) :
    lookupEntry k (es.filter fun e => p e.1 e.2) = (lookupEntry k es).filter (p k) := by
  induction es with
  | nil => rfl
  | cons e rest ih =>
    obtain ⟨l, v⟩ := e
    rw [List.map_cons, List.nodup_cons] at h
    by_cases hk : l = k
    · subst hk
      cases hp : p l v
      · have hn : lookupEntry l rest = none := lookupEntry_eq_none.2 h.1
        simp [hp, ih h.2, lookupEntry, hn, Option.filter]
      · simp [hp, lookupEntry, Option.filter]
    · cases hp : p l v <;> simp [hp, lookupEntry, hk, ih h.2]

/-! ## Tables -/

/-- Names with values. -/
structure Table (α : Type) where
  entries : List (String × α)
  distinct : (entries.map (·.1)).Nodup := by simp

namespace Table

instance [DecidableEq α] : DecidableEq (Table α) := fun a b =>
  decidable_of_iff (a.entries = b.entries) ⟨fun h => by cases a; cases b; simp_all, fun h => h ▸ rfl⟩

def empty : Table α := ⟨[], by simp⟩

instance : EmptyCollection (Table α) := ⟨empty⟩

instance : Inhabited (Table α) := ⟨empty⟩

def keys (t : Table α) : List String := t.entries.map (·.1)

def values (t : Table α) : List α := t.entries.map (·.2)

def isEmpty (t : Table α) : Bool := t.entries.isEmpty

def get? (t : Table α) (key : String) : Option α := lookupEntry key t.entries

def contains (t : Table α) (key : String) : Bool := (t.get? key).isSome

/-- Gives a name a value: in place if it has one, else at the end. -/
def set (t : Table α) (key : String) (value : α) : Table α :=
  ⟨setEntry key value t.entries, nodup_setEntry key value t.entries t.distinct⟩

theorem get?_eq_some {t : Table α} {k : String} {v : α} : t.get? k = some v ↔ (k, v) ∈ t.entries :=
  lookupEntry_eq_some t.distinct

theorem contains_iff {t : Table α} {k : String} : t.contains k = true ↔ k ∈ t.keys := by
  rw [contains, Option.isSome_iff_ne_none, Ne, get?, lookupEntry_eq_none, Classical.not_not, keys]

theorem get?_set (t : Table α) (key : String) (value : α) (k : String) :
    (t.set key value).get? k = if key = k then some value else t.get? k :=
  lookupEntry_setEntry key value t.entries k

def setAll (t : Table α) (es : List (String × α)) : Table α :=
  es.foldl (fun t e => t.set e.1 e.2) t

theorem get?_setAll (t : Table α) {es : List (String × α)} (h : (es.map (·.1)).Nodup) (k : String) :
    (t.setAll es).get? k = (lookupEntry k es).or (t.get? k) := by
  induction es generalizing t with
  | nil => rfl
  | cons e rest ih =>
    obtain ⟨l, v⟩ := e
    rw [List.map_cons, List.nodup_cons] at h
    have step : (t.setAll ((l, v) :: rest)).get? k = ((t.set l v).setAll rest).get? k := rfl
    rw [step, ih (t.set l v) h.2, get?_set]
    by_cases hk : l = k
    · subst hk
      rw [lookupEntry_eq_none.2 h.1]
      simp [lookupEntry]
    · simp [lookupEntry, hk]

def ofList (es : List (String × α)) : Table α := empty.setAll es

theorem get?_ofList {es : List (String × α)} (h : (es.map (·.1)).Nodup) (k : String) :
    (ofList es).get? k = lookupEntry k es := by
  rw [ofList, get?_setAll empty h]
  exact Option.or_none

theorem entries_setAll {t : Table α} {es : List (String × α)}
    (h : (t.entries ++ es |>.map (·.1)).Nodup) : (t.setAll es).entries = t.entries ++ es := by
  induction es generalizing t with
  | nil => exact (List.append_nil _).symm
  | cons e rest ih =>
    have hnew : e.1 ∉ t.entries.map (·.1) := by
      rw [List.map_append, List.nodup_append] at h
      exact fun hm => h.2.2 _ hm _ (List.mem_map_of_mem List.mem_cons_self) rfl
    have hset : (t.set e.1 e.2).entries = t.entries ++ [e] := setEntry_of_not_mem hnew e.2
    show ((t.set e.1 e.2).setAll rest).entries = _
    rw [ih (by rw [hset]; simpa using h), hset, List.append_assoc, List.singleton_append]

/-- A table from entries with different names has them in their order. -/
theorem entries_ofList {es : List (String × α)} (h : (es.map (·.1)).Nodup) : (ofList es).entries = es :=
  entries_setAll (t := empty) h

theorem eq_of_entries : {t u : Table α} → t.entries = u.entries → t = u
  | ⟨_, _⟩, ⟨_, _⟩, rfl => rfl

theorem ofList_entries (t : Table α) : ofList t.entries = t := eq_of_entries (entries_ofList t.distinct)

theorem mem_setEntry {key : String} {value : α} {es : List (String × α)} {e : String × α}
    (h : e ∈ setEntry key value es) : e = (key, value) ∨ e ∈ es := by
  induction es with
  | nil => exact .inl (List.mem_singleton.1 h)
  | cons e' rest ih =>
    rw [setEntry] at h
    split at h
    · rcases List.mem_cons.1 h with rfl | h
      · exact .inl (by simp_all)
      · exact .inr (List.mem_cons_of_mem _ h)
    · rcases List.mem_cons.1 h with rfl | h
      · exact .inr List.mem_cons_self
      · exact (ih h).imp_right (List.mem_cons_of_mem _)

theorem mem_setAll {t : Table α} {es : List (String × α)} {e : String × α}
    (h : e ∈ (t.setAll es).entries) : e ∈ t.entries ∨ e ∈ es := by
  induction es generalizing t with
  | nil => exact .inl h
  | cons e' rest ih =>
    rcases ih (t := t.set e'.1 e'.2) h with h | h
    · rcases mem_setEntry h with rfl | h
      · exact .inr List.mem_cons_self
      · exact .inl h
    · exact .inr (List.mem_cons_of_mem _ h)

theorem mem_ofList {es : List (String × α)} {e : String × α} (h : e ∈ (ofList es).entries) : e ∈ es :=
  (mem_setAll h).resolve_left List.not_mem_nil

/-- One table over another: its values win, its new names come last. -/
def onto (upper lower : Table α) : Table α := lower.setAll upper.entries

theorem onto_empty (t : Table α) : t.onto ∅ = t := ofList_entries t

theorem get?_onto (upper lower : Table α) (k : String) :
    (upper.onto lower).get? k = (upper.get? k).or (lower.get? k) :=
  get?_setAll lower upper.distinct k

def filter (p : String → α → Bool) (t : Table α) : Table α :=
  ⟨t.entries.filter fun e => p e.1 e.2, by
    have h := List.Sublist.map (·.1) (List.filter_sublist (p := fun e => p e.1 e.2) (l := t.entries))
    exact List.Sublist.nodup h t.distinct⟩

theorem get?_filter (p : String → α → Bool) (t : Table α) (k : String) :
    (t.filter p).get? k = (t.get? k).filter (p k) :=
  lookupEntry_filter p t.distinct k

def erase (t : Table α) (key : String) : Table α := t.filter fun k _ => k != key

theorem get?_erase (t : Table α) (key k : String) :
    (t.erase key).get? k = if k = key then none else t.get? k := by
  rw [erase, get?_filter]
  by_cases h : k = key <;> cases t.get? k <;> simp [h, Option.filter]

def mapValues (f : α → β) (t : Table α) : Table β :=
  ⟨t.entries.map fun e => (e.1, f e.2), by
    have h := t.distinct
    simpa [List.map_map, Function.comp_def] using h⟩

theorem get?_mapValues (f : α → β) (t : Table α) (k : String) :
    (t.mapValues f).get? k = (t.get? k).map f :=
  lookupEntry_map f t.entries k

def sorted (t : Table α) : List (String × α) := t.entries.mergeSort fun a b => a.1 ≤ b.1

end Table

end ApiDiscovery
