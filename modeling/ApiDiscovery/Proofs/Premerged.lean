import ApiDiscovery.Proofs.Layering

/-!
# Options that were layered before

Three layers of options can be put together from below or from above. Tables of parameters and headers come out the
same either way (`Table.onto_assoc`), names in the same order. Any other field does so only where the grouping cannot
matter:

    the uppermost or the middle layer sets the field      what the upper one of these says, either way
    only the lowest one does                              its value from below; the default from above

For what was layered has everything set (`Options.sets_onto`), defaults included, and a default that is set hides the
layer below it. So options that a caller put together hide those of a factory even where neither of them says
anything. Options that set nothing are neutral on both sides all the same.

Main statement: `Options.layer_grouped`.
-/

namespace ApiDiscovery

open Validation

/-! ## Tables over tables over tables -/

section Tables

variable {α : Type}

theorem setEntry_setEntry (name : String) (a b : α) (es : List (String × α)) :
    setEntry name b (setEntry name a es) = setEntry name b es := by
  induction es with
  | nil => simp [setEntry]
  | cons e rest ih =>
      by_cases he : e.1 = name
      · simp [setEntry, he]
      · simp [setEntry, he, ih]

/-- Names that are there keep their places, so it does not matter when one of them is set again. -/
theorem setEntry_comm {name other : String} (hne : other ≠ name) (a b : α) {es : List (String × α)}
    (hthere : name ∈ es.map (·.1)) :
    setEntry name a (setEntry other b es) = setEntry other b (setEntry name a es) := by
  induction es with
  | nil => cases hthere
  | cons e rest ih =>
      by_cases hname : e.1 = name
      · have hother : e.1 ≠ other := fun h => hne (h.symm.trans hname)
        simp [setEntry, hname, hne.symm]
      · have hrest : name ∈ rest.map (·.1) := by
          rw [List.map_cons, List.mem_cons] at hthere
          exact hthere.resolve_left (Ne.symm hname)
        by_cases hother : e.1 = other
        · simp [setEntry, hother, hne]
        · simp [setEntry, hname, hother, ih hrest]

end Tables

namespace Table

variable {α : Type}

theorem set_set (t : Table α) (name : String) (a b : α) : (t.set name a).set name b = t.set name b :=
  eq_of_entries (setEntry_setEntry name a b t.entries)

theorem set_comm (t : Table α) {name other : String} (hne : other ≠ name) (a b : α) (hthere : name ∈ t.keys) :
    (t.set other b).set name a = (t.set name a).set other b :=
  eq_of_entries (setEntry_comm hne a b hthere)

/-- A name that is there already can be set before others or after them. -/
theorem set_setAll {t : Table α} {name : String} (hthere : name ∈ t.keys) {es : List (String × α)}
    (hne : name ∉ es.map (·.1)) (a : α) : (t.setAll es).set name a = (t.set name a).setAll es := by
  induction es generalizing t with
  | nil => rfl
  | cons e rest ih =>
      rw [List.map_cons, List.mem_cons, not_or] at hne
      have hstill : name ∈ (t.set e.1 e.2).keys := (mem_keys_setEntry ..).2 (.inr hthere)
      calc (t.setAll (e :: rest)).set name a
          = ((t.set e.1 e.2).set name a).setAll rest := ih hstill hne.2
        _ = ((t.set name a).set e.1 e.2).setAll rest := by rw [set_comm t (Ne.symm hne.1) a e.2 hthere]

/-- To set all of some entries, one of which is set anew, is to set that one after all. -/
theorem setAll_setEntry (t : Table α) {es : List (String × α)} (h : (es.map (·.1)).Nodup) (name : String) (a : α) :
    t.setAll (setEntry name a es) = (t.setAll es).set name a := by
  induction es generalizing t with
  | nil => rfl
  | cons e rest ih =>
      rw [List.map_cons, List.nodup_cons] at h
      by_cases he : e.1 = name
      · have hset : setEntry name a (e :: rest) = (name, a) :: rest := by rw [setEntry, if_pos he, he]
        have hthere : name ∈ (t.set name e.2).keys := (mem_keys_setEntry ..).2 (.inl rfl)
        calc t.setAll (setEntry name a (e :: rest))
            = (t.set name a).setAll rest := by rw [hset]; rfl
          _ = ((t.set name e.2).set name a).setAll rest := by rw [set_set]
          _ = ((t.set name e.2).setAll rest).set name a := (set_setAll hthere (he ▸ h.1) a).symm
          _ = (t.setAll (e :: rest)).set name a := by rw [← he]; rfl
      · have hset : setEntry name a (e :: rest) = e :: setEntry name a rest := by rw [setEntry, if_neg he]
        rw [hset]
        exact ih (t.set e.1 e.2) h.2

/-- Layers of tables can be put together in either grouping. -/
theorem onto_assoc (upper middle lower : Table α) :
    upper.onto (middle.onto lower) = (upper.onto middle).onto lower := by
  have hlist : ∀ (es : List (String × α)) (m : Table α),
      (lower.setAll m.entries).setAll es = lower.setAll (m.setAll es).entries := by
    intro es
    induction es with
    | nil => exact fun _ => rfl
    | cons e rest ih =>
        intro m
        have hone : (lower.setAll m.entries).set e.1 e.2 = lower.setAll (m.set e.1 e.2).entries :=
          (setAll_setEntry lower m.distinct e.1 e.2).symm
        show ((lower.setAll m.entries).set e.1 e.2).setAll rest = _
        rw [hone]
        exact ih (m.set e.1 e.2)
  exact hlist upper.entries middle

end Table

namespace Options

/-! ## What shows for a field -/

/-- What shows for a field: what is set for it, else its default. -/
def shown? (o : Options) (name : String) : Option Value := lookupEntry name o.settled.setFields

/-- What shows for a field where nothing is set. -/
def default? (name : String) : Option Value := shown? {} name

/-- Something is set for a field, perhaps its default. -/
def Sets (o : Options) (name : String) : Prop := name ∈ o.setFields.map (·.1)

theorem not_sets_iff {o : Options} {name : String} : ¬ o.Sets name ↔ lookupEntry name o.setFields = none :=
  lookupEntry_eq_none.symm

/-- Each field is written once. -/
theorem nodup_setFields (o : Options) : (o.setFields.map (·.1)).Nodup := by
  have hkey {β : Type} (name : String) (f : β → Value) (x : Option β) :
      ((x.map fun b => (name, f b)).toList.map (·.1)).Sublist [name] := by
    cases x with
    | none => exact List.nil_sublist _
    | some b => exact List.Sublist.refl _
  have hall : (o.setFields.map (·.1)).Sublist
      ["params", "root_url", "headers", "timeout", "max_retries", "verify_ssl"] := by
    rw [setFields]
    simp only [List.map_append]
    exact (((((hkey _ _ _).append (hkey _ _ _)).append (hkey _ _ _)).append (hkey _ _ _)).append (hkey _ _ _)).append
      (hkey _ _ _)
  exact hall.nodup (by decide)

/-- A field that is no table has what the upper layer gives it, if that gives anything. -/
theorem lookupEntry_layFields {us : List (String × Value)} (h : (us.map (·.1)).Nodup) {name : String}
    (hname : name ∉ tableNames) (fs : List (String × Value)) :
    lookupEntry name (layFields us fs) = (lookupEntry name us).or (lookupEntry name fs) := by
  have hplain (v : Value) (below : Option Value) : layeredValue name v below = v := by
    have hno : tableNames.contains name = false := Bool.eq_false_iff.2 (mt List.contains_iff_mem.1 hname)
    unfold layeredValue
    split
    next =>
      rw [hno]
      rfl
    next => rfl
  refine (lookupEntry_foldl_setEntry h layeredValue fs name).trans ?_
  simp only [hplain, Option.map_id_fun', id_eq]

theorem shown?_onto {name : String} (hname : name ∉ tableNames) (upper lower : Options) :
    (upper.onto lower).shown? name = (lookupEntry name upper.setFields).or (lower.shown? name) := by
  have hlay := lookupEntry_layFields upper.nodup_setFields hname lower.settled.setFields
  rw [layFields_setFields] at hlay
  exact hlay

/-- Options that set nothing are neutral below and above. -/
theorem onto_default (o : Options) : o.onto {} = o.settled := by
  have hparams : o.params.onto ∅ = o.params := o.params.onto_empty
  have hheaders : o.headers.onto ∅ = o.headers := o.headers.onto_empty
  simp only [onto, settled, params, rootUrl, headers, timeout, maxRetries, verifyTls, Option.getD_none]
    at hparams hheaders ⊢
  rw [hparams, hheaders]

theorem default_onto (o : Options) : onto {} o = o.settled := rfl

theorem shown?_settled (o : Options) (name : String) : o.settled.shown? name = o.shown? name := rfl

theorem shown?_eq {name : String} (hname : name ∉ tableNames) (o : Options) :
    o.shown? name = (lookupEntry name o.setFields).or (default? name) := by
  rw [← shown?_settled, ← onto_default, shown?_onto hname, default?]

theorem names_settled (o : Options) : o.settled.setFields.map (·.1) = shape.fields.map (·.name) := rfl

/-- What was layered has everything set. -/
theorem sets_onto (upper lower : Options) {name : String} (h : name ∈ shape.fields.map (·.name)) :
    (upper.onto lower).Sets name := h

/-- Without a default a name is that of no field, and nothing shows for it. -/
theorem shown?_eq_none {name : String} (h : default? name = none) (o : Options) : o.shown? name = none := by
  rw [default?, shown?, lookupEntry_eq_none, names_settled] at h
  rw [shown?, lookupEntry_eq_none, names_settled]
  exact h

/-! ## Three layers -/

variable (lower middle upper : Options)

theorem shown?_tables {name : String} (hname : name ∈ tableNames) :
    (upper.onto (middle.onto lower)).shown? name = ((upper.onto middle).onto lower).shown? name := by
  have hparams : upper.params.onto (middle.params.onto lower.params) =
      (upper.params.onto middle.params).onto lower.params := Table.onto_assoc ..
  have hheaders : upper.headers.onto (middle.headers.onto lower.headers) =
      (upper.headers.onto middle.headers).onto lower.headers := Table.onto_assoc ..
  rw [tableNames, List.mem_cons, List.mem_singleton] at hname
  rcases hname with rfl | rfl
  · exact congrArg (fun t => some (tableValue id t)) hparams
  · exact congrArg (fun t => some (tableValue .str t)) hheaders

/-- From below a field has what the upper layers say, or else what shows in the lowest one; from above it has what
they say, or else its default. -/
theorem shown?_grouped {name : String} (hname : name ∉ tableNames) :
    (upper.onto (middle.onto lower)).shown? name =
        ((lookupEntry name upper.setFields).or (lookupEntry name middle.setFields)).or (lower.shown? name) ∧
      ((upper.onto middle).onto lower).shown? name =
        ((lookupEntry name upper.setFields).or (lookupEntry name middle.setFields)).or (default? name) := by
  constructor
  · rw [shown?_onto hname, shown?_onto hname, Option.or_assoc]
  · have habove : lookupEntry name (upper.onto middle).setFields =
        ((lookupEntry name upper.setFields).or (lookupEntry name middle.setFields)).or (default? name) := by
      have hset : lookupEntry name (upper.onto middle).setFields = (upper.onto middle).shown? name := rfl
      rw [hset, shown?_onto hname, shown?_eq hname middle, Option.or_assoc]
    rw [shown?_onto hname, habove]
    cases hdefault : default? name with
    | none => rw [shown?_eq_none hdefault, Option.or_none]
    | some v => rw [Option.or_assoc, Option.some_or]

/-- Both groupings show the same for a field just where it is a table, an upper layer sets it or the lowest one shows
the default. -/
theorem shown?_grouped_iff (name : String) :
    (upper.onto (middle.onto lower)).shown? name = ((upper.onto middle).onto lower).shown? name ↔
      name ∈ tableNames ∨ upper.Sets name ∨ middle.Sets name ∨ lower.shown? name = default? name := by
  by_cases hname : name ∈ tableNames
  · exact ⟨fun _ => .inl hname, fun _ => shown?_tables lower middle upper hname⟩
  · obtain ⟨hbelow, habove⟩ := shown?_grouped lower middle upper hname
    rw [hbelow, habove]
    cases hset : (lookupEntry name upper.setFields).or (lookupEntry name middle.setFields) with
    | some v =>
        have hsets : upper.Sets name ∨ middle.Sets name := by
          refine Classical.byContradiction fun hno => ?_
          rw [not_or, not_sets_iff, not_sets_iff] at hno
          rw [hno.1, hno.2] at hset
          cases hset
        rw [Option.some_or, Option.some_or]
        exact ⟨fun _ => .inr (hsets.imp_right .inl), fun _ => rfl⟩
    | none =>
        rw [Option.or_eq_none_iff, ← not_sets_iff, ← not_sets_iff] at hset
        rw [Option.none_or, Option.none_or]
        exact ⟨fun h => .inr (.inr (.inr h)),
          fun h => ((h.resolve_left hname).resolve_left hset.1).resolve_left hset.2⟩

/-- Three layers put together from below (`l`) and from above (`r`) show the same for a field just where it is a table,
one of the upper layers sets it, or the lowest one shows its default. Where no upper layer sets a field, it has its
value of the lowest layer from below and its default from above, because everything is set in what was layered; and
a factory with options in the lowest layer makes clients with the latter, if the upper ones were put together for it.
Options that set nothing are neutral, below and above. -/
theorem layer_grouped :
    ∃ below above l r, middle.layer lower = .ok below ∧ upper.layer below = .ok l ∧
      upper.layer middle = .ok above ∧ above.layer lower = .ok r ∧
      (∀ name, l.shown? name = r.shown? name ↔
        name ∈ tableNames ∨ upper.Sets name ∨ middle.Sets name ∨ lower.shown? name = default? name) ∧
      (∀ name, name ∉ tableNames → ¬ upper.Sets name → ¬ middle.Sets name →
        l.shown? name = lower.shown? name ∧ r.shown? name = default? name) ∧
      (∀ name ∈ shape.fields.map (·.name), above.Sets name) ∧
      (∀ f : Factory, f.options = lower → ∀ d,
        f.fromDocument d { given := .made above } = (Client.build d r).mapError .document) ∧
      ∃ x y, layer {} lower = .ok x ∧ lower.layer {} = .ok y ∧
        ∀ name, x.shown? name = lower.shown? name ∧ y.shown? name = lower.shown? name := by
  refine ⟨_, _, _, _, layer_eq _ _, layer_eq _ _, layer_eq _ _, layer_eq _ _,
    shown?_grouped_iff lower middle upper, ?_, ?_, ?_, ?_⟩
  · intro name hname hupper hmiddle
    obtain ⟨hbelow, habove⟩ := shown?_grouped lower middle upper hname
    rw [hbelow, habove, not_sets_iff.1 hupper, not_sets_iff.1 hmiddle]
    exact ⟨rfl, rfl⟩
  · exact fun name h => sets_onto upper middle h
  · rintro f rfl d
    exact Factory.fromDocument_eq (c := { given := .made (upper.onto middle) }) nofun rfl d
  · refine ⟨_, _, layer_eq _ _, layer_eq _ _, fun name => ?_⟩
    rw [onto_default, default_onto]
    exact ⟨rfl, rfl⟩

/-- Retries that only the lowest layer sets are lost where the upper two were put together first, though the one of them
sets nothing at all and the other nothing but that certificates are not looked at. -/
theorem layer_unset_retries : ∃ below above l r,
    layer {} { maxRetries? := some 7 } = .ok below ∧ layer { verifyTls? := some false } below = .ok l ∧
      layer { verifyTls? := some false } {} = .ok above ∧ above.layer { maxRetries? := some 7 } = .ok r ∧
      l.maxRetries = 7 ∧ r.maxRetries = 3 :=
  ⟨_, _, _, _, layer_eq _ _, layer_eq _ _, layer_eq _ _, layer_eq _ _, rfl, rfl⟩

end Options

end ApiDiscovery
