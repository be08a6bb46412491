import ApiDiscovery.Factory
import ApiDiscovery.Proofs.Levels
import Mathlib.Logic.Relation

/-!
# Respelled keys

A field with two spellings may be given in either. `Respells l` relates data of a level that differ in one spelling:
that of one field in one object, as deep as may be, where nothing else in the object spells the field. What is a
spelling is a matter of the level, so the same key may be respelled in one object and not in another.

    the field of the key    is given by the same value, since the key is its only spelling
    another field           is spelled otherwise, so is given as before
    unknown keys            are all keys but those that were used, so are as before
    a level inside          is read as before, so the field or the table that has it is read as before

Hence respelled data are let through just where the data were, and the same is read of them.

Main statement: `Content.documentOf_respelled`.
-/

namespace ApiDiscovery

open Validation

/-- Data of a level that are the same but for one spelling. -/
inductive Respells : Level → Value → Value → Prop
  | key {l : Level} {f : Field} {s t : String} {v : Value} {front back : List (Value × Value)} :
      f ∈ l.fields → s ∈ f.spellings → t ∈ f.spellings →
      (∀ e ∈ front ++ back, ∀ u ∈ f.spellings, e.1 ≠ .str u) →
      Respells l (.map (front ++ (.str s, v) :: back)) (.map (front ++ (.str t, v) :: back))
  | field {l inner : Level} {name : String} {v v' : Value} {front back : List (Value × Value)} :
      l.inner? name = some inner → Respells inner v v' →
      Respells l (.map (front ++ (.str name, v) :: back)) (.map (front ++ (.str name, v') :: back))
  | entry {l inner : Level} {k v v' : Value} {front back : List (Value × Value)} :
      (∀ name, l.inner? name = some inner) → Respells inner v v' →
      Respells l (.map (front ++ (k, v) :: back)) (.map (front ++ (k, v') :: back))

/-- Two values are read alike on a level: what is let through of the one is let through of the other. -/
def SameRead : Level → Value → Value → Prop
  | .document, v, v' => ∀ d, Document.read v = .ok d ↔ Document.read v' = .ok d
  | .resource, v, v' => ∀ depth r, Resource.readWithin depth v = .ok r ↔ Resource.readWithin depth v' = .ok r
  | .method, v, v' => ∀ m, Method.read v = .ok m ↔ Method.read v' = .ok m
  | .parameter, v, v' => ∀ p, Parameter.read v = .ok p ↔ Parameter.read v' = .ok p
  | .resources, v, v' => ∀ depth t,
      table (Resource.readWithin depth) v = .ok t ↔ table (Resource.readWithin depth) v' = .ok t
  | .methods, v, v' => ∀ t, table Method.read v = .ok t ↔ table Method.read v' = .ok t
  | .parameters, v, v' => ∀ t, table Parameter.read v = .ok t ↔ table Parameter.read v' = .ok t

theorem SameRead.refl (l : Level) (v : Value) : SameRead l v v := by
  cases l <;> simp [SameRead]

/-! ## Fields -/

theorem findSome?_congr {α β : Type} {f g : α → Option β} {as : List α} (h : ∀ a ∈ as, f a = g a) :
    as.findSome? f = as.findSome? g := by
  induction as with
  | nil => rfl
  | cons a as ih =>
      rw [List.findSome?_cons, List.findSome?_cons, h a List.mem_cons_self,
        ih fun b hb => h b (List.mem_cons_of_mem _ hb)]

section Fields

variable {front back es es' : List (Value × Value)} {f g : Field} {fields : List Field} {s t name : String}
variable {k v v' : Value}

theorem Value.entry?_append (es es' : List (Value × Value)) (u : String) :
    Value.entry? (es ++ es') u = (Value.entry? es u).or (Value.entry? es' u) := by
  rw [Value.entry?, List.find?_append, Option.map_or]
  rfl

theorem Value.entry?_eq_none (h : ∀ e ∈ es, e.1 ≠ .str name) : Value.entry? es name = none := by
  induction es with
  | nil => rfl
  | cons e rest ih =>
      rw [Value.entry?_cons, if_neg (h e List.mem_cons_self)]
      exact ih fun e he => h e (List.mem_cons_of_mem _ he)

theorem Validation.Field.given?_congr (h : ∀ u ∈ f.spellings, Value.entry? es u = Value.entry? es' u) :
    f.given? es = f.given? es' :=
  findSome?_congr fun u hu => by rw [h u hu]

/-- A field is given by its only spelling. -/
theorem Validation.Field.given?_of_only (hs : s ∈ f.spellings)
    (only : ∀ e ∈ front ++ back, ∀ u ∈ f.spellings, e.1 ≠ .str u) :
    f.given? (front ++ (.str s, v) :: back) = some (s, v) := by
  have hentry : ∀ u ∈ f.spellings, (Value.entry? (front ++ (.str s, v) :: back) u).map (fun v => (u, v)) =
      if s = u then some (s, v) else none := by
    intro u hu
    have hfront : Value.entry? front u = none :=
      Value.entry?_eq_none fun e he => only e (List.mem_append_left _ he) u hu
    have hback : Value.entry? back u = none :=
      Value.entry?_eq_none fun e he => only e (List.mem_append_right _ he) u hu
    rw [Value.entry?_append, hfront, Option.none_or, Value.entry?_cons, hback]
    by_cases h : s = u <;> simp [h]
  rw [Field.given?, findSome?_congr hentry]
  generalize f.spellings = us at hs
  induction us with
  | nil => cases hs
  | cons u us ih =>
      rw [List.findSome?_cons]
      by_cases h : s = u
      · rw [if_pos h]
      · rw [if_neg h]
        exact ih ((List.mem_cons.1 hs).resolve_left h)

theorem Validation.mem_usedKeys : name ∈ usedKeys fields es ↔ ∃ f ∈ fields, ∃ v, f.given? es = some (name, v) := by
  rw [usedKeys, List.mem_filterMap]
  refine exists_congr fun f => and_congr_right fun _ => ?_
  cases f.given? es with
  | none => simp
  | some g => simp [Prod.ext_iff]

/-- No key spells two fields. -/
theorem eq_of_spelled (l : Level) (hf : f ∈ l.fields) (hg : g ∈ l.fields) (hsf : s ∈ f.spellings)
    (hsg : s ∈ g.spellings) : f = g := by
  have hdisjoint : ∀ f ∈ l.fields, ∀ g ∈ l.fields, ∀ s ∈ f.spellings, s ∈ g.spellings → f = g := by
    cases l <;> decide
  exact hdisjoint f hf g hg s hsf hsg

/-- A field that is not spelled by a key does not see it. -/
theorem Validation.Field.given?_of_not_mem (hs : s ∉ f.spellings) (ht : t ∉ f.spellings) :
    f.given? (front ++ (.str s, v) :: back) = f.given? (front ++ (.str t, v') :: back) := by
  refine Field.given?_congr fun u hu => ?_
  have hus : Value.str s ≠ .str u := fun h => hs (Value.str.inj h ▸ hu)
  have hut : Value.str t ≠ .str u := fun h => ht (Value.str.inj h ▸ hu)
  rw [Value.entry?_append, Value.entry?_append, Value.entry?_cons, Value.entry?_cons, if_neg hus, if_neg hut]

/-! ## Unknown keys -/

theorem Validation.isUnused_of_mem (h : s ∈ usedKeys fields es) :
    isUnused (usedKeys fields es) (.str s, v) = false := by
  show (!(usedKeys fields es).contains s) = false
  simpa using h

/-- Where one entry is used and another in its place is too, the unknown keys are the same. -/
theorem Validation.unknown_middle (hs : s ∈ usedKeys fields (front ++ (.str s, v) :: back))
    (ht : t ∈ usedKeys fields (front ++ (.str t, v') :: back))
    (hrest : ∀ u, (∃ e ∈ front ++ back, e.1 = .str u) → (u ∈ usedKeys fields (front ++ (.str s, v) :: back) ↔
      u ∈ usedKeys fields (front ++ (.str t, v') :: back))) :
    unknown fields (front ++ (.str s, v) :: back) = unknown fields (front ++ (.str t, v') :: back) := by
  have hsame : ∀ e ∈ front ++ back, isUnused (usedKeys fields (front ++ (.str s, v) :: back)) e =
      isUnused (usedKeys fields (front ++ (.str t, v') :: back)) e := by
    rintro ⟨k, w⟩ he
    cases k with
    | str u =>
        show (!(usedKeys fields _).contains u) = !(usedKeys fields _).contains u
        simp only [List.contains_eq_mem, hrest u ⟨_, he, rfl⟩]
    | _ => rfl
  refine unknown_congr ?_
  rw [List.filter_append, List.filter_append, List.filter_cons_of_neg (by rw [isUnused_of_mem hs]; exact nofun),
    List.filter_cons_of_neg (by rw [isUnused_of_mem ht]; exact nofun)]
  exact congrArg₂ (· ++ ·) (List.filter_congr fun e he => hsame e (List.mem_append_left _ he))
    (List.filter_congr fun e he => hsame e (List.mem_append_right _ he))

/-! ## Objects that are read alike -/

/-- Two objects say the same of each field, or data that are read alike, and have the same unknown keys. -/
structure Alike (l : Level) (es es' : List (Value × Value)) : Prop where
  value : ∀ f ∈ l.fields, f.value? es = f.value? es' ∨ ∃ inner v v', l.inner? f.name = some inner ∧
    f.value? es = some v ∧ f.value? es' = some v' ∧ SameRead inner v v'
  unknown : unknown l.fields es = unknown l.fields es'

/-- A key that is the only spelling of a field can be respelled. -/
theorem alike_of_key {l : Level} (hf : f ∈ l.fields) (hs : s ∈ f.spellings) (ht : t ∈ f.spellings)
    (only : ∀ e ∈ front ++ back, ∀ u ∈ f.spellings, e.1 ≠ .str u) :
    Alike l (front ++ (.str s, v) :: back) (front ++ (.str t, v) :: back) := by
  have hgiven := Field.given?_of_only (v := v) hs only
  have hgiven' := Field.given?_of_only (v := v) ht only
  have hother : ∀ g ∈ l.fields, g ≠ f →
      g.given? (front ++ (.str s, v) :: back) = g.given? (front ++ (.str t, v) :: back) := fun g hg hne =>
    Field.given?_of_not_mem (fun h => hne (eq_of_spelled l hg hf h hs)) fun h => hne (eq_of_spelled l hg hf h ht)
  refine ⟨fun g hg => .inl ?_, unknown_middle ?_ ?_ ?_⟩
  · by_cases hgf : g = f
    · rw [hgf, Field.value?, Field.value?, hgiven, hgiven']
      rfl
    · rw [Field.value?, Field.value?, hother g hg hgf]
  · exact mem_usedKeys.2 ⟨f, hf, v, hgiven⟩
  · exact mem_usedKeys.2 ⟨f, hf, v, hgiven'⟩
  · rintro u ⟨e, he, hu⟩
    rw [mem_usedKeys, mem_usedKeys]
    refine exists_congr fun g => and_congr_right fun hg => exists_congr fun w => ?_
    by_cases hgf : g = f
    · -- No other entry has a spelling of the field as its key.
      have hnot : u ∉ g.spellings := fun h => only e he u (hgf ▸ h) hu
      exact iff_of_false (fun h => hnot (Field.mem_spellings_of_given? h))
        fun h => hnot (Field.mem_spellings_of_given? h)
    · rw [hother g hg hgf]

/-- The fields that hold further levels have one spelling. -/
theorem plain_mem_fields {l inner : Level} (hl : l.inner? name = some inner)
    (hrecord : ¬ ∀ name, l.inner? name = some inner) : Field.plain name ∈ l.fields := by
  cases l with
  | document => rcases Level.inner?_document hl with ⟨rfl, -⟩ | ⟨rfl, -⟩ | ⟨rfl, -⟩ <;> decide
  | resource => rcases Level.inner?_resource hl with ⟨rfl, -⟩ | ⟨rfl, -⟩ <;> decide
  | method =>
      obtain ⟨rfl, -⟩ := Level.inner?_method hl
      decide
  | parameter => cases hl
  | resources | methods | parameters => exact absurd (fun _ => hl) hrecord

theorem Validation.Field.given?_plain (name : String) (es : List (Value × Value)) :
    (Field.plain name).given? es = (Value.entry? es name).map fun v => (name, v) := by
  cases h : Value.entry? es name <;> simp [Field.given?, Field.spellings, Field.plain, h]

/-- What is read alike can be put in the place of what a field is given by. -/
theorem alike_of_field {l inner : Level} (hl : l.inner? name = some inner) (hf : Field.plain name ∈ l.fields)
    (hsame : SameRead inner v v') :
    Alike l (front ++ (.str name, v) :: back) (front ++ (.str name, v') :: back) := by
  have hname : name ∈ (Field.plain name).spellings := List.mem_singleton_self name
  have hentry (v : Value) : Value.entry? (front ++ (.str name, v) :: back) name =
      (Value.entry? front name).or (some v) := by
    rw [Value.entry?_append, Value.entry?_cons, if_pos rfl]
  have hother : ∀ g ∈ l.fields, g ≠ Field.plain name →
      g.given? (front ++ (.str name, v) :: back) = g.given? (front ++ (.str name, v') :: back) := fun g hg hne =>
    Field.given?_of_not_mem (fun h => hne (eq_of_spelled l hg hf h hname)) fun h => hne (eq_of_spelled l hg hf h hname)
  have hkeys : ∀ g ∈ l.fields, (g.given? (front ++ (.str name, v) :: back)).map (·.1) =
      (g.given? (front ++ (.str name, v') :: back)).map (·.1) := by
    intro g hg
    by_cases hgf : g = Field.plain name
    · rw [hgf, Field.given?_plain, Field.given?_plain, hentry, hentry]
      cases Value.entry? front name <;> rfl
    · rw [hother g hg hgf]
  have hused : usedKeys l.fields (front ++ (.str name, v) :: back) =
      usedKeys l.fields (front ++ (.str name, v') :: back) := List.filterMap_congr hkeys
  have hmem : name ∈ usedKeys l.fields (front ++ (.str name, v') :: back) := by
    refine mem_usedKeys.2 ⟨_, hf, (Value.entry? front name).getD v', ?_⟩
    rw [Field.given?_plain, hentry]
    cases Value.entry? front name <;> rfl
  refine ⟨fun g hg => ?_, unknown_middle (hused ▸ hmem) hmem fun u _ => by rw [hused]⟩
  by_cases hgf : g = Field.plain name
  · rw [hgf, Field.value?_plain, Field.value?_plain, hentry, hentry]
    cases Value.entry? front name with
    | some w => exact .inl rfl
    | none => exact .inr ⟨inner, v, v', hl, rfl, rfl, hsame⟩
  · exact .inl (by rw [Field.value?, Field.value?, hother g hg hgf])

/-- Fields of objects that are alike are read alike. -/
theorem Alike.read_eq_ok {l : Level} (h : Alike l es es') (hf : f ∈ l.fields) {α : Type} {check : Value → Checked α}
    (hcheck : ∀ inner v v', l.inner? f.name = some inner → SameRead inner v v' →
      ∀ a, check v = .ok a ↔ check v' = .ok a)
    {default a : α} : f.read es default check = .ok a ↔ f.read es' default check = .ok a := by
  rw [Field.read_eq_ok_iff, Field.read_eq_ok_iff]
  rcases h.value f hf with hsame | ⟨inner, v, v', hinner, hv, hv', hread⟩
  · rw [hsame]
  · rw [hv, hv']
    exact hcheck inner v v' hinner hread a

theorem Alike.require_eq_ok {l : Level} (h : Alike l es es') (hf : f ∈ l.fields) (hnone : l.inner? f.name = none)
    {α : Type} {check : Value → Checked α} {a : α} : f.require es check = .ok a ↔ f.require es' check = .ok a := by
  rw [Field.require_eq_ok, Field.require_eq_ok]
  rcases h.value f hf with hsame | ⟨inner, v, v', hinner, -⟩
  · rw [hsame]
  · rw [hnone] at hinner
    cases hinner

end Fields

/-! ## Levels that are read alike -/

variable {es es' : List (Value × Value)}

theorem Alike.readParts {l : Level} (hl : l = .document ∨ l = .resource) (h : Alike l es es') (depth : Nat)
    (parts : Table Method × List (String × Resource)) :
    Resource.readParts (Resource.readWithin depth) es = .ok parts ↔
      Resource.readParts (Resource.readWithin depth) es' = .ok parts := by
  have hms : Resource.shape.field "methods" ∈ l.fields := by
    rcases hl with rfl | rfl <;> decide
  have hrs : Resource.shape.field "resources" ∈ l.fields := by
    rcases hl with rfl | rfl <;> decide
  rw [Resource.readParts_eq_ok, Resource.readParts_eq_ok]
  refine and_congr (h.read_eq_ok hms fun inner v v' hinner hsame t => ?_)
    (h.read_eq_ok hrs fun inner v v' hinner hsame rs => ?_)
  · have hmethods : inner = .methods := by
      rcases hl with rfl | rfl <;> exact (Option.some.inj hinner).symm
    subst hmethods
    exact hsame t
  · have hresources : inner = .resources := by
      rcases hl with rfl | rfl <;> exact (Option.some.inj hinner).symm
    subst hresources
    exact Checked.map_eq_ok.trans ((exists_congr fun t => and_congr_left fun _ => hsame depth t).trans
      Checked.map_eq_ok.symm)

theorem Alike.resource (h : Alike .resource es es') : SameRead .resource (.map es) (.map es') := by
  intro depth r
  cases depth with
  | zero => exact Iff.rfl
  | succ depth =>
      have hunknown : Validation.unknown Resource.shape.fields es = Validation.unknown Resource.shape.fields es' :=
        h.unknown
      rw [Resource.readWithin_succ_eq_ok, Resource.readWithin_succ_eq_ok, h.readParts (.inr rfl), hunknown]

theorem Alike.method (h : Alike .method es es') : SameRead .method (.map es) (.map es') := by
  intro m
  have hplain (name : String) (hf : Method.shape.field name ∈ Level.method.fields)
      (hnone : Level.method.inner? (Method.shape.field name).name = none) {α : Type} (check : Value → Checked α)
      (default a : α) : (Method.shape.field name).read es default check = .ok a ↔
        (Method.shape.field name).read es' default check = .ok a :=
    h.read_eq_ok hf fun inner v v' hinner => by
      rw [hnone] at hinner
      cases hinner
  have hps (a : Table Parameter) : (Method.shape.field "parameters").read es ∅ (table Parameter.read) = .ok a ↔
      (Method.shape.field "parameters").read es' ∅ (table Parameter.read) = .ok a :=
    h.read_eq_ok (by decide) fun inner v v' hinner hsame t => by
      cases hinner
      exact hsame t
  have hunknown : Validation.unknown Method.shape.fields es = Validation.unknown Method.shape.fields es' := h.unknown
  simp only [Method.read, Shape.read, Checked.seq_eq_ok, Checked.map_eq_ok, hps, hunknown,
    hplain "id" (by decide) rfl, hplain "http_method" (by decide) rfl, hplain "path" (by decide) rfl,
    hplain "flat_path" (by decide) rfl, hplain "description" (by decide) rfl,
    hplain "parameter_order" (by decide) rfl, hplain "request" (by decide) rfl, hplain "response" (by decide) rfl,
    hplain "scopes" (by decide) rfl]

theorem Alike.document (h : Alike .document es es') (hdepth : (Value.map es).depth = (Value.map es').depth) :
    SameRead .document (.map es) (.map es') := by
  intro d
  have hplain (name : String) (hf : Document.shape.field name ∈ Level.document.fields)
      (hnone : Level.document.inner? (Document.shape.field name).name = none) {α : Type} (check : Value → Checked α)
      (default a : α) : (Document.shape.field name).read es default check = .ok a ↔
        (Document.shape.field name).read es' default check = .ok a :=
    h.read_eq_ok hf fun inner v v' hinner => by
      rw [hnone] at hinner
      cases hinner
  have hname (a : String) : (Document.shape.field "name").require es text = .ok a ↔
      (Document.shape.field "name").require es' text = .ok a := h.require_eq_ok (by decide) rfl
  have hversion (a : String) : (Document.shape.field "version").require es text = .ok a ↔
      (Document.shape.field "version").require es' text = .ok a := h.require_eq_ok (by decide) rfl
  have hps (a : Table Parameter) : (Document.shape.field "parameters").read es ∅ (table Parameter.read) = .ok a ↔
      (Document.shape.field "parameters").read es' ∅ (table Parameter.read) = .ok a :=
    h.read_eq_ok (by decide) fun inner v v' hinner hsame t => by
      cases hinner
      exact hsame t
  have hunknown : Validation.unknown Document.shape.fields es = Validation.unknown Document.shape.fields es' :=
    h.unknown
  simp only [Document.read, Shape.read, Checked.seq_eq_ok, Checked.map_eq_ok, hdepth, h.readParts (.inl rfl), hname,
    hversion, hps, hunknown, hplain "title" (by decide) rfl, hplain "description" (by decide) rfl,
    hplain "root_url" (by decide) rfl, hplain "service_path" (by decide) rfl, hplain "base_path" (by decide) rfl,
    hplain "base_url" (by decide) rfl, hplain "schemas" (by decide) rfl]

section Tables

variable {α : Type} {check : Value → Checked α} {k v v' : Value} {front back : List (Value × Value)}

theorem Validation.ReadAs.middle (h : ∀ a, check v = .ok a → check v' = .ok a) {xs : List (String × α)}
    (hxs : ReadAs check (front ++ (k, v) :: back) xs) : ReadAs check (front ++ (k, v') :: back) xs := by
  induction front generalizing xs with
  | nil => cases hxs with | cons hx hrest => exact .cons ⟨hx.1, h _ hx.2⟩ hrest
  | cons e front ih => cases hxs with | cons hx hrest => exact .cons hx (ih hrest)

/-- A table reads its entries one by one. -/
theorem Validation.table_middle (h : ∀ a, check v = .ok a ↔ check v' = .ok a) (t : Table α) :
    table check (.map (front ++ (k, v) :: back)) = .ok t ↔ table check (.map (front ++ (k, v') :: back)) = .ok t := by
  rw [table_eq_ok, table_eq_ok]
  exact exists_congr fun xs => and_congr_left fun _ => ⟨ReadAs.middle fun a => (h a).1, ReadAs.middle fun a => (h a).2⟩

/-- What is read alike can be put under any key of a table. -/
theorem sameRead_of_entry {l inner : Level} (hl : ∀ name, l.inner? name = some inner) (hsame : SameRead inner v v') :
    SameRead l (.map (front ++ (k, v) :: back)) (.map (front ++ (k, v') :: back)) := by
  -- Of a level that is no table some name leads nowhere.
  have hname := hl ""
  cases l with
  | resources =>
      cases hname
      exact fun depth t => table_middle (hsame depth) t
  | methods =>
      cases hname
      exact fun t => table_middle hsame t
  | parameters =>
      cases hname
      exact fun t => table_middle hsame t
  | _ => cases hname

end Tables

/-! ## Respelled data are read alike -/

theorem depthOfEntries_middle {k k' v v' : Value} (h : v.depth = v'.depth) (front back : List (Value × Value)) :
    Value.depthOfEntries (front ++ (k, v) :: back) = Value.depthOfEntries (front ++ (k', v') :: back) := by
  induction front with
  | nil => rw [List.nil_append, List.nil_append, Value.depthOfEntries, Value.depthOfEntries, h]
  | cons e front ih => rw [List.cons_append, List.cons_append, Value.depthOfEntries, Value.depthOfEntries, ih]

/-- Respelled data are as deep as before. -/
theorem Respells.depth_eq {l : Level} {v v' : Value} (h : Respells l v v') : v.depth = v'.depth := by
  induction h with
  | key => rw [Value.depth, Value.depth, depthOfEntries_middle rfl]
  | field _ _ ih | entry _ _ ih => rw [Value.depth, Value.depth, depthOfEntries_middle ih]

/-- Objects that are alike are read alike, if they are as deep. -/
theorem Alike.sameRead {l inner : Level} {name : String} (hl : l.inner? name = some inner)
    (hrecord : ¬ ∀ name, l.inner? name = some inner) (h : Alike l es es')
    (hdepth : (Value.map es).depth = (Value.map es').depth) : SameRead l (.map es) (.map es') := by
  cases l with
  | document => exact h.document hdepth
  | resource => exact h.resource
  | method => exact h.method
  | parameter => cases hl
  | resources | methods | parameters => exact absurd (fun _ => hl) hrecord

theorem Respells.sameRead {l : Level} {v v' : Value} (h : Respells l v v') : SameRead l v v' := by
  have hdepth := h.depth_eq
  induction h with
  | @key l f s t v front back hf hs ht only =>
      cases l with
      | document => exact (alike_of_key hf hs ht only).document hdepth
      | resource => exact (alike_of_key hf hs ht only).resource
      | method => exact (alike_of_key hf hs ht only).method
      | parameter =>
          -- Fields of parameters have one spelling.
          have hone : ∀ f ∈ Parameter.shape.fields, ∀ s ∈ f.spellings, ∀ t ∈ f.spellings, s = t := by decide
          rw [hone f hf s hs t ht]
          exact .refl _ _
      | resources | methods | parameters => cases hf
  | @field l inner name v v' front back hl hinner ih =>
      have hsame := ih hinner.depth_eq
      by_cases htable : ∀ name, l.inner? name = some inner
      · exact sameRead_of_entry htable hsame
      · exact (alike_of_field hl (plain_mem_fields hl htable) hsame).sameRead hl htable hdepth
  | entry hl hinner ih => exact sameRead_of_entry hl (ih hinner.depth_eq)

/-- Data that are respelled in any number of places are read as the same document. -/
theorem read_of_respells {v v' : Value} (h : Relation.ReflTransGen (Respells .document) v v') (d : Document) :
    Document.read v = .ok d ↔ Document.read v' = .ok d := by
  induction h with
  | refl => exact Iff.rfl
  | tail _ hstep ih => exact ih.trans (hstep.sameRead d)

namespace Content

theorem documentOf_eq_ok {v : Value} {d : Document} : documentOf v = .ok d ↔ Document.read v = .ok d := by
  have hread : Document.ofValue? v = .ok d ↔ Document.read v = .ok d := Checked.toExcept_eq_ok
  rw [← hread, documentOf]
  cases Document.ofValue? v with
  | ok d' =>
      constructor
      · intro h
        exact congrArg Except.ok (Except.ok.inj h)
      · intro h
        exact congrArg Except.ok (Except.ok.inj h)
  | error r =>
      constructor
      · intro h
        cases h
      · intro h
        cases h

/-- Data in which any keys are respelled, each the only spelling of its field in its object, are let through just where
the data are, and as the same document; so the same client is made of them, or none for the same reason. Names that
lead to an object in the data lead to the part of the document that was read from it, and this keeps every key of
the object that is no spelling of a field of its level, with its value. -/
theorem documentOf_respelled {v v' : Value} (h : Relation.ReflTransGen (Respells .document) v v') :
    (∀ d, documentOf v = .ok d ↔ documentOf v' = .ok d) ∧
    (∀ d, documentOf v = .ok d → ∀ (f : Factory) (c : Choices), f.fromData v c = f.fromData v' c) ∧
    ∀ d, documentOf v = .ok d → ∀ way l es, Level.document.at? v way = some (l, es) →
      ∃ p, (Part.document d).at? way = some p ∧ p.level = l ∧ (l.fields ≠ [] → ∃ u, p.unknown? = some u ∧
        ∀ name, (∀ f ∈ l.fields, name ∉ f.spellings) → u.get? name = last? name es) := by
  have hsame : ∀ d, documentOf v = .ok d ↔ documentOf v' = .ok d := fun d =>
    documentOf_eq_ok.trans ((read_of_respells h d).trans documentOf_eq_ok.symm)
  refine ⟨hsame, fun d hd f c => ?_, fun d hd way l es hway => ?_⟩
  · rw [Factory.fromData, Factory.fromData, hd, (hsame d).1 hd]
  · have hread : (Part.document d).ReadFrom v := documentOf_eq_ok.1 hd
    obtain ⟨p, hp, rfl, hfrom⟩ := Part.exists_at hread hway
    refine ⟨p, hp, rfl, fun hrecord => ?_⟩
    obtain ⟨u, hu⟩ := Part.exists_unknown hrecord
    exact ⟨u, hu, fun name hname => Part.get?_unknown hfrom hu hname⟩

/-- A method whose verb is spelled otherwise, in a document whose root is. What spells the root in a document is an
unknown key of a method. -/
theorem documentOf_respelled_notes :
    let document (root verb : String) : Value := .ofFields [("name", .str "notes"), ("version", .str "v1"),
      (root, .str "https://a.example/"), ("methods", .ofFields [("list",
        .ofFields [(verb, .str "GET"), ("path", .str "notes"), ("rootUrl", .int 1)])])]
    ∃ d m, documentOf (document "rootUrl" "httpMethod") = .ok d ∧
      documentOf (document "root_url" "http_method") = .ok d ∧
      (Part.document d).at? ["methods", "list"] = some (.method m) ∧ m.unknown.get? "rootUrl" = some (.int 1) := by
  intro document
  have hroot : Respells .document (document "rootUrl" "httpMethod") (document "root_url" "httpMethod") :=
    @Respells.key .document (.spelled "root_url" "rootUrl") "rootUrl" "root_url" _
      [(.str "name", .str "notes"), (.str "version", .str "v1")] [_] (by decide) (by decide) (by decide)
      (by simp [Field.spellings, Field.spelled])
  have hverb : Respells .method
      (.ofFields [("httpMethod", .str "GET"), ("path", .str "notes"), ("rootUrl", .int 1)])
      (.ofFields [("http_method", .str "GET"), ("path", .str "notes"), ("rootUrl", .int 1)]) :=
    @Respells.key .method (.spelled "http_method" "httpMethod") "httpMethod" "http_method" _ []
      [(.str "path", .str "notes"), (.str "rootUrl", .int 1)] (by decide) (by decide) (by decide)
      (by simp [Field.spellings, Field.spelled])
  have hdocument : Respells .document (document "root_url" "httpMethod") (document "root_url" "http_method") :=
    @Respells.field .document .methods "methods" _ _
      [(.str "name", .str "notes"), (.str "version", .str "v1"), (.str "root_url", .str "https://a.example/")] [] rfl
      (@Respells.entry .methods .method (.str "list") _ _ [] [] (fun _ => rfl) hverb)
  obtain ⟨hsame, -, hkept⟩ := documentOf_respelled (.head hroot (.single hdocument))
  obtain ⟨d, hd⟩ : ∃ d, documentOf (document "rootUrl" "httpMethod") = .ok d := ⟨_, rfl⟩
  obtain ⟨p, hp, hlevel, hunknown⟩ := hkept d hd ["methods", "list"] .method _ rfl
  obtain ⟨u, hu, hget⟩ := hunknown (by decide)
  have hlast := @last?_of_only "rootUrl" [(.str "httpMethod", .str "GET"), (.str "path", .str "notes")] []
    (.str "rootUrl") (.int 1) rfl fun e he => absurd he List.not_mem_nil
  cases p with
  | method m =>
      cases hu
      exact ⟨d, m, hd, (hsame d).1 hd, hp, (hget "rootUrl" (by decide)).trans hlast⟩
  | _ => cases hlevel

end Content

end ApiDiscovery
