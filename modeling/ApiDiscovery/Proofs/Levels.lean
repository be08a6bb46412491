import ApiDiscovery.Document.Reader
import Mathlib.Data.List.Forall2

/-!
# The levels of a document

A document is read from an object with objects in it. The kind of an object, its level, says which fields it has, in
which spellings, and which of them hold further levels. What is no spelling of a field on one level may be one on
another.

    level         spelled in two ways                          levels in it
    document      rootUrl, servicePath, basePath, baseUrl      methods, resources, parameters
    resource                                                   methods, resources
    method        httpMethod, flatPath, parameterOrder         parameters
    parameter

In between are tables, which have a further level under every name. A name leads from an object to one in it
(`Level.at?`), and from a part of the document that was read to a part of that (`Part.at?`). The same names lead to
objects and to the parts that are read from them (`Part.exists_at`), and each part keeps the unknown keys of its object
(`Part.get?_unknown`).
-/

namespace ApiDiscovery

namespace Validation

variable {α β : Type} {check : Value → Checked α} {es : List (Value × Value)} {name : String}

theorem Checked.all_map_eq_ok {c : α → Checked β} {as : List α} {bs : List β} :
    Checked.all (as.map c) = .ok bs ↔ List.Forall₂ (fun a b => c a = .ok b) as bs := by
  rw [Checked.all_eq_ok]
  induction as generalizing bs with
  | nil => cases bs <;> simp
  | cons a as ih => cases bs <;> simp [ih]

/-! ## Fields -/

/-- The value that is given for a field, in whichever spelling. -/
def Field.value? (f : Field) (es : List (Value × Value)) : Option Value := (f.given? es).map (·.2)

/-- A field is what was given for it, or its default. -/
theorem Field.read_eq_ok_iff {f : Field} {default a : α} :
    f.read es default check = .ok a ↔ (f.value? es).elim (default = a) fun v => check v = .ok a := by
  rw [read, value?]
  cases f.given? es with
  | none => exact ⟨Checked.ok.inj, congrArg Checked.ok⟩
  | some g => exact Checked.within_eq_ok

theorem Field.require_eq_ok {f : Field} {a : α} :
    f.require es check = .ok a ↔ ∃ v, f.value? es = some v ∧ check v = .ok a := by
  rw [require, value?]
  cases f.given? es with
  | none => exact ⟨nofun, nofun⟩
  | some g =>
      refine Checked.within_eq_ok.trans ⟨fun h => ⟨g.2, rfl, h⟩, ?_⟩
      rintro ⟨_, ⟨⟩, h⟩
      exact h

theorem Field.value?_plain (name : String) (es : List (Value × Value)) :
    (Field.plain name).value? es = Value.entry? es name := by
  rw [value?, given?]
  cases h : Value.entry? es name <;> simp [spellings, plain, h]

theorem Field.mem_spellings_of_given? {f : Field} {s : String} {v : Value} (h : f.given? es = some (s, v)) :
    s ∈ f.spellings := by
  obtain ⟨u, hu, hvalue⟩ := List.exists_of_findSome?_eq_some h
  obtain ⟨w, -, he⟩ := Option.map_eq_some_iff.1 hvalue
  cases he
  exact hu

/-! ## Names of tables -/

/-- The value of the last key that is read as a name. -/
def last? (name : String) : List (Value × Value) → Option Value
  | [] => none
  | (k, v) :: rest => (last? name rest).or (if text k = .ok name then some v else none)

/-- A key that alone is read as a name is the last. -/
theorem last?_of_only {front back : List (Value × Value)} {k v : Value} (hk : text k = .ok name)
    (h : ∀ e ∈ back, text e.1 ≠ .ok name) : last? name (front ++ (k, v) :: back) = some v := by
  have hback : last? name back = none := by
    induction back with
    | nil => rfl
    | cons e rest ih =>
        rw [last?, ih fun e he => h e (List.mem_cons_of_mem _ he), if_neg (h e List.mem_cons_self)]
        rfl
  induction front with
  | nil => rw [List.nil_append, last?, hback, if_pos hk]; rfl
  | cons e rest ih => rw [List.cons_append, last?, ih]; rfl

theorem last?_filter {p : Value × Value → Bool} (h : ∀ e ∈ es, text e.1 = .ok name → p e = true) :
    last? name (es.filter p) = last? name es := by
  induction es with
  | nil => rfl
  | cons e rest ih =>
      have hrest := ih fun e he => h e (List.mem_cons_of_mem _ he)
      by_cases hp : p e = true
      · rw [List.filter_cons_of_pos hp, last?, last?, hrest]
      · have hname : text e.1 ≠ .ok name := fun hname => hp (h e List.mem_cons_self hname)
        rw [List.filter_cons_of_neg hp, last?, if_neg hname, hrest, Option.or_none]

/-- Entries with their keys read as names and their values checked. -/
abbrev ReadAs (check : Value → Checked α) (es : List (Value × Value)) (xs : List (String × α)) : Prop :=
  List.Forall₂ (fun e x => text e.1 = .ok x.1 ∧ check e.2 = .ok x.2) es xs

theorem entry_eq_ok {e : Value × Value} {x : String × α} :
    entry check e = .ok x ↔ text e.1 = .ok x.1 ∧ check e.2 = .ok x.2 := by
  have hseq : entry check e = Prod.mk <$> ((text e.1).within (.key "[key]")).within (stepOf e.1) <*>
      (check e.2).within (stepOf e.1) := rfl
  simp only [hseq, Checked.seq_eq_ok, Checked.map_eq_ok, Checked.within_eq_ok]
  constructor
  · rintro ⟨_, a, ⟨name, hname, rfl⟩, ha, rfl⟩
    exact ⟨hname, ha⟩
  · rintro ⟨hname, ha⟩
    exact ⟨_, _, ⟨_, hname, rfl⟩, ha, rfl⟩

theorem table_eq_ok {t : Table α} :
    table check (.map es) = .ok t ↔ ∃ xs, ReadAs check es xs ∧ Table.ofList xs = t := by
  refine Checked.map_eq_ok.trans (exists_congr fun xs => and_congr_left fun _ => ?_)
  rw [entries, Checked.all_map_eq_ok]
  simp only [entry_eq_ok]

/-- A later name goes over an earlier one. -/
theorem get?_setAll_of_readAs {xs : List (String × α)} (h : ReadAs check es xs) (name : String) (t : Table α) :
    (∃ v a, last? name es = some v ∧ check v = .ok a ∧ (t.setAll xs).get? name = some a) ∨
      last? name es = none ∧ (t.setAll xs).get? name = t.get? name := by
  induction h generalizing t with
  | nil => exact .inr ⟨rfl, rfl⟩
  | @cons e x rest xs hx _ ih =>
      obtain ⟨hname, hcheck⟩ := hx
      have hset : t.setAll (x :: xs) = (t.set x.1 x.2).setAll xs := rfl
      rw [hset, last?]
      rcases ih (t.set x.1 x.2) with ⟨v, a, hv, ha, hget⟩ | ⟨hnone, hget⟩
      · exact .inl ⟨v, a, by rw [hv, Option.some_or], ha, hget⟩
      · rw [hget, hnone, Option.none_or, Table.get?_set]
        by_cases hx : x.1 = name
        · rw [if_pos hx, if_pos (hx ▸ hname)]
          exact .inl ⟨e.2, x.2, rfl, hcheck, rfl⟩
        · have hother : text e.1 ≠ .ok name := fun h => hx (Checked.ok.inj (hname.symm.trans h))
          rw [if_neg hx, if_neg hother]
          exact .inr ⟨rfl, rfl⟩

/-- What a table has under a name was read from the last key of that name. -/
theorem exists_get?_of_table {t : Table α} (h : table check (.map es) = .ok t) {v : Value}
    (hv : last? name es = some v) : ∃ a, t.get? name = some a ∧ check v = .ok a := by
  obtain ⟨xs, hxs, rfl⟩ := table_eq_ok.1 h
  rcases get?_setAll_of_readAs hxs name .empty with ⟨w, a, hw, ha, hget⟩ | ⟨hnone, -⟩
  · rw [hv] at hw
    cases hw
    exact ⟨a, hget, ha⟩
  · rw [hv] at hnone
    cases hnone

/-! ## Unknown keys -/

/-- Whether an entry is none of those that were used. -/
def isUnused (used : List String) (e : Value × Value) : Bool :=
  match e.1 with
  | .str s => !used.contains s
  | _ => true

/-- The unknown keys are all entries but those that were used. -/
theorem unknown_congr {fields : List Field} {es' : List (Value × Value)}
    (h : es.filter (isUnused (usedKeys fields es)) = es'.filter (isUnused (usedKeys fields es'))) :
    unknown fields es = unknown fields es' := by
  have hunknown (es : List (Value × Value)) : unknown fields es =
      (Checked.all ((es.filter (isUnused (usedKeys fields es))).map fun e =>
        match e.1 with
        | .str s => Checked.ok (s, e.2)
        | k => (Checked.fail .keyKind).within (stepOf k))).map Table.ofList := rfl
  rw [hunknown, hunknown, h]

theorem exists_of_unknown {fields : List Field} {t : Table Value} (h : unknown fields es = .ok t) :
    ∃ xs, ReadAs .ok (es.filter (isUnused (usedKeys fields es))) xs ∧ Table.ofList xs = t := by
  obtain ⟨xs, hxs, rfl⟩ := Checked.map_eq_ok.1 h
  refine ⟨xs, (Checked.all_map_eq_ok.1 hxs).imp fun e x hx => ?_, rfl⟩
  obtain ⟨k, v⟩ := e
  cases k with
  | str s =>
      cases hx
      exact ⟨rfl, rfl⟩
  | _ => cases hx

/-- A key that is no spelling of a field is kept with its value. -/
theorem get?_unknown {fields : List Field} {t : Table Value} (h : unknown fields es = .ok t)
    (hname : ∀ f ∈ fields, name ∉ f.spellings) : t.get? name = last? name es := by
  obtain ⟨xs, hxs, rfl⟩ := exists_of_unknown h
  have hkept : ∀ e ∈ es, text e.1 = .ok name → isUnused (usedKeys fields es) e = true := by
    rintro ⟨k, v⟩ - hk
    cases k with
    | str s =>
        cases hk
        have hunused : name ∉ usedKeys fields es := by
          intro hused
          obtain ⟨f, hf, hgiven⟩ := List.mem_filterMap.1 hused
          obtain ⟨⟨s, w⟩, hsw, hs⟩ := Option.map_eq_some_iff.1 hgiven
          cases hs
          exact hname f hf (Field.mem_spellings_of_given? hsw)
        show (!(usedKeys fields es).contains name) = true
        simpa using hunused
    | _ => rfl
  rcases get?_setAll_of_readAs hxs name .empty with ⟨v, a, hv, ha, hget⟩ | ⟨hnone, hget⟩
  · cases ha
    rw [last?_filter hkept] at hv
    exact hget.trans hv.symm
  · rw [last?_filter hkept] at hnone
    exact hget.trans hnone.symm

end Validation

open Validation

/-! ## Levels -/

/-- The kinds of objects in the data of a document. -/
inductive Level where
  | document
  | resource
  | method
  | parameter
  | resources
  | methods
  | parameters
deriving DecidableEq, Repr

namespace Level

/-- The fields of an object; a table has none. -/
def fields : Level → List Field
  | document => Document.shape.fields
  | resource => Resource.shape.fields
  | method => Method.shape.fields
  | parameter => Parameter.shape.fields
  | resources | methods | parameters => []

/-- The level of what stands under a name. -/
def inner? : Level → String → Option Level
  | document, "methods" | resource, "methods" => some methods
  | document, "resources" | resource, "resources" => some resources
  | document, "parameters" | method, "parameters" => some parameters
  | resources, _ => some resource
  | methods, _ => some method
  | parameters, _ => some parameter
  | _, _ => none

/-- What stands under a name: a table takes all keys that are read as the name, and the last of them counts. -/
def value? (l : Level) (es : List (Value × Value)) (name : String) : Option Value :=
  match l with
  | resources | methods | parameters => last? name es
  | document | resource | method | parameter => Value.entry? es name

/-- The object to which names lead, with its level. -/
def at? : Level → Value → List String → Option (Level × List (Value × Value))
  | l, .map es, [] => some (l, es)
  | l, .map es, name :: way => (l.inner? name).bind fun inner => (l.value? es name).bind fun v => inner.at? v way
  | _, _, _ => none

end Level

/-! ## Parts -/

/-- What is read of an object in the data of a document. -/
inductive Part where
  | document (d : Document)
  | resource (r : Resource)
  | method (m : Method)
  | parameter (p : Parameter)
  | resources (rs : List (String × Resource))
  | methods (ms : Table Method)
  | parameters (ps : Table Parameter)

namespace Part

def level : Part → Level
  | document _ => .document
  | resource _ => .resource
  | method _ => .method
  | parameter _ => .parameter
  | resources _ => .resources
  | methods _ => .methods
  | parameters _ => .parameters

/-- The part under a name. -/
def inner? : Part → String → Option Part
  | document d, "methods" => some (methods d.tree.methods)
  | document d, "resources" => some (resources d.tree.resources)
  | document d, "parameters" => some (parameters d.parameters)
  | resource r, "methods" => some (methods r.methods)
  | resource r, "resources" => some (resources r.resources)
  | method m, "parameters" => some (parameters m.parameters)
  | resources rs, name => (lookupEntry name rs).map resource
  | methods ms, name => (ms.get? name).map method
  | parameters ps, name => (ps.get? name).map parameter
  | _, _ => none

/-- The part to which names lead. -/
def at? : Part → List String → Option Part
  | p, [] => some p
  | p, name :: way => (p.inner? name).bind (·.at? way)

/-- The unknown keys of an object; a table has none. -/
def unknown? : Part → Option (Table Value)
  | document d => some d.tree.unknown
  | resource r => some r.unknown
  | method m => some m.unknown
  | parameter p => some p.unknown
  | resources _ | methods _ | parameters _ => none

/-- What it is for a part to be read from a value. -/
def ReadFrom : Part → Value → Prop
  | document d, v => Document.read v = .ok d
  | resource r, v => ∃ depth, Resource.readWithin depth v = .ok r
  | method m, v => Method.read v = .ok m
  | parameter p, v => Parameter.read v = .ok p
  | resources rs, v => ∃ depth t, table (Resource.readWithin depth) v = .ok t ∧ t.entries = rs
  | methods ms, v => table Method.read v = .ok ms
  | parameters ps, v => table Parameter.read v = .ok ps

end Part

/-! ## What is read on each level -/

section Read

variable {es : List (Value × Value)}

theorem Parameter.of_read {p : Parameter} (h : Parameter.read (.map es) = .ok p) :
    Validation.unknown shape.fields es = .ok p.unknown := by
  simp only [Parameter.read, Shape.read, Checked.seq_eq_ok, Checked.map_eq_ok] at h
  obtain ⟨_, u, ⟨_, _, ⟨_, _, ⟨_, _, ⟨_, _, ⟨_, _, ⟨_, _, ⟨_, _, ⟨_, _, ⟨_, -, rfl⟩, -, rfl⟩, -, rfl⟩, -, rfl⟩, -, rfl⟩,
    -, rfl⟩, -, rfl⟩, -, rfl⟩, -, rfl⟩, hu, rfl⟩ := h
  exact hu

theorem Method.of_read {m : Method} (h : Method.read (.map es) = .ok m) :
    (shape.field "parameters").read es ∅ (table Parameter.read) = .ok m.parameters ∧
      Validation.unknown shape.fields es = .ok m.unknown := by
  simp only [Method.read, Shape.read, Checked.seq_eq_ok, Checked.map_eq_ok] at h
  obtain ⟨_, u, ⟨_, _, ⟨_, _, ⟨_, _, ⟨_, _, ⟨_, ps, ⟨_, _, ⟨_, _, ⟨_, _, ⟨_, _, ⟨_, -, rfl⟩, -, rfl⟩, -, rfl⟩, -, rfl⟩,
    -, rfl⟩, hps, rfl⟩, -, rfl⟩, -, rfl⟩, -, rfl⟩, -, rfl⟩, hu, rfl⟩ := h
  exact ⟨hps, hu⟩

theorem Resource.readParts_eq_ok {inner : Value → Checked Resource} {parts : Table Method × List (String × Resource)} :
    Resource.readParts inner es = .ok parts ↔ (shape.field "methods").read es ∅ (table Method.read) = .ok parts.1 ∧
      (shape.field "resources").read es [] (fun v => (table inner v).map Table.entries) = .ok parts.2 := by
  simp only [readParts, Checked.seq_eq_ok, Checked.map_eq_ok]
  constructor
  · rintro ⟨_, rs, ⟨ms, hms, rfl⟩, hrs, rfl⟩
    exact ⟨hms, hrs⟩
  · rintro ⟨hms, hrs⟩
    exact ⟨_, _, ⟨_, hms, rfl⟩, hrs, rfl⟩

theorem Resource.readWithin_succ_eq_ok {depth : Nat} {r : Resource} :
    Resource.readWithin (depth + 1) (.map es) = .ok r ↔
      Resource.readParts (readWithin depth) es = .ok (r.methods, r.resources) ∧
        Validation.unknown shape.fields es = .ok r.unknown := by
  simp only [readWithin, Shape.read, Checked.seq_eq_ok, Checked.map_eq_ok]
  constructor
  · rintro ⟨_, u, ⟨parts, hparts, rfl⟩, hu, rfl⟩
    exact ⟨hparts, hu⟩
  · rintro ⟨hparts, hu⟩
    obtain ⟨ms, rs, u⟩ := r
    exact ⟨_, _, ⟨_, hparts, rfl⟩, hu, rfl⟩

theorem Document.of_read {d : Document} (h : Document.read (.map es) = .ok d) :
    Resource.readParts (Resource.readWithin (Value.map es).depth) es = .ok (d.tree.methods, d.tree.resources) ∧
      (shape.field "parameters").read es ∅ (table Parameter.read) = .ok d.parameters ∧
      Validation.unknown shape.fields es = .ok d.tree.unknown := by
  simp only [Document.read, Shape.read, Checked.seq_eq_ok, Checked.map_eq_ok] at h
  obtain ⟨_, u, ⟨_, _, ⟨_, ps, ⟨_, _, ⟨_, _, ⟨_, _, ⟨_, _, ⟨_, _, ⟨_, _, ⟨_, _, ⟨_, _, ⟨parts, hparts, rfl⟩, -, rfl⟩, -,
    rfl⟩, -, rfl⟩, -, rfl⟩, -, rfl⟩, -, rfl⟩, -, rfl⟩, -, rfl⟩, hps, rfl⟩, -, rfl⟩, hu, rfl⟩ := h
  exact ⟨hparts, hps, hu⟩

/-- A field with one spelling is read from what stands under its name. -/
theorem Validation.Field.check_of_read {α : Type} {check : Value → Checked α} {default a : α} {name : String}
    {v : Value} (h : (Field.plain name).read es default check = .ok a) (hv : Value.entry? es name = some v) :
    check v = .ok a := by
  have hread := Field.read_eq_ok_iff.1 h
  rw [Field.value?_plain, hv] at hread
  exact hread

end Read

/-! ## Names lead to parts -/

namespace Level

variable {inner : Level} {name : String}

theorem inner?_document (h : document.inner? name = some inner) :
    name = "methods" ∧ inner = methods ∨ name = "resources" ∧ inner = resources ∨
      name = "parameters" ∧ inner = parameters := by
  unfold inner? at h
  split at h <;> simp_all

theorem inner?_resource (h : resource.inner? name = some inner) :
    name = "methods" ∧ inner = methods ∨ name = "resources" ∧ inner = resources := by
  unfold inner? at h
  split at h <;> simp_all

theorem inner?_method (h : method.inner? name = some inner) : name = "parameters" ∧ inner = parameters := by
  unfold inner? at h
  split at h <;> simp_all

end Level

namespace Part

variable {p : Part} {es : List (Value × Value)} {l : Level} {name : String} {v : Value}

/-- The parts of a table are read from what stands under their names. -/
theorem exists_of_table {α : Type} {check : Value → Checked α} {t : Table α} (h : table check (.map es) = .ok t)
    (hv : last? name es = some v) (part : α → Part) :
    ∃ a, (t.get? name).map part = some (part a) ∧ check v = .ok a := by
  obtain ⟨a, hget, ha⟩ := exists_get?_of_table h hv
  exact ⟨a, by rw [hget]; rfl, ha⟩

/-- The part under a name is read from what stands under it. -/
theorem exists_inner (h : p.ReadFrom (.map es)) (hl : p.level.inner? name = some l)
    (hv : p.level.value? es name = some v) : ∃ q, p.inner? name = some q ∧ q.level = l ∧ q.ReadFrom v := by
  cases p with
  | document d =>
      obtain ⟨hparts, hps, -⟩ := Document.of_read h
      obtain ⟨hms, hrs⟩ := Resource.readParts_eq_ok.1 hparts
      rcases Level.inner?_document hl with ⟨rfl, rfl⟩ | ⟨rfl, rfl⟩ | ⟨rfl, rfl⟩
      · exact ⟨_, rfl, rfl, Field.check_of_read hms hv⟩
      · obtain ⟨t, ht, hentries⟩ := Checked.map_eq_ok.1 (Field.check_of_read hrs hv)
        exact ⟨_, rfl, rfl, _, t, ht, hentries⟩
      · exact ⟨_, rfl, rfl, Field.check_of_read hps hv⟩
  | resource r =>
      obtain ⟨depth, h⟩ := h
      cases depth with
      | zero => cases h
      | succ depth =>
          obtain ⟨hparts, -⟩ := Resource.readWithin_succ_eq_ok.1 h
          obtain ⟨hms, hrs⟩ := Resource.readParts_eq_ok.1 hparts
          rcases Level.inner?_resource hl with ⟨rfl, rfl⟩ | ⟨rfl, rfl⟩
          · exact ⟨_, rfl, rfl, Field.check_of_read hms hv⟩
          · obtain ⟨t, ht, hentries⟩ := Checked.map_eq_ok.1 (Field.check_of_read hrs hv)
            exact ⟨_, rfl, rfl, _, t, ht, hentries⟩
  | method m =>
      obtain ⟨hps, -⟩ := Method.of_read h
      obtain ⟨rfl, rfl⟩ := Level.inner?_method hl
      exact ⟨_, rfl, rfl, Field.check_of_read hps hv⟩
  | parameter q => cases hl
  | resources rs =>
      cases hl
      obtain ⟨depth, t, ht, rfl⟩ := h
      obtain ⟨r, hr, hread⟩ := exists_of_table ht hv resource
      exact ⟨_, hr, rfl, depth, hread⟩
  | methods ms =>
      cases hl
      obtain ⟨m, hm, hread⟩ := exists_of_table h hv method
      exact ⟨_, hm, rfl, hread⟩
  | parameters ps =>
      cases hl
      obtain ⟨q, hq, hread⟩ := exists_of_table h hv parameter
      exact ⟨_, hq, rfl, hread⟩

/-- Names that lead to an object lead to the part that was read from it. -/
theorem exists_at (h : p.ReadFrom v) {way : List String} (hway : p.level.at? v way = some (l, es)) :
    ∃ q, p.at? way = some q ∧ q.level = l ∧ q.ReadFrom (.map es) := by
  induction way generalizing p v with
  | nil =>
      cases v with
      | map es' =>
          cases hway
          exact ⟨p, rfl, rfl, h⟩
      | _ => cases hway
  | cons name way ih =>
      cases v with
      | map es' =>
          obtain ⟨inner, hinner, hrest⟩ := Option.bind_eq_some_iff.1 hway
          obtain ⟨w, hw, hrest⟩ := Option.bind_eq_some_iff.1 hrest
          obtain ⟨q, hq, rfl, hread⟩ := exists_inner h hinner hw
          obtain ⟨part, hpart, hlevel, hfrom⟩ := ih hread hrest
          exact ⟨part, Option.bind_eq_some_iff.2 ⟨q, hq, hpart⟩, hlevel, hfrom⟩
      | _ => cases hway

/-- All parts but tables have unknown keys of their own. -/
theorem exists_unknown (h : p.level.fields ≠ []) : ∃ u, p.unknown? = some u := by
  cases p with
  | resources _ | methods _ | parameters _ => exact absurd rfl h
  | _ => exact ⟨_, rfl⟩

/-- A part keeps what stands under the keys that are no spellings of its fields. -/
theorem get?_unknown (h : p.ReadFrom (.map es)) {u : Table Value} (hu : p.unknown? = some u)
    (hname : ∀ f ∈ p.level.fields, name ∉ f.spellings) : u.get? name = last? name es := by
  cases p with
  | document d =>
      cases hu
      exact Validation.get?_unknown (Document.of_read h).2.2 hname
  | resource r =>
      cases hu
      obtain ⟨depth, h⟩ := h
      cases depth with
      | zero => cases h
      | succ depth => exact Validation.get?_unknown (Resource.readWithin_succ_eq_ok.1 h).2 hname
  | method m =>
      cases hu
      exact Validation.get?_unknown (Method.of_read h).2 hname
  | parameter q =>
      cases hu
      exact Validation.get?_unknown (Parameter.of_read h) hname
  | _ => cases hu

end Part

end ApiDiscovery
