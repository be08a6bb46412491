import ApiDiscovery.Table
import ApiDiscovery.Validation.Scalar

/-!
# Lists, tables and records in given data

A record is given by a mapping. Each of its fields has a name and perhaps a second spelling, which
is looked for first; a field that is not given has a default or is required. Keys that are no
spelling of a field are unknown: a record either keeps them or drops them.
-/

namespace ApiDiscovery.Validation

/-- The step to the value of a key: by its text, its number, or what shows it. -/
def stepOf : Value → Step
  | .str s => .key s
  | .bool b => .index (if b then 1 else 0)
  | .int n => if isWord n then .index n else .key (Value.int n).literal
  | v => .key v.literal

def items? : Value → Option (List Value)
  | .list l => some l
  | .tuple l => some l
  | .set l => some l
  | _ => none

def list (check : Value → Checked α) (v : Value) : Checked (List α) :=
  match items? v with
  | none => .fail .listKind
  | some l => .all (l.zipIdx.map fun (v, i) => (check v).within (.index i))

/-- One entry of a table: its name is a text. -/
def entry (check : Value → Checked α) (e : Value × Value) : Checked (String × α) :=
  let step := stepOf e.1
  let name := ((text e.1).within (.key "[key]")).within step
  let value := (check e.2).within step
  (name.map Prod.mk).seq value

def entries (check : Value → Checked α) (v : Value) : Checked (List (String × α)) :=
  match v with
  | .map es => .all (es.map (entry check))
  | _ => .fail .tableKind

def table (check : Value → Checked α) (v : Value) : Checked (Table α) :=
  (entries check v).map Table.ofList

def anyTable (v : Value) : Checked (Table Value) := table .ok v

/-- A table of fields, each checked as what it was written from, is read back. -/
theorem table_ofFields {check : Value → Checked α} {f : α → Value} (h : ∀ a, check (f a) = .ok a)
    (t : Table α) : table check (.ofFields (t.mapValues f).entries) = .ok t := by
  have hentry : ∀ e : String × α, entry check (.str e.1, f e.2) = .ok e := by
    intro e
    rw [entry, h]
    rfl
  have hentries : entries check (.ofFields (t.mapValues f).entries) = .ok t.entries := by
    rw [Value.ofFields, entries, Table.mapValues, Checked.all_eq_ok, List.map_map, List.map_map]
    exact List.map_congr_left fun e _ => hentry e
  rw [table, hentries]
  exact congrArg Checked.ok t.ofList_entries

/-- Whatever a table holds was let through by the check. -/
theorem exists_of_mem_table {check : Value → Checked α} {v : Value} {t : Table α} (h : table check v = .ok t)
    {name : String} {a : α} (hm : (name, a) ∈ t.entries) : ∃ w, check w = .ok a := by
  obtain ⟨es, hes, rfl⟩ := Checked.map_eq_ok.1 h
  have hmem : (name, a) ∈ es := Table.mem_ofList hm
  cases v with
  | map pairs =>
    rw [entries, Checked.all_eq_ok] at hes
    have hok : Checked.ok (name, a) ∈ pairs.map (entry check) := by
      rw [hes]
      exact List.mem_map_of_mem hmem
    obtain ⟨e, -, he⟩ := List.mem_map.1 hok
    obtain ⟨g, b, hg, hb, hgb⟩ := Checked.seq_eq_ok.1 he
    obtain ⟨n, -, rfl⟩ := Checked.map_eq_ok.1 hg
    cases hgb
    exact ⟨e.2, Checked.within_eq_ok.1 hb⟩
  | _ => cases hes

/-! ## Records -/

/-- The spellings of a field. -/
structure Field where
  name : String
  /-- The spelling that is looked for first. -/
  spelling : Option String
deriving DecidableEq, Repr

namespace Field

def plain (name : String) : Field := ⟨name, none⟩

def spelled (name spelling : String) : Field := ⟨name, some spelling⟩

/-- The spellings in the order in which they are looked for. -/
def spellings (f : Field) : List String := f.spelling.toList ++ [f.name]

/-- The spelling under which a field is given, with its value. -/
def given? (f : Field) (es : List (Value × Value)) : Option (String × Value) :=
  f.spellings.findSome? fun s => (Value.entry? es s).map fun v => (s, v)

def read (f : Field) (es : List (Value × Value)) (default : α) (check : Value → Checked α) :
    Checked α :=
  match f.given? es with
  | some (s, v) => (check v).within (.key s)
  | none => .ok default

def require (f : Field) (es : List (Value × Value)) (check : Value → Checked α) : Checked α :=
  match f.given? es with
  | some (s, v) => (check v).within (.key s)
  | none => (Checked.fail .missing).within (.key (f.spelling.getD f.name))

theorem read_plain (name : String) (es : List (Value × Value)) (default : α) (check : Value → Checked α) :
    (plain name).read es default check =
      match Value.entry? es name with
      | some v => (check v).within (.key name)
      | none => .ok default := by
  rw [read]
  cases h : Value.entry? es name <;> simp [given?, spellings, plain, h]

/-- A field that is read is the default, or was let through by the check. -/
theorem read_eq_ok {f : Field} {es : List (Value × Value)} {default a : α} {check : Value → Checked α}
    (h : f.read es default check = .ok a) : a = default ∨ ∃ v, check v = .ok a := by
  rw [read] at h
  split at h
  · exact .inr ⟨_, Checked.within_eq_ok.1 h⟩
  · cases h
    exact .inl rfl

end Field

def givenFields (fields : List Field) (es : List (Value × Value)) : List String :=
  (fields.filter fun f => (f.given? es).isSome).map (·.name)

def usedKeys (fields : List Field) (es : List (Value × Value)) : List String :=
  fields.filterMap fun f => (f.given? es).map (·.1)

/-- The unknown keys with their values. Their names are texts and nothing else. -/
def unknown (fields : List Field) (es : List (Value × Value)) :
    Checked (Table Value) :=
  let used := usedKeys fields es
  let rest := es.filter fun e =>
    match e.1 with
    | .str s => !used.contains s
    | _ => true
  let one (e : Value × Value) : Checked (String × Value) :=
    match e.1 with
    | .str s => .ok (s, e.2)
    | k => (Checked.fail .keyKind).within (stepOf k)
  (Checked.all (rest.map one)).map Table.ofList

/-- A kind of record: its name, its fields in order, whether it can be changed once it is made, and
whether it keeps unknown keys. -/
structure Shape where
  name : String
  fields : List Field
  frozen : Bool
  keepsUnknown : Bool

namespace Shape

def field (s : Shape) (name : String) : Field :=
  (s.fields.find? fun f => f.name == name).getD ⟨name, none⟩

/-- A record from the entries of the mapping that gives it. -/
def read (s : Shape) (build : List (Value × Value) → Checked α) (v : Value) : Checked α :=
  match v with
  | .map es => build es
  | _ => .fail (.recordKind s.name)

/-- The names of everything that a mapping sets in a record: fields, and the unknown keys if they
are kept. -/
def givenNames (s : Shape) (es : List (Value × Value)) : List String :=
  let own := givenFields s.fields es
  match unknown s.fields es with
  | .ok t => if s.keepsUnknown then own ++ (t.keys.filter fun k => !own.contains k) else own
  | .issues _ => own

/-- Why a field cannot be assigned. -/
inductive AssignFault where
  | frozen (r : Rejection)
  | noField (record field : String)

def AssignFault.message : AssignFault → String
  | .frozen r => r.message
  | .noField record field => "\"" ++ record ++ "\" object has no field \"" ++ field ++ "\""

/-- Whether a name can be assigned in a record of the shape. Names with a leading underscore are
nobody's fields and always can. -/
def assign (s : Shape) (name : String) : Except AssignFault Unit :=
  if name.startsWith "_" then .ok ()
  else if s.frozen then .error (.frozen ⟨s.name, [⟨[.key name], .frozen⟩]⟩)
  else if s.keepsUnknown || s.fields.any (·.name == name) then .ok ()
  else .error (.noField s.name name)

end Shape

end ApiDiscovery.Validation
