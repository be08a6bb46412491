import ApiDiscovery.Value.Text

/-!
# Issues with given data

Data that is to become a record is checked as a whole: every issue is reported, with the place in
the data where it stands. `Checked` is the result of a check; two checks side by side
(`Checked.seq`) have the issues of both.
-/

namespace ApiDiscovery.Validation

/-- A step from a datum to one inside it. -/
inductive Step where
  | key (name : String)
  | index (n : Int)
deriving DecidableEq, Repr

/-- What is wrong with a datum. -/
inductive Cause where
  | missing
  | textKind
  | textEncoding
  | boolKind
  | boolText
  | numberKind
  | numberText
  | wholeKind
  | wholeText
  | wholeSize
  | fractional
  | notFinite
  | listKind
  | tableKind
  /-- A record of the named kind is to be given by a mapping. -/
  | recordKind (name : String)
  /-- A record in JSON is to be given by an object. -/
  | objectKind
  | location
  | keyKind
  | json
  | frozen
deriving DecidableEq, Repr

namespace Cause

def code : Cause → String
  | missing => "missing"
  | textKind => "string_type"
  | textEncoding => "string_unicode"
  | boolKind => "bool_type"
  | boolText => "bool_parsing"
  | numberKind => "float_type"
  | numberText => "float_parsing"
  | wholeKind => "int_type"
  | wholeText => "int_parsing"
  | wholeSize => "int_parsing_size"
  | fractional => "int_from_float"
  | notFinite => "finite_number"
  | listKind => "list_type"
  | tableKind => "dict_type"
  | recordKind _ => "model_type"
  | objectKind => "model_type"
  | location => "enum"
  | keyKind => "invalid_key"
  | json => "json_invalid"
  | frozen => "frozen_instance"

def message : Cause → String
  | missing => "Field required"
  | textKind => "Input should be a valid string"
  | textEncoding =>
      "Input should be a valid string, unable to parse raw data as a unicode string"
  | boolKind => "Input should be a valid boolean"
  | boolText => "Input should be a valid boolean, unable to interpret input"
  | numberKind => "Input should be a valid number"
  | numberText => "Input should be a valid number, unable to parse string as a number"
  | wholeKind => "Input should be a valid integer"
  | wholeText => "Input should be a valid integer, unable to parse string as an integer"
  | wholeSize => "Unable to parse input string as an integer, exceeded maximum size"
  | fractional => "Input should be a valid integer, got a number with a fractional part"
  | notFinite => "Input should be a finite number"
  | listKind => "Input should be a valid list"
  | tableKind => "Input should be a valid dictionary"
  | recordKind name => "Input should be a valid dictionary or instance of " ++ name
  | objectKind => "Input should be an object"
  | location => "Input should be 'path', 'query' or 'body'"
  | keyKind => "Keys should be strings"
  | json => "Invalid JSON"
  | frozen => "Instance is frozen"

end Cause

/-- A cause at a place. -/
structure Issue where
  place : List Step
  cause : Cause
deriving DecidableEq, Repr

/-- The issues that keep data from being a record, with the name of the record. -/
structure Rejection where
  record : String
  issues : List Issue
deriving DecidableEq, Repr

def Rejection.message (r : Rejection) : String :=
  toString r.issues.length ++ " validation error(s) for " ++ r.record

/-- The result of a check. -/
inductive Checked (α : Type) where
  | ok (a : α)
  | issues (is : List Issue)
deriving DecidableEq

namespace Checked

def fail (c : Cause) : Checked α := issues [⟨[], c⟩]

def map (f : α → β) : Checked α → Checked β
  | ok a => ok (f a)
  | issues is => issues is

def seq : Checked (α → β) → Checked α → Checked β
  | ok f, ok a => ok (f a)
  | ok _, issues is => issues is
  | issues is, ok _ => issues is
  | issues is, issues js => issues (is ++ js)

def bind : Checked α → (α → Checked β) → Checked β
  | ok a, f => f a
  | issues is, _ => issues is

instance : Functor Checked := ⟨map, fun a => map fun _ => a⟩

instance : Pure Checked := ⟨ok⟩

instance : Seq Checked := ⟨fun f x => seq f (x ())⟩

instance [Inhabited α] : Inhabited (Checked α) := ⟨issues []⟩

/-- The check of a datum at a step inside another one. -/
def within (s : Step) : Checked α → Checked α
  | ok a => ok a
  | issues is => issues (is.map fun i => ⟨s :: i.place, i.cause⟩)

def all : List (Checked α) → Checked (List α)
  | [] => ok []
  | c :: rest => seq (map List.cons c) (all rest)

def toExcept (record : String) : Checked α → Except Rejection α
  | ok a => .ok a
  | issues is => .error ⟨record, is⟩

/-! ### What is let through -/

variable {α β : Type}

theorem map_eq_ok {f : α → β} {c : Checked α} {b : β} : f <$> c = ok b ↔ ∃ a, c = ok a ∧ f a = b := by
  show map f c = ok b ↔ _
  cases c <;> simp [map]

theorem seq_eq_ok {f : Checked (α → β)} {c : Checked α} {b : β} :
    f <*> c = ok b ↔ ∃ g a, f = ok g ∧ c = ok a ∧ g a = b := by
  show seq f c = ok b ↔ _
  cases f <;> cases c <;> simp [seq]

theorem within_eq_ok {s : Step} {c : Checked α} {a : α} : c.within s = ok a ↔ c = ok a := by
  cases c <;> simp [within]

theorem all_eq_ok {cs : List (Checked α)} {as : List α} : all cs = ok as ↔ cs = as.map ok := by
  induction cs generalizing as with
  | nil => cases as <;> simp [all]
  | cons c rest ih =>
    have hseq : all (c :: rest) = List.cons <$> c <*> all rest := rfl
    rw [hseq, seq_eq_ok]
    constructor
    · rintro ⟨g, bs, hg, hbs, rfl⟩
      obtain ⟨a, rfl, rfl⟩ := map_eq_ok.1 hg
      rw [ih.1 hbs, List.map_cons]
    · intro h
      cases as with
      | nil => cases h
      | cons a bs =>
        rw [List.map_cons, List.cons.injEq] at h
        exact ⟨List.cons a, bs, map_eq_ok.2 ⟨a, h.1, rfl⟩, ih.2 h.2, rfl⟩

theorem toExcept_eq_ok {record : String} {c : Checked α} {a : α} :
    c.toExcept record = .ok a ↔ c = ok a := by
  cases c <;> simp [toExcept]

end Checked

end ApiDiscovery.Validation
