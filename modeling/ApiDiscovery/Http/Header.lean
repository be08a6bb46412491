import ApiDiscovery.Table
import ApiDiscovery.Text.Blank
import ApiDiscovery.Text.Quoted

/-!
# Header fields

The header of a message lists fields, each a name with a value, in ASCII. Names are compared without
regard to case; a name may have several fields. `Headers.values` is the view: the values that a name
has. Who reads a header finds each name once, with all its values in one text (`Headers.rows`).
-/

namespace ApiDiscovery.Http

open Text

abbrev Headers := List (String × String)

/-- Whether two names are the same but for case. -/
def sameName (a b : String) : Bool := lowerAscii a == lowerAscii b

theorem sameName_iff {a b : String} : sameName a b = true ↔ lowerAscii a = lowerAscii b := by
  simp [sameName]

namespace Headers

def values (h : Headers) (name : String) : List String :=
  (h.filter fun f => sameName f.1 name).map (·.2)

/-- The values of a name with commas between them, if it has any. -/
def get? (h : Headers) (name : String) : Option String :=
  match h.values name with
  | [] => none
  | vs => some (", ".intercalate vs)

def contains (h : Headers) (name : String) : Bool := h.any fun f => sameName f.1 name

def erase (h : Headers) (name : String) : Headers := h.filter fun f => !sameName f.1 name

/-- Gives a name one value, in place of its first field or at the end. -/
def set (h : Headers) (name value : String) : Headers :=
  match h with
  | [] => [(name, value)]
  | f :: rest =>
      if sameName f.1 name then (name, value) :: erase rest name else f :: set rest name value

def setDefault (h : Headers) (name value : String) : Headers :=
  if h.contains name then h else h ++ [(name, value)]

/-- A value behind those that a name has already. -/
def joined : Option String → String → String
  | none, value => value
  | some before, value => before ++ ", " ++ value

/-- The header as it is read: every name once, in small letters, with its values in one text. -/
def rows (h : Headers) : Table String :=
  h.foldl (fun t f => t.set (lowerAscii f.1) (joined (t.get? (lowerAscii f.1)) f.2)) ∅

theorem values_append (g h : Headers) (name : String) :
    values (g ++ h) name = g.values name ++ h.values name := by
  simp [values]

theorem values_cons (f : String × String) (rest : Headers) (name : String) :
    values (f :: rest) name =
      if sameName f.1 name then f.2 :: values rest name else values rest name := by
  cases hf : sameName f.1 name <;> simp [values, hf]

theorem erase_cons (f : String × String) (rest : Headers) (name : String) :
    erase (f :: rest) name = if sameName f.1 name then erase rest name else f :: erase rest name := by
  cases hf : sameName f.1 name <;> simp [erase, hf]

theorem values_erase (h : Headers) (name other : String) :
    (h.erase name).values other = if sameName name other then [] else h.values other := by
  induction h with
  | nil => simp [erase, values]
  | cons f rest ih =>
    rw [erase_cons, values_cons]
    cases hn : sameName f.1 name with
    | true =>
      have hf := sameName_iff.1 hn
      have hno : sameName f.1 other = sameName name other := by
        rw [Bool.eq_iff_iff, sameName_iff, sameName_iff, hf]
      simp only [if_true, ih, hno]
      cases sameName name other <;> simp
    | false =>
      have hno : sameName f.1 other = true → sameName name other = false := fun ho => by
        rw [Bool.eq_false_iff]
        intro h
        have : sameName f.1 name = true :=
          sameName_iff.2 ((sameName_iff.1 ho).trans (sameName_iff.1 h).symm)
        simp [hn] at this
      simp only [Bool.false_eq_true, if_false, values_cons, ih]
      cases ho : sameName f.1 other
      · simp
      · simp [hno ho]

theorem intercalate_eq_foldl (sep first : String) (rest : List String) :
    sep.intercalate (first :: rest) = rest.foldl (fun text v => text ++ sep ++ v) first := by
  induction rest generalizing first with
  | nil => exact String.intercalate_singleton
  | cons v rest ih =>
      rw [String.intercalate_cons_cons, ← String.intercalate_cons_append]
      exact ih (first ++ sep ++ v)

theorem get?_eq_foldl (h : Headers) (name : String) :
    h.get? name = (h.values name).foldl (fun text v => some (joined text v)) none := by
  have hsome (vs : List String) (text : String) : vs.foldl (fun text v => some (joined text v)) (some text) =
      some (vs.foldl (fun text v => text ++ ", " ++ v) text) := by
    induction vs generalizing text with
    | nil => rfl
    | cons v vs ih => exact ih (text ++ ", " ++ v)
  rw [get?]
  cases h.values name with
  | nil => rfl
  | cons v vs =>
      show some (", ".intercalate (v :: vs)) = _
      rw [intercalate_eq_foldl]
      exact (hsome vs v).symm

/-- What is read under a name are its values. -/
theorem get?_rows (h : Headers) (name : String) : h.rows.get? (lowerAscii name) = h.get? name := by
  have hstep (fields : Headers) (t : Table String) :
      (fields.foldl (fun t f => t.set (lowerAscii f.1) (joined (t.get? (lowerAscii f.1)) f.2)) t).get?
        (lowerAscii name) =
        (values fields name).foldl (fun text v => some (joined text v)) (t.get? (lowerAscii name)) := by
    induction fields generalizing t with
    | nil => rfl
    | cons f fields ih =>
        rw [List.foldl_cons, ih, Table.get?_set, values_cons]
        cases hf : sameName f.1 name with
        | true =>
            rw [sameName_iff.1 hf, if_pos rfl, if_pos rfl]
            rfl
        | false =>
            have hne : lowerAscii f.1 ≠ lowerAscii name := by
              rw [Ne, ← sameName_iff, hf]
              exact Bool.false_ne_true
            rw [if_neg hne, if_neg Bool.false_ne_true]
  rw [get?_eq_foldl, rows, hstep]
  rfl

end Headers

/-! ## Texts that go into a header -/

/-- The first stretch of characters beyond ASCII in a text that is to be a name or a value: the
first of them, where it stands, and where the stretch ends. -/
structure TextFault where
  first : Char
  start : Nat
  stop : Nat
deriving DecidableEq, Repr

/-- The first stretch of characters beyond ASCII. -/
def textFault? (s : String) : Option TextFault :=
  let isAscii (c : Char) := c.toNat < 0x80
  match s.toList.dropWhile isAscii with
  | [] => none
  | c :: rest =>
      let start := (s.toList.takeWhile isAscii).length
      some ⟨c, start, start + 1 + (rest.takeWhile (!isAscii ·)).length⟩

/-- The words for characters that have no place in a header. -/
def TextFault.message (f : TextFault) : String :=
  (if f.start + 1 = f.stop then
    "'ascii' codec can't encode character '" ++ String.ofList (escapeByNumber f.first) ++
      "' in position " ++ toString f.start
  else
    "'ascii' codec can't encode characters in position " ++ toString f.start ++ "-" ++
      toString (f.stop - 1)) ++ ": ordinal not in range(128)"

/-- Whether texts can be the fields of a header: the first that cannot, names before values. -/
def headerFault? : List (String × String) → Option TextFault
  | [] => none
  | (name, value) :: rest => ((textFault? name).or (textFault? value)).or (headerFault? rest)

end ApiDiscovery.Http
