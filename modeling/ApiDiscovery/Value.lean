import ApiDiscovery.Calendar
import ApiDiscovery.Number.Double

/-!
# Values

The data that documents, parameters and request bodies are made of. A mapping keeps its entries in
the order in which its keys were first set. `Value.put` sets a key in place or at the end, so the
last value of a repeated key wins at the first one's position.
-/

namespace ApiDiscovery

open Number

/-- A datum. Sets and mappings list their members in order of insertion. -/
inductive Value where
  | null
  | bool (b : Bool)
  | int (n : Int)
  | float (x : Double)
  | str (s : String)
  | bytes (b : List UInt8)
  | date (d : Date)
  | timestamp (t : Timestamp)
  | list (items : List Value)
  | tuple (items : List Value)
  | set (items : List Value)
  | map (entries : List (Value × Value))
deriving Inhabited

namespace Value

mutual

def beq : Value → Value → Bool
  | null, null => true
  | bool a, bool b => a == b
  | int a, int b => a == b
  | float a, float b => a == b
  | str a, str b => a == b
  | bytes a, bytes b => a == b
  | date a, date b => a == b
  | timestamp a, timestamp b => a == b
  | list a, list b => beqItems a b
  | tuple a, tuple b => beqItems a b
  | set a, set b => beqItems a b
  | map a, map b => beqEntries a b
  | _, _ => false

/-- Whether two sequences hold the same data in the same order. -/
def beqItems : List Value → List Value → Bool
  | [], [] => true
  | a :: as, b :: bs => beq a b && beqItems as bs
  | _, _ => false

/-- Whether two mappings hold the same entries in the same order. -/
def beqEntries : List (Value × Value) → List (Value × Value) → Bool
  | [], [] => true
  | (k, a) :: as, (l, b) :: bs => beq k l && (beq a b && beqEntries as bs)
  | _, _ => false

end

mutual

theorem beq_iff_eq : (a b : Value) → (beq a b = true ↔ a = b)
  | list a, b => by cases b <;> simp [beq, beqItems_iff_eq a]
  | tuple a, b => by cases b <;> simp [beq, beqItems_iff_eq a]
  | set a, b => by cases b <;> simp [beq, beqItems_iff_eq a]
  | map a, b => by cases b <;> simp [beq, beqEntries_iff_eq a]
  | null, b => by cases b <;> simp [beq]
  | bool _, b => by cases b <;> simp [beq]
  | int _, b => by cases b <;> simp [beq]
  | float _, b => by cases b <;> simp [beq]
  | str _, b => by cases b <;> simp [beq]
  | bytes _, b => by cases b <;> simp [beq]
  | date _, b => by cases b <;> simp [beq]
  | timestamp _, b => by cases b <;> simp [beq]

theorem beqItems_iff_eq : (a b : List Value) → (beqItems a b = true ↔ a = b)
  | [], b => by cases b <;> simp [beqItems]
  | x :: as, b => by
    cases b with
    | nil => simp [beqItems]
    | cons y bs => simp [beqItems, beq_iff_eq x y, beqItems_iff_eq as bs]

theorem beqEntries_iff_eq : (a b : List (Value × Value)) → (beqEntries a b = true ↔ a = b)
  | [], b => by cases b <;> simp [beqEntries]
  | (k, x) :: as, b => by
    cases b with
    | nil => simp [beqEntries]
    | cons p bs =>
      obtain ⟨l, y⟩ := p
      simp [beqEntries, beq_iff_eq k l, beq_iff_eq x y, beqEntries_iff_eq as bs, and_assoc]

end

instance : DecidableEq Value := fun a b => decidable_of_iff _ (beq_iff_eq a b)

def kindName : Value → String
  | null => "NoneType"
  | bool _ => "bool"
  | int _ => "int"
  | float _ => "float"
  | str _ => "str"
  | bytes _ => "bytes"
  | date _ => "date"
  | timestamp _ => "datetime"
  | list _ => "list"
  | tuple _ => "tuple"
  | set _ => "set"
  | map _ => "dict"

/-- The word for the kind of a value with the word for its family, where it has one. -/
def qualifiedKindName : Value → String
  | date _ => "datetime.date"
  | timestamp _ => "datetime.datetime"
  | v => v.kindName

/-- Null, false, the zeros and everything empty count as no answer. -/
def truthy : Value → Bool
  | null => false
  | bool b => b
  | int n => n != 0
  | float x => !x.isZero
  | str s => !s.isEmpty
  | bytes b => !b.isEmpty
  | date _ => true
  | timestamp _ => true
  | list l => !l.isEmpty
  | tuple l => !l.isEmpty
  | set l => !l.isEmpty
  | map l => !l.isEmpty

/-- The number that a number or a truth value stands for. -/
def number? : Value → Option (Int ⊕ Double)
  | bool b => some (.inl (if b then 1 else 0))
  | int n => some (.inl n)
  | float x =>
      match x.toInt? with
      | some n => some (.inl n)
      | none => some (.inr x)
  | _ => none

/-- Whether two values are the same key of a mapping: numbers by their value, all else by what they
are. -/
def sameKey (a b : Value) : Bool :=
  match a.number?, b.number? with
  | some (.inl m), some (.inl n) => m == n
  | some (.inr x), some (.inr y) => x == y
  | none, none => a == b
  | _, _ => false

theorem number?_str (s : String) : (str s).number? = none := rfl

theorem ne_str_of_number? {a : Value} {s : String} (h : a.number? ≠ none) : a ≠ str s := by
  rintro rfl
  exact h rfl

theorem sameKey_str_right {a : Value} {s : String} : sameKey a (str s) = true ↔ a = str s := by
  unfold sameKey
  rw [number?_str]
  cases h : a.number? with
  | none => simp
  | some n =>
    have hne : a ≠ str s := ne_str_of_number? (by simp [h])
    cases n <;> simp [hne]

theorem sameKey_str_left {s : String} {b : Value} : sameKey (str s) b = true ↔ b = str s := by
  unfold sameKey
  rw [number?_str]
  cases h : b.number? with
  | none => simpa using eq_comm
  | some n =>
    have hne : b ≠ str s := ne_str_of_number? (by simp [h])
    cases n <;> simp [hne]

/-- Sets a key of a mapping: in place if it is there, else at the end. -/
def put (key value : Value) : List (Value × Value) → List (Value × Value)
  | [] => [(key, value)]
  | (k, v) :: rest =>
      if sameKey k key then (k, value) :: rest else (k, v) :: put key value rest

def putAll (pairs : List (Value × Value)) : List (Value × Value) :=
  pairs.foldl (fun acc p => put p.1 p.2 acc) []

def entry? (entries : List (Value × Value)) (key : String) : Option Value :=
  (entries.find? fun p => sameKey p.1 (.str key)).map (·.2)

theorem entry?_cons (k v : Value) (rest : List (Value × Value)) (s : String) :
    entry? ((k, v) :: rest) s = if k = str s then some v else entry? rest s := by
  unfold entry?
  rw [List.find?_cons]
  by_cases h : k = str s
  · rw [show sameKey k (str s) = true from sameKey_str_right.2 h, if_pos h]
    rfl
  · have hs : sameKey k (str s) = false :=
      Bool.eq_false_iff.2 fun hs => h (sameKey_str_right.1 hs)
    rw [hs, if_neg h]

theorem entry?_put (key value : Value) (es : List (Value × Value)) (s : String) :
    entry? (put key value es) s = if key = str s then some value else entry? es s := by
  induction es with
  | nil => rw [put, entry?_cons]
  | cons e rest ih =>
    obtain ⟨k, v⟩ := e
    unfold put
    by_cases hs : sameKey k key = true
    · have hkey : k = str s ↔ key = str s := by
        constructor
        · rintro rfl
          exact sameKey_str_left.1 hs
        · rintro rfl
          exact sameKey_str_right.1 hs
      rw [if_pos hs, entry?_cons, entry?_cons]
      simp only [hkey]
      by_cases h : key = str s <;> simp [h]
    · rw [if_neg hs, entry?_cons, entry?_cons, ih]
      by_cases hk : k = str s
      · have hkey : key ≠ str s := by
          rintro rfl
          exact hs (sameKey_str_right.2 hk)
        simp [hk, hkey]
      · simp [hk]

def get? (v : Value) (key : String) : Option Value :=
  match v with
  | .map entries => entry? entries key
  | _ => none

/-- A mapping with text keys. -/
def ofFields (fields : List (String × Value)) : Value :=
  .map (fields.map fun p => (.str p.1, p.2))

/-- A text or null. -/
def ofText? (s : Option String) : Value := (s.map Value.str).getD .null

def isKey : Value → Bool
  | list _ | set _ | map _ => false
  | tuple items => go items
  | _ => true
where
  go : List Value → Bool
    | [] => true
    | v :: rest => v.isKey && go rest

/-- The innermost value that keeps a value from being a key. -/
def unkeyable? : Value → Option Value
  | v@(list _) | v@(set _) | v@(map _) => some v
  | tuple items => go items
  | _ => none
where
  go : List Value → Option Value
    | [] => none
    | v :: rest => (unkeyable? v).or (go rest)

mutual

def depth : Value → Nat
  | .map es => depthOfEntries es + 1
  | _ => 0

def depthOfEntries : List (Value × Value) → Nat
  | [] => 0
  | (_, v) :: rest => max v.depth (depthOfEntries rest)

end

end Value

end ApiDiscovery
