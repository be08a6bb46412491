/-!
# Double-precision numbers

The numbers of the 64-bit binary format, exactly. Every finite magnitude is a whole number of units
of `2 ^ -1074`, the smallest of them, so a magnitude is that number of units; the format keeps the
53 leading bits of it, below the bound `2 ^ 2098`. Arithmetic is exact on units and rounds once, to
the nearest magnitude and on a tie to the even one. A number of units that the format holds rounds
to itself (`roundUnits_self`), hence what is written exactly is read back (`ofUnits_units`).
-/

namespace ApiDiscovery.Number

/-- The units in the number one. -/
def unitsPerOne : Nat := Nat.pow 2 1074

/-- The first number of units beyond the format. -/
def unitsBound : Nat := Nat.pow 2 2098

/-- How many low bits of a number of units are beyond its 53 leading ones. -/
def spareBits (u : Nat) : Nat := Nat.log2 u - 52

/-- The format holds a number of units when its bits beyond the 53 leading ones are zero. -/
def Representable (u : Nat) : Prop := Nat.pow 2 (spareBits u) ∣ u ∧ u < unitsBound

/-- The quotient to the nearest whole number, on a tie to the even one. -/
def roundDiv (a b : Nat) : Nat :=
  let q := a / b
  let r := a % b
  if 2 * r < b then q
  else if b < 2 * r then q + 1
  else if q % 2 = 0 then q else q + 1

theorem roundDiv_le_succ (a b : Nat) : roundDiv a b ≤ a / b + 1 := by
  unfold roundDiv
  dsimp only
  split
  · omega
  · split
    · omega
    · split <;> omega

theorem roundDiv_mul_self (q b : Nat) (hb : 0 < b) : roundDiv (q * b) b = q := by
  simp [roundDiv, Nat.mul_mod_left, Nat.mul_div_cancel q hb, hb]

/-- The quotient `a / b` rounded to 53 leading bits. -/
def roundUnits (a b : Nat) : Nat :=
  let step := Nat.pow 2 (spareBits (a / b))
  roundDiv a (b * step) * step

theorem spareBits_dvd {r s : Nat} (h : r ≤ Nat.pow 2 53) :
    Nat.pow 2 (spareBits (r * Nat.pow 2 s)) ∣ r * Nat.pow 2 s := by
  rcases Nat.eq_zero_or_pos r with h0 | h0
  · subst h0
    rw [Nat.zero_mul]
    exact Nat.dvd_zero _
  · rcases Nat.lt_or_eq_of_le h with hlt | heq
    · have hne : r * Nat.pow 2 s ≠ 0 :=
        Nat.mul_ne_zero (Nat.ne_of_gt h0) (Nat.ne_of_gt (Nat.two_pow_pos s))
      have hlog : Nat.log2 (r * Nat.pow 2 s) < 53 + s := by
        rw [Nat.log2_lt hne, Nat.pow_add]
        exact Nat.mul_lt_mul_of_pos_right hlt (Nat.two_pow_pos s)
      have hle : spareBits (r * Nat.pow 2 s) ≤ s := by
        unfold spareBits
        omega
      exact Nat.dvd_trans (Nat.pow_dvd_pow 2 hle) (Nat.dvd_mul_left _ _)
    · have hsum : r * Nat.pow 2 s = Nat.pow 2 (53 + s) := by
        rw [heq]
        exact (Nat.pow_add 2 53 s).symm
      have hlog : Nat.log2 (Nat.pow 2 (53 + s)) = 53 + s := Nat.log2_two_pow
      rw [hsum]
      refine Nat.pow_dvd_pow 2 ?_
      unfold spareBits
      omega

theorem roundDiv_le_of_spare (a b : Nat) :
    roundDiv a (b * Nat.pow 2 (spareBits (a / b))) ≤ Nat.pow 2 53 := by
  refine Nat.le_trans (roundDiv_le_succ _ _) ?_
  rw [← Nat.div_div_eq_div_mul]
  have hlt : a / b < Nat.pow 2 53 * Nat.pow 2 (spareBits (a / b)) := by
    have hsum : Nat.pow 2 53 * Nat.pow 2 (spareBits (a / b)) = Nat.pow 2 (53 + spareBits (a / b)) :=
      (Nat.pow_add 2 53 (spareBits (a / b))).symm
    rw [hsum]
    refine Nat.lt_of_lt_of_le Nat.lt_log2_self (Nat.pow_le_pow_right (by decide) ?_)
    unfold spareBits
    omega
  exact (Nat.div_lt_iff_lt_mul (Nat.two_pow_pos (spareBits (a / b)))).2 hlt

/-- What rounding gives keeps to 53 leading bits. -/
theorem spareBits_roundUnits_dvd (a b : Nat) :
    Nat.pow 2 (spareBits (roundUnits a b)) ∣ roundUnits a b :=
  spareBits_dvd (roundDiv_le_of_spare a b)

/-- A number of units that keeps to 53 leading bits rounds to itself. -/
theorem roundUnits_self {u : Nat} (h : Nat.pow 2 (spareBits u) ∣ u) (b : Nat) (hb : 0 < b) :
    roundUnits (u * b) b = u := by
  unfold roundUnits
  simp only [Nat.mul_div_cancel u hb]
  have hpos : 0 < b * Nat.pow 2 (spareBits u) := Nat.mul_pos hb (Nat.two_pow_pos _)
  obtain ⟨q, hq⟩ := h
  generalize Nat.pow 2 (spareBits u) = step at hq hpos ⊢
  have hmul : u * b = q * (b * step) := by
    rw [hq, Nat.mul_comm step q, Nat.mul_assoc, Nat.mul_comm step b]
  rw [hmul, roundDiv_mul_self q _ hpos, Nat.mul_comm]
  exact hq.symm

/-- A finite magnitude of the format. -/
structure Magnitude where
  units : Nat
  representable : Representable units
deriving DecidableEq

/-- A number of the format. Zero has both signs; there is one NaN. -/
inductive Double where
  | finite (negative : Bool) (magnitude : Magnitude)
  | infinite (negative : Bool)
  | nan
deriving DecidableEq

namespace Double

/-- The number of `a / b` units, rounded; too many are infinite. -/
def ofUnits (negative : Bool) (a b : Nat) : Double :=
  if h : roundUnits a b < unitsBound then
    .finite negative ⟨roundUnits a b, spareBits_roundUnits_dvd a b, h⟩
  else .infinite negative

/-- A magnitude's own units give it back. -/
theorem ofUnits_units (negative : Bool) (m : Magnitude) (b : Nat) (hb : 0 < b) :
    ofUnits negative (m.units * b) b = .finite negative m := by
  have h := roundUnits_self m.representable.1 b hb
  unfold ofUnits
  simp [h, m.representable.2]

def ofRatio (negative : Bool) (num den : Nat) : Double :=
  ofUnits negative (num * unitsPerOne) den

def ofInt (n : Int) : Double := ofRatio (n < 0) n.natAbs 1

def zero (negative : Bool) : Double := ofUnits negative 0 1

def toInt? : Double → Option Int
  | .finite neg m =>
      if m.units % unitsPerOne = 0 then
        let n : Int := m.units / unitsPerOne
        some (if neg then -n else n)
      else none
  | _ => none

def isZero : Double → Bool
  | .finite _ m => m.units == 0
  | _ => false

def negate : Double → Double
  | .finite neg m => .finite (!neg) m
  | .infinite neg => .infinite (!neg)
  | .nan => .nan

/-- The sum, rounded; a sum of zero is negative only when both numbers are. Infinities of opposite
sign have none. -/
def add : Double → Double → Double
  | .finite sa a, .finite sb b =>
      let signed (negative : Bool) (m : Magnitude) : Int := if negative then -m.units else m.units
      let sum := signed sa a + signed sb b
      ofUnits (if sum = 0 then sa && sb else sum < 0) sum.natAbs 1
  | .infinite sa, .infinite sb => if sa == sb then .infinite sa else .nan
  | .infinite sa, .finite .. => .infinite sa
  | .finite .., .infinite sb => .infinite sb
  | _, _ => .nan

/-- The product, rounded; zero times infinity is none. -/
def mul : Double → Double → Double
  | .finite sa a, .finite sb b => ofUnits (sa != sb) (a.units * b.units) unitsPerOne
  | .finite sa a, .infinite sb => if a.units = 0 then .nan else .infinite (sa != sb)
  | .infinite sa, .finite sb b => if b.units = 0 then .nan else .infinite (sa != sb)
  | .infinite sa, .infinite sb => .infinite (sa != sb)
  | _, _ => .nan

def isFinite : Double → Bool
  | .finite .. => true
  | _ => false

/-- The order of numbers that are not NaN, as a key: sign and units, the infinities outermost. -/
def orderKey : Double → Int
  | .finite neg m => if neg then -(m.units : Int) else m.units
  | .infinite neg => if neg then -(unitsBound : Int) else unitsBound
  | .nan => 0

end Double

end ApiDiscovery.Number
