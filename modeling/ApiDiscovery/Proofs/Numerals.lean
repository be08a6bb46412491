import ApiDiscovery.Number.Numeral
import ApiDiscovery.Proofs.Trimming
import Mathlib.Algebra.Group.Nat.Defs

/-!
# Written numbers are read back

A magnitude is written by the fewest digits that read back as it, or by all of its digits. So what the digits denote
is the magnitude again (`ofDecimal_shortest`). In between, digits are moved past the point: zeros at the end are left
out, and a layout places the point or writes an exponent. That changes neither the number (`ofDecimal_shift`) nor the
bounds from which on a number is infinite or zero, as these look at the place of the leading digit.

Main statements: `ofDecimal_shortest`, `Layout.magnitude_numeral`.
-/

namespace ApiDiscovery.Number

open Text

/-! ## Digits -/

theorem decimalDigits_eq (cs : List Char) : decimalDigits cs = Nat.ofDigitChars 10 cs 0 := by
  rw [decimalDigits, ofDigits, List.foldl_map, Nat.ofDigitChars_eq_foldl]
  congr 1
  funext n c
  rw [Nat.mul_comm]
  rfl

theorem decimalDigits_append (s t : List Char) :
    decimalDigits (s ++ t) = decimalDigits s * 10 ^ t.length + decimalDigits t := by
  rw [decimalDigits_eq, decimalDigits_eq, decimalDigits_eq, Nat.ofDigitChars_append,
    Nat.ofDigitChars_eq_ofDigitChars_zero, Nat.mul_comm]

theorem decimalDigits_zeros (k : Nat) : decimalDigits (List.replicate k '0') = 0 := by
  rw [decimalDigits_eq, Nat.ofDigitChars_replicate_zero, Nat.mul_zero]

theorem decimalDigits_zeros_append (k : Nat) (s : List Char) :
    decimalDigits (List.replicate k '0' ++ s) = decimalDigits s := by
  rw [decimalDigits_append, decimalDigits_zeros, Nat.zero_mul, Nat.zero_add]

theorem decimalDigits_append_zeros (s : List Char) (k : Nat) :
    decimalDigits (s ++ List.replicate k '0') = decimalDigits s * 10 ^ k := by
  rw [decimalDigits_append, decimalDigits_zeros, List.length_replicate, Nat.add_zero]

theorem decimalDigits_toDigits (n : Nat) : decimalDigits (Nat.toDigits 10 n) = n := by
  rw [decimalDigits_eq, Nat.ofDigitChars_ten_toDigits]

theorem isDigit_of_mem_toDigits {n : Nat} {c : Char} (h : c ∈ Nat.toDigits 10 n) : c.isDigit = true :=
  Nat.isDigit_of_mem_toDigits (by decide) (by decide) h

theorem zero_isDigit : ∀ c ∈ ['0'], c.isDigit = true := by
  intro c hc
  rw [List.mem_singleton.1 hc]
  rfl

theorem decimalDigits_lt {s : List Char} (h : ∀ c ∈ s, c.isDigit = true) : decimalDigits s < 10 ^ s.length := by
  induction s with
  | nil => exact Nat.one_pos
  | cons c s ih =>
      have hs := ih fun d hd => h d (List.mem_cons_of_mem c hd)
      have hc : decimalDigits [c] ≤ 9 := by
        have hdigit := h c List.mem_cons_self
        rw [Char.isDigit, Bool.and_eq_true, decide_eq_true_eq, decide_eq_true_eq] at hdigit
        have hle : c.toNat ≤ 57 := hdigit.2
        show 0 * 10 + (c.toNat - 48) ≤ 9
        omega
      have hcons := decimalDigits_append [c] s
      have hmul : decimalDigits [c] * 10 ^ s.length ≤ 9 * 10 ^ s.length := Nat.mul_le_mul_right _ hc
      rw [List.singleton_append] at hcons
      rw [hcons, List.length_cons, Nat.pow_succ]
      omega

theorem digitCount_le_iff {n k : Nat} (hk : 0 < k) : digitCount n ≤ k ↔ n < 10 ^ k :=
  Nat.length_toDigits_le_iff (by decide) hk

theorem digitCount_pos (n : Nat) : 0 < digitCount n := Nat.length_toDigits_pos

/-- Only zero is written with a zero in front. -/
theorem head?_toDigits {n : Nat} (hn : n ≠ 0) : (Nat.toDigits 10 n).head? ≠ some '0' := by
  intro hzero
  obtain ⟨rest, hrest⟩ := List.head?_eq_some_iff.1 hzero
  have hvalue : decimalDigits rest = n := by
    rw [← decimalDigits_toDigits n, hrest]
    exact (decimalDigits_zeros_append 1 rest).symm
  have hlt : decimalDigits rest < 10 ^ rest.length := decimalDigits_lt fun c hc =>
    isDigit_of_mem_toDigits (n := n) (by rw [hrest]; exact List.mem_cons_of_mem _ hc)
  have hcount : digitCount n = rest.length + 1 := by rw [digitCount, hrest, List.length_cons]
  rw [hvalue] at hlt
  cases hlength : rest.length with
  | zero =>
      rw [hlength] at hlt
      omega
  | succ k =>
      rw [hlength, ← digitCount_le_iff (Nat.succ_pos k)] at hlt
      omega

theorem signed_natAbs (n : Int) : (if decide (n < 0) = true then -(n.natAbs : Int) else n.natAbs) = n := by
  simp only [decide_eq_true_eq]
  omega

/-- Each factor of ten brings one more digit. -/
theorem digitCount_mul_pow {n : Nat} (hn : 0 < n) (k : Nat) : digitCount (n * 10 ^ k) = digitCount n + k := by
  have hpos := digitCount_pos n
  have hpow : 0 < 10 ^ k := Nat.pow_pos (by decide)
  refine Nat.le_antisymm ?_ ?_
  · have hlt : n < 10 ^ digitCount n := (digitCount_le_iff hpos).1 (Nat.le_refl _)
    rw [digitCount_le_iff (Nat.add_pos_left hpos k), Nat.pow_add]
    exact Nat.mul_lt_mul_of_pos_right hlt hpow
  · by_contra hless
    have hle : digitCount (n * 10 ^ k) ≤ digitCount n - 1 + k := by omega
    by_cases hone : digitCount n - 1 + k = 0
    · have hpos' := digitCount_pos (n * 10 ^ k)
      omega
    · rw [digitCount_le_iff (Nat.pos_of_ne_zero hone), Nat.pow_add] at hle
      have hlt : n < 10 ^ (digitCount n - 1) := Nat.lt_of_mul_lt_mul_right hle
      by_cases hdigit : digitCount n = 1
      · rw [hdigit] at hlt
        omega
      · rw [← digitCount_le_iff (by omega)] at hlt
        omega

/-! ## Rounding looks at quotients -/

theorem roundDiv_mul {c : Nat} (hc : 0 < c) (a b : Nat) : roundDiv (a * c) (b * c) = roundDiv a b := by
  have hdiv : a * c / (b * c) = a / b := Nat.mul_div_mul_right a b hc
  have hmod : a * c % (b * c) = a % b * c := Nat.mul_mod_mul_right c a b
  have hlt (x y : Nat) : x * c < y * c ↔ x < y := Nat.mul_lt_mul_right hc
  rw [roundDiv, roundDiv, hdiv, hmod, ← Nat.mul_assoc]
  simp only [hlt]

theorem roundUnits_mul {c : Nat} (hc : 0 < c) (a b : Nat) : roundUnits (a * c) (b * c) = roundUnits a b := by
  have hdiv : a * c / (b * c) = a / b := Nat.mul_div_mul_right a b hc
  rw [roundUnits, roundUnits, hdiv, Nat.mul_right_comm, roundDiv_mul hc]

namespace Double

theorem ofUnits_mul {c : Nat} (hc : 0 < c) (negative : Bool) (a b : Nat) :
    ofUnits negative (a * c) (b * c) = ofUnits negative a b := by
  unfold ofUnits
  simp only [roundUnits_mul hc]

/-- Equal quotients are the same number. -/
theorem ofRatio_congr {a b a' b' : Nat} (hb : 0 < b) (hb' : 0 < b') (h : a * b' = a' * b) (negative : Bool) :
    ofRatio negative a b = ofRatio negative a' b' := by
  have hcross : a * unitsPerOne * b' = a' * unitsPerOne * b := by
    rw [Nat.mul_right_comm, h, Nat.mul_right_comm]
  rw [ofRatio, ofRatio, ← ofUnits_mul hb' negative _ b, hcross, Nat.mul_comm b b', ofUnits_mul hb]

/-- A power of ten can be moved between digits and exponent. -/
theorem ofDecimal_shift (negative : Bool) (digits k : Nat) (exponent : Int) :
    ofDecimal negative ⟨digits * 10 ^ k, exponent⟩ = ofDecimal negative ⟨digits, exponent + k⟩ := by
  rcases Nat.eq_zero_or_pos digits with rfl | hpos
  · rw [Nat.zero_mul, ofDecimal, ofDecimal, if_pos rfl, if_pos rfl]
  have hpow (n : Nat) : 0 < 10 ^ n := Nat.pow_pos (by decide)
  have hne : digits * 10 ^ k ≠ 0 := Nat.ne_of_gt (Nat.mul_pos hpos (hpow k))
  have htop : exponent + digitCount (digits * 10 ^ k) = exponent + k + digitCount digits := by
    rw [digitCount_mul_pow hpos]
    omega
  rw [ofDecimal, ofDecimal, if_neg hne, if_neg (Nat.ne_of_gt hpos), htop]
  dsimp only
  split
  · rfl
  split
  · rfl
  split
  next hexponent =>
    rw [if_pos (by omega)]
    refine ofRatio_congr Nat.one_pos Nat.one_pos ?_ negative
    have hsum : (exponent + k).toNat = k + exponent.toNat := by omega
    show digits * 10 ^ k * 10 ^ exponent.toNat * 1 = digits * 10 ^ (exponent + k).toNat * 1
    rw [hsum, Nat.pow_add, Nat.mul_assoc digits]
  next hexponent =>
    split
    next hmoved =>
      refine ofRatio_congr (hpow _) Nat.one_pos ?_ negative
      have hsum : k = (exponent + k).toNat + (-exponent).toNat := by omega
      show digits * 10 ^ k * 1 = digits * 10 ^ (exponent + k).toNat * 10 ^ (-exponent).toNat
      rw [Nat.mul_one, Nat.mul_assoc, ← Nat.pow_add, ← hsum]
    next hmoved =>
      refine ofRatio_congr (hpow _) (hpow _) ?_ negative
      have hsum : (-exponent).toNat = k + (-(exponent + k)).toNat := by omega
      show digits * 10 ^ k * 10 ^ (-(exponent + k)).toNat = digits * 10 ^ (-exponent).toNat
      rw [hsum, Nat.pow_add, Nat.mul_assoc]

theorem units_of_zero {negative : Bool} {m : Magnitude} (h : zero negative = .finite negative m) : m.units = 0 := by
  have hround : roundUnits 0 1 = 0 := roundUnits_self (u := 0) (Nat.dvd_zero _) 1 Nat.one_pos
  unfold zero ofUnits at h
  split at h
  · cases h
    exact hround
  · cases h

theorem negate_ofUnits (a b : Nat) : (ofUnits false a b).negate = ofUnits true a b := by
  unfold ofUnits
  split <;> rfl

theorem negate_ofDecimal (d : Decimal) : (ofDecimal false d).negate = ofDecimal true d := by
  unfold ofDecimal
  split
  · exact negate_ofUnits 0 1
  dsimp only
  split
  · rfl
  split
  · exact negate_ofUnits 0 1
  split
  · exact negate_ofUnits _ 1
  · exact negate_ofUnits _ _

/-- The sign is none of a numeral's business. -/
theorem ofDecimal_of_false {d : Decimal} {m : Magnitude} (h : ofDecimal false d = .finite false m) (negative : Bool) :
    ofDecimal negative d = .finite negative m := by
  cases negative with
  | false => exact h
  | true =>
      rw [← negate_ofDecimal, h]
      rfl

end Double

/-! ## The shortest numeral -/

theorem ten_pow_le_five_pow (k : Nat) : 10 ^ (2 * k) ≤ 5 ^ (3 * k) := by
  rw [Nat.pow_mul, Nat.pow_mul]
  exact Nat.pow_le_pow_left (by decide) k

theorem two_pow_le_ten_pow (k : Nat) : 2 ^ (3 * k) ≤ 10 ^ k := by
  rw [Nat.pow_mul]
  exact Nat.pow_le_pow_left (by decide) k

/-- How many digits the units of a magnitude come to, counted in powers of five. -/
theorem digitCount_units {u k l : Nat} (hu : 0 < u) (hbound : u < 2 ^ (3 * k + 3 * l)) (hl : 0 < l) :
    2 * l ≤ digitCount (u * 5 ^ (3 * l)) ∧ digitCount (u * 5 ^ (3 * l)) ≤ k + 3 * l := by
  have hfive : 0 < 5 ^ (3 * l) := Nat.pow_pos (by decide)
  constructor
  · by_contra hfew
    have hle : digitCount (u * 5 ^ (3 * l)) ≤ 2 * l := by omega
    have hpred : digitCount (u * 5 ^ (3 * l)) ≤ 2 * l - 1 := by omega
    rw [digitCount_le_iff (by omega)] at hpred
    have hpow : 10 ^ (2 * l - 1) ≤ 10 ^ (2 * l) := Nat.pow_le_pow_right (by decide) (by omega)
    have hself : 5 ^ (3 * l) ≤ u * 5 ^ (3 * l) := Nat.le_mul_of_pos_left _ hu
    have hten := ten_pow_le_five_pow l
    omega
  · rw [digitCount_le_iff (by omega)]
    calc u * 5 ^ (3 * l) < 2 ^ (3 * k + 3 * l) * 5 ^ (3 * l) := Nat.mul_lt_mul_of_pos_right hbound hfive
      _ = 2 ^ (3 * k) * 10 ^ (3 * l) := by rw [Nat.pow_add, Nat.mul_assoc, ← Nat.mul_pow]
      _ ≤ 10 ^ k * 10 ^ (3 * l) := Nat.mul_le_mul_right _ (two_pow_le_ten_pow k)
      _ = 10 ^ (k + 3 * l) := (Nat.pow_add 10 k (3 * l)).symm

/-! The powers of the format are too large to be evaluated: their exponents are kept as variables. -/

theorem lt_two_pow {u n : Nat} (h : u < unitsBound) (hn : 2098 ≤ n) : u < 2 ^ n := by
  have hpow (k : Nat) (hk : k ≤ n) (hu : u < Nat.pow 2 k) : u < 2 ^ n :=
    Nat.lt_of_lt_of_le hu (Nat.pow_le_pow_right (by decide) hk)
  delta unitsBound at h
  generalize 2098 = k at h hn
  exact hpow k hn h

theorem unitsPerOne_eq {n : Nat} (hn : 1074 = n) : unitsPerOne = 2 ^ n := by
  delta unitsPerOne
  simp only [hn, Nat.pow_eq]

theorem exact_eq {n : Nat} (hn : 1074 = n) (m : Magnitude) : Decimal.exact m = ⟨m.units * 5 ^ n, -1074⟩ := by
  delta Decimal.exact
  simp only [hn, Nat.pow_eq]

/-- All digits of a magnitude denote it, as they are neither too many nor too few for the format. -/
theorem ofDecimal_exact {m : Magnitude} (hm : m.units ≠ 0) (negative : Bool) :
    Double.ofDecimal negative (Decimal.exact m) = .finite negative m := by
  have hpos := Nat.pos_of_ne_zero hm
  obtain ⟨k, hk⟩ : ∃ k, k = 342 := ⟨_, rfl⟩
  obtain ⟨l, hl⟩ : ∃ l, l = 358 := ⟨_, rfl⟩
  have hbound : m.units < 2 ^ (3 * k + 3 * l) := lt_two_pow m.representable.2 (by omega)
  obtain ⟨hfew, hmany⟩ := digitCount_units hpos hbound (by omega)
  have hne : m.units * 5 ^ (3 * l) ≠ 0 := Nat.ne_of_gt (Nat.mul_pos hpos (Nat.pow_pos (by decide)))
  have hunits : m.units * 5 ^ (3 * l) * 2 ^ (3 * l) = m.units * 10 ^ (3 * l) := by
    rw [Nat.mul_assoc, ← Nat.mul_pow]
  have hexponent : (- -1074 : Int).toNat = 3 * l := by omega
  rw [exact_eq (n := 3 * l) (by omega), Double.ofDecimal, if_neg hne]
  dsimp only
  rw [if_neg (by omega), if_neg (by omega), if_neg (by decide), hexponent, Double.ofRatio,
    unitsPerOne_eq (n := 3 * l) (by omega), hunits, Nat.pow_eq]
  exact Double.ofUnits_units negative m _ (Nat.pow_pos (by decide))

/-- What a magnitude is written by denotes it. -/
theorem ofDecimal_shortest (m : Magnitude) (negative : Bool) :
    Double.ofDecimal negative (Decimal.shortest m) = .finite negative m := by
  rw [Decimal.shortest]
  split
  next hzero =>
    have hself := Double.ofUnits_units negative m 1 Nat.one_pos
    rw [hzero, Nat.zero_mul] at hself
    rw [Double.ofDecimal, if_pos rfl, Double.zero, hself]
  next hm =>
    dsimp only
    cases hfound : (List.range 17).findSome? fun i =>
        (Decimal.neighbours m.units (Decimal.leadingPower m.units) (i + 1)).find? fun d =>
          Double.ofDecimal false d == .finite false m with
    | none => exact ofDecimal_exact hm negative
    | some d =>
        obtain ⟨i, -, hi⟩ := List.exists_of_findSome?_eq_some hfound
        have hd := List.find?_some hi
        rw [beq_iff_eq] at hd
        exact Double.ofDecimal_of_false hd negative

/-! ## Numerals -/

/-- A numeral by its parts: digits in front of the point and behind it, and perhaps an exponent with its sign. -/
structure Numeral where
  whole : List Char
  fraction : List Char
  exponent : Option (Bool × List Char)
  whole_ne_nil : whole ≠ []
  whole_digits : ∀ c ∈ whole, c.isDigit = true
  /-- There is no zero in front but one alone. -/
  leading : whole = ['0'] ∨ whole.head? ≠ some '0'
  fraction_digits : ∀ c ∈ fraction, c.isDigit = true
  exponent_digits : ∀ e ∈ exponent, e.2 ≠ [] ∧ ∀ c ∈ e.2, c.isDigit = true

namespace Numeral

variable (n : Numeral)

def fractionText : List Char := if n.fraction.isEmpty then [] else '.' :: n.fraction

def exponentText : List Char :=
  match n.exponent with
  | some (negative, ds) => 'e' :: (if negative then '-' else '+') :: ds
  | none => []

def text : List Char := n.whole ++ n.fractionText ++ n.exponentText

def power : Int :=
  match n.exponent with
  | some (negative, ds) => if negative then -decimalDigits ds else decimalDigits ds
  | none => 0

def decimal : Decimal := ⟨decimalDigits (n.whole ++ n.fraction), n.power - n.fraction.length⟩

/-- What cannot go on a run of digits. -/
def NoDigit (rest : List Char) : Prop := ∀ c ∈ rest.head?, c.isDigit = false

theorem takeWhile_digits {ds rest : List Char} (h : ∀ c ∈ ds, c.isDigit = true) (hrest : NoDigit rest) :
    (ds ++ rest).takeWhile Char.isDigit = ds ∧ (ds ++ rest).dropWhile Char.isDigit = rest := by
  rw [List.takeWhile_append_of_pos h, List.dropWhile_append_of_pos h]
  cases rest with
  | nil => exact ⟨List.append_nil ds, rfl⟩
  | cons c rest =>
      have hc : ¬ c.isDigit = true := Bool.eq_false_iff.1 (hrest c rfl)
      rw [List.takeWhile_cons_of_neg hc, List.dropWhile_cons_of_neg hc]
      exact ⟨List.append_nil ds, rfl⟩

theorem noDigit_exponentText {rest : List Char} (hrest : NoDigit rest) : NoDigit (n.exponentText ++ rest) := by
  rw [exponentText]
  split
  · intro c hc
    cases hc
    rfl
  · exact hrest

theorem noDigit_fractionText {rest : List Char} (hrest : NoDigit rest) : NoDigit (n.fractionText ++ rest) := by
  rw [fractionText]
  split
  · exact hrest
  · intro c hc
    cases hc
    rfl

theorem exponent?_digits {ds : List Char} (hne : ds ≠ []) (h : ∀ c ∈ ds, c.isDigit = true) (negative : Bool) :
    exponent? ((if negative then '-' else '+') :: ds) =
      some (if negative then -(decimalDigits ds : Int) else decimalDigits ds) := by
  have hempty : ds.isEmpty = false := List.isEmpty_eq_false_iff.2 hne
  have hall : ds.all Char.isDigit = true := List.all_eq_true.2 h
  cases negative with
  | false =>
      show (if (ds.isEmpty || !ds.all Char.isDigit) = true then none else some _) = _
      rw [hempty, hall]
      rfl
  | true =>
      show (if (ds.isEmpty || !ds.all Char.isDigit) = true then none else some _) = _
      rw [hempty, hall]
      rfl

/-- What is left of a numeral behind its digits is an exponent or nothing. -/
theorem parse?_exponentText (digits : Nat) (shift : Int) :
    (match n.exponentText with
      | [] => some ⟨digits, -shift⟩
      | 'e' :: exp | 'E' :: exp => (exponent? exp).map fun e => ⟨digits, e - shift⟩
      | _ => none) = some (⟨digits, n.power - shift⟩ : Decimal) := by
  rw [exponentText, power]
  cases hexponent : n.exponent with
  | none =>
      dsimp only
      rw [Int.zero_sub]
  | some e =>
      obtain ⟨negative, ds⟩ := e
      obtain ⟨hne, hdigits⟩ : ds ≠ [] ∧ ∀ c ∈ ds, c.isDigit = true := n.exponent_digits (negative, ds) hexponent
      show (exponent? ((if negative then '-' else '+') :: ds)).map _ = _
      rw [exponent?_digits hne hdigits]
      rfl

/-- A numeral is read as what its parts say. -/
theorem parse?_text : Decimal.parse? n.text = some n.decimal := by
  have hexponent : NoDigit n.exponentText := List.append_nil n.exponentText ▸ n.noDigit_exponentText nofun
  obtain ⟨htake, hdrop⟩ := takeWhile_digits n.whole_digits (n.noDigit_fractionText hexponent)
  have hempty : n.whole.isEmpty = false := List.isEmpty_eq_false_iff.2 n.whole_ne_nil
  rw [text, List.append_assoc, Decimal.parse?, htake, hdrop, decimal]
  dsimp only
  cases hfraction : n.fraction with
  | nil =>
      have hnone : n.fractionText = [] := by rw [fractionText, hfraction]; rfl
      have hpoint (rest : List Char) : n.exponentText ≠ '.' :: rest := by
        rw [exponentText]
        split <;> nofun
      rw [hnone, List.nil_append]
      split
      next rest hrest => exact absurd hrest (hpoint rest)
      next =>
        dsimp only
        rw [hempty, Bool.false_and, if_neg Bool.false_ne_true]
        exact n.parse?_exponentText _ _
  | cons d ds =>
      have hpoint : n.fractionText = '.' :: n.fraction := by rw [fractionText, hfraction]; rfl
      obtain ⟨htake, hdrop⟩ := takeWhile_digits n.fraction_digits hexponent
      rw [hpoint, List.cons_append]
      simp only [htake, hdrop]
      rw [hempty, Bool.false_and, if_neg Bool.false_ne_true, ← hfraction]
      exact n.parse?_exponentText _ _

/-- A numeral that is not read as a whole number. -/
def IsFractional : Prop := n.fraction ≠ [] ∨ n.exponent ≠ none

/-- A numeral of digits alone. -/
def ofNat (k : Nat) : Numeral where
  whole := Nat.toDigits 10 k
  fraction := []
  exponent := none
  whole_ne_nil := Nat.toDigits_ne_nil
  whole_digits := fun _ hc => isDigit_of_mem_toDigits hc
  leading := by
    by_cases hk : k = 0
    · rw [hk]
      exact .inl rfl
    · exact .inr (head?_toDigits hk)
  fraction_digits := nofun
  exponent_digits := nofun

end Numeral

/-! ## Layouts -/

/-- Digits with the place of the point among them, as a decimal is split into. -/
structure Splits (ds : List Char) (point : Int) (d : Decimal) : Prop where
  digits : ∀ c ∈ ds, c.isDigit = true
  /-- A zero in front is alone, before the point. -/
  leading : ds = ['0'] ∧ point = 1 ∨ ds ≠ [] ∧ ds.head? ≠ some '0'
  value : ∀ negative, Double.ofDecimal negative ⟨decimalDigits ds, point - ds.length⟩ = Double.ofDecimal negative d

theorem Splits.ne_nil {ds : List Char} {point : Int} {d : Decimal} (h : Splits ds point d) : ds ≠ [] := by
  rcases h.leading with ⟨rfl, -⟩ | ⟨hne, -⟩
  · exact List.cons_ne_nil _ _
  · exact hne

theorem Decimal.splits {d : Decimal} (h : d.digits = 0 → d.exponent = 0) : Splits d.split.1 d.split.2 d := by
  obtain ⟨digits, exponent⟩ := d
  by_cases hzero : digits = 0
  · obtain rfl : exponent = 0 := h hzero
    rw [hzero]
    exact ⟨zero_isDigit, .inl ⟨rfl, rfl⟩, fun _ => rfl⟩
  obtain ⟨zeros, hdigits, hzeros⟩ := exists_trimRight (· == '0') (Nat.toDigits 10 digits)
  have hsplit : Decimal.split ⟨digits, exponent⟩ =
      (if (trimRight (· == '0') (Nat.toDigits 10 digits)).isEmpty then ['0']
        else trimRight (· == '0') (Nat.toDigits 10 digits), exponent + (Nat.toDigits 10 digits).length) := rfl
  generalize trimRight (· == '0') (Nat.toDigits 10 digits) = kept at hdigits hsplit
  have hvalue : decimalDigits kept * 10 ^ zeros.length = digits := by
    have hall := List.eq_replicate_of_mem fun c hc => beq_iff_eq.1 (hzeros c hc)
    rw [← decimalDigits_append_zeros, ← hall, ← hdigits, decimalDigits_toDigits]
  have hne : kept ≠ [] := by
    rintro rfl
    exact hzero (hvalue.symm.trans (Nat.zero_mul _))
  rw [hsplit, if_neg (mt List.isEmpty_iff.1 hne)]
  refine ⟨fun c hc => ?_, .inr ⟨hne, fun hhead => ?_⟩, fun negative => ?_⟩
  · exact isDigit_of_mem_toDigits (n := digits) (by rw [hdigits]; exact List.mem_append_left _ hc)
  · refine head?_toDigits hzero ?_
    rw [hdigits, List.head?_append, show kept.head? = some '0' from hhead]
    rfl
  · have hlength : (exponent + (Nat.toDigits 10 digits).length : Int) - kept.length = exponent + zeros.length := by
      rw [hdigits, List.length_append]
      omega
    dsimp only
    rw [hlength, ← Double.ofDecimal_shift, hvalue]

/-- Zero is taken to have its point behind the digit. -/
theorem Decimal.shortest_splits (m : Magnitude) :
    Splits (shortest m).split.1 (if m.units = 0 then 1 else (shortest m).split.2) (shortest m) := by
  by_cases hm : m.units = 0
  · have hzero : shortest m = ⟨0, 0⟩ := by rw [shortest, if_pos hm]
    rw [if_pos hm, hzero]
    exact Decimal.splits fun _ => rfl
  · rw [if_neg hm]
    refine Decimal.splits fun hdigits => absurd ?_ hm
    have hshortest := ofDecimal_shortest m false
    rw [Double.ofDecimal, if_pos hdigits] at hshortest
    exact Double.units_of_zero hshortest

/-- A numeral with a point or an exponent, of the value of some digits with the place of the point. -/
def Denotes (n : Numeral) (ds : List Char) (point : Int) : Prop :=
  n.IsFractional ∧ ∀ negative,
    Double.ofDecimal negative n.decimal = Double.ofDecimal negative ⟨decimalDigits ds, point - ds.length⟩

/-- Where a numeral only brings zeros behind the digits, it denotes what they do. -/
theorem Denotes.of_digits {n : Numeral} {ds : List Char} {point : Int} {k : Nat} (hn : n.IsFractional)
    (hdigits : decimalDigits (n.whole ++ n.fraction) = decimalDigits ds * 10 ^ k)
    (hexponent : n.power - n.fraction.length + k = point - ds.length) : Denotes n ds point := by
  refine ⟨hn, fun negative => ?_⟩
  rw [Numeral.decimal, hdigits, Double.ofDecimal_shift, hexponent]

namespace Layout

variable {ds : List Char} {point : Int} {d : Decimal}

theorem exists_positional (h : Splits ds point d) :
    ∃ n : Numeral, n.text = positional ds point ∧ Denotes n ds point := by
  have hne := h.ne_nil
  have hzeros {k : Nat} {c : Char} (hc : c ∈ List.replicate k '0') : c.isDigit = true := by
    rw [List.eq_of_mem_replicate hc]
    rfl
  have htext (n : Numeral) (hfraction : n.fraction ≠ []) (hexponent : n.exponent = none) :
      n.text = n.whole ++ '.' :: n.fraction := by
    rw [Numeral.text, Numeral.fractionText, if_neg (mt List.isEmpty_iff.1 hfraction), Numeral.exponentText,
      hexponent]
    exact List.append_nil _
  rw [positional]
  split
  next hpoint =>
    let n : Numeral := {
      whole := ['0'], fraction := List.replicate (-point).toNat '0' ++ ds, exponent := none
      whole_ne_nil := List.cons_ne_nil _ _, whole_digits := zero_isDigit, leading := .inl rfl
      fraction_digits := fun c hc => (List.mem_append.1 hc).elim hzeros (h.digits c)
      exponent_digits := nofun }
    have hfraction : n.fraction ≠ [] := List.append_ne_nil_of_right_ne_nil _ hne
    refine ⟨n, htext n hfraction rfl, .of_digits (.inl hfraction) (k := 0) ?_ ?_⟩
    · rw [Nat.pow_zero, Nat.mul_one]
      exact (decimalDigits_zeros_append 1 _).trans (decimalDigits_zeros_append _ ds)
    · show (0 : Int) - (List.replicate (-point).toNat '0' ++ ds).length + (0 : Nat) = _
      rw [List.length_append, List.length_replicate]
      omega
  next hpoint =>
    dsimp only
    split
    next hlong =>
      let n : Numeral := {
        whole := ds ++ List.replicate (point.toNat - ds.length) '0', fraction := ['0'], exponent := none
        whole_ne_nil := List.append_ne_nil_of_left_ne_nil hne _
        whole_digits := fun c hc => (List.mem_append.1 hc).elim (h.digits c) hzeros
        leading := by
          rcases h.leading with ⟨rfl, rfl⟩ | ⟨-, hhead⟩
          · exact .inl rfl
          · rw [List.head?_append_of_ne_nil _ hne]
            exact .inr hhead
        fraction_digits := zero_isDigit
        exponent_digits := nofun }
      have hfraction : n.fraction ≠ [] := List.cons_ne_nil _ _
      refine ⟨n, ?_, .of_digits (.inl hfraction) (k := point.toNat - ds.length + 1) ?_ ?_⟩
      · exact htext n hfraction rfl
      · show decimalDigits (ds ++ List.replicate (point.toNat - ds.length) '0' ++ List.replicate 1 '0') = _
        rw [decimalDigits_append_zeros, decimalDigits_append_zeros, Nat.mul_assoc, ← Nat.pow_add]
      · show (0 : Int) - (1 : Nat) + ((point.toNat - ds.length + 1 : Nat) : Int) = _
        omega
    next hshort =>
      have hsum : ds.take point.toNat ++ ds.drop point.toNat = ds := List.take_append_drop _ _
      have hwhole : ds.take point.toNat ≠ [] := by
        intro hnil
        rcases List.take_eq_nil_iff.1 hnil with hzero | hnil
        · omega
        · exact h.ne_nil hnil
      let n : Numeral := {
        whole := ds.take point.toNat, fraction := ds.drop point.toNat, exponent := none
        whole_ne_nil := hwhole
        whole_digits := fun c hc => h.digits c (List.mem_of_mem_take hc)
        leading := by
          rcases h.leading with ⟨rfl, rfl⟩ | ⟨-, hhead⟩
          · exact .inl rfl
          · rw [← List.head?_append_of_ne_nil _ hwhole, hsum]
            exact .inr hhead
        fraction_digits := fun c hc => h.digits c (List.mem_of_mem_drop hc)
        exponent_digits := nofun }
      have hfraction : n.fraction ≠ [] := by
        intro hnil
        rw [List.drop_eq_nil_iff] at hnil
        omega
      refine ⟨n, htext n hfraction rfl, .of_digits (.inl hfraction) (k := 0) ?_ ?_⟩
      · rw [Nat.pow_zero, Nat.mul_one]
        exact congrArg decimalDigits hsum
      · show (0 : Int) - (ds.drop point.toNat).length + (0 : Nat) = _
        rw [List.length_drop]
        omega

theorem exists_scientific (l : Layout) (h : Splits ds point d) :
    ∃ n : Numeral, n.text = l.scientific ds point ∧ Denotes n ds point := by
  cases ds with
  | nil => exact absurd rfl h.ne_nil
  | cons c rest =>
      let exp := Nat.toDigits 10 (point - 1).natAbs
      let n : Numeral := {
        whole := [c], fraction := rest
        exponent := some (decide (point - 1 < 0), List.replicate (l.exponentWidth - exp.length) '0' ++ exp)
        whole_ne_nil := List.cons_ne_nil _ _
        whole_digits := fun d hd => h.digits d (List.mem_singleton.1 hd ▸ List.mem_cons_self)
        leading := by
          by_cases hc : c = '0'
          · exact .inl (by rw [hc])
          · exact .inr fun hhead => hc (Option.some.inj hhead)
        fraction_digits := fun d hd => h.digits d (List.mem_cons_of_mem c hd)
        exponent_digits := by
          rintro e ⟨⟩
          refine ⟨List.append_ne_nil_of_right_ne_nil _ Nat.toDigits_ne_nil, fun d hd => ?_⟩
          rcases List.mem_append.1 hd with hd | hd
          · rw [List.eq_of_mem_replicate hd]
            rfl
          · exact isDigit_of_mem_toDigits hd }
      refine ⟨n, ?_, .of_digits (.inr nofun) (k := 0) (Nat.mul_one _).symm ?_⟩
      · have hsign : (if decide (point - 1 < 0) = true then '-' else '+') = if point - 1 < 0 then '-' else '+' := by
          simp only [decide_eq_true_eq]
        have hexponent : n.exponentText = 'e' :: (if point - 1 < 0 then '-' else '+') ::
            (List.replicate (l.exponentWidth - exp.length) '0' ++ exp) := by
          rw [← hsign]
          rfl
        rw [Numeral.text, hexponent]
        cases rest <;> rfl
      · have hpower : n.power = point - 1 := by
          have hdigits : decimalDigits (List.replicate (l.exponentWidth - exp.length) '0' ++ exp) =
              (point - 1).natAbs := by
            rw [decimalDigits_zeros_append, decimalDigits_toDigits]
          show (if decide (point - 1 < 0) = true then
            -(decimalDigits (List.replicate (l.exponentWidth - exp.length) '0' ++ exp) : Int) else
            decimalDigits (List.replicate (l.exponentWidth - exp.length) '0' ++ exp)) = _
          rw [hdigits]
          exact signed_natAbs (point - 1)
        rw [hpower, List.length_cons]
        show point - 1 - (rest.length : Int) + (0 : Nat) = _
        omega

/-- What a magnitude is written as denotes it, and is no whole number. -/
theorem magnitude_numeral (l : Layout) (m : Magnitude) : ∃ n : Numeral, n.text = l.magnitude m ∧
    n.IsFractional ∧ ∀ negative, Double.ofDecimal negative n.decimal = .finite negative m := by
  have hsplits := Decimal.shortest_splits m
  have hnumeral : ∃ n : Numeral, n.text = l.magnitude m ∧
      Denotes n (Decimal.shortest m).split.1 (if m.units = 0 then 1 else (Decimal.shortest m).split.2) := by
    rw [magnitude]
    dsimp only
    generalize (if m.units = 0 then 1 else (Decimal.shortest m).split.2) = point at hsplits ⊢
    split
    · exact exists_positional hsplits
    · exact l.exists_scientific hsplits
  obtain ⟨n, htext, hfractional, hvalue⟩ := hnumeral
  refine ⟨n, htext, hfractional, fun negative => ?_⟩
  rw [hvalue, hsplits.value, ofDecimal_shortest]

end Layout

end ApiDiscovery.Number
