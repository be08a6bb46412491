/-!
# Punycode

A text of any characters in those of ASCII. The ones beyond ASCII are taken out and described by increasing
number: each by how far it is from the one before, counted in steps that go through the numbers and, for
each number, through the places of the text. A distance is written in digits of base 36 whose thresholds
adapt to the distances so far.
-/

namespace ApiDiscovery.Text.Punycode

/-- The digits of base 36: letters before numbers. -/
def digit (n : Nat) : Char := Char.ofNat (if n < 26 then 0x61 + n else 0x30 + (n - 26))

/-- The threshold of the digit at a position: between 1 and 26. -/
def threshold (bias position : Nat) : Nat := max 1 (min 26 (position - bias))

theorem threshold_pos (bias position : Nat) : 0 < threshold bias position := by
  simp only [threshold]
  omega

/-- The digits of a distance, the least one first. -/
def distance (bias position n : Nat) : List Char :=
  let t := threshold bias position
  if n < t then [digit n]
  else digit (t + (n - t) % (36 - t)) :: distance bias (position + 36) ((n - t) / (36 - t))
termination_by n
decreasing_by
  have ht := threshold_pos bias position
  exact Nat.lt_of_le_of_lt (Nat.div_le_self _ _) (by omega)

/-- How often a distance is divided until it is small, in steps of 36, and what is left. -/
def shrink (n steps : Nat) : Nat × Nat :=
  if 455 < n then shrink (n / 35) (steps + 36) else (n, steps)
termination_by n
decreasing_by exact Nat.div_lt_self (by omega) (by omega)

/-- The bias after a distance to the character that makes `count`. -/
def adapt (n count : Nat) (first : Bool) : Nat :=
  let n := if first then n / 700 else n / 2
  let (n, steps) := shrink (n + n / count) 0
  steps + 36 * n / (n + 38)

/-- A description in the making: the steps since the last character, the bias, and how many characters
of the text are described. -/
structure State where
  written : List Char
  steps : Nat
  bias : Nat
  count : Nat

/-- Goes past one place of the text for the number `m`; `plain` is how many characters are ASCII. -/
def State.pass (plain m : Nat) (s : State) (c : Char) : State :=
  if c.toNat < m then { s with steps := s.steps + 1 }
  else if c.toNat = m then {
    written := s.written ++ distance s.bias 36 s.steps
    steps := 0
    bias := adapt s.steps (s.count + 1) (s.count == plain)
    count := s.count + 1 }
  else s

/-- Describes the characters of several numbers, from the number `n` on. -/
def describe (text : List Char) (plain : Nat) (n : Nat) (s : State) : List Nat → List Char
  | [] => s.written
  | m :: rest =>
      let s := text.foldl (State.pass plain m) { s with steps := s.steps + (m - n) * (s.count + 1) }
      describe text plain (m + 1) { s with steps := s.steps + 1 } rest

/-- The numbers of the characters beyond ASCII, in order and each once. -/
def numbers (text : List Char) : List Nat :=
  (((text.map Char.toNat).filter (0x80 ≤ ·)).mergeSort fun a b => a ≤ b).eraseReps

def encode (text : List Char) : List Char :=
  let plain := text.filter (·.toNat < 0x80)
  (if plain.isEmpty then [] else plain ++ ['-']) ++
    describe text plain.length 0x80 ⟨[], 0, 72, plain.length⟩ (numbers text)

end ApiDiscovery.Text.Punycode
