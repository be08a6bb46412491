import ApiDiscovery.Proofs.Outcome
import ApiDiscovery.Url.Percent

/-!
# Encoded texts are read back

A character is written by its bytes, and a byte by two digits. Read from the front, both give back what was
written and leave what is behind it alone (`piece_encodeChar`, `decodeBytes_byte`), so that a whole text is
read back character by character: `decode?_encode`, `decode_encode`. A character that is read takes the bytes that it
is written by and no others (`encodeChar_of_piece`), so bytes are a text only where they were written for one:
`decode?_eq_ok`.

What percent encoding writes is described apart from it, by `Encoded`: unreserved characters, and percent signs
each with two digits. No character that parts a URL is among them.
-/

namespace ApiDiscovery

namespace Text.Utf8

/-! ## UTF-8 -/

/-- The numbers of characters leave out the surrogates. -/
theorem toNat_cases (c : Char) : c.toNat < 0xd800 ∨ (0xdfff < c.toNat ∧ c.toNat < 0x110000) := c.valid

/-- A byte that is read as part of a character. -/
theorem continueChar_cons {lo hi : Nat} {b : UInt8} (hlo : lo ≤ b.toNat) (hhi : b.toNat ≤ hi)
    (value seen need : Nat) (rest : List UInt8) :
    continueChar value seen (need + 1) lo hi (b :: rest) =
      continueChar (value * 0x40 + b.toNat % 0x40) (seen + 1) need 0x80 0xbf rest := by
  rw [continueChar, if_pos (by simp [hlo, hhi])]

/-- The byte that carries the last six bits of a number is read as part of a character. -/
theorem continueChar_tail (n value seen need : Nat) (rest : List UInt8) :
    continueChar value seen (need + 1) 0x80 0xbf (UInt8.ofNat (0x80 + n % 0x40) :: rest) =
      continueChar (value * 0x40 + n % 0x40) (seen + 1) need 0x80 0xbf rest := by
  have hb : (UInt8.ofNat (0x80 + n % 0x40)).toNat = 0x80 + n % 0x40 :=
    UInt8.toNat_ofNat_of_lt' (by unfold UInt8.size; omega)
  rw [continueChar_cons (by omega) (by omega), hb]
  congr 2
  omega

theorem expected_two {n : Nat} (hlo : 0x80 ≤ n) (hhi : n < 0x800) :
    expected (0xc0 + n / 0x40) = some (1, 0x80, 0xbf) := by
  unfold expected
  rw [if_neg (by omega), if_pos (by omega)]

/-- The byte behind a start byte of three is in the range that the start byte asks for: it is not too low for
the number, and the number is no surrogate. -/
theorem expected_three {n : Nat} (hlo : 0x800 ≤ n) (hhi : n < 0x10000) (hs : n < 0xd800 ∨ 0xdfff < n) :
    ∃ lo hi, expected (0xe0 + n / 0x1000) = some (2, lo, hi) ∧
      lo ≤ 0x80 + n / 0x40 % 0x40 ∧ 0x80 + n / 0x40 % 0x40 ≤ hi := by
  unfold expected
  rw [if_neg (by omega), if_neg (by omega)]
  by_cases hfirst : n / 0x1000 = 0
  · exact ⟨0xa0, 0xbf, by rw [if_pos (by simp [hfirst])], by omega, by omega⟩
  · rw [if_neg (by simp; omega)]
    by_cases hlast : n / 0x1000 = 13
    · exact ⟨0x80, 0x9f, by rw [if_pos (by simp [hlast])], by omega, by omega⟩
    · exact ⟨0x80, 0xbf, by rw [if_neg (by simp; omega), if_pos (by omega)], by omega, by omega⟩

theorem expected_four {n : Nat} (hlo : 0x10000 ≤ n) (hhi : n < 0x110000) :
    ∃ lo hi, expected (0xf0 + n / 0x40000) = some (3, lo, hi) ∧
      lo ≤ 0x80 + n / 0x1000 % 0x40 ∧ 0x80 + n / 0x1000 % 0x40 ≤ hi := by
  unfold expected
  rw [if_neg (by omega), if_neg (by omega), if_neg (by simp; omega), if_neg (by simp; omega),
    if_neg (by omega)]
  by_cases hfirst : n / 0x40000 = 0
  · exact ⟨0x90, 0xbf, by rw [if_pos (by simp [hfirst])], by omega, by omega⟩
  · rw [if_neg (by simp; omega)]
    by_cases hlast : n / 0x40000 = 4
    · exact ⟨0x80, 0x8f, by rw [if_neg (by omega), if_pos (by simp [hlast])], by omega, by omega⟩
    · exact ⟨0x80, 0xbf, by rw [if_pos (by omega)], by omega, by omega⟩

/-- Read from the front, the bytes of a character give back that character, and no more than these bytes are
read. -/
theorem piece_encodeChar (c : Char) (rest : List UInt8) :
    ∃ b bs, encodeChar c = b :: bs ∧ piece b (bs ++ rest) = .char c (bs.length + 1) := by
  have hchar : Char.ofNat c.toNat = c := Char.ofNat_toNat c
  have hvalid := toNat_cases c
  unfold encodeChar
  generalize c.toNat = n at hchar hvalid
  dsimp only
  by_cases h₁ : n < 0x80
  · rw [if_pos h₁]
    have hb : (UInt8.ofNat n).toNat = n := UInt8.toNat_ofNat_of_lt' (by unfold UInt8.size; omega)
    refine ⟨_, [], rfl, ?_⟩
    rw [piece, hb, if_pos h₁, hchar]
    rfl
  rw [if_neg h₁]
  by_cases h₂ : n < 0x800
  · rw [if_pos h₂]
    have hb : (UInt8.ofNat (0xc0 + n / 0x40)).toNat = 0xc0 + n / 0x40 :=
      UInt8.toNat_ofNat_of_lt' (by unfold UInt8.size; omega)
    refine ⟨_, [_], rfl, ?_⟩
    rw [piece, hb, if_neg (by omega), expected_two (by omega) h₂]
    simp only [beq_self_eq_true, if_true, List.cons_append, List.nil_append]
    rw [continueChar_tail, continueChar]
    congr 1
    rw [show (0xc0 + n / 0x40) % 0x20 * 0x40 + n % 0x40 = n by omega, hchar]
  rw [if_neg h₂]
  by_cases h₃ : n < 0x10000
  · rw [if_pos h₃]
    have hb : (UInt8.ofNat (0xe0 + n / 0x1000)).toNat = 0xe0 + n / 0x1000 :=
      UInt8.toNat_ofNat_of_lt' (by unfold UInt8.size; omega)
    have hb₂ : (UInt8.ofNat (0x80 + n / 0x40 % 0x40)).toNat = 0x80 + n / 0x40 % 0x40 :=
      UInt8.toNat_ofNat_of_lt' (by unfold UInt8.size; omega)
    obtain ⟨lo, hi, he, hlo, hhi⟩ := expected_three (by omega) h₃ (by omega)
    refine ⟨_, [_, _], rfl, ?_⟩
    rw [piece, hb, if_neg (by omega), he]
    simp only [List.cons_append, List.nil_append]
    rw [continueChar_cons (by omega) (by omega), continueChar_tail, continueChar, hb₂]
    congr 1
    rw [if_neg (by decide), if_pos (by decide), show ((0xe0 + n / 0x1000) % 0x10 * 0x40 +
      (0x80 + n / 0x40 % 0x40) % 0x40) * 0x40 + n % 0x40 = n by omega, hchar]
  · rw [if_neg h₃]
    have hb : (UInt8.ofNat (0xf0 + n / 0x40000)).toNat = 0xf0 + n / 0x40000 :=
      UInt8.toNat_ofNat_of_lt' (by unfold UInt8.size; omega)
    have hb₂ : (UInt8.ofNat (0x80 + n / 0x1000 % 0x40)).toNat = 0x80 + n / 0x1000 % 0x40 :=
      UInt8.toNat_ofNat_of_lt' (by unfold UInt8.size; omega)
    obtain ⟨lo, hi, he, hlo, hhi⟩ := expected_four (by omega) (show n < 0x110000 by omega)
    refine ⟨_, [_, _, _], rfl, ?_⟩
    rw [piece, hb, if_neg (by omega), he]
    simp only [List.cons_append, List.nil_append]
    rw [continueChar_cons (by omega) (by omega), continueChar_tail, continueChar_tail, continueChar, hb₂]
    congr 1
    rw [if_neg (by decide), if_neg (by decide), show (((0xf0 + n / 0x40000) % 0x08 * 0x40 +
      (0x80 + n / 0x1000 % 0x40) % 0x40) * 0x40 + n / 0x40 % 0x40) * 0x40 + n % 0x40 = n by omega, hchar]

theorem encode_cons (c : Char) (s : List Char) : encode (c :: s) = encodeChar c ++ encode s := rfl

theorem length_encode (s : List Char) : s.length ≤ (encode s).length := by
  induction s with
  | nil => exact Nat.zero_le _
  | cons c rest ih =>
      obtain ⟨b, bs, hc, -⟩ := piece_encodeChar c []
      rw [encode_cons, hc, List.length_append, List.length_cons, List.length_cons]
      omega

theorem decodeFrom_encode {fuel : Nat} {s : List Char} (h : s.length ≤ fuel) (offset : Nat) :
    decodeFrom fuel offset (encode s) = .ok s := by
  induction s generalizing fuel offset with
  | nil => cases fuel <;> rfl
  | cons c rest ih =>
      obtain ⟨b, bs, hc, hp⟩ := piece_encodeChar c (encode rest)
      cases fuel with
      | zero => cases h
      | succ fuel =>
          have hrest := ih (Nat.le_of_succ_le_succ h) (offset + (bs.length + 1))
          rw [encode_cons, hc, List.cons_append, decodeFrom, hp]
          simp only [Nat.add_sub_cancel, List.drop_left, hrest]
          rfl

theorem decodeLossyFrom_encode {fuel : Nat} {s : List Char} (h : s.length ≤ fuel) :
    decodeLossyFrom fuel (encode s) = s := by
  induction s generalizing fuel with
  | nil => cases fuel <;> rfl
  | cons c rest ih =>
      obtain ⟨b, bs, hc, hp⟩ := piece_encodeChar c (encode rest)
      cases fuel with
      | zero => cases h
      | succ fuel =>
          rw [encode_cons, hc, List.cons_append, decodeLossyFrom, hp]
          simp only [Nat.add_sub_cancel, List.drop_left, ih (Nat.le_of_succ_le_succ h)]

/-- What is written is well-formed, and is read back. -/
theorem decode?_encode (s : List Char) : decode? (encode s) = .ok s :=
  decodeFrom_encode (length_encode s) 0

theorem decodeLossy_encode (s : List Char) : decodeLossy (encode s) = s :=
  decodeLossyFrom_encode (length_encode s)

/-! ### Nothing else is read -/

theorem toNat_ofNat {n : Nat} (h : n < 0xd800 ∨ (0xdfff < n ∧ n < 0x110000)) : (Char.ofNat n).toNat = n := by
  have hvalid : n.isValidChar := h
  rw [Char.ofNat, dif_pos hvalid]
  rfl

/-- One more byte that is read as part of a character. -/
theorem continueChar_char {value seen need lo hi : Nat} {bytes : List UInt8} {c : Char} {n : Nat}
    (h : continueChar value seen (need + 1) lo hi bytes = .char c n) :
    ∃ b rest, bytes = b :: rest ∧ lo ≤ b.toNat ∧ b.toNat ≤ hi ∧
      continueChar (value * 0x40 + b.toNat % 0x40) (seen + 1) need 0x80 0xbf rest = .char c n := by
  cases bytes with
  | nil => cases h
  | cons b rest =>
      rw [continueChar] at h
      split at h
      next hrange =>
        rw [Bool.and_eq_true, decide_eq_true_eq, decide_eq_true_eq] at hrange
        exact ⟨b, rest, rfl, hrange.1, hrange.2, h⟩
      next => cases h

/-- The first byte of a character of more than one, and what the byte behind it may be. -/
theorem expected_eq_some {b need lo hi : Nat} (h : expected b = some (need, lo, hi)) :
    (0xc2 ≤ b ∧ b < 0xe0 ∧ need = 1 ∧ lo = 0x80 ∧ hi = 0xbf) ∨
    (0xe0 ≤ b ∧ b < 0xf0 ∧ need = 2 ∧ 0x80 ≤ lo ∧ hi ≤ 0xbf ∧ (b = 0xe0 → lo = 0xa0) ∧ (b = 0xed → hi = 0x9f)) ∨
    (0xf0 ≤ b ∧ b < 0xf5 ∧ need = 3 ∧ 0x80 ≤ lo ∧ hi ≤ 0xbf ∧ (b = 0xf0 → lo = 0x90) ∧ (b = 0xf4 → hi = 0x8f)) := by
  unfold expected at h
  simp only [beq_iff_eq] at h
  repeat' split at h
  all_goals simp only [reduceCtorEq, Option.some.injEq, Prod.mk.injEq] at h
  all_goals omega

theorem eq_ofNat {b : UInt8} {n : Nat} (h : b.toNat = n) : UInt8.ofNat n = b := by
  rw [← h]
  exact UInt8.ofNat_toNat

/-- A character that is read from the front is written by the bytes that it takes. -/
theorem encodeChar_of_piece {b : UInt8} {rest : List UInt8} {c : Char} {n : Nat} (h : piece b rest = .char c n) :
    ∃ bs tail, rest = bs ++ tail ∧ n = bs.length + 1 ∧ encodeChar c = b :: bs := by
  have hb := b.toNat_lt
  rw [piece] at h
  dsimp only at h
  split at h
  next hone =>
    cases h
    refine ⟨[], rest, rfl, rfl, ?_⟩
    rw [encodeChar, toNat_ofNat (by omega)]
    rw [if_pos hone, eq_ofNat rfl]
  next hmore =>
    split at h
    next => cases h
    next need lo hi hexpected =>
      rcases expected_eq_some hexpected with ⟨hlo, hhi, rfl, rfl, rfl⟩ | ⟨hlo, hhi, rfl, hl, hh, hfirst, hlast⟩ |
        ⟨hlo, hhi, rfl, hl, hh, hfirst, hlast⟩
      · obtain ⟨b₁, rest, rfl, hb₁, hb₁', h⟩ := continueChar_char h
        rw [continueChar, if_pos (by decide)] at h
        cases h
        refine ⟨[b₁], rest, rfl, rfl, ?_⟩
        rw [encodeChar, toNat_ofNat (by omega)]
        rw [if_neg (by omega), if_pos (by omega), eq_ofNat (b := b) (by omega), eq_ofNat (b := b₁) (by omega)]
      · obtain ⟨b₁, rest, rfl, hb₁, hb₁', h⟩ := continueChar_char h
        obtain ⟨b₂, rest, rfl, hb₂, hb₂', h⟩ := continueChar_char h
        rw [continueChar, if_neg (by decide), if_pos (by decide)] at h
        cases h
        refine ⟨[b₁, b₂], rest, rfl, rfl, ?_⟩
        rw [encodeChar, toNat_ofNat (by omega)]
        rw [if_neg (by omega), if_neg (by omega), if_pos (by omega), eq_ofNat (b := b) (by omega),
          eq_ofNat (b := b₁) (by omega), eq_ofNat (b := b₂) (by omega)]
      · obtain ⟨b₁, rest, rfl, hb₁, hb₁', h⟩ := continueChar_char h
        obtain ⟨b₂, rest, rfl, hb₂, hb₂', h⟩ := continueChar_char h
        obtain ⟨b₃, rest, rfl, hb₃, hb₃', h⟩ := continueChar_char h
        rw [continueChar, if_neg (by decide), if_neg (by decide)] at h
        cases h
        refine ⟨[b₁, b₂, b₃], rest, rfl, rfl, ?_⟩
        rw [encodeChar, toNat_ofNat (by omega)]
        rw [if_neg (by omega), if_neg (by omega), if_neg (by omega), eq_ofNat (b := b) (by omega),
          eq_ofNat (b := b₁) (by omega), eq_ofNat (b := b₂) (by omega), eq_ofNat (b := b₃) (by omega)]

theorem encode_of_decodeFrom {fuel offset : Nat} {bytes : List UInt8} {cs : List Char} (hfuel : bytes.length ≤ fuel)
    (h : decodeFrom fuel offset bytes = .ok cs) : bytes = encode cs := by
  induction fuel generalizing offset bytes cs with
  | zero =>
      obtain rfl := List.eq_nil_of_length_eq_zero (Nat.le_zero.1 hfuel)
      cases h
      rfl
  | succ fuel ih =>
      cases bytes with
      | nil =>
          cases h
          rfl
      | cons b rest =>
          rw [decodeFrom] at h
          cases hpiece : piece b rest with
          | malformed n reason =>
              rw [hpiece] at h
              cases h
          | char c n =>
              rw [hpiece] at h
              obtain ⟨cs', hcs', h⟩ := bind_eq_ok.1 h
              cases h
              obtain ⟨bs, tail, rfl, rfl, hc⟩ := encodeChar_of_piece hpiece
              rw [Nat.add_sub_cancel, List.drop_left] at hcs'
              have htail : tail.length ≤ fuel := by
                rw [List.length_cons, List.length_append] at hfuel
                omega
              rw [encode_cons, hc, ← ih htail hcs']
              rfl

/-- Bytes are read exactly where they are what the text is written by. -/
theorem decode?_eq_ok {bytes : List UInt8} {cs : List Char} : decode? bytes = .ok cs ↔ bytes = encode cs := by
  constructor
  · intro h
    exact encode_of_decodeFrom (Nat.le_refl _) h
  · rintro rfl
    exact decode?_encode cs

end Text.Utf8

namespace Percent

open Text

/-! ## Encoded texts -/

def isHexDigit (c : Char) : Bool := (hexValue? c).isSome

/-- Texts of unreserved characters, and of percent signs before two hexadecimal digits each. -/
inductive Encoded : List Char → Prop
  | nil : Encoded []
  | unreserved {c : Char} {s : List Char} : isUnreserved c = true → Encoded s → Encoded (c :: s)
  | byte {a b : Char} {s : List Char} : isHexDigit a = true → isHexDigit b = true → Encoded s →
      Encoded ('%' :: a :: b :: s)

theorem Encoded.append {s t : List Char} (hs : Encoded s) (ht : Encoded t) : Encoded (s ++ t) := by
  induction hs with
  | nil => exact ht
  | unreserved hc _ ih => exact .unreserved hc ih
  | byte ha hb _ ih => exact .byte ha hb ih

/-- A hexadecimal digit is an unreserved character. -/
theorem isUnreserved_of_isHexDigit {c : Char} (h : isHexDigit c = true) : isUnreserved c = true := by
  have halnum : (alnumValue? c).isSome = true := by
    unfold isHexDigit hexValue? at h
    cases ha : alnumValue? c with
    | none => rw [ha] at h; cases h
    | some n => rfl
  unfold alnumValue? at halnum
  unfold isUnreserved Char.isAlphanum Char.isAlpha
  by_cases hd : c.isDigit = true
  · simp [hd]
  · by_cases hl : c.isLower = true
    · simp [hl]
    · by_cases hu : c.isUpper = true
      · simp [hu]
      · simp [hd, hl, hu] at halnum

theorem Encoded.unreserved_or_percent {s : List Char} (h : Encoded s) :
    ∀ c ∈ s, isUnreserved c = true ∨ c = '%' := by
  induction h with
  | nil => intro c hc; cases hc
  | unreserved hc _ ih =>
      intro d hd
      rcases List.mem_cons.1 hd with rfl | hd
      · exact .inl hc
      · exact ih d hd
  | byte ha hb _ ih =>
      intro d hd
      rcases List.mem_cons.1 hd with rfl | hd
      · exact .inr rfl
      rcases List.mem_cons.1 hd with rfl | hd
      · exact .inl (isUnreserved_of_isHexDigit ha)
      rcases List.mem_cons.1 hd with rfl | hd
      · exact .inl (isUnreserved_of_isHexDigit hb)
      · exact ih d hd

/-- A character that is neither unreserved nor the percent sign is in no encoded text. -/
theorem Encoded.not_mem {s : List Char} (h : Encoded s) {c : Char} (hc : isUnreserved c = false)
    (hp : c ≠ '%') : c ∉ s := by
  intro hm
  rcases h.unreserved_or_percent c hm with hu | rfl
  · rw [hc] at hu
    cases hu
  · exact hp rfl

theorem hexValue?_hexUpper : ∀ n < 16, hexValue? (hexUpper n) = some n := by decide

theorem isHexDigit_hexUpper {n : Nat} (h : n < 16) : isHexDigit (hexUpper n) = true := by
  rw [isHexDigit, hexValue?_hexUpper n h]
  rfl

theorem encoded_flatMap_byte (bs : List UInt8) : Encoded (bs.flatMap byte) := by
  induction bs with
  | nil => exact .nil
  | cons b rest ih =>
      have hb : b.toNat < 256 := b.toNat_lt
      exact .byte (isHexDigit_hexUpper (by omega)) (isHexDigit_hexUpper (by omega)) ih

theorem encode_cons (keep : Char → Bool) (c : Char) (s : List Char) :
    encode keep (c :: s) = (if keep c then [c] else char c) ++ encode keep s := rfl

/-- What is neither kept nor part of a number does not come up. -/
theorem not_mem_encode {keep : Char → Bool} {c : Char} (hkeep : keep c = false) (hunreserved : isUnreserved c = false)
    (hpercent : c ≠ '%') (s : List Char) : c ∉ encode keep s := by
  intro hc
  obtain ⟨d, -, hd⟩ := List.mem_flatMap.1 hc
  split at hd
  next hkept =>
    rw [← List.mem_singleton.1 hd, hkeep] at hkept
    cases hkept
  next => exact (encoded_flatMap_byte _).not_mem hunreserved hpercent hd

theorem encoded_encodeSimple (s : List Char) : Encoded (encodeSimple s) := by
  unfold encodeSimple
  induction s with
  | nil => exact .nil
  | cons c rest ih =>
      rw [encode_cons]
      cases hc : isUnreserved c with
      | true => exact .unreserved hc ih
      | false => exact (encoded_flatMap_byte _).append ih

/-! ## Reading -/

/-- Two digits of a byte are read as that byte. -/
theorem decodeBytes_byte (b : UInt8) (rest : List Char) :
    decodeBytes (byte b ++ rest) = b :: decodeBytes rest := by
  have hb : b.toNat < 256 := b.toNat_lt
  show decodeBytes ('%' :: hexUpper (b.toNat / 16) :: hexUpper (b.toNat % 16) :: rest) = _
  rw [decodeBytes]
  simp only [hexValue?_hexUpper _ (show b.toNat / 16 < 16 by omega),
    hexValue?_hexUpper _ (show b.toNat % 16 < 16 by omega)]
  rw [show b.toNat / 16 * 16 + b.toNat % 16 = b.toNat by omega, UInt8.ofNat_toNat]

theorem decodeBytes_flatMap_byte (bs : List UInt8) (rest : List Char) :
    decodeBytes (bs.flatMap byte ++ rest) = bs ++ decodeBytes rest := by
  induction bs with
  | nil => rfl
  | cons b bs ih => rw [List.flatMap_cons, List.append_assoc, decodeBytes_byte, ih, List.cons_append]

/-- A character other than the percent sign stands for itself. -/
theorem decodeBytes_cons {c : Char} (h : c ≠ '%') (rest : List Char) :
    decodeBytes (c :: rest) = Utf8.encodeChar c ++ decodeBytes rest := by
  rw [decodeBytes]
  rintro a b s rfl
  exact absurd rfl h

theorem decodeBytes_encode (keep : Char → Bool) (h : keep '%' = false) (s rest : List Char) :
    decodeBytes (encode keep s ++ rest) = Utf8.encode s ++ decodeBytes rest := by
  induction s with
  | nil => rfl
  | cons c s ih =>
      rw [encode_cons, List.append_assoc, Utf8.encode_cons, List.append_assoc, ← ih]
      cases hc : keep c with
      | true =>
          have hne : c ≠ '%' := by
            rintro rfl
            rw [h] at hc
            cases hc
          exact decodeBytes_cons hne _
      | false => exact decodeBytes_flatMap_byte _ _

theorem decodeBytes_encodeSimple (s : List Char) : decodeBytes (encodeSimple s) = Utf8.encode s := by
  have h := decodeBytes_encode isUnreserved (by decide) s []
  rwa [List.append_nil, decodeBytes, List.append_nil] at h

theorem decode_encodeSimple (s : List Char) : decode (encodeSimple s) = s := by
  rw [decode, decodeBytes_encodeSimple, Utf8.decodeLossy_encode]

theorem encodeSimple_injective {s t : List Char} (h : encodeSimple s = encodeSimple t) : s = t := by
  rw [← decode_encodeSimple s, h, decode_encodeSimple]

/-- Every character is written by at least one. -/
theorem encode_eq_nil {keep : Char → Bool} {s : List Char} : encode keep s = [] ↔ s = [] := by
  cases s with
  | nil => exact iff_of_true rfl rfl
  | cons c rest =>
      refine iff_of_false (fun h => ?_) (List.cons_ne_nil c rest)
      have hfirst : (if keep c then [c] else char c) = [] := (List.append_eq_nil_iff.1 h).1
      split at hfirst
      · cases hfirst
      · obtain ⟨b, bs, hchar, -⟩ := Utf8.piece_encodeChar c []
        rw [char, hchar] at hfirst
        cases hfirst

end Percent

end ApiDiscovery
