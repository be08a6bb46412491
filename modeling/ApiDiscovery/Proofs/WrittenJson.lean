import ApiDiscovery.Json.Writer
import ApiDiscovery.Proofs.JsonText
import ApiDiscovery.Proofs.Numerals

/-!
# Written JSON is read back

A text stands for a value (`Stands`) where the reader makes that value of it, whatever follows, and goes on behind it.
A number could go on itself, so what follows must not be a part of one (`Ends`). A text may also stand for a fault,
for a whole number may have more digits than are converted. No character is written in halves (`Whole`).

    a text in quotes      stands for the text (`stands_writeString`): each character is read as what it was
    a numeral             stands for its number (`stands_render`, `stands_toString`): it parts at the same places

An object that is written line by line is read line by line (`members_lines`): each name gets what its text stands
for, and the first fault is the fault of the whole.

Main statement: `parseChars_lines`.
-/

namespace ApiDiscovery

namespace Json

open Number Text

/-! ## Strings -/

/-- What follows the first digits of the control characters is left alone: they are no halves of pairs. -/
theorem numberedChar_hexPadded {n : Nat} (hn : n < 0x20) {after : List Char} (hafter : after ≠ []) :
    numberedChar ('u' :: (hexPadded 4 n ++ after)) = .ok (Char.ofNat n, after) := by
  have hdigits : ∀ n < 0x20, hex4? (hexPadded 4 n) = some (n, []) := by decide
  have halone : ∀ n < 0x20, isHighSurrogate n = false ∧ charOrReplacement n = Char.ofNat n := by decide
  obtain ⟨ds, hds, -, -, hread⟩ := hex4?_eq_some (hdigits n hn)
  obtain ⟨hhigh, hchar⟩ := halone n hn
  rw [List.append_nil] at hds
  rw [hds, numberedChar_eq_ok]
  refine ⟨n, after, hread after, hafter, pairedChar_eq_ok.2 (.inr ⟨fun h => ?_, hchar.symm, rfl⟩)⟩
  rw [hhigh] at h
  cases h

/-- A character is written by a short escape, by number, or as it is. -/
theorem writeChar_cases (c : Char) :
    (∃ e, shortEscape? e = some c ∧ writeChar false c = ['\\', e]) ∨
      c.toNat < 0x20 ∧ writeChar false c = escapeUnit c.toNat ∨
      c ≠ '"' ∧ c ≠ '\\' ∧ ¬ c.toNat < 0x20 ∧ writeChar false c = [c] := by
  have hshort {d e : Char} (hc : (c == d) = true) (he : shortEscape? e = some d) :
      ∃ e', shortEscape? e' = some c ∧ ['\\', e] = ['\\', e'] := ⟨e, eq_of_beq hc ▸ he, rfl⟩
  rw [writeChar]
  by_cases hquote : (c == '"') = true
  · rw [if_pos hquote]
    exact .inl (hshort hquote rfl)
  rw [if_neg hquote]
  by_cases hescape : (c == '\\') = true
  · rw [if_pos hescape]
    exact .inl (hshort hescape rfl)
  rw [if_neg hescape]
  by_cases hnewline : (c == '\n') = true
  · rw [if_pos hnewline]
    exact .inl (hshort hnewline rfl)
  rw [if_neg hnewline]
  by_cases hreturn : (c == '\r') = true
  · rw [if_pos hreturn]
    exact .inl (hshort hreturn rfl)
  rw [if_neg hreturn]
  by_cases htab : (c == '\t') = true
  · rw [if_pos htab]
    exact .inl (hshort htab rfl)
  rw [if_neg htab]
  by_cases hback : (c == '\x08') = true
  · rw [if_pos hback]
    exact .inl (hshort hback rfl)
  rw [if_neg hback]
  by_cases hfeed : (c == '\x0c') = true
  · rw [if_pos hfeed]
    exact .inl (hshort hfeed rfl)
  rw [if_neg hfeed, Bool.false_and, Bool.or_false]
  split
  next hcontrol =>
    rw [decide_eq_true_eq] at hcontrol
    have hescaped : escapeChar c = escapeUnit c.toNat := by
      rw [escapeChar]
      exact if_pos (by omega)
    exact .inr (.inl ⟨hcontrol, hescaped⟩)
  next hcontrol =>
    rw [decide_eq_true_eq] at hcontrol
    exact .inr (.inr ⟨mt beq_iff_eq.2 hquote, mt beq_iff_eq.2 hescape, hcontrol, rfl⟩)

/-- What a character is written as is read as the character. -/
theorem Body.writeChar {after ds rest : List Char} (h : Body after ds rest) (c : Char) :
    Body (Json.writeChar false c ++ after) (c :: ds) rest := by
  have hafter : after ≠ [] := by
    rintro rfl
    exact absurd h.length_lt (Nat.not_lt_zero _)
  rcases writeChar_cases c with ⟨e, he, hwritten⟩ | ⟨hcontrol, hwritten⟩ | ⟨hquote, hescape, hcontrol, hwritten⟩
  · rw [hwritten]
    exact .short he h
  · rw [hwritten]
    have hread := numberedChar_hexPadded hcontrol hafter
    rw [Char.ofNat_toNat] at hread
    exact .numbered hread h
  · rw [hwritten]
    exact .plain hquote hescape hcontrol h

theorem body_writeChars (s rest : List Char) : Body (s.flatMap (writeChar false) ++ '"' :: rest) s rest := by
  induction s with
  | nil => exact .close rest
  | cons c s ih =>
      rw [List.flatMap_cons, List.append_assoc]
      exact ih.writeChar c

theorem writeString_toList (s : String) (rest : List Char) :
    (writeString false s).toList ++ rest = '"' :: (s.toList.flatMap (writeChar false) ++ '"' :: rest) := by
  rw [writeString, String.toList_ofList]
  exact congrArg (List.cons '"') (List.append_assoc _ _ _)

/-! ## Halves of characters -/

/-- A text leaves no half of a character to what follows it. -/
def Whole (cs : List Char) : Prop := ∀ rest, leavesHalf false (cs ++ rest) = leavesHalf false rest

theorem Whole.append {cs ds : List Char} (hcs : Whole cs) (hds : Whole ds) : Whole (cs ++ ds) := by
  intro rest
  rw [List.append_assoc, hcs, hds]

/-- Where nothing is escaped all characters are whole. -/
theorem whole_of_plain {cs : List Char} (h : '\\' ∉ cs) : Whole cs := by
  intro rest
  induction cs with
  | nil => rfl
  | cons c cs ih =>
      rw [List.mem_cons, not_or] at h
      have hstep : leavesHalf false (c :: (cs ++ rest)) = leavesHalf false (cs ++ rest) := by
        simp [leavesHalf, Ne.symm h.1]
      exact hstep.trans (ih h.2)

/-- The control characters are no halves. -/
theorem whole_escapeUnit {n : Nat} (hn : n < 0x20) : Whole (escapeUnit n) := by
  have hdigits : ∀ n < 0x20, hex4? (hexPadded 4 n) = some (n, []) := by decide
  have halone : ∀ n < 0x20, isHighSurrogate n = false ∧ isLowSurrogate n = false := by decide
  intro rest
  have hread := hdigits n hn
  obtain ⟨hhigh, hlow⟩ := halone n hn
  obtain ⟨ds, hds, hlength, -, -⟩ := hex4?_eq_some hread
  rw [List.append_nil] at hds
  rw [hds] at hread
  rw [escapeUnit, hds]
  match ds, hlength, hread with
  | [a, b, c, d], _, hread =>
      show leavesHalf false ('\\' :: 'u' :: a :: b :: c :: d :: rest) = _
      rw [leavesHalf, hread]
      simp [hhigh, hlow]

theorem whole_writeChar (c : Char) : Whole (writeChar false c) := by
  rcases writeChar_cases c with ⟨e, he, hwritten⟩ | ⟨hcontrol, hwritten⟩ | ⟨-, hescape, -, hwritten⟩
  · have hshort : e ≠ 'u' := by
      rintro rfl
      cases he
    rw [hwritten]
    intro rest
    simp [leavesHalf, hshort]
  · rw [hwritten]
    exact whole_escapeUnit hcontrol
  · rw [hwritten]
    exact whole_of_plain fun hmem => hescape (List.mem_singleton.1 hmem).symm

theorem whole_writeString (s : String) : Whole (writeString false s).toList := by
  have hquote : Whole ['"'] := whole_of_plain (by decide)
  have hbody (cs : List Char) : Whole (cs.flatMap (writeChar false)) := by
    induction cs with
    | nil => exact fun _ => rfl
    | cons c cs ih =>
        rw [List.flatMap_cons]
        exact (whole_writeChar c).append ih
  rw [writeString, String.toList_ofList]
  exact (hquote.append (hbody s.toList)).append hquote

/-! ## Numbers -/

/-- What can be a part of a number. -/
def isNumberPart (c : Char) : Bool := c.isDigit || c == '.' || c == 'e' || c == 'E'

/-- What cannot go on a number. -/
def Ends (rest : List Char) : Prop := ∀ c ∈ rest.head?, isNumberPart c = false

theorem Ends.noDigit {rest : List Char} (h : Ends rest) : Numeral.NoDigit rest := by
  intro c hc
  have hpart := h c hc
  rw [isNumberPart, Bool.or_eq_false_iff, Bool.or_eq_false_iff, Bool.or_eq_false_iff] at hpart
  exact hpart.1.1.1

/-- The sign of a number that is negative. -/
def signText (negative : Bool) : List Char := if negative then ['-'] else []

theorem ne_of_isDigit {c d : Char} (hc : c.isDigit = true) (hd : d.isDigit = false) : c ≠ d := by
  rintro rfl
  rw [hc] at hd
  cases hd

theorem numberSign_signText {c : Char} (hc : c.isDigit = true) (negative : Bool) (cs : List Char) :
    numberSign (signText negative ++ c :: cs) = (negative, c :: cs) := by
  cases negative with
  | true => rfl
  | false => exact numberSign_cons (ne_of_isDigit hc rfl) cs

/-- No word begins with a digit, with a sign or without. -/
theorem word?_digit {c : Char} (hc : c.isDigit = true) (negative : Bool) (cs : List Char) :
    word? (signText negative ++ c :: cs) = none := by
  have hne (d : Char) (hd : d.isDigit = false) : d ≠ c := (ne_of_isDigit hc hd).symm
  cases negative with
  | true => simp [word?, words, signText, hne 'I' rfl]
  | false =>
      simp [word?, words, signText, hne 'n' rfl, hne 't' rfl, hne 'f' rfl, hne 'N' rfl, hne 'I' rfl, hne '-' rfl]

section

variable (n : Numeral) {rest : List Char}

theorem wholeDigits_whole (hrest : Numeral.NoDigit rest) : wholeDigits (n.whole ++ rest) = (n.whole, rest) := by
  obtain ⟨htake, hdrop⟩ := Numeral.takeWhile_digits n.whole_digits hrest
  rcases n.leading with hzero | hhead
  · rw [hzero]
    rfl
  · obtain ⟨c, cs, hwhole⟩ := List.exists_cons_of_ne_nil n.whole_ne_nil
    have hc : c ≠ '0' := by
      rintro rfl
      exact hhead (by rw [hwhole]; rfl)
    rw [hwhole] at htake hdrop ⊢
    exact (wholeDigits_cons hc (cs ++ rest)).trans (Prod.ext htake hdrop)

theorem fraction_fractionText (hrest : Numeral.NoDigit rest) (hpoint : rest.head? ≠ some '.') :
    fraction (n.fractionText ++ rest) = (n.fractionText, rest) := by
  rw [Numeral.fractionText]
  split
  next =>
    cases rest with
    | nil => rfl
    | cons c rest => exact fraction_cons (fun hc => hpoint (by rw [hc]; rfl)) rest
  next hfraction =>
    obtain ⟨htake, hdrop⟩ := Numeral.takeWhile_digits n.fraction_digits hrest
    rw [List.cons_append, fraction]
    rw [htake, hdrop, if_neg hfraction]

theorem exponent_exponentText (hrest : Ends rest) :
    exponent (n.exponentText ++ rest) = (n.exponentText, rest) := by
  rw [Numeral.exponentText]
  split
  next negative ds hexponent =>
    obtain ⟨hne, hdigits⟩ := n.exponent_digits (negative, ds) hexponent
    obtain ⟨htake, hdrop⟩ := Numeral.takeWhile_digits hdigits hrest.noDigit
    have hsign : exponentSign ((if negative then '-' else '+') :: (ds ++ rest)) =
        ([if negative then '-' else '+'], ds ++ rest) := by
      cases negative <;> rfl
    rw [List.cons_append, List.cons_append, exponent_cons, if_pos (by rfl), hsign]
    dsimp only at htake hdrop ⊢
    rw [htake, hdrop, if_neg (mt List.isEmpty_iff.1 hne)]
    rfl
  next =>
    cases rest with
    | nil => rfl
    | cons c rest =>
        have hpart := hrest c rfl
        rw [isNumberPart, Bool.or_eq_false_iff, Bool.or_eq_false_iff] at hpart
        rw [List.nil_append, exponent_cons, hpart.1.2, hpart.2]
        rfl

/-- A numeral is parted where it was put together. -/
theorem number_text (negative : Bool) (hrest : Ends rest) :
    number (signText negative ++ (n.text ++ rest)) =
      if n.fractionText.isEmpty && n.exponentText.isEmpty then
        if digitLimit < n.whole.length then .error (.tooLong n.whole.length)
        else .ok (.int (if negative then -(decimalDigits n.whole : Int) else decimalDigits n.whole), rest)
      else .ok (.float (Double.ofDecimal negative n.decimal), rest) := by
  obtain ⟨c, cs, hwhole⟩ := List.exists_cons_of_ne_nil n.whole_ne_nil
  have hc : c.isDigit = true := n.whole_digits c (by rw [hwhole]; exact List.mem_cons_self)
  have hsign : numberSign (signText negative ++ (n.text ++ rest)) = (negative, n.text ++ rest) := by
    rw [Numeral.text, hwhole, List.cons_append, List.cons_append, List.cons_append]
    exact numberSign_signText hc negative _
  have hexponent := n.noDigit_exponentText hrest.noDigit
  have hpoint : (n.exponentText ++ rest).head? ≠ some '.' := by
    rw [Numeral.exponentText]
    split
    · intro hhead
      cases hhead
    · intro hhead
      have hpart := hrest '.' hhead
      cases hpart
  have hempty : n.whole.isEmpty = false := List.isEmpty_eq_false_iff.2 n.whole_ne_nil
  have hparse := n.parse?_text
  rw [Numeral.text] at hparse
  rw [number, hsign, Numeral.text, List.append_assoc, List.append_assoc]
  dsimp only
  rw [wholeDigits_whole n (n.noDigit_fractionText hexponent)]
  dsimp only
  rw [fraction_fractionText n hexponent hpoint]
  dsimp only
  rw [exponent_exponentText n hrest, hempty, if_neg Bool.false_ne_true, hparse]

end

/-! ## Values on one line -/

/-- What the reader makes of a text, whatever follows. -/
structure Stands (text : List Char) (result : Except Fault Value) : Prop where
  head : ∃ c cs, text = c :: cs ∧ isSpace c = false
  whole : Whole text
  value : ∀ (fuel : Nat) {rest : List Char}, Ends rest →
    Json.value (fuel + 1) (text ++ rest) = result.map fun v => (v, rest)

theorem Stands.skipSpace {text : List Char} {result : Except Fault Value} (h : Stands text result)
    (rest : List Char) : skipSpace (text ++ rest) = text ++ rest := by
  obtain ⟨c, cs, rfl, hc⟩ := h.head
  exact List.dropWhile_cons_of_neg (Bool.eq_false_iff.1 hc)

theorem stands_writeString (s : String) : Stands (writeString false s).toList (.ok (.str s)) where
  head := by
    have htext := writeString_toList s []
    rw [List.append_nil] at htext
    exact ⟨_, _, htext, rfl⟩
  whole := whole_writeString s
  value := by
    intro fuel rest _
    rw [writeString_toList]
    exact value_eq_ok.2 (.inl ⟨_, s.toList, rfl, body_writeChars s.toList rest, by rw [String.ofList_toList]⟩)

theorem stands_null : Stands "null".toList (.ok .null) :=
  ⟨⟨'n', _, rfl, rfl⟩, whole_of_plain (by decide), fun _ _ _ => rfl⟩

theorem stands_bool (b : Bool) : Stands (if b then "true" else "false").toList (.ok (.bool b)) := by
  cases b with
  | true => exact ⟨⟨'t', _, rfl, rfl⟩, whole_of_plain (by decide), fun _ _ _ => rfl⟩
  | false => exact ⟨⟨'f', _, rfl, rfl⟩, whole_of_plain (by decide), fun _ _ _ => rfl⟩

theorem not_space_of_isDigit {c : Char} (hc : c.isDigit = true) : isSpace c = false := by
  rw [isSpace, Bool.or_eq_false_iff, Bool.or_eq_false_iff, Bool.or_eq_false_iff]
  exact ⟨⟨⟨beq_eq_false_iff_ne.2 (ne_of_isDigit hc rfl), beq_eq_false_iff_ne.2 (ne_of_isDigit hc rfl)⟩,
    beq_eq_false_iff_ne.2 (ne_of_isDigit hc rfl)⟩, beq_eq_false_iff_ne.2 (ne_of_isDigit hc rfl)⟩

/-- What begins with a digit is read as a number, with a sign or without. -/
theorem value_digit (fuel : Nat) {c : Char} (hc : c.isDigit = true) (negative : Bool) (cs : List Char) :
    value (fuel + 1) (signText negative ++ c :: cs) = number (signText negative ++ c :: cs) := by
  have hscalar : scalar (signText negative ++ c :: cs) = number (signText negative ++ c :: cs) := by
    rw [scalar, word?_digit hc]
  rw [← hscalar]
  cases negative with
  | true => exact value_scalar fuel (by decide) (by decide) (by decide) _
  | false => exact value_scalar fuel (ne_of_isDigit hc rfl) (ne_of_isDigit hc rfl) (ne_of_isDigit hc rfl) _

theorem backslash_notMem {ds : List Char} (h : ∀ c ∈ ds, c.isDigit = true) : '\\' ∉ ds := by
  intro hmem
  have hdigit := h _ hmem
  cases hdigit

/-- Nothing in a numeral is escaped. -/
theorem whole_numeral (n : Numeral) (negative : Bool) : Whole (signText negative ++ n.text) := by
  have hsign : '\\' ∉ signText negative := by
    cases negative <;> decide
  have hfraction : '\\' ∉ n.fractionText := by
    rw [Numeral.fractionText]
    split
    · exact List.not_mem_nil
    · rw [List.mem_cons, not_or]
      exact ⟨by decide, backslash_notMem n.fraction_digits⟩
  have hexponent : '\\' ∉ n.exponentText := by
    rw [Numeral.exponentText]
    split
    next negative ds he =>
      rw [List.mem_cons, not_or, List.mem_cons, not_or]
      refine ⟨by decide, ?_, backslash_notMem (n.exponent_digits _ he).2⟩
      cases negative <;> decide
    next => exact List.not_mem_nil
  refine whole_of_plain ?_
  rw [Numeral.text, List.mem_append, List.mem_append, List.mem_append, not_or, not_or, not_or]
  exact ⟨hsign, ⟨backslash_notMem n.whole_digits, hfraction⟩, hexponent⟩

/-- A numeral stands for what a number is read as. -/
theorem stands_numeral (n : Numeral) (negative : Bool) {result : Except Fault Value}
    (h : ∀ rest, Ends rest → number (signText negative ++ (n.text ++ rest)) = result.map fun v => (v, rest)) :
    Stands (signText negative ++ n.text) result := by
  obtain ⟨c, cs, hwhole⟩ := List.exists_cons_of_ne_nil n.whole_ne_nil
  have hc : c.isDigit = true := n.whole_digits c (by rw [hwhole]; exact List.mem_cons_self)
  have htext : n.text = c :: (cs ++ n.fractionText ++ n.exponentText) := by
    rw [Numeral.text, hwhole]
    rfl
  refine ⟨?_, whole_numeral n negative, fun fuel rest hrest => ?_⟩
  · rw [htext]
    cases negative with
    | true => exact ⟨'-', _, rfl, rfl⟩
    | false => exact ⟨c, _, rfl, not_space_of_isDigit hc⟩
  · rw [List.append_assoc, ← h rest hrest, htext]
    exact value_digit fuel hc negative _

theorem isEmpty_fractional {n : Numeral} (h : n.IsFractional) :
    (n.fractionText.isEmpty && n.exponentText.isEmpty) = false := by
  rw [Bool.and_eq_false_iff]
  rcases h with h | h
  · rw [Numeral.fractionText, if_neg (mt List.isEmpty_iff.1 h)]
    exact .inl rfl
  · obtain ⟨e, he⟩ := Option.ne_none_iff_exists'.1 h
    rw [Numeral.exponentText, he]
    exact .inr rfl

/-- What a finite number is written as stands for it. -/
theorem stands_render (l : Layout) (negative : Bool) (m : Magnitude) :
    Stands (l.render (.finite negative m)).toList (.ok (.float (.finite negative m))) := by
  obtain ⟨n, htext, hfractional, hvalue⟩ := l.magnitude_numeral m
  have hrender : (l.render (.finite negative m)).toList = signText negative ++ n.text := by
    rw [htext, Layout.render]
    cases negative with
    | true => exact (String.toList_append ..).trans (congrArg _ String.toList_ofList)
    | false => exact String.toList_ofList
  rw [hrender]
  refine stands_numeral n negative fun rest hrest => ?_
  rw [number_text n negative hrest, isEmpty_fractional hfractional, if_neg Bool.false_ne_true, hvalue]
  rfl

theorem toList_toString (n : Int) :
    (toString n).toList = signText (decide (n < 0)) ++ (Numeral.ofNat n.natAbs).text := by
  have htext (k : Nat) : (Numeral.ofNat k).text = (toString k).toList := by
    rw [Numeral.text]
    show Nat.toDigits 10 k ++ [] ++ [] = _
    rw [List.append_nil, List.append_nil]
    exact String.toList_ofList.symm
  rw [htext]
  cases n with
  | ofNat k => rfl
  | negSucc k =>
      show ("-" ++ Nat.repr (k + 1)).toList = _
      rw [String.toList_append, decide_eq_true (Int.negSucc_lt_zero k)]
      rfl

/-- A whole number is read back unless it has more digits than are converted. -/
theorem stands_toString (n : Int) :
    Stands (toString n).toList (if digitLimit < digitCount n.natAbs then .error (.tooLong (digitCount n.natAbs))
      else .ok (.int n)) := by
  rw [toList_toString]
  refine stands_numeral _ _ fun rest hrest => ?_
  have hwhole : (Numeral.ofNat n.natAbs).whole = Nat.toDigits 10 n.natAbs := rfl
  rw [number_text _ _ hrest, if_pos (by rfl), hwhole, decimalDigits_toDigits, signed_natAbs,
    ← digitCount]
  split <;> rfl

/-! ## Objects line by line -/

variable {seen : List (Value × Value)}

/-- One name of an object with what stands for its value. -/
def memberText (name : String) (text : List Char) : List Char :=
  (writeString false name).toList ++ ':' :: ' ' :: text

theorem memberText_append (name : String) (text after : List Char) : memberText name text ++ after =
    '"' :: (name.toList.flatMap (writeChar false) ++ '"' :: ':' :: ' ' :: (text ++ after)) := by
  rw [memberText, List.append_assoc, writeString_toList]
  rfl

/-- Two spaces stand before each name. -/
def lines (fs : List (String × List Char)) : List Char :=
  [',', '\n'].intercalate (fs.map fun f => ' ' :: ' ' :: memberText f.1 f.2)

theorem skipSpace_line (name : String) (text after : List Char) :
    skipSpace (' ' :: ' ' :: memberText name text ++ after) = memberText name text ++ after := by
  rw [List.cons_append, List.cons_append, memberText_append]
  rfl

theorem whole_memberText (name : String) {text : List Char} (h : Whole text) : Whole (memberText name text) := by
  have hcolon : Whole [':', ' '] := whole_of_plain (by decide)
  exact (whole_writeString name).append (hcolon.append h)

theorem whole_lines {fs : List (String × List Char)} (h : ∀ f ∈ fs, Whole f.2) : Whole (lines fs) := by
  have hspaces : Whole [' ', ' '] := whole_of_plain (by decide)
  have hcomma : Whole [',', '\n'] := whole_of_plain (by decide)
  induction fs with
  | nil => exact fun _ => rfl
  | cons f fs ih =>
      have hline := hspaces.append (whole_memberText f.1 (h f List.mem_cons_self))
      cases fs with
      | nil =>
          rw [lines, List.map_cons, List.map_nil, List.intercalate_singleton]
          exact hline
      | cons g fs =>
          rw [lines, List.map_cons, List.map_cons, List.intercalate_cons_cons]
          exact (hline.append hcomma).append (ih fun f hf => h f (List.mem_cons_of_mem _ hf))

/-- The first line, and what follows it, which has something for each further one. -/
theorem lines_cons (f : String × List Char) (fs : List (String × List Char)) : ∃ after,
    lines (f :: fs) = ' ' :: ' ' :: memberText f.1 f.2 ++ after ∧ fs.length ≤ after.length := by
  induction fs generalizing f with
  | nil => exact ⟨[], List.intercalate_singleton.trans (List.append_nil _).symm, Nat.le_refl _⟩
  | cons g fs ih =>
      obtain ⟨after, hlines, hlength⟩ := ih g
      refine ⟨',' :: '\n' :: lines (g :: fs), List.intercalate_cons_cons.trans (List.append_assoc _ _ _), ?_⟩
      rw [hlines]
      simp only [List.length_cons, List.length_append]
      omega

theorem members_line {text : List Char} {result : Except Fault Value} (h : Stands text result) (name : String)
    {after : List Char} (hafter : Ends after) (fuel : Nat) :
    members (fuel + 2) seen (memberText name text ++ after) = result >>= fun v =>
      match skipSpace after with
      | '}' :: rest => .ok (Value.put (.str name) v seen, rest)
      | ',' :: more => members (fuel + 1) (Value.put (.str name) v seen) (skipSpace more)
      | rest => .error (.malformed .comma rest) := by
  have hname := string_eq_ok.2 (body_writeChars name.toList (':' :: ' ' :: (text ++ after)))
  have hvalue : value (fuel + 1) (skipSpace (' ' :: (text ++ after))) = result.map fun v => (v, after) := by
    rw [← h.value fuel hafter]
    exact congrArg _ (h.skipSpace after)
  rw [memberText_append, members.eq_def]
  dsimp only
  rw [hname, ok_bind]
  show (value (fuel + 1) (skipSpace (' ' :: (text ++ after))) >>= _) = _
  rw [hvalue, String.ofList_toList]
  cases result with
  | error f => rfl
  | ok v =>
      rfl

section

variable {α : Type} {text : α → List Char} {result : α → Except Fault Value}

/-- An object that is written line by line is read line by line, up to the first fault. -/
theorem members_lines (h : ∀ a, Stands (text a) (result a)) {fs : List (String × α)} (hne : fs ≠ [])
    (fuel : Nat) (rest : List Char) :
    members (fuel + fs.length + 1) seen
        (skipSpace (lines (fs.map fun f => (f.1, text f.2)) ++ '\n' :: '}' :: rest)) =
      (fs.mapM fun f => (result f.2).map fun v => (f.1, v)) >>= fun es =>
        .ok (es.foldl (fun seen e => Value.put (.str e.1) e.2 seen) seen, rest) := by
  induction fs generalizing seen with
  | nil => exact absurd rfl hne
  | cons f fs ih =>
      rw [List.mapM_cons]
      cases fs with
      | nil =>
          have hline : lines [(f.1, text f.2)] = ' ' :: ' ' :: memberText f.1 (text f.2) :=
            List.intercalate_singleton
          rw [List.map_cons, List.map_nil, hline, skipSpace_line, List.length_singleton,
            members_line (h f.2) _ (by rintro c ⟨⟩; rfl)]
          cases result f.2 <;> rfl
      | cons g fs =>
          have hrest (seen : List (Value × Value)) := @ih seen (List.cons_ne_nil g fs)
          have hline : lines ((f :: g :: fs).map fun f => (f.1, text f.2)) = ' ' :: ' ' :: memberText f.1 (text f.2) ++
              ',' :: '\n' :: lines ((g :: fs).map fun f => (f.1, text f.2)) :=
            List.intercalate_cons_cons.trans (List.append_assoc _ _ _)
          rw [hline, List.append_assoc, skipSpace_line]
          show members (fuel + (g :: fs).length + 2) seen _ = _
          rw [List.cons_append, members_line (h f.2) _ (by rintro c ⟨⟩; rfl)]
          cases result f.2 with
          | error fault => rfl
          | ok v =>
              refine (hrest _).trans ?_
              cases hes : (g :: fs).mapM fun f => (result f.2).map fun v => (f.1, v) with
              | error fault => rfl
              | ok es => rfl

theorem value_members (fuel : Nat) {cs more : List Char} (h : skipSpace cs = '"' :: more) :
    value (fuel + 1) ('{' :: cs) = members fuel [] ('"' :: more) >>= fun r => pure (.map r.1, r.2) := by
  rw [value_object, h]
  rfl

/-- The text of an object with a line for each name. -/
theorem parseChars_lines (h : ∀ a, Stands (text a) (result a)) {fs : List (String × α)} (hne : fs ≠ []) :
    parseChars ('{' :: '\n' :: (lines (fs.map fun f => (f.1, text f.2)) ++ ['\n', '}', '\n'])) =
      (fs.mapM fun f => (result f.2).map fun v => (f.1, v)).map fun es =>
        .map (es.foldl (fun seen e => Value.put (.str e.1) e.2 seen) []) := by
  obtain ⟨f, fs', rfl⟩ := List.exists_cons_of_ne_nil hne
  obtain ⟨after, hlines, hlength⟩ := lines_cons (f.1, text f.2) (fs'.map fun f => (f.1, text f.2))
  rw [List.length_map] at hlength
  have hbegin : ∃ more, skipSpace (lines ((f :: fs').map fun f => (f.1, text f.2)) ++ ['\n', '}', '\n']) =
      '"' :: more := by
    rw [List.map_cons, hlines, List.append_assoc, skipSpace_line, memberText_append]
    exact ⟨_, rfl⟩
  obtain ⟨more, hmore⟩ := hbegin
  have hcount : fs'.length + 2 ≤ (lines ((f :: fs').map fun f => (f.1, text f.2))).length := by
    rw [List.map_cons, hlines, List.length_append, List.length_cons, List.length_cons]
    omega
  generalize hcs : '{' :: '\n' :: (lines ((f :: fs').map fun f => (f.1, text f.2)) ++ ['\n', '}', '\n']) = cs
  obtain ⟨fuel, hfuel⟩ : ∃ fuel, 2 * cs.length = fuel + (f :: fs').length + 1 := by
    refine ⟨2 * cs.length - (f :: fs').length - 1, ?_⟩
    rw [← hcs]
    simp only [List.length_cons, List.length_append]
    omega
  have hparse : parseChars cs = value (2 * cs.length + 1) cs >>= fun r =>
      if (skipSpace r.2).isEmpty then .ok r.1 else .error (.malformed .extraData (skipSpace r.2)) := by
    rw [← hcs]
    rfl
  have hvalue : value (2 * cs.length + 1) cs =
      members (2 * cs.length) [] ('"' :: more) >>= fun r => pure (.map r.1, r.2) := by
    generalize 2 * cs.length = fuel
    rw [← hcs]
    exact value_members fuel hmore
  rw [hparse, hvalue, ← hmore, hfuel, members_lines h hne]
  cases (f :: fs').mapM fun f => (result f.2).map fun v => (f.1, v) <;> rfl

end

end Json

end ApiDiscovery
