import ApiDiscovery.Json.Reader
import ApiDiscovery.Proofs.Outcome

/-!
# What the JSON reader takes

The reader works with fuel, one unit for each level of its calls. What it takes can be said without: `Body` for the
rest of a string, `Reads` for values and for the insides of objects and arrays. Both follow the branches of the
reader in which it goes on, and leave out the refusals.

    whatever is read, with any fuel, is taken             (`body_of_stringBody`, `reads_of_readBy`)
    whatever is taken is read, if the fuel covers it      (`Body.read`, `Reads.read`)

What is taken is never nothing, so the length of a text is fuel enough, and reading fails for what is amiss in the
text alone.

Main statement: `parseChars_eq_ok`.
-/

namespace ApiDiscovery

namespace Json

open Number Text

/-! ## Strings -/

/-- `Body cs ds rest`: the characters are the rest of a string, which stands for `ds`, and what follows it. -/
inductive Body : List Char → List Char → List Char → Prop
  | close (rest : List Char) : Body ('"' :: rest) [] rest
  | numbered {cs after ds rest : List Char} {d : Char} (h : numberedChar ('u' :: cs) = .ok (d, after))
      (hrest : Body after ds rest) : Body ('\\' :: 'u' :: cs) (d :: ds) rest
  | short {after ds rest : List Char} {e d : Char} (h : shortEscape? e = some d) (hrest : Body after ds rest) :
      Body ('\\' :: e :: after) (d :: ds) rest
  | plain {cs ds rest : List Char} {c : Char} (hquote : c ≠ '"') (hescape : c ≠ '\\') (hcontrol : ¬ c.toNat < 0x20)
      (hrest : Body cs ds rest) : Body (c :: cs) (c :: ds) rest

/-- A number is read from four digits. -/
theorem hex4?_eq_some {cs rest : List Char} {n : Nat} (h : hex4? cs = some (n, rest)) :
    ∃ ds, cs = ds ++ rest ∧ ds.length = 4 ∧ (∀ c ∈ ds, (hexValue? c).isSome = true) ∧
      ∀ rest', hex4? (ds ++ rest') = some (n, rest') := by
  match cs, h with
  | a :: b :: c :: d :: more, h =>
      simp only [hex4?, Option.bind_eq_bind, Option.bind_eq_some_iff] at h
      obtain ⟨a', ha, b', hb, c', hc, d', hd, h⟩ := h
      cases h
      refine ⟨[a, b, c, d], rfl, rfl, ?_, fun rest' => ?_⟩
      · simp [ha, hb, hc, hd]
      · simp [hex4?, ha, hb, hc, hd]

theorem length_hex4? {cs rest : List Char} {n : Nat} (h : hex4? cs = some (n, rest)) :
    cs.length = rest.length + 4 := by
  obtain ⟨ds, rfl, hds, -⟩ := hex4?_eq_some h
  rw [List.length_append, hds, Nat.add_comm]

theorem drop_hex4? {cs rest : List Char} {n : Nat} (h : hex4? cs = some (n, rest)) : cs.drop 4 = rest := by
  obtain ⟨ds, rfl, hds, -⟩ := hex4?_eq_some h
  rw [← hds, List.drop_left]

/-- What follows a character by number leaves it alone: it is no first half, or no number of four digits follows it
before something else, or one that is no second half. -/
def LeavesAlone (n : Nat) (cs : List Char) : Prop :=
  isHighSurrogate n = true → ∀ more, cs = '\\' :: 'u' :: more → more.drop 4 ≠ [] →
    ∃ m after, hex4? more = some (m, after) ∧ isLowSurrogate m = false

/-- A first half is read together with the second half behind it. -/
theorem pairedChar_eq_ok {n : Nat} {cs rest : List Char} {d : Char} :
    pairedChar n cs = .ok (d, rest) ↔
      (isHighSurrogate n = true ∧ ∃ more m, cs = '\\' :: 'u' :: more ∧ hex4? more = some (m, rest) ∧ rest ≠ [] ∧
        isLowSurrogate m = true ∧ d = joinSurrogates n m) ∨
      (LeavesAlone n cs ∧ d = charOrReplacement n ∧ rest = cs) := by
  constructor
  · intro h
    rw [pairedChar.eq_def] at h
    split at h
    next hpair =>
      rw [Bool.and_eq_true, Bool.not_eq_true', List.isEmpty_eq_false_iff] at hpair
      split at h
      next more =>
        split at h
        next m after hhex =>
          split at h
          next hlow =>
            obtain ⟨hd, rfl⟩ := Prod.mk.inj (Except.ok.inj h)
            refine .inl ⟨hpair.1, more, m, rfl, hhex, ?_, hlow, hd.symm⟩
            rw [← drop_hex4? hhex]
            exact hpair.2
          next hlow =>
            obtain ⟨hd, rfl⟩ := Prod.mk.inj (Except.ok.inj h)
            refine .inr ⟨fun _ more' hmore _ => ?_, hd.symm, rfl⟩
            cases hmore
            exact ⟨m, after, hhex, Bool.eq_false_iff.2 hlow⟩
        next => cases h
      next hother =>
        obtain ⟨hd, rfl⟩ := Prod.mk.inj (Except.ok.inj h)
        exact .inr ⟨fun _ more hmore _ => absurd hmore (hother more), hd.symm, rfl⟩
    next hpair =>
      obtain ⟨hd, rfl⟩ := Prod.mk.inj (Except.ok.inj h)
      refine .inr ⟨fun hhigh more hmore hdrop => absurd ?_ hpair, hd.symm, rfl⟩
      rw [hhigh, hmore, Bool.true_and, Bool.not_eq_true', List.isEmpty_eq_false_iff]
      exact hdrop
  · rintro (⟨hhigh, more, m, rfl, hhex, hne, hlow, hd⟩ | ⟨halone, hd, rfl⟩)
    · have hpair : (isHighSurrogate n && !(('\\' :: 'u' :: more).drop 6).isEmpty) = true := by
        rw [hhigh, Bool.true_and, Bool.not_eq_true', List.isEmpty_eq_false_iff, List.drop_succ_cons, List.drop_succ_cons,
          drop_hex4? hhex]
        exact hne
      rw [pairedChar, if_pos hpair, hhex, hd]
      exact if_pos hlow
    · rw [pairedChar.eq_def, hd]
      split
      next hpair =>
        rw [Bool.and_eq_true, Bool.not_eq_true', List.isEmpty_eq_false_iff] at hpair
        split
        next more =>
          obtain ⟨m, after, hhex, hlow⟩ := halone hpair.1 more rfl hpair.2
          rw [hhex]
          exact if_neg (Bool.eq_false_iff.1 hlow)
        next => rfl
      next => rfl

theorem length_pairedChar {n : Nat} {cs rest : List Char} {d : Char} (h : pairedChar n cs = .ok (d, rest)) :
    rest.length ≤ cs.length := by
  rcases pairedChar_eq_ok.1 h with ⟨-, more, m, rfl, hhex, -⟩ | ⟨-, -, rfl⟩
  · have hlength := length_hex4? hhex
    simp only [List.length_cons]
    omega
  · exact Nat.le_refl _

/-- What a character by number is read from: four digits, with something behind them. -/
theorem numberedChar_eq_ok {x : Char} {digits rest : List Char} {d : Char} :
    numberedChar (x :: digits) = .ok (d, rest) ↔
      ∃ n after, hex4? digits = some (n, after) ∧ after ≠ [] ∧ pairedChar n after = .ok (d, rest) := by
  rw [numberedChar, List.drop_succ_cons, List.drop_zero]
  cases hhex : hex4? digits with
  | none =>
      constructor
      · intro h
        split at h <;> cases h
      · rintro ⟨n, after, h, -⟩
        cases h
  | some found =>
      obtain ⟨n, after⟩ := found
      rw [drop_hex4? hhex]
      constructor
      · intro h
        split at h
        next => cases h
        next hempty => exact ⟨n, after, rfl, fun hnil => hempty (List.isEmpty_iff.2 hnil), h⟩
      · rintro ⟨n', after', h, hne, hpaired⟩
        cases h
        rw [if_neg fun hempty => hne (List.isEmpty_iff.1 hempty)]
        exact hpaired

/-- A character by number takes something. -/
theorem length_numberedChar {x : Char} {digits rest : List Char} {d : Char}
    (h : numberedChar (x :: digits) = .ok (d, rest)) : rest.length < digits.length := by
  obtain ⟨n, after, hhex, -, hpaired⟩ := numberedChar_eq_ok.1 h
  have hlength := length_hex4? hhex
  have hle := length_pairedChar hpaired
  omega

section

variable (start : List Char) (fuel : Nat)

theorem stringBody_numbered (cs : List Char) :
    stringBody start (fuel + 1) ('\\' :: 'u' :: cs) = (numberedChar ('u' :: cs) >>= fun r =>
      stringBody start fuel r.2 >>= fun r' => pure (r.1 :: r'.1, r'.2)) := rfl

theorem stringBody_short {e : Char} (h : e ≠ 'u') (after : List Char) :
    stringBody start (fuel + 1) ('\\' :: e :: after) =
      match shortEscape? e with
      | none => .error (.malformed .escape ('\\' :: e :: after))
      | some d => stringBody start fuel after >>= fun r => pure (d :: r.1, r.2) := by
  rw [stringBody.eq_def]
  dsimp only
  rw [if_neg (by decide), if_pos (by decide)]
  split
  next heq => cases heq
  next heq =>
    cases heq
    exact absurd rfl h
  next heq =>
    cases heq
    rfl

theorem stringBody_plain {c : Char} (hquote : c ≠ '"') (hescape : c ≠ '\\') (cs : List Char) :
    stringBody start (fuel + 1) (c :: cs) =
      if c.toNat < 0x20 then .error (.malformed .controlCharacter (c :: cs))
      else stringBody start fuel cs >>= fun r => pure (c :: r.1, r.2) := by
  rw [stringBody.eq_def]
  dsimp only
  rw [if_neg fun h => hquote (eq_of_beq h), if_neg fun h => hescape (eq_of_beq h)]

end

theorem body_of_stringBody {start cs ds rest : List Char} {fuel : Nat}
    (h : stringBody start fuel cs = .ok (ds, rest)) : Body cs ds rest := by
  induction fuel generalizing cs ds rest with
  | zero => cases h
  | succ fuel ih =>
      cases cs with
      | nil => cases h
      | cons c more =>
          by_cases hquote : c = '"'
          · subst hquote
            cases h
            exact .close _
          by_cases hescape : c = '\\'
          · subst hescape
            cases more with
            | nil => cases h
            | cons e after =>
                by_cases he : e = 'u'
                · subst he
                  rw [stringBody_numbered] at h
                  obtain ⟨⟨d, after'⟩, hd, h⟩ := bind_eq_ok.1 h
                  obtain ⟨⟨ds', rest'⟩, hds, h⟩ := bind_eq_ok.1 h
                  cases h
                  exact .numbered hd (ih hds)
                · rw [stringBody_short start fuel he] at h
                  cases hd : shortEscape? e with
                  | none =>
                      rw [hd] at h
                      cases h
                  | some d =>
                      rw [hd] at h
                      obtain ⟨⟨ds', rest'⟩, hds, h⟩ := bind_eq_ok.1 h
                      cases h
                      exact .short hd (ih hds)
          · rw [stringBody_plain start fuel hquote hescape] at h
            by_cases hcontrol : c.toNat < 0x20
            · rw [if_pos hcontrol] at h
              cases h
            · rw [if_neg hcontrol] at h
              obtain ⟨⟨ds', rest'⟩, hds, h⟩ := bind_eq_ok.1 h
              cases h
              exact .plain hquote hescape hcontrol (ih hds)

theorem Body.length_lt {cs ds rest : List Char} (h : Body cs ds rest) : rest.length < cs.length := by
  induction h with
  | close rest => exact Nat.lt_succ_self _
  | numbered h _ ih =>
      have hchar := length_numberedChar h
      simp only [List.length_cons]
      omega
  | short _ _ ih =>
      simp only [List.length_cons]
      omega
  | plain _ _ _ _ ih =>
      simp only [List.length_cons]
      omega

/-- The rest of a string is read with any fuel that covers it. -/
theorem Body.read {cs ds rest : List Char} (h : Body cs ds rest) (start : List Char) {fuel : Nat}
    (hfuel : cs.length ≤ fuel + rest.length) : stringBody start fuel cs = .ok (ds, rest) := by
  induction h generalizing fuel with
  | close rest =>
      obtain ⟨fuel, rfl⟩ : ∃ f, fuel = f + 1 := Nat.exists_eq_add_one.2 (by simp at hfuel; omega)
      rfl
  | numbered h hrest ih =>
      have hchar := length_numberedChar h
      have hlt := hrest.length_lt
      simp only [List.length_cons] at hfuel
      obtain ⟨fuel, rfl⟩ : ∃ f, fuel = f + 1 := Nat.exists_eq_add_one.2 (by omega)
      have hread := ih (show _ ≤ fuel + _ by omega)
      rw [stringBody_numbered, h]
      show (stringBody start fuel _ >>= _) = _
      rw [hread]
      rfl
  | short h hrest ih =>
      have hlt := hrest.length_lt
      simp only [List.length_cons] at hfuel
      obtain ⟨fuel, rfl⟩ : ∃ f, fuel = f + 1 := Nat.exists_eq_add_one.2 (by omega)
      have hread := ih (show _ ≤ fuel + _ by omega)
      rw [stringBody_short start fuel (by rintro rfl; cases h), h]
      show (stringBody start fuel _ >>= _) = _
      rw [hread]
      rfl
  | plain hquote hescape hcontrol hrest ih =>
      have hlt := hrest.length_lt
      simp only [List.length_cons] at hfuel
      obtain ⟨fuel, rfl⟩ : ∃ f, fuel = f + 1 := Nat.exists_eq_add_one.2 (by omega)
      have hread := ih (show _ ≤ fuel + _ by omega)
      rw [stringBody_plain start fuel hquote hescape, if_neg hcontrol, hread]
      rfl

theorem string_eq_ok {cs ds rest : List Char} : string ('"' :: cs) = .ok (ds, rest) ↔ Body cs ds rest := by
  constructor
  · exact body_of_stringBody
  · intro h
    refine h.read _ ?_
    simp only [List.length_cons]
    omega

/-! ## Words and numbers -/

/-- What a value is that is no string, no object and no array. -/
def scalar (cs : List Char) : Except Fault (Value × List Char) :=
  match word? cs with
  | some found => .ok found
  | none => number cs

theorem wholeDigits_cons {c : Char} (h : c ≠ '0') (rest : List Char) :
    wholeDigits (c :: rest) = ((c :: rest).takeWhile Char.isDigit, (c :: rest).dropWhile Char.isDigit) := by
  rw [wholeDigits.eq_def]
  split
  next heq => exact absurd (List.cons.inj heq).1 h
  next => rfl

theorem length_wholeDigits (cs : List Char) :
    (wholeDigits cs).1.length + (wholeDigits cs).2.length = cs.length := by
  rw [wholeDigits.eq_def]
  split
  · simp only [List.length_cons, List.length_nil]
    omega
  · rw [← List.length_append, List.takeWhile_append_dropWhile]

theorem length_dropWhile_le (p : Char → Bool) (cs : List Char) : (cs.dropWhile p).length ≤ cs.length :=
  (List.dropWhile_suffix p).length_le

theorem fraction_cons {c : Char} (h : c ≠ '.') (rest : List Char) : fraction (c :: rest) = ([], c :: rest) := by
  rw [fraction.eq_def]
  split
  next heq => exact absurd (List.cons.inj heq).1 h
  next => rfl

theorem length_fraction (cs : List Char) : (fraction cs).2.length ≤ cs.length := by
  rw [fraction.eq_def]
  split
  next rest =>
    dsimp only
    split
    · exact Nat.le_refl _
    · exact Nat.le_succ_of_le (length_dropWhile_le _ rest)
  · exact Nat.le_refl _

theorem exponentSign_cons {c : Char} (hplus : c ≠ '+') (hminus : c ≠ '-') (rest : List Char) :
    exponentSign (c :: rest) = ([], c :: rest) := by
  rw [exponentSign.eq_def]
  split
  next heq => exact absurd (List.cons.inj heq).1 hplus
  next heq => exact absurd (List.cons.inj heq).1 hminus
  next => rfl

theorem exponent_cons (mark : Char) (rest : List Char) :
    exponent (mark :: rest) =
      if mark == 'e' || mark == 'E' then
        if ((exponentSign rest).2.takeWhile Char.isDigit).isEmpty then ([], mark :: rest)
        else ('e' :: (exponentSign rest).1 ++ (exponentSign rest).2.takeWhile Char.isDigit,
          (exponentSign rest).2.dropWhile Char.isDigit)
      else ([], mark :: rest) := rfl

theorem length_exponentSign (cs : List Char) : (exponentSign cs).2.length ≤ cs.length := by
  rw [exponentSign.eq_def]
  split
  · exact Nat.le_succ _
  · exact Nat.le_succ _
  · exact Nat.le_refl _

theorem length_exponent (cs : List Char) : (exponent cs).2.length ≤ cs.length := by
  cases cs with
  | nil => exact Nat.le_refl _
  | cons mark rest =>
      rw [exponent_cons]
      have hsign := length_exponentSign rest
      have hdigits := length_dropWhile_le Char.isDigit (exponentSign rest).2
      split
      · split
        · exact Nat.le_refl _
        · exact Nat.le_succ_of_le (Nat.le_trans hdigits hsign)
      · exact Nat.le_refl _

theorem numberSign_cons {c : Char} (h : c ≠ '-') (rest : List Char) : numberSign (c :: rest) = (false, c :: rest) := by
  rw [numberSign.eq_def]
  split
  next heq => exact absurd (List.cons.inj heq).1 h
  next => rfl

/-- The number that digits, a fraction and an exponent are. -/
def numeral? (negative : Bool) (whole frac exp : List Char) : Option Value :=
  if frac.isEmpty && exp.isEmpty then
    if digitLimit < whole.length then none
    else
      let n : Int := decimalDigits whole
      some (.int (if negative then -n else n))
  else (Decimal.parse? (whole ++ frac ++ exp)).map fun d => .float (Double.ofDecimal negative d)

/-- A number is read part by part. -/
theorem number_eq_ok {cs rest : List Char} {v : Value} :
    number cs = .ok (v, rest) ↔
      (wholeDigits (numberSign cs).2).1 ≠ [] ∧
        numeral? (numberSign cs).1 (wholeDigits (numberSign cs).2).1 (fraction (wholeDigits (numberSign cs).2).2).1
          (exponent (fraction (wholeDigits (numberSign cs).2).2).2).1 = some v ∧
        rest = (exponent (fraction (wholeDigits (numberSign cs).2).2).2).2 := by
  rw [number]
  obtain ⟨negative, body⟩ := numberSign cs
  dsimp only
  obtain ⟨whole, afterWhole⟩ := wholeDigits body
  dsimp only
  obtain ⟨frac, afterFrac⟩ := fraction afterWhole
  dsimp only
  obtain ⟨exp, afterExp⟩ := exponent afterFrac
  dsimp only
  by_cases hwhole : whole = []
  · rw [if_pos (List.isEmpty_iff.2 hwhole)]
    exact ⟨nofun, fun h => absurd hwhole h.1⟩
  rw [if_neg fun h => hwhole (List.isEmpty_iff.1 h), numeral?]
  by_cases hplain : (frac.isEmpty && exp.isEmpty) = true
  · rw [if_pos hplain, if_pos hplain]
    by_cases hlimit : digitLimit < whole.length
    · rw [if_pos hlimit, if_pos hlimit]
      exact ⟨nofun, fun h => nomatch h.2.1⟩
    · rw [if_neg hlimit, if_neg hlimit]
      constructor
      · intro h
        obtain ⟨rfl, rfl⟩ := Prod.mk.inj (Except.ok.inj h)
        exact ⟨hwhole, rfl, rfl⟩
      · rintro ⟨-, hv, rfl⟩
        cases hv
        rfl
  · rw [if_neg hplain, if_neg hplain]
    cases Decimal.parse? (whole ++ frac ++ exp) with
    | none => exact ⟨nofun, fun h => nomatch h.2.1⟩
    | some d =>
        constructor
        · intro h
          obtain ⟨rfl, rfl⟩ := Prod.mk.inj (Except.ok.inj h)
          exact ⟨hwhole, rfl, rfl⟩
        · rintro ⟨-, hv, rfl⟩
          cases hv
          rfl

theorem length_number {cs rest : List Char} {v : Value} (h : number cs = .ok (v, rest)) :
    rest.length < cs.length := by
  obtain ⟨hwhole, -, rfl⟩ := number_eq_ok.1 h
  have hsign : (numberSign cs).2.length ≤ cs.length := by
    rw [numberSign.eq_def]
    split
    · exact Nat.le_succ _
    · exact Nat.le_refl _
  have hdigits := length_wholeDigits (numberSign cs).2
  have hpos := List.length_pos_iff.2 hwhole
  have hfraction := length_fraction (wholeDigits (numberSign cs).2).2
  have hexponent := length_exponent (fraction (wholeDigits (numberSign cs).2).2).2
  omega

theorem length_scalar {cs rest : List Char} {v : Value} (h : scalar cs = .ok (v, rest)) :
    rest.length < cs.length := by
  rw [scalar] at h
  cases hword : word? cs with
  | none =>
      rw [hword] at h
      exact length_number h
  | some found =>
      rw [hword] at h
      cases h
      obtain ⟨⟨w, v'⟩, hmem, hfound⟩ := List.exists_of_findSome?_eq_some hword
      have hlong : ∀ e ∈ words, 0 < e.1.length := by decide
      have hpos := hlong _ hmem
      dsimp only at hfound hpos
      split at hfound
      next hprefix =>
        cases hfound
        have hle := (List.isPrefixOf_iff_prefix.1 hprefix).length_le
        rw [List.length_drop]
        omega
      next => cases hfound

/-! ## Values -/

theorem elements_eq_ok {fuel : Nat} {vs : List Value} {cs rest : List Char} :
    elements (fuel + 1) cs = .ok (vs, rest) ↔
      ∃ v rest', value fuel cs = .ok (v, rest') ∧
        (skipSpace rest' = ']' :: rest ∧ vs = [v] ∨
          ∃ more vs', skipSpace rest' = ',' :: more ∧ elements fuel (skipSpace more) = .ok (vs', rest) ∧
            vs = v :: vs') := by
  rw [elements.eq_def]
  refine bind_eq_ok.trans ⟨?_, ?_⟩
  · rintro ⟨⟨v, rest'⟩, hv, h⟩
    refine ⟨v, rest', hv, ?_⟩
    dsimp only at h
    split at h
    next hclose =>
      cases h
      exact .inl ⟨hclose, rfl⟩
    next more hcomma =>
      obtain ⟨⟨vs', rest''⟩, hmore, h⟩ := bind_eq_ok.1 h
      cases h
      exact .inr ⟨more, vs', hcomma, hmore, rfl⟩
    next => cases h
  · rintro ⟨v, rest', hv, ⟨hclose, rfl⟩ | ⟨more, vs', hcomma, hmore, rfl⟩⟩
    · refine ⟨(v, rest'), hv, ?_⟩
      dsimp only
      rw [hclose]
      rfl
    · refine ⟨(v, rest'), hv, ?_⟩
      dsimp only
      rw [hcomma]
      exact bind_eq_ok.2 ⟨(vs', rest), hmore, rfl⟩

theorem members_eq_ok {fuel : Nat} {seen es : List (Value × Value)} {cs rest : List Char} :
    members (fuel + 1) seen cs = .ok (es, rest) ↔
      ∃ cs' name after after' v rest', cs = '"' :: cs' ∧ Body cs' name after ∧ skipSpace after = ':' :: after' ∧
        value fuel (skipSpace after') = .ok (v, rest') ∧
        (skipSpace rest' = '}' :: rest ∧ es = Value.put (.str (String.ofList name)) v seen ∨
          ∃ more, skipSpace rest' = ',' :: more ∧
            members fuel (Value.put (.str (String.ofList name)) v seen) (skipSpace more) = .ok (es, rest)) := by
  constructor
  · intro h
    rw [members.eq_def] at h
    dsimp only at h
    split at h
    next cs' =>
      obtain ⟨⟨name, after⟩, hname, h⟩ := bind_eq_ok.1 h
      dsimp only at h
      split at h
      next after' hcolon =>
        obtain ⟨⟨v, rest'⟩, hv, h⟩ := bind_eq_ok.1 h
        refine ⟨cs', name, after, after', v, rest', rfl, string_eq_ok.1 hname, hcolon, hv, ?_⟩
        dsimp only at h
        split at h
        next hclose =>
          cases h
          exact .inl ⟨hclose, rfl⟩
        next more hcomma => exact .inr ⟨more, hcomma, h⟩
        next => cases h
      next => cases h
    next => cases h
  · rintro ⟨cs', name, after, after', v, rest', rfl, hname, hcolon, hv, hend⟩
    rw [members.eq_def]
    refine bind_eq_ok.2 ⟨(name, after), string_eq_ok.2 hname, ?_⟩
    dsimp only
    rw [hcolon]
    refine bind_eq_ok.2 ⟨(v, rest'), hv, ?_⟩
    dsimp only
    rcases hend with ⟨hclose, rfl⟩ | ⟨more, hcomma, hmore⟩
    · rw [hclose]
      rfl
    · rw [hcomma]
      exact hmore

/-- A scalar begins with none of the characters that open something. -/
theorem scalar_ne {c : Char} {cs rest : List Char} {v : Value} (h : scalar (c :: cs) = .ok (v, rest)) :
    c ≠ '"' ∧ c ≠ '{' ∧ c ≠ '[' := by
  refine ⟨?_, ?_, ?_⟩
  · rintro rfl
    cases h
  · rintro rfl
    cases h
  · rintro rfl
    cases h

theorem value_scalar (fuel : Nat) {c : Char} (hquote : c ≠ '"') (hbrace : c ≠ '{') (hbracket : c ≠ '[')
    (cs : List Char) : value (fuel + 1) (c :: cs) = scalar (c :: cs) := by
  rw [value.eq_def]
  dsimp only
  split
  next heq => cases heq
  next heq =>
    cases heq
    exact absurd rfl hquote
  next heq =>
    cases heq
    exact absurd rfl hbrace
  next heq =>
    cases heq
    exact absurd rfl hbracket
  next => rfl

theorem value_object (fuel : Nat) (cs : List Char) : value (fuel + 1) ('{' :: cs) =
    match skipSpace cs with
    | '}' :: rest => .ok (.map [], rest)
    | rest => members fuel [] rest >>= fun r => pure (.map r.1, r.2) := rfl

theorem value_array (fuel : Nat) (cs : List Char) : value (fuel + 1) ('[' :: cs) =
    match skipSpace cs with
    | ']' :: rest => .ok (.list [], rest)
    | rest => elements fuel rest >>= fun r => pure (.list r.1, r.2) := rfl

/-- There is no value before the end of an array. -/
theorem elements_close (fuel : Nat) (cs : List Char) (r : List Value × List Char) :
    elements fuel (']' :: cs) ≠ .ok r := by
  intro h
  cases fuel with
  | zero => cases h
  | succ fuel =>
      obtain ⟨v, rest', hv, -⟩ := elements_eq_ok.1 h
      cases fuel with
      | zero => cases hv
      | succ fuel =>
          rw [value_scalar fuel (by decide) (by decide) (by decide)] at hv
          cases hv

theorem value_object_eq_ok {fuel : Nat} {cs rest : List Char} {v : Value} :
    value (fuel + 1) ('{' :: cs) = .ok (v, rest) ↔ skipSpace cs = '}' :: rest ∧ v = .map [] ∨
      ∃ es, members fuel [] (skipSpace cs) = .ok (es, rest) ∧ v = .map es := by
  rw [value_object]
  constructor
  · intro h
    split at h
    next hclose =>
      cases h
      exact .inl ⟨hclose, rfl⟩
    next =>
      obtain ⟨⟨es, rest'⟩, hes, h⟩ := bind_eq_ok.1 h
      cases h
      exact .inr ⟨es, hes, rfl⟩
  · rintro (⟨hclose, rfl⟩ | ⟨es, hes, rfl⟩)
    · rw [hclose]
      rfl
    · split
      next hclose =>
        rw [hclose] at hes
        cases fuel <;> cases hes
      next => exact bind_eq_ok.2 ⟨(es, rest), hes, rfl⟩

theorem value_array_eq_ok {fuel : Nat} {cs rest : List Char} {v : Value} :
    value (fuel + 1) ('[' :: cs) = .ok (v, rest) ↔ skipSpace cs = ']' :: rest ∧ v = .list [] ∨
      ∃ vs, elements fuel (skipSpace cs) = .ok (vs, rest) ∧ v = .list vs := by
  rw [value_array]
  constructor
  · intro h
    split at h
    next hclose =>
      cases h
      exact .inl ⟨hclose, rfl⟩
    next =>
      obtain ⟨⟨vs, rest'⟩, hvs, h⟩ := bind_eq_ok.1 h
      cases h
      exact .inr ⟨vs, hvs, rfl⟩
  · rintro (⟨hclose, rfl⟩ | ⟨vs, hvs, rfl⟩)
    · rw [hclose]
      rfl
    · split
      next hclose =>
        rw [hclose] at hvs
        exact absurd hvs (elements_close fuel _ _)
      next => exact bind_eq_ok.2 ⟨(vs, rest), hvs, rfl⟩

theorem value_eq_ok {fuel : Nat} {cs rest : List Char} {v : Value} :
    value (fuel + 1) cs = .ok (v, rest) ↔
      (∃ cs' ds, cs = '"' :: cs' ∧ Body cs' ds rest ∧ v = .str (String.ofList ds)) ∨
      (∃ cs', cs = '{' :: cs' ∧ (skipSpace cs' = '}' :: rest ∧ v = .map [] ∨
        ∃ es, members fuel [] (skipSpace cs') = .ok (es, rest) ∧ v = .map es)) ∨
      (∃ cs', cs = '[' :: cs' ∧ (skipSpace cs' = ']' :: rest ∧ v = .list [] ∨
        ∃ vs, elements fuel (skipSpace cs') = .ok (vs, rest) ∧ v = .list vs)) ∨
      scalar cs = .ok (v, rest) := by
  constructor
  · intro h
    rw [value.eq_def] at h
    dsimp only at h
    split at h
    next => cases h
    next cs' =>
      obtain ⟨⟨ds, rest'⟩, hds, h⟩ := bind_eq_ok.1 h
      cases h
      exact .inl ⟨cs', ds, rfl, string_eq_ok.1 hds, rfl⟩
    next cs' => exact .inr (.inl ⟨cs', rfl, value_object_eq_ok.1 h⟩)
    next cs' => exact .inr (.inr (.inl ⟨cs', rfl, value_array_eq_ok.1 h⟩))
    next => exact .inr (.inr (.inr h))
  · rintro (⟨cs', ds, rfl, hds, rfl⟩ | ⟨cs', rfl, hobject⟩ | ⟨cs', rfl, harray⟩ | hscalar)
    · rw [value.eq_def]
      exact bind_eq_ok.2 ⟨(ds, rest), string_eq_ok.2 hds, rfl⟩
    · exact value_object_eq_ok.2 hobject
    · exact value_array_eq_ok.2 harray
    · cases cs with
      | nil => cases hscalar
      | cons c cs =>
          obtain ⟨hquote, hbrace, hbracket⟩ := scalar_ne hscalar
          rw [value_scalar fuel hquote hbrace hbracket]
          exact hscalar

/-! ## Readings without fuel -/

/-- What is read: a value, what an object has after the entries that it had already, or the items of an array. -/
inductive Part where
  | value (v : Value)
  | members (seen es : List (Value × Value))
  | elements (vs : List Value)

/-- `Reads p cs rest`: the characters are a part of a text in JSON, and what follows it. -/
inductive Reads : Part → List Char → List Char → Prop
  | string {cs ds rest : List Char} (h : Body cs ds rest) :
      Reads (.value (.str (String.ofList ds))) ('"' :: cs) rest
  | emptyObject {cs rest : List Char} (h : skipSpace cs = '}' :: rest) : Reads (.value (.map [])) ('{' :: cs) rest
  | object {cs rest : List Char} {es : List (Value × Value)} (h : Reads (.members [] es) (skipSpace cs) rest) :
      Reads (.value (.map es)) ('{' :: cs) rest
  | emptyArray {cs rest : List Char} (h : skipSpace cs = ']' :: rest) : Reads (.value (.list [])) ('[' :: cs) rest
  | array {cs rest : List Char} {vs : List Value} (h : Reads (.elements vs) (skipSpace cs) rest) :
      Reads (.value (.list vs)) ('[' :: cs) rest
  | scalar {cs rest : List Char} {v : Value} (h : scalar cs = .ok (v, rest)) : Reads (.value v) cs rest
  | lastMember {cs name after after' rest' rest : List Char} {v : Value} {seen : List (Value × Value)}
      (hname : Body cs name after) (hcolon : skipSpace after = ':' :: after')
      (hv : Reads (.value v) (skipSpace after') rest') (hclose : skipSpace rest' = '}' :: rest) :
      Reads (.members seen (Value.put (.str (String.ofList name)) v seen)) ('"' :: cs) rest
  | member {cs name after after' rest' more rest : List Char} {v : Value} {seen es : List (Value × Value)}
      (hname : Body cs name after) (hcolon : skipSpace after = ':' :: after')
      (hv : Reads (.value v) (skipSpace after') rest') (hcomma : skipSpace rest' = ',' :: more)
      (hmore : Reads (.members (Value.put (.str (String.ofList name)) v seen) es) (skipSpace more) rest) :
      Reads (.members seen es) ('"' :: cs) rest
  | lastElement {cs rest' rest : List Char} {v : Value} (hv : Reads (.value v) cs rest')
      (hclose : skipSpace rest' = ']' :: rest) : Reads (.elements [v]) cs rest
  | element {cs rest' more rest : List Char} {v : Value} {vs : List Value} (hv : Reads (.value v) cs rest')
      (hcomma : skipSpace rest' = ',' :: more) (hmore : Reads (.elements vs) (skipSpace more) rest) :
      Reads (.elements (v :: vs)) cs rest

/-- A part is what the reader makes of the characters with so much fuel. -/
def Part.ReadBy (fuel : Nat) (cs rest : List Char) : Part → Prop
  | value v => Json.value fuel cs = .ok (v, rest)
  | members seen es => Json.members fuel seen cs = .ok (es, rest)
  | elements vs => Json.elements fuel cs = .ok (vs, rest)

/-- Whatever is read is a part of the text. -/
theorem reads_of_readBy {fuel : Nat} {p : Part} {cs rest : List Char} (h : p.ReadBy fuel cs rest) :
    Reads p cs rest := by
  induction fuel generalizing p cs rest with
  | zero => cases p <;> cases h
  | succ fuel ih =>
      cases p with
      | value v =>
          rcases value_eq_ok.1 h with ⟨cs', ds, rfl, hds, rfl⟩ | ⟨cs', rfl, ⟨hclose, rfl⟩ | ⟨es, hes, rfl⟩⟩ |
            ⟨cs', rfl, ⟨hclose, rfl⟩ | ⟨vs, hvs, rfl⟩⟩ | hscalar
          · exact .string hds
          · exact .emptyObject hclose
          · exact .object (ih hes)
          · exact .emptyArray hclose
          · exact .array (ih hvs)
          · exact .scalar hscalar
      | members seen es =>
          obtain ⟨cs', name, after, after', v, rest', rfl, hname, hcolon, hv, ⟨hclose, rfl⟩ | ⟨more, hcomma, hmore⟩⟩ :=
            members_eq_ok.1 h
          · exact .lastMember hname hcolon (ih (p := .value v) hv) hclose
          · exact .member hname hcolon (ih (p := .value v) hv) hcomma (ih (p := .members _ es) hmore)
      | elements vs =>
          obtain ⟨v, rest', hv, ⟨hclose, rfl⟩ | ⟨more, vs', hcomma, hmore, rfl⟩⟩ := elements_eq_ok.1 h
          · exact .lastElement (ih (p := .value v) hv) hclose
          · exact .element (ih (p := .value v) hv) hcomma (ih (p := .elements vs') hmore)

theorem length_skipSpace (cs : List Char) : (skipSpace cs).length ≤ cs.length := length_dropWhile_le isSpace cs

/-- What opens or parts something takes at least itself. -/
theorem length_of_skipSpace {cs rest : List Char} {c : Char} (h : skipSpace cs = c :: rest) :
    rest.length < cs.length := by
  have hle := length_skipSpace cs
  rw [h, List.length_cons] at hle
  exact hle

theorem Reads.length_lt {p : Part} {cs rest : List Char} (h : Reads p cs rest) : rest.length < cs.length := by
  induction h with
  | string h => exact Nat.lt_succ_of_lt h.length_lt
  | emptyObject h | emptyArray h => exact Nat.lt_succ_of_lt (length_of_skipSpace h)
  | object _ ih | array _ ih => exact Nat.lt_succ_of_lt (Nat.lt_of_lt_of_le ih (length_skipSpace _))
  | scalar h => exact length_scalar h
  | @lastMember cs name after after' rest' rest v seen hname hcolon _ hclose ih =>
      have hlt := hname.length_lt
      have hafter := length_of_skipSpace hcolon
      have hspace := length_skipSpace after'
      have hend := length_of_skipSpace hclose
      simp only [List.length_cons]
      omega
  | @member cs name after after' rest' more rest v seen es hname hcolon _ hcomma _ ih ihmore =>
      have hlt := hname.length_lt
      have hafter := length_of_skipSpace hcolon
      have hspace := length_skipSpace after'
      have hend := length_of_skipSpace hcomma
      have hmore := length_skipSpace more
      simp only [List.length_cons]
      omega
  | lastElement _ hclose ih => exact Nat.lt_trans (length_of_skipSpace hclose) ih
  | @element cs rest' more rest v vs _ hcomma _ ih ihmore =>
      have hend := length_of_skipSpace hcomma
      have hmore := length_skipSpace more
      omega

theorem exists_fuel {cs rest : List Char} {fuel : Nat} (hlt : rest.length < cs.length)
    (hfuel : cs.length ≤ fuel + rest.length) : ∃ f, fuel = f + 1 := Nat.exists_eq_add_one.2 (by omega)

/-- Whatever is a part of the text is read with any fuel that covers it. -/
theorem Reads.read {p : Part} {cs rest : List Char} (h : Reads p cs rest) {fuel : Nat}
    (hfuel : cs.length ≤ fuel + rest.length) : p.ReadBy fuel cs rest := by
  obtain ⟨fuel, rfl⟩ := exists_fuel h.length_lt hfuel
  -- Each inner part ends before something that closes or parts it, so it needs less fuel than there is.
  induction h generalizing fuel with
  | string h => exact value_eq_ok.2 (.inl ⟨_, _, rfl, h, rfl⟩)
  | emptyObject h => exact value_eq_ok.2 (.inr (.inl ⟨_, rfl, .inl ⟨h, rfl⟩⟩))
  | @object cs rest es h ih =>
      have hspace := length_skipSpace cs
      simp only [List.length_cons] at hfuel
      obtain ⟨f, rfl⟩ := exists_fuel h.length_lt (show _ ≤ fuel + _ by omega)
      exact value_eq_ok.2 (.inr (.inl ⟨cs, rfl, .inr ⟨es, ih f (by omega), rfl⟩⟩))
  | emptyArray h => exact value_eq_ok.2 (.inr (.inr (.inl ⟨_, rfl, .inl ⟨h, rfl⟩⟩)))
  | @array cs rest vs h ih =>
      have hspace := length_skipSpace cs
      simp only [List.length_cons] at hfuel
      obtain ⟨f, rfl⟩ := exists_fuel h.length_lt (show _ ≤ fuel + _ by omega)
      exact value_eq_ok.2 (.inr (.inr (.inl ⟨cs, rfl, .inr ⟨vs, ih f (by omega), rfl⟩⟩)))
  | scalar h => exact value_eq_ok.2 (.inr (.inr (.inr h)))
  | @lastMember cs name after after' rest' rest v seen hname hcolon hv hclose ih =>
      have hlt := hname.length_lt
      have hafter := length_of_skipSpace hcolon
      have hspace := length_skipSpace after'
      have hend := length_of_skipSpace hclose
      simp only [List.length_cons] at hfuel
      obtain ⟨f, rfl⟩ := exists_fuel hv.length_lt (show _ ≤ fuel + _ by omega)
      exact members_eq_ok.2 ⟨cs, name, after, after', v, rest', rfl, hname, hcolon, ih f (by omega), .inl ⟨hclose, rfl⟩⟩
  | @member cs name after after' rest' more rest v seen es hname hcolon hv hcomma hmore ih ihmore =>
      have hlt := hname.length_lt
      have hafter := length_of_skipSpace hcolon
      have hspace := length_skipSpace after'
      have hend := length_of_skipSpace hcomma
      have hspace' := length_skipSpace more
      have hltv := hv.length_lt
      have hltmore := hmore.length_lt
      simp only [List.length_cons] at hfuel
      obtain ⟨f, rfl⟩ := exists_fuel hltv (show _ ≤ fuel + _ by omega)
      exact members_eq_ok.2 ⟨cs, name, after, after', v, rest', rfl, hname, hcolon, ih f (by omega),
        .inr ⟨more, hcomma, ihmore f (by omega)⟩⟩
  | @lastElement cs rest' rest v hv hclose ih =>
      have hend := length_of_skipSpace hclose
      obtain ⟨f, rfl⟩ := exists_fuel hv.length_lt (show _ ≤ fuel + _ by omega)
      exact elements_eq_ok.2 ⟨v, rest', ih f (by omega), .inl ⟨hclose, rfl⟩⟩
  | @element cs rest' more rest v vs hv hcomma hmore ih ihmore =>
      have hend := length_of_skipSpace hcomma
      have hspace := length_skipSpace more
      have hltv := hv.length_lt
      have hltmore := hmore.length_lt
      obtain ⟨f, rfl⟩ := exists_fuel hltv (show _ ≤ fuel + _ by omega)
      exact elements_eq_ok.2 ⟨v, rest', ih f (by omega), .inr ⟨more, vs, hcomma, ihmore f (by omega), rfl⟩⟩

theorem parseChars_eq (cs : List Char) :
    parseChars cs =
      if cs.head? == some (Char.ofNat 0xfeff) then .error (.malformed .byteOrderMark cs)
      else value (2 * cs.length + 1) (skipSpace cs) >>= fun r =>
        if (skipSpace r.2).isEmpty then .ok r.1 else .error (.malformed .extraData (skipSpace r.2)) := by
  rw [parseChars]
  by_cases hmark : (cs.head? == some (Char.ofNat 0xfeff)) = true
  · rw [if_pos hmark, if_pos hmark]
    rfl
  · rw [if_neg hmark, if_neg hmark]
    rfl

/-- Reading a whole text succeeds exactly where a value, with space around it, fills the text. -/
theorem parseChars_eq_ok {cs : List Char} {v : Value} :
    parseChars cs = .ok v ↔ cs.head? ≠ some (Char.ofNat 0xfeff) ∧
      ∃ rest, Reads (.value v) (skipSpace cs) rest ∧ skipSpace rest = [] := by
  rw [parseChars_eq]
  by_cases hmark : (cs.head? == some (Char.ofNat 0xfeff)) = true
  · rw [if_pos hmark]
    exact ⟨nofun, fun h => absurd (eq_of_beq hmark) h.1⟩
  rw [if_neg hmark]
  refine bind_eq_ok.trans ⟨?_, ?_⟩
  · rintro ⟨⟨v', rest⟩, hv, h⟩
    by_cases hend : (skipSpace rest).isEmpty = true
    · dsimp only at h
      rw [if_pos hend] at h
      cases h
      exact ⟨fun hm => hmark (beq_iff_eq.2 hm), rest, reads_of_readBy (p := .value v) hv, List.isEmpty_iff.1 hend⟩
    · dsimp only at h
      rw [if_neg hend] at h
      cases h
  · rintro ⟨-, rest, hv, hend⟩
    have hspace := length_skipSpace cs
    refine ⟨(v, rest), hv.read (by omega), ?_⟩
    dsimp only
    rw [hend]
    rfl

/-! ## Where a value begins -/

/-- The characters that a value can begin with. -/
def beginsValue (c : Char) : Bool :=
  c.isDigit || ['"', '{', '[', '-', 'n', 't', 'f', 'N', 'I'].contains c

/-- They are ASCII, and none of them is blank. -/
theorem beginsValue_ascii {c : Char} (h : beginsValue c = true) : c.toNat < 0x80 ∧ isBlank c = false := by
  rw [beginsValue, Bool.or_eq_true, List.contains_iff_mem] at h
  rcases h with h | h
  · simp only [Char.isDigit, Bool.and_eq_true, decide_eq_true_eq, ge_iff_le, UInt32.le_iff_toNat_le] at h
    have hlo : 48 ≤ c.toNat := h.1
    have hhi : c.toNat ≤ 57 := h.2
    simp only [isBlank, isWhiteSpace, Bool.or_eq_false_iff, Bool.and_eq_false_iff, decide_eq_false_iff_not,
      beq_eq_false_iff_ne]
    omega
  · have hall : (['"', '{', '[', '-', 'n', 't', 'f', 'N', 'I'].all fun c => c.toNat < 0x80 && !isBlank c) = true := rfl
    have hc := List.all_eq_true.1 hall c h
    rw [Bool.and_eq_true, decide_eq_true_eq, Bool.not_eq_true'] at hc
    exact hc

theorem scalar_head {cs rest : List Char} {v : Value} (h : scalar cs = .ok (v, rest)) :
    ∃ c cs', cs = c :: cs' ∧ beginsValue c = true := by
  rw [scalar] at h
  cases hword : word? cs with
  | some found =>
      obtain ⟨⟨w, v'⟩, hmem, hfound⟩ := List.exists_of_findSome?_eq_some hword
      have hheads : ∀ e ∈ words, e.1.head?.any beginsValue = true := by decide
      have hhead := hheads _ hmem
      dsimp only at hfound hhead
      split at hfound
      next hprefix =>
        obtain ⟨more, rfl⟩ := List.isPrefixOf_iff_prefix.1 hprefix
        cases w with
        | nil => cases hhead
        | cons c w => exact ⟨c, w ++ more, rfl, hhead⟩
      next => cases hfound
  | none =>
      rw [hword] at h
      obtain ⟨hwhole, -, -⟩ := number_eq_ok.1 h
      cases cs with
      | nil => exact absurd rfl hwhole
      | cons c cs =>
          refine ⟨c, cs, rfl, ?_⟩
          by_cases hminus : c = '-'
          · rw [hminus]
            rfl
          rw [numberSign_cons hminus] at hwhole
          by_cases hzero : c = '0'
          · rw [hzero]
            rfl
          rw [wholeDigits_cons hzero] at hwhole
          cases hdigit : c.isDigit with
          | true => rw [beginsValue, hdigit, Bool.true_or]
          | false => exact absurd (List.takeWhile_cons_of_neg (by rw [hdigit]; exact Bool.false_ne_true)) hwhole

theorem Reads.head {v : Value} {cs rest : List Char} (h : Reads (.value v) cs rest) :
    ∃ c cs', cs = c :: cs' ∧ beginsValue c = true := by
  cases h with
  | string h => exact ⟨_, _, rfl, rfl⟩
  | emptyObject h | object h | emptyArray h | array h => exact ⟨_, _, rfl, rfl⟩
  | scalar h => exact scalar_head h

/-- A text in JSON is not blank. -/
theorem not_blank_of_parseChars {cs : List Char} {v : Value} (h : parseChars cs = .ok v) : cs.all isBlank = false := by
  obtain ⟨-, rest, hv, -⟩ := parseChars_eq_ok.1 h
  obtain ⟨c, cs', hcs, hc⟩ := hv.head
  have hmem : c ∈ cs := List.dropWhile_subset isSpace (show c ∈ skipSpace cs by rw [hcs]; exact List.mem_cons_self)
  exact List.all_eq_false.2 ⟨c, hmem, by rw [(beginsValue_ascii hc).2]; exact Bool.false_ne_true⟩

/-- A text in JSON begins with a character of ASCII. -/
theorem head_of_parseChars {cs : List Char} {v : Value} (h : parseChars cs = .ok v) :
    ∃ c cs', cs = c :: cs' ∧ c.toNat < 0x80 := by
  obtain ⟨-, rest, hv, -⟩ := parseChars_eq_ok.1 h
  obtain ⟨c, cs', hcs, hc⟩ := hv.head
  cases cs with
  | nil => cases hcs
  | cons d ds =>
      refine ⟨d, ds, rfl, ?_⟩
      by_cases hspace : isSpace d = true
      · simp only [isSpace, Bool.or_eq_true, beq_iff_eq] at hspace
        rcases hspace with ((rfl | rfl) | rfl) | rfl <;> decide
      · rw [skipSpace, List.dropWhile_cons_of_neg hspace] at hcs
        cases hcs
        exact (beginsValue_ascii hc).1

end Json

end ApiDiscovery
