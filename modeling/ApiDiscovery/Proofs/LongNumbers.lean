import ApiDiscovery.Proofs.JsonText
import ApiDiscovery.Proofs.LineEnds

/-!
# Whole numbers that JSON does not convert

A whole number of more than `digitLimit` digits is no flaw of a text: the reader stops at it with a fault of its own.
It comes to such a number only if it finds everything before it in order, so what follows the number is never looked
at. `Overruns n` says this without the reader's fuel, in the manner of `Reads`.

    no string ends with this fault                      (`string_ne_tooLong`)
    whatever ends with it, with any fuel, overruns      (`overruns_of_failsBy`)
    whatever overruns ends with it, if the fuel covers  (`Overruns.fails`)

Main statement: `parse_eq_tooLong`.
-/

namespace ApiDiscovery

namespace Json

open Number Text

/-! ## Strings -/

theorem pairedChar_ne_tooLong (k : Nat) (cs : List Char) (n : Nat) : pairedChar k cs ≠ .error (.tooLong n) := by
  intro h
  rw [pairedChar.eq_def] at h
  split at h
  next =>
    split at h
    next =>
      split at h
      next =>
        split at h
        next => cases h
        next => cases h
      next => cases h
    next => cases h
  next => cases h

theorem numberedChar_ne_tooLong (cs : List Char) (n : Nat) : numberedChar cs ≠ .error (.tooLong n) := by
  intro h
  rw [numberedChar] at h
  split at h
  next => cases h
  next =>
    split at h
    next k rest _ => exact pairedChar_ne_tooLong k rest n h
    next => cases h

theorem stringBody_ne_tooLong (start : List Char) (fuel : Nat) (cs : List Char) (n : Nat) :
    stringBody start fuel cs ≠ .error (.tooLong n) := by
  induction fuel generalizing cs with
  | zero => nofun
  | succ fuel ih =>
      intro h
      -- Every branch that goes on ends as the rest of the string does.
      have hrest {α : Type} {more : List Char} {f : List Char × List Char → α}
          (h : (stringBody start fuel more >>= fun r => pure (f r)) = .error (.tooLong n)) : False := by
        rcases bind_eq_error.1 h with h | ⟨r, -, h⟩
        · exact ih more h
        · cases h
      cases cs with
      | nil => cases h
      | cons c more =>
          by_cases hquote : c = '"'
          · subst hquote
            cases h
          by_cases hescape : c = '\\'
          · subst hescape
            cases more with
            | nil => cases h
            | cons e after =>
                by_cases he : e = 'u'
                · subst he
                  rw [stringBody_numbered] at h
                  rcases bind_eq_error.1 h with h | ⟨r, -, h⟩
                  · exact numberedChar_ne_tooLong _ n h
                  · exact hrest h
                · rw [stringBody_short start fuel he] at h
                  cases hd : shortEscape? e with
                  | none =>
                      rw [hd] at h
                      cases h
                  | some d =>
                      rw [hd] at h
                      exact hrest h
          · rw [stringBody_plain start fuel hquote hescape] at h
            by_cases hcontrol : c.toNat < 0x20
            · rw [if_pos hcontrol] at h
              cases h
            · rw [if_neg hcontrol] at h
              exact hrest h

theorem string_ne_tooLong (cs : List Char) (n : Nat) : string cs ≠ .error (.tooLong n) :=
  stringBody_ne_tooLong _ _ _ n

/-! ## Numbers -/

/-- A whole number of `n` digits at the front, with neither fraction nor exponent; so many are not converted. -/
def LongWhole (cs : List Char) (n : Nat) : Prop :=
  (wholeDigits (numberSign cs).2).1.length = n ∧ digitLimit < n ∧
    (fraction (wholeDigits (numberSign cs).2).2).1 = [] ∧
    (exponent (fraction (wholeDigits (numberSign cs).2).2).2).1 = []

theorem number_eq_tooLong {cs : List Char} {n : Nat} : number cs = .error (.tooLong n) ↔ LongWhole cs n := by
  rw [number, LongWhole]
  obtain ⟨negative, body⟩ := numberSign cs
  dsimp only
  obtain ⟨whole, afterWhole⟩ := wholeDigits body
  dsimp only
  obtain ⟨frac, afterFrac⟩ := fraction afterWhole
  dsimp only
  obtain ⟨exp, afterExp⟩ := exponent afterFrac
  dsimp only
  by_cases hwhole : whole = []
  · rw [if_pos (List.isEmpty_iff.2 hwhole), hwhole]
    constructor
    · intro h
      cases h
    · rintro ⟨rfl, hlimit, -⟩
      exact absurd hlimit (Nat.not_lt_zero _)
  rw [if_neg fun h => hwhole (List.isEmpty_iff.1 h)]
  by_cases hplain : (frac.isEmpty && exp.isEmpty) = true
  · rw [if_pos hplain]
    rw [Bool.and_eq_true, List.isEmpty_iff, List.isEmpty_iff] at hplain
    by_cases hlimit : digitLimit < whole.length
    · rw [if_pos hlimit]
      constructor
      · intro h
        cases h
        exact ⟨rfl, hlimit, hplain⟩
      · rintro ⟨rfl, -⟩
        rfl
    · rw [if_neg hlimit]
      constructor
      · intro h
        cases h
      · rintro ⟨rfl, hlong, -⟩
        exact absurd hlong hlimit
  · rw [if_neg hplain]
    refine ⟨fun h => ?_, ?_⟩
    · cases hd : Decimal.parse? (whole ++ frac ++ exp) with
      | none =>
          rw [hd] at h
          cases h
      | some d =>
          rw [hd] at h
          cases h
    · rintro ⟨-, -, rfl, rfl⟩
      exact absurd rfl hplain

theorem scalar_eq_tooLong {cs : List Char} {n : Nat} :
    scalar cs = .error (.tooLong n) ↔ word? cs = none ∧ LongWhole cs n := by
  rw [scalar]
  cases hword : word? cs with
  | none => exact number_eq_tooLong.trans ⟨fun h => ⟨rfl, h⟩, fun h => h.2⟩
  | some found =>
      constructor
      · intro h
        cases h
      · rintro ⟨h, -⟩
        cases h

/-- A long number begins with a sign or a digit. -/
theorem LongWhole.head {c : Char} {cs : List Char} {n : Nat} (h : LongWhole (c :: cs) n) :
    c = '-' ∨ c.isDigit = true := by
  by_cases hminus : c = '-'
  · exact .inl hminus
  by_cases hzero : c = '0'
  · exact .inr (by rw [hzero]; rfl)
  refine .inr (by_contra fun hdigit => ?_)
  obtain ⟨hlength, hlimit, -⟩ := h
  rw [numberSign_cons hminus, wholeDigits_cons hzero, List.takeWhile_cons_of_neg hdigit] at hlength
  rw [← hlength] at hlimit
  exact absurd hlimit (Nat.not_lt_zero _)

/-! ## Values -/

theorem elements_eq_tooLong {fuel n : Nat} {cs : List Char} :
    elements (fuel + 1) cs = .error (.tooLong n) ↔
      value fuel cs = .error (.tooLong n) ∨
        ∃ v rest more, value fuel cs = .ok (v, rest) ∧ skipSpace rest = ',' :: more ∧
          elements fuel (skipSpace more) = .error (.tooLong n) := by
  rw [elements.eq_def]
  refine bind_eq_error.trans (or_congr Iff.rfl ⟨?_, ?_⟩)
  · rintro ⟨⟨v, rest⟩, hv, h⟩
    dsimp only at h
    split at h
    next => cases h
    next more hcomma =>
      rcases bind_eq_error.1 h with h | ⟨r, -, h⟩
      · exact ⟨v, rest, more, hv, hcomma, h⟩
      · cases h
    next => cases h
  · rintro ⟨v, rest, more, hv, hcomma, h⟩
    refine ⟨(v, rest), hv, ?_⟩
    dsimp only
    rw [hcomma]
    exact bind_eq_error.2 (.inl h)

theorem members_eq_tooLong {fuel n : Nat} {seen : List (Value × Value)} {cs : List Char} :
    members (fuel + 1) seen cs = .error (.tooLong n) ↔
      ∃ cs' name after after', cs = '"' :: cs' ∧ Body cs' name after ∧ skipSpace after = ':' :: after' ∧
        (value fuel (skipSpace after') = .error (.tooLong n) ∨
          ∃ v rest more, value fuel (skipSpace after') = .ok (v, rest) ∧ skipSpace rest = ',' :: more ∧
            members fuel (Value.put (.str (String.ofList name)) v seen) (skipSpace more) = .error (.tooLong n)) := by
  constructor
  · intro h
    rw [members.eq_def] at h
    dsimp only at h
    split at h
    next cs' =>
      rcases bind_eq_error.1 h with h | ⟨⟨name, after⟩, hname, h⟩
      · exact absurd h (string_ne_tooLong _ n)
      dsimp only at h
      split at h
      next after' hcolon =>
        refine ⟨cs', name, after, after', rfl, string_eq_ok.1 hname, hcolon, ?_⟩
        rcases bind_eq_error.1 h with h | ⟨⟨v, rest⟩, hv, h⟩
        · exact .inl h
        dsimp only at h
        split at h
        next => cases h
        next more hcomma => exact .inr ⟨v, rest, more, hv, hcomma, h⟩
        next => cases h
      next => cases h
    next => cases h
  · rintro ⟨cs', name, after, after', rfl, hname, hcolon, h⟩
    rw [members.eq_def]
    refine bind_eq_error.2 (.inr ⟨(name, after), string_eq_ok.2 hname, ?_⟩)
    dsimp only
    rw [hcolon]
    rcases h with h | ⟨v, rest, more, hv, hcomma, h⟩
    · exact bind_eq_error.2 (.inl h)
    · refine bind_eq_error.2 (.inr ⟨(v, rest), hv, ?_⟩)
      dsimp only
      rw [hcomma]
      exact h

/-- What closes an array is no long number. -/
theorem elements_close_ne_tooLong (fuel : Nat) (cs : List Char) (n : Nat) :
    elements fuel (']' :: cs) ≠ .error (.tooLong n) := by
  intro h
  cases fuel with
  | zero => cases h
  | succ fuel =>
      rcases elements_eq_tooLong.1 h with h | ⟨v, rest, -, hv, -⟩
      · cases fuel with
        | zero => cases h
        | succ fuel =>
            rw [value_scalar fuel (by decide) (by decide) (by decide)] at h
            cases h
      · cases fuel with
        | zero => cases hv
        | succ fuel =>
            rw [value_scalar fuel (by decide) (by decide) (by decide)] at hv
            cases hv

theorem value_object_eq_tooLong {fuel n : Nat} {cs : List Char} :
    value (fuel + 1) ('{' :: cs) = .error (.tooLong n) ↔ members fuel [] (skipSpace cs) = .error (.tooLong n) := by
  rw [value_object]
  split
  next hclose =>
    rw [hclose]
    refine ⟨nofun, fun h => ?_⟩
    cases fuel <;> cases h
  next =>
    refine bind_eq_error.trans ⟨?_, .inl⟩
    rintro (h | ⟨r, -, h⟩)
    · exact h
    · cases h

theorem value_array_eq_tooLong {fuel n : Nat} {cs : List Char} :
    value (fuel + 1) ('[' :: cs) = .error (.tooLong n) ↔ elements fuel (skipSpace cs) = .error (.tooLong n) := by
  rw [value_array]
  split
  next hclose =>
    rw [hclose]
    exact ⟨nofun, fun h => absurd h (elements_close_ne_tooLong fuel _ n)⟩
  next =>
    refine bind_eq_error.trans ⟨?_, .inl⟩
    rintro (h | ⟨r, -, h⟩)
    · exact h
    · cases h

theorem value_eq_tooLong {fuel n : Nat} {cs : List Char} :
    value (fuel + 1) cs = .error (.tooLong n) ↔
      (∃ cs', cs = '{' :: cs' ∧ members fuel [] (skipSpace cs') = .error (.tooLong n)) ∨
      (∃ cs', cs = '[' :: cs' ∧ elements fuel (skipSpace cs') = .error (.tooLong n)) ∨
      word? cs = none ∧ LongWhole cs n := by
  constructor
  · intro h
    rw [value.eq_def] at h
    dsimp only at h
    split at h
    next => cases h
    next =>
      rcases bind_eq_error.1 h with h | ⟨r, -, h⟩
      · exact absurd h (string_ne_tooLong _ n)
      · cases h
    next cs' => exact .inl ⟨cs', rfl, value_object_eq_tooLong.1 h⟩
    next cs' => exact .inr (.inl ⟨cs', rfl, value_array_eq_tooLong.1 h⟩)
    next => exact .inr (.inr (scalar_eq_tooLong.1 h))
  · rintro (⟨cs', rfl, h⟩ | ⟨cs', rfl, h⟩ | ⟨hword, hlong⟩)
    · exact value_object_eq_tooLong.2 h
    · exact value_array_eq_tooLong.2 h
    · cases cs with
      | nil => exact absurd (hlong.1 ▸ hlong.2.1) (Nat.not_lt_zero _)
      | cons c cs =>
          -- Whatever opens a string, an object or an array is neither sign nor digit.
          have hne (d : Char) (hminus : d ≠ '-') (hdigit : d.isDigit = false) : c ≠ d := by
            rintro rfl
            rcases hlong.head with h | h
            · exact hminus h
            · rw [hdigit] at h
              cases h
          rw [value_scalar fuel (hne '"' (by decide) rfl) (hne '{' (by decide) rfl) (hne '[' (by decide) rfl)]
          exact scalar_eq_tooLong.2 ⟨hword, hlong⟩

/-! ## Long numbers without fuel -/

/-- What is being read: a value, the entries of an object or the items of an array. -/
inductive Stage where
  | value
  | members
  | elements

/-- `Overruns n stage cs`: everything is in order up to a whole number of `n` digits, which are more than are
converted. -/
inductive Overruns (n : Nat) : Stage → List Char → Prop
  | number {cs : List Char} (hword : word? cs = none) (h : LongWhole cs n) : Overruns n .value cs
  | object {cs : List Char} (h : Overruns n .members (skipSpace cs)) : Overruns n .value ('{' :: cs)
  | array {cs : List Char} (h : Overruns n .elements (skipSpace cs)) : Overruns n .value ('[' :: cs)
  | member {cs name after after' : List Char} (hname : Body cs name after) (hcolon : skipSpace after = ':' :: after')
      (h : Overruns n .value (skipSpace after')) : Overruns n .members ('"' :: cs)
  | laterMember {cs name after after' rest more : List Char} {v : Value} (hname : Body cs name after)
      (hcolon : skipSpace after = ':' :: after') (hv : Reads (.value v) (skipSpace after') rest)
      (hcomma : skipSpace rest = ',' :: more) (h : Overruns n .members (skipSpace more)) :
      Overruns n .members ('"' :: cs)
  | element {cs : List Char} (h : Overruns n .value cs) : Overruns n .elements cs
  | laterElement {cs rest more : List Char} {v : Value} (hv : Reads (.value v) cs rest)
      (hcomma : skipSpace rest = ',' :: more) (h : Overruns n .elements (skipSpace more)) : Overruns n .elements cs

/-- The reader ends with a fault, after the entries in `seen` where it reads an object. -/
def Stage.FailsBy (fuel : Nat) (seen : List (Value × Value)) (cs : List Char) (f : Fault) : Stage → Prop
  | value => Json.value fuel cs = .error f
  | members => Json.members fuel seen cs = .error f
  | elements => Json.elements fuel cs = .error f

/-- Where the reader stops at a long number, the text overruns. -/
theorem overruns_of_failsBy {fuel n : Nat} {stage : Stage} {seen : List (Value × Value)} {cs : List Char}
    (h : stage.FailsBy fuel seen cs (.tooLong n)) : Overruns n stage cs := by
  induction fuel generalizing stage seen cs with
  | zero => cases stage <;> cases h
  | succ fuel ih =>
      cases stage with
      | value =>
          rcases value_eq_tooLong.1 h with ⟨cs', rfl, hes⟩ | ⟨cs', rfl, hvs⟩ | ⟨hword, hlong⟩
          · exact .object (@ih .members [] _ hes)
          · exact .array (@ih .elements [] _ hvs)
          · exact .number hword hlong
      | members =>
          obtain ⟨cs', name, after, after', rfl, hname, hcolon, hvalue | ⟨v, rest, more, hv, hcomma, hmore⟩⟩ :=
            members_eq_tooLong.1 h
          · exact .member hname hcolon (@ih .value [] _ hvalue)
          · exact .laterMember hname hcolon (reads_of_readBy (p := .value v) hv) hcomma (@ih .members _ _ hmore)
      | elements =>
          rcases elements_eq_tooLong.1 h with hvalue | ⟨v, rest, more, hv, hcomma, hmore⟩
          · exact .element (@ih .value [] _ hvalue)
          · exact .laterElement (reads_of_readBy (p := .value v) hv) hcomma (@ih .elements [] _ hmore)

/-- The calls that a stage needs on top of two for each character: opening an object or an array takes two of them. -/
def Stage.calls : Stage → Nat
  | value => 1
  | members => 2
  | elements => 2

theorem Stage.calls_pos (stage : Stage) : 0 < stage.calls := by
  cases stage <;> decide

/-- Where a text overruns, the reader stops at the long number, with any fuel that covers the text. -/
theorem Overruns.fails {n fuel : Nat} {stage : Stage} {cs : List Char} (h : Overruns n stage cs)
    (seen : List (Value × Value)) (hfuel : 2 * cs.length + stage.calls ≤ fuel) :
    stage.FailsBy fuel seen cs (.tooLong n) := by
  obtain ⟨fuel, rfl⟩ : ∃ f, fuel = f + 1 :=
    Nat.exists_eq_add_one.2 (Nat.lt_of_lt_of_le stage.calls_pos (Nat.le_trans (Nat.le_add_left _ _) hfuel))
  induction h generalizing fuel seen with
  | number hword h => exact value_eq_tooLong.2 (.inr (.inr ⟨hword, h⟩))
  | @object cs h ih =>
      have hspace := length_skipSpace cs
      simp only [Stage.calls, List.length_cons] at hfuel ih
      obtain ⟨f, rfl⟩ : ∃ f, fuel = f + 1 := Nat.exists_eq_add_one.2 (by omega)
      exact value_eq_tooLong.2 (.inl ⟨cs, rfl, ih [] f (by omega)⟩)
  | @array cs h ih =>
      have hspace := length_skipSpace cs
      simp only [Stage.calls, List.length_cons] at hfuel ih
      obtain ⟨f, rfl⟩ : ∃ f, fuel = f + 1 := Nat.exists_eq_add_one.2 (by omega)
      exact value_eq_tooLong.2 (.inr (.inl ⟨cs, rfl, ih [] f (by omega)⟩))
  | @member cs name after after' hname hcolon h ih =>
      have hlt := hname.length_lt
      have hafter := length_of_skipSpace hcolon
      have hspace := length_skipSpace after'
      simp only [Stage.calls, List.length_cons] at hfuel ih
      obtain ⟨f, rfl⟩ : ∃ f, fuel = f + 1 := Nat.exists_eq_add_one.2 (by omega)
      exact members_eq_tooLong.2 ⟨cs, name, after, after', rfl, hname, hcolon, .inl (ih [] f (by omega))⟩
  | @laterMember cs name after after' rest more v hname hcolon hv hcomma h ih =>
      have hlt := hname.length_lt
      have hafter := length_of_skipSpace hcolon
      have hspace := length_skipSpace after'
      have hltv := hv.length_lt
      have hend := length_of_skipSpace hcomma
      have hspace' := length_skipSpace more
      simp only [Stage.calls, List.length_cons] at hfuel ih
      obtain ⟨f, rfl⟩ : ∃ f, fuel = f + 1 := Nat.exists_eq_add_one.2 (by omega)
      exact members_eq_tooLong.2 ⟨cs, name, after, after', rfl, hname, hcolon,
        .inr ⟨v, rest, more, hv.read (by omega), hcomma, ih _ f (by omega)⟩⟩
  | @element cs h ih =>
      simp only [Stage.calls] at hfuel ih
      obtain ⟨f, rfl⟩ : ∃ f, fuel = f + 1 := Nat.exists_eq_add_one.2 (by omega)
      exact elements_eq_tooLong.2 (.inl (ih [] f (by omega)))
  | @laterElement cs rest more v hv hcomma h ih =>
      have hltv := hv.length_lt
      have hend := length_of_skipSpace hcomma
      have hspace := length_skipSpace more
      simp only [Stage.calls] at hfuel ih
      obtain ⟨f, rfl⟩ : ∃ f, fuel = f + 1 := Nat.exists_eq_add_one.2 (by omega)
      exact elements_eq_tooLong.2 (.inr ⟨v, rest, more, hv.read (by omega), hcomma, ih [] f (by omega)⟩)

/-! ## Texts -/

/-- No text that begins with a byte order mark comes to a number. -/
theorem not_overruns_mark {n : Nat} (cs : List Char) : ¬ Overruns n .value (Char.ofNat 0xfeff :: cs) := by
  intro h
  generalize hc : Char.ofNat 0xfeff = c at h
  cases h with
  | number _ hlong =>
      subst hc
      rcases hlong.head with h | h
      · exact absurd h (by decide)
      · exact absurd h (by decide)
  | object => exact absurd hc (by decide)
  | array => exact absurd hc (by decide)

/-- A text is given up for a long number exactly where it is in order up to one. -/
theorem parse_eq_tooLong {s : String} {n : Nat} :
    parse s = .error (.tooLong n) ↔ Overruns n .value (skipSpace s.toList) := by
  have hparse : parse s = .error (.tooLong n) ↔ parseChars s.toList = .error (.tooLong n) := by
    rw [parse]
    cases parseChars s.toList with
    | ok v =>
        constructor
        · intro h
          cases h
        · intro h
          cases h
    | error f =>
        cases f with
        | malformed reason rest =>
            constructor
            · intro h
              cases h
            · intro h
              cases h
        | tooLong m =>
            constructor
            · intro h
              cases h
              rfl
            · intro h
              cases h
              rfl
  rw [hparse, parseChars_eq]
  generalize s.toList = cs
  by_cases hmark : (cs.head? == some (Char.ofNat 0xfeff)) = true
  · rw [if_pos hmark]
    obtain ⟨more, rfl⟩ : ∃ more, cs = Char.ofNat 0xfeff :: more := List.head?_eq_some_iff.1 (eq_of_beq hmark)
    constructor
    · intro h
      cases h
    · intro h
      rw [skipSpace, List.dropWhile_cons_of_neg (by decide)] at h
      exact absurd h (not_overruns_mark more)
  rw [if_neg hmark]
  constructor
  · intro h
    rcases bind_eq_error.1 h with h | ⟨r, -, h⟩
    · exact @overruns_of_failsBy _ _ .value [] _ h
    · split at h
      next => cases h
      next => cases h
  · intro h
    have hspace := length_skipSpace cs
    exact bind_eq_error.2 (.inl (h.fails [] (by simp only [Stage.calls]; omega)))

end Json

end ApiDiscovery
