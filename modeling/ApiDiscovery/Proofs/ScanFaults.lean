import ApiDiscovery.Proofs.Outcome
import ApiDiscovery.Yaml.Token.Scan
import Mathlib.Algebra.Group.Nat.Defs

/-!
# What the tokens of a YAML text can fail for

Almost everything that is amiss in the characters of a text is amiss in its form. Two things are not: an escape by
number beyond the last character, and a version of more digits than are converted. `ScanFault text f` says that `f`
is a fault of form, or that one of these two stands in the text.

Every scanner takes characters from the front, so what it leaves is an end of the text that it began with. One lemma
for each scanner says that it ends in this way: with such a rest, or with a fault that the text accounts for
(`Ends`). Main statement: `scanFault_of_scan`.
-/

namespace ApiDiscovery.Yaml

open Text

/-- The faults that the tokens of a text can end with. -/
inductive ScanFault (text : List Char) : Fault → Prop
  | malformed (what : Malformed) : ScanFault text (.malformed what)
  /-- An escape by number, for a number beyond the last character. -/
  | character {k : Cursor} {code : Nat} (hescape : '\\' :: 'U' :: k.rest <:+ text) (hcode : hexNumber? k 8 = some code)
      (hbeyond : 0x110000 ≤ code) : ScanFault text (.noSuchCharacter (code < 0x80000000))
  /-- A version of more digits than are converted. -/
  | version {k : Cursor} {between : List Char} (hdirective : '%' :: ("YAML".toList ++ (between ++ k.rest)) <:+ text)
      (hlimit : Number.digitLimit < (k.run Char.isDigit).length) : ScanFault text (.tooLong (k.run Char.isDigit).length)

theorem ends_refuse {text : List Char} {P : α → Prop} (what : Malformed) : Ends (ScanFault text) P (refuse what) :=
  .malformed what

/-! ## Positions -/

namespace Cursor

variable {text : List Char} {k : Cursor}

theorem pass_rest (k : Cursor) (c : Char) (rest : List Char) : (k.pass c rest).rest = rest := by
  rw [pass]
  split
  · rfl
  · split
    · rfl
    · rfl

theorem next_rest (k : Cursor) : k.next.rest = k.rest.tail := by
  rw [next]
  split
  next h => rw [h, List.tail_nil]
  next c rest h => rw [pass_rest, h, List.tail_cons]

theorem forward_rest (n : Nat) (k : Cursor) : (k.forward n).rest = k.rest.drop n := by
  induction n generalizing k with
  | zero => rfl
  | succ n ih => rw [forward, ih, next_rest, List.drop_tail]

/-- A character that is not the end mark stands in front of what follows it. -/
theorem rest_of_here {c : Char} (h : k.here = c) (hc : c ≠ endMark) : k.rest = c :: k.next.rest := by
  rw [next_rest]
  rw [here] at h
  cases hrest : k.rest with
  | nil =>
      rw [hrest] at h
      exact absurd h.symm hc
  | cons d ds =>
      rw [hrest] at h
      rw [List.tail_cons, ← h, List.headD_cons]

theorem next_suffix (h : k.rest <:+ text) : k.next.rest <:+ text := by
  rw [next_rest]
  exact (List.tail_suffix _).trans h

theorem forward_suffix (n : Nat) (h : k.rest <:+ text) : (k.forward n).rest <:+ text := by
  rw [forward_rest]
  exact (List.drop_suffix n _).trans h

theorem skip_suffix (p : Char → Bool) (h : k.rest <:+ text) : (k.skip p).rest <:+ text := forward_suffix _ h

theorem skipTo_suffix (column : Nat) (h : k.rest <:+ text) : (k.skipTo column).rest <:+ text := forward_suffix _ h

theorem lineBreak_suffix (h : k.rest <:+ text) : k.lineBreak.2.rest <:+ text := by
  rw [lineBreak]
  split
  · dsimp only
    split
    · exact forward_suffix 2 h
    · exact next_suffix h
  · split
    · exact next_suffix h
    · exact h

end Cursor

open Cursor

/-! ## Escapes -/

theorem hexValue?_lt {c : Char} {v : Nat} (h : hexValue? c = some v) : v < 16 := by
  rw [hexValue?, Option.filter_eq_some_iff] at h
  exact of_decide_eq_true h.2

/-- So many hexadecimal digits make a number below that power of sixteen. -/
theorem foldl_hex_lt {ds : List Char} {vs : List Nat} (h : ds.mapM hexValue? = some vs) (n : Nat) :
    vs.foldl (fun a d => a * 16 + d) n < (n + 1) * 16 ^ ds.length := by
  induction ds generalizing vs n with
  | nil =>
      cases h
      exact (Nat.mul_one _).symm ▸ Nat.lt_succ_self n
  | cons d ds ih =>
      rw [List.mapM_cons] at h
      obtain ⟨v, hv, h⟩ := Option.bind_eq_some_iff.1 h
      obtain ⟨vs', hvs, h⟩ := Option.bind_eq_some_iff.1 h
      cases h
      have hlt := hexValue?_lt hv
      have hrest := ih hvs (n * 16 + v)
      have hpow : (n * 16 + v + 1) * 16 ^ ds.length ≤ (n + 1) * 16 * 16 ^ ds.length :=
        Nat.mul_le_mul_right _ (by omega)
      rw [List.foldl_cons, List.length_cons, Nat.pow_succ', ← Nat.mul_assoc]
      exact Nat.lt_of_lt_of_le hrest hpow

theorem hexNumber?_lt {k : Cursor} {n code : Nat} (h : hexNumber? k n = some code) : code < 16 ^ n := by
  rw [hexNumber?] at h
  split at h
  next => cases h
  next hlength =>
    obtain ⟨vs, hvs, rfl⟩ := Option.map_eq_some_iff.1 h
    have hlt := foldl_hex_lt hvs 0
    have hle : (k.rest.take n).length ≤ n := List.length_take_le n _
    rw [Nat.zero_add, Nat.one_mul] at hlt
    exact Nat.lt_of_lt_of_le hlt (Nat.pow_le_pow_right (by decide) hle)

variable {text : List Char} {k : Cursor}

/-- Only the escape of eight digits reaches beyond the last character. -/
theorem letter_of_beyond {c : Char} {n code : Nat} (hn : numberedEscape? c = some n)
    (hcode : hexNumber? k n = some code) (hbeyond : 0x110000 ≤ code) : c = 'U' ∧ n = 8 := by
  have hlt := hexNumber?_lt hcode
  rw [numberedEscape?.eq_def] at hn
  split at hn
  next =>
    cases hn
    exact absurd (Nat.lt_of_le_of_lt hbeyond hlt) (by decide)
  next =>
    cases hn
    exact absurd (Nat.lt_of_le_of_lt hbeyond hlt) (by decide)
  next =>
    cases hn
    exact ⟨rfl, rfl⟩
  next => cases hn

theorem ends_escapedNumber {r : Except Fault (Nat × Cursor)} (h : escapedNumber? k = some r)
    (hk : '\\' :: k.rest <:+ text) : Ends (ScanFault text) (fun r => r.2.rest <:+ text) r := by
  obtain ⟨n, hn, rfl⟩ := Option.map_eq_some_iff.1 h
  cases hcode : hexNumber? k.next n with
  | none => exact ends_refuse _
  | some code =>
      dsimp only
      split
      next =>
        have hrest : k.rest <:+ text := (List.suffix_cons '\\' k.rest).trans hk
        exact forward_suffix n (next_suffix hrest)
      next hbeyond =>
        obtain ⟨hletter, rfl⟩ := letter_of_beyond hn hcode (Nat.le_of_not_lt hbeyond)
        have hrest : k.rest = 'U' :: k.next.rest := rest_of_here hletter (by decide)
        exact .character (hrest ▸ hk) hcode (Nat.le_of_not_lt hbeyond)

theorem escapedLow?_suffix {n : Nat} {k' : Cursor} (h : escapedLow? k = some (n, k')) (hk : k.rest <:+ text) :
    k'.rest <:+ text := by
  rw [escapedLow?] at h
  split at h
  next hhere =>
    have hrest : k.rest = '\\' :: k.next.rest := rest_of_here (eq_of_beq hhere) (by decide)
    split at h
    next m k₁ hnumber =>
      split at h
      next =>
        cases h
        exact ends_escapedNumber hnumber (hrest ▸ hk)
      next => cases h
    next => cases h
  next => cases h

theorem escapedChar_suffix (n : Nat) (hk : k.rest <:+ text) : (escapedChar n k).2.rest <:+ text := by
  rw [escapedChar]
  split
  next low k' hlow =>
    split at hlow
    next => exact escapedLow?_suffix hlow hk
    next => cases hlow
  next => exact hk

/-! ## Quoted scalars -/

theorem ends_quotedBreaks (fuel : Nat) (hk : k.rest <:+ text) :
    Ends (ScanFault text) (fun r => r.2.rest <:+ text) (quotedBreaks fuel k) := by
  induction fuel generalizing k with
  | zero => exact ends_refuse _
  | succ fuel ih =>
      rw [quotedBreaks]
      split
      · exact ends_refuse _
      · have hskip := skip_suffix (fun c => c == ' ' || c == '\t') hk
        dsimp only
        split
        · refine (ih (lineBreak_suffix hskip)).bind fun r hr => ?_
          exact hr
        · exact hskip

/-- What a step inside quotes leaves, if there is one. -/
def StepRest (text : List Char) (r : Option (List Char × Cursor)) : Prop := ∀ p, r = some p → p.2.rest <:+ text

theorem stepRest_some {r : List Char × Cursor} (h : r.2.rest <:+ text) : StepRest text (some r) := by
  rintro p ⟨⟩
  exact h

theorem ends_quotedStep (double : Bool) (hk : k.rest <:+ text) :
    Ends (ScanFault text) (StepRest text) (quotedStep double k) := by
  rw [quotedStep]
  dsimp only
  split
  · exact stepRest_some (forward_suffix 2 hk)
  split
  · exact stepRest_some (next_suffix hk)
  split
  next hescape =>
    rw [Bool.and_eq_true] at hescape
    have hrest : k.rest = '\\' :: k.next.rest := rest_of_here (eq_of_beq hescape.2) (by decide)
    split
    next => exact stepRest_some (next_suffix (next_suffix hk))
    next =>
      split
      next r hr =>
        refine (ends_escapedNumber hr (hrest ▸ hk)).bind fun r hr => ?_
        exact stepRest_some (escapedChar_suffix r.1 hr)
      next =>
        split
        · refine (ends_quotedBreaks _ (lineBreak_suffix (next_suffix hk))).bind fun r hr => ?_
          exact stepRest_some hr
        · exact ends_refuse _
  next =>
    split
    · nofun
    · exact stepRest_some (next_suffix hk)

theorem ends_quotedRun (double : Bool) (fuel : Nat) (hk : k.rest <:+ text) :
    Ends (ScanFault text) (fun r => r.2.rest <:+ text) (quotedRun double fuel k) := by
  induction fuel generalizing k with
  | zero => exact hk
  | succ fuel ih =>
      rw [quotedRun]
      refine (ends_quotedStep double hk).bind fun r hr => ?_
      cases r with
      | none => exact hk
      | some p =>
          refine (ih (hr p rfl)).bind fun r hr => ?_
          exact hr

theorem ends_quotedSpace (hk : k.rest <:+ text) :
    Ends (ScanFault text) (fun r => r.2.rest <:+ text) (quotedSpace k) := by
  have hskip := skip_suffix (fun c => c == ' ' || c == '\t') hk
  rw [quotedSpace]
  dsimp only
  split
  · exact ends_refuse _
  split
  · refine (ends_quotedBreaks _ (lineBreak_suffix hskip)).bind fun r hr => ?_
    exact hr
  · exact hskip

theorem ends_quotedRest (double : Bool) (fuel : Nat) (hk : k.rest <:+ text) :
    Ends (ScanFault text) (fun r => r.2.rest <:+ text) (quotedRest double fuel k) := by
  induction fuel generalizing k with
  | zero => exact ends_refuse _
  | succ fuel ih =>
      rw [quotedRest]
      refine (ends_quotedRun double _ hk).bind fun r hr => ?_
      have hstop (quote : Char) : Ends (ScanFault text) (fun r => r.2.rest <:+ text)
          (if r.2.here == quote then pure (r.1, r.2.next)
          else quotedSpace r.2 >>= fun s =>
            quotedRest double fuel s.2 >>= fun t => pure (r.1 ++ s.1 ++ t.1, t.2)) := by
        split
        · exact next_suffix hr
        · refine (ends_quotedSpace hr).bind fun s hs => ?_
          refine (ih hs).bind fun t ht => ?_
          exact ht
      dsimp only
      split
      · exact hstop '"'
      · exact hstop '\''

theorem ends_quotedScalar (hk : k.rest <:+ text) :
    Ends (ScanFault text) (fun r => r.2.rest <:+ text) (quotedScalar k) :=
  ends_quotedRest _ _ (next_suffix hk)

/-! ## Plain scalars -/

theorem plainBreaks_suffix (fuel : Nat) (hk : k.rest <:+ text) : (plainBreaks fuel k).2.rest <:+ text := by
  induction fuel generalizing k with
  | zero => exact hk
  | succ fuel ih =>
      rw [plainBreaks]
      split
      · exact ih (next_suffix hk)
      split
      · dsimp only
        split
        · exact lineBreak_suffix hk
        · exact ih (lineBreak_suffix hk)
      · exact hk

theorem plainSpace_suffix (hk : k.rest <:+ text) : (plainSpace k).2.2.rest <:+ text := by
  have hskip := skip_suffix (· == ' ') hk
  rw [plainSpace]
  dsimp only
  split
  · split
    · exact lineBreak_suffix hskip
    · have hbreaks := plainBreaks_suffix ((k.skip (· == ' ')).lineBreak.2.rest.length + 1) (lineBreak_suffix hskip)
      split
      next h =>
        rw [h] at hbreaks
        exact hbreaks
      next h =>
        rw [h] at hbreaks
        exact hbreaks
  · split
    · exact hskip
    · exact hskip

section

-- A step is taken as a whole, not unfolded to see which way it goes.
attribute [local irreducible] plainSpace

theorem plainRest_succ (inFlow : Bool) (indent : Int) (fuel : Nat) (gap : List Char) (broken : Bool) (k : Cursor) :
    plainRest inFlow indent (fuel + 1) gap broken k =
      let run := if k.here == '#' then [] else plainRun inFlow k.rest
      if run.isEmpty then ([], broken, k)
      else
        match plainSpace (k.forward run.length) with
        | (none, broken, k) => (gap ++ run, broken, k)
        | (some next, broken, k) =>
            if k.here == '#' || (!inFlow && (k.column : Int) < indent) then (gap ++ run, broken, k)
            else
              let (more, broken, k) := plainRest inFlow indent fuel next broken k
              (gap ++ run ++ more, broken, k) := rfl

end

theorem plainRest_suffix (inFlow : Bool) (indent : Int) (fuel : Nat) (gap : List Char) (broken : Bool)
    (hk : k.rest <:+ text) : (plainRest inFlow indent fuel gap broken k).2.2.rest <:+ text := by
  induction fuel generalizing gap broken k with
  | zero => exact hk
  | succ fuel ih =>
      rw [plainRest_succ]
      dsimp only
      generalize (if k.here == '#' then [] else plainRun inFlow k.rest) = run
      split
      · exact hk
      · have hspace := plainSpace_suffix (forward_suffix run.length hk)
        split
        next h =>
          rw [h] at hspace
          exact hspace
        next h =>
          rw [h] at hspace
          split
          · exact hspace
          · exact ih _ _ hspace

theorem plainScalar_suffix (inFlow : Bool) (indent : Int) (hk : k.rest <:+ text) :
    (plainScalar inFlow indent k).2.2.rest <:+ text := plainRest_suffix _ _ _ _ _ hk

/-! ## Block scalars -/

theorem ends_increment (hk : k.rest <:+ text) : Ends (ScanFault text) (fun r => r.2.rest <:+ text) (increment? k) := by
  rw [increment?]
  split
  · dsimp only
    split
    · exact ends_refuse _
    · exact next_suffix hk
  · exact hk

theorem ends_blockHeader (hk : k.rest <:+ text) :
    Ends (ScanFault text) (fun r => r.2.2.rest <:+ text) (blockHeader k) := by
  -- The marks come in either order; the header ends behind both.
  have hend (c : Chomping) (n : Option Nat) {k : Cursor} (hk : k.rest <:+ text) :
      Ends (ScanFault text) (fun r => r.2.2.rest <:+ text)
        (if isSpaceOrEnd k.here then pure (c, n, k) else refuse .blockScalar) := by
    split
    · exact hk
    · exact ends_refuse _
  rw [blockHeader]
  split
  next c _ =>
    refine (ends_increment (next_suffix hk)).bind fun r hr => ?_
    exact hend c r.1 hr
  next =>
    refine (ends_increment hk).bind fun r hr => ?_
    dsimp only
    split
    · exact hend _ _ (next_suffix hr)
    · exact hend _ _ hr

theorem ends_restOfLine (what : Malformed) (hk : k.rest <:+ text) :
    Ends (ScanFault text) (fun k' => k'.rest <:+ text) (restOfLine what k) := by
  have hskip := skip_suffix (· == ' ') hk
  rw [restOfLine]
  have hbreak {k : Cursor} (hk : k.rest <:+ text) : Ends (ScanFault text) (fun k' => k'.rest <:+ text)
      (if isBreakOrEnd k.here then .ok k.lineBreak.2 else refuse what) := by
    split
    · exact lineBreak_suffix hk
    · exact ends_refuse _
  split
  · exact hbreak (skip_suffix _ hskip)
  · exact hbreak hskip

theorem leadingLines_suffix (fuel widest : Nat) (hk : k.rest <:+ text) :
    (leadingLines fuel widest k).2.2.rest <:+ text := by
  induction fuel generalizing widest k with
  | zero => exact hk
  | succ fuel ih =>
      rw [leadingLines]
      split
      · exact ih _ (next_suffix hk)
      split
      · exact ih _ (lineBreak_suffix hk)
      · exact hk

theorem emptyLines_suffix (indent fuel : Nat) (hk : k.rest <:+ text) : (emptyLines indent fuel k).2.rest <:+ text := by
  induction fuel generalizing k with
  | zero => exact hk
  | succ fuel ih =>
      rw [emptyLines]
      dsimp only
      split
      · exact ih (lineBreak_suffix (skipTo_suffix indent hk))
      · exact skipTo_suffix indent hk

theorem blockLines_suffix (folded : Bool) (indent fuel : Nat) (breaks : List Char) (hk : k.rest <:+ text) :
    (blockLines folded indent fuel breaks k).2.2.2.rest <:+ text := by
  induction fuel generalizing breaks k with
  | zero => exact hk
  | succ fuel ih =>
      rw [blockLines]
      split
      · have hline := lineBreak_suffix (forward_suffix (k.run (!isBreakOrEnd ·)).length hk)
        have hempty (fuel : Nat) := emptyLines_suffix indent fuel hline
        dsimp only
        split
        · exact ih _ (hempty _)
        · exact hempty _
      · exact hk

theorem ends_blockScalar (parent : Int) (hk : k.rest <:+ text) :
    Ends (ScanFault text) (fun r => r.2.rest <:+ text) (blockScalar parent k) := by
  rw [blockScalar]
  refine (ends_blockHeader (next_suffix hk)).bind fun header hheader => ?_
  refine (ends_restOfLine .blockScalar hheader).bind fun k' hk' => ?_
  dsimp only
  split
  · exact blockLines_suffix _ _ _ _ (emptyLines_suffix _ _ hk')
  · exact blockLines_suffix _ _ _ _ (leadingLines_suffix _ _ hk')

/-! ## Names -/

namespace ScanState

theorem ends_tagHandle (what : Malformed) (hk : k.rest <:+ text) :
    Ends (ScanFault text) (fun r => r.2.rest <:+ text) (tagHandle what k) := by
  rw [tagHandle]
  split
  · exact ends_refuse _
  split
  · exact next_suffix hk
  · dsimp only
    split
    · exact forward_suffix _ hk
    · exact ends_refuse _

theorem ends_uriBytes (what : Malformed) (fuel : Nat) (hk : k.rest <:+ text) :
    Ends (ScanFault text) (fun r => r.2.rest <:+ text) (uriBytes what fuel k) := by
  induction fuel generalizing k with
  | zero => exact hk
  | succ fuel ih =>
      rw [uriBytes]
      split
      · split
        · refine (ih (forward_suffix 3 hk)).bind fun r hr => ?_
          exact hr
        · exact ends_refuse _
      · exact hk

theorem ends_uriText (what : Malformed) (fuel : Nat) (hk : k.rest <:+ text) :
    Ends (ScanFault text) (fun r => r.2.rest <:+ text) (uriText what fuel k) := by
  induction fuel generalizing k with
  | zero => exact hk
  | succ fuel ih =>
      rw [uriText]
      split
      · refine (ends_uriBytes what _ hk).bind fun r hr => ?_
        dsimp only
        split
        · exact ends_refuse _
        · refine (ih hr).bind fun r hr => ?_
          exact hr
      · dsimp only
        split
        · exact hk
        · refine (ih (forward_suffix _ hk)).bind fun r hr => ?_
          exact hr

theorem ends_tagUri (what : Malformed) (hk : k.rest <:+ text) :
    Ends (ScanFault text) (fun r => r.2.rest <:+ text) (tagUri what k) := by
  rw [tagUri]
  split
  · exact ends_refuse _
  · refine (ends_uriText what _ hk).bind fun r hr => ?_
    exact hr

theorem ends_anchorName (hk : k.rest <:+ text) : Ends (ScanFault text) (fun r => r.2.rest <:+ text) (anchorName k) := by
  rw [anchorName]
  split
  · exact ends_refuse _
  · exact forward_suffix _ (next_suffix hk)

theorem ends_tag (hk : k.rest <:+ text) : Ends (ScanFault text) (fun r => r.2.rest <:+ text) (tag k) := by
  have hend (t : Token) {k : Cursor} (hk : k.rest <:+ text) : Ends (ScanFault text) (fun r => r.2.rest <:+ text)
      (if isSpaceOrEnd k.here then pure (t, k) else refuse .tag) := by
    split
    · exact hk
    · exact ends_refuse _
  have hsuffix (handle : String) {k : Cursor} (hk : k.rest <:+ text) :
      Ends (ScanFault text) (fun r => r.2.rest <:+ text)
      (tagUri .tag k >>= fun r =>
        if isSpaceOrEnd r.2.here then pure (Token.tag (some handle) r.1, r.2) else refuse .tag) := by
    refine (ends_tagUri .tag hk).bind fun r hr => ?_
    exact hend _ hr
  rw [tag]
  split
  · refine (ends_tagUri .tag (forward_suffix 2 hk)).bind fun r hr => ?_
    dsimp only
    split
    · exact hend _ (next_suffix hr)
    · exact ends_refuse _
  split
  · exact hend _ (next_suffix hk)
  dsimp only
  split
  · refine (ends_tagHandle .tag hk).bind fun r hr => ?_
    exact hsuffix r.1 hr
  · exact hsuffix "!" (next_suffix hk)

/-! ## Directives -/

theorem ends_versionNumber {between : List Char} (hk : '%' :: ("YAML".toList ++ (between ++ k.rest)) <:+ text) :
    Ends (ScanFault text) (fun r => ∃ ds, k.rest = ds ++ r.2.rest) (versionNumber k) := by
  rw [versionNumber]
  split
  · exact ends_refuse _
  split
  next hlimit => exact .version hk hlimit
  next =>
    refine ⟨k.rest.take (k.run Char.isDigit).length, ?_⟩
    rw [forward_rest, List.take_append_drop]

/-- What is run through stands in front of what follows it. -/
theorem rest_of_run (k : Cursor) (p : Char → Bool) : k.rest = k.run p ++ (k.forward (k.run p).length).rest := by
  rw [forward_rest]
  exact (List.prefix_iff_eq_append.1 (List.takeWhile_prefix p)).symm

theorem ends_directive (hhere : k.here = '%') (hk : k.rest <:+ text) :
    Ends (ScanFault text) (fun r => r.2.rest <:+ text) (directive k) := by
  have hend (d : Directive) {k : Cursor} (hk : k.rest <:+ text) : Ends (ScanFault text) (fun r => r.2.rest <:+ text)
      (restOfLine .directive k >>= fun k => pure (d, k)) := by
    refine (ends_restOfLine .directive hk).bind fun k' hk' => ?_
    exact hk'
  have hmark : k.rest = '%' :: k.next.rest := rest_of_here hhere (by decide)
  have hname := rest_of_run k.next isWordChar
  have hafter := forward_suffix (k.next.run isWordChar).length (next_suffix hk)
  rw [directive]
  dsimp only
  generalize k.next.forward (k.next.run isWordChar).length = k₁ at hname hafter ⊢
  have hspace := rest_of_run k₁ (· == ' ')
  have hskip := skip_suffix (· == ' ') hafter
  rw [← skip] at hspace
  generalize k₁.skip (· == ' ') = k₂ at hspace hskip ⊢
  split
  · exact ends_refuse _
  split
  next hyaml =>
    have hword : k.next.run isWordChar = "YAML".toList := by rw [← hyaml, String.toList_ofList]
    rw [hword, hspace] at hname
    rw [hname] at hmark
    refine (ends_versionNumber (hmark ▸ hk)).bind fun major hmajor => ?_
    obtain ⟨ds, hds⟩ := hmajor
    have hrest : major.2.rest <:+ text := .trans ⟨ds, hds.symm⟩ hskip
    split
    · exact ends_refuse _
    next hdot =>
      have hpoint : major.2.rest = '.' :: major.2.next.rest := by
        have hhere := Bool.eq_false_iff.2 hdot
        exact rest_of_here (bne_eq_false_iff_eq.1 hhere) (by decide)
      have hminor : '%' :: ("YAML".toList ++ ((k₁.run (· == ' ') ++ ds ++ ['.']) ++ major.2.next.rest)) <:+ text := by
        rw [hmark, hds, hpoint] at hk
        simpa only [List.append_assoc, List.singleton_append] using hk
      refine (ends_versionNumber hminor).bind fun minor hminor => ?_
      obtain ⟨ds', hds'⟩ := hminor
      split
      · exact hend _ (.trans ⟨ds', hds'.symm⟩ (next_suffix hrest))
      · exact ends_refuse _
  next =>
    refine (ends_tagHandle .directive hskip).bind fun handle hhandle => ?_
    split
    · exact ends_refuse _
    · refine (ends_tagUri .directive (skip_suffix _ hhandle)).bind fun uri huri => ?_
      split
      · exact hend _ huri
      · exact ends_refuse _
  next => exact hend _ (skip_suffix _ hafter)

/-! ## The next token -/

variable {s : ScanState}

/-- The cursor stands within the text. -/
def Stands (text : List Char) (s : ScanState) : Prop := s.cursor.rest <:+ text

theorem ends_dropStaleKeys (hs : Stands text s) : Ends (ScanFault text) (Stands text) s.dropStaleKeys := by
  rw [dropStaleKeys]
  split
  · exact ends_refuse _
  · exact hs

theorem ends_forgetKey (hs : Stands text s) : Ends (ScanFault text) (Stands text) s.forgetKey := by
  rw [forgetKey]
  split
  · exact ends_refuse _
  · exact hs

theorem ends_rememberKey (hs : Stands text s) : Ends (ScanFault text) (Stands text) s.rememberKey := by
  rw [rememberKey]
  split
  · refine (ends_forgetKey hs).bind fun s' hs' => ?_
    exact hs'
  · exact hs

theorem unwind_cursor (s : ScanState) (column : Int) : (s.unwind column).cursor = s.cursor := by
  rw [unwind]
  split
  · rfl
  · rfl

theorem stands_unwind (column : Int) (hs : Stands text s) : Stands text (s.unwind column) := by
  rw [Stands, unwind_cursor]
  exact hs

theorem openBlock_cursor (s : ScanState) (column : Nat) : (s.openBlock column).2.cursor = s.cursor := by
  rw [openBlock]
  split
  · rfl
  · rfl

theorem stands_skipFiller (fuel : Nat) (hs : Stands text s) : Stands text (skipFiller fuel s) := by
  induction fuel generalizing s with
  | zero => exact hs
  | succ fuel ih =>
      have hskip := skip_suffix (· == ' ') hs
      have hrest {k : Cursor} (hk : k.rest <:+ text) : Stands text
          (if isBreak k.here then
            skipFiller fuel (if (s.goto k.lineBreak.2).inFlow then s.goto k.lineBreak.2
              else (s.goto k.lineBreak.2).allowKey true)
          else s.goto k) := by
        split
        · refine ih ?_
          split
          · exact lineBreak_suffix hk
          · exact lineBreak_suffix hk
        · exact hk
      rw [skipFiller]
      dsimp only
      split
      · exact hrest (skip_suffix _ hskip)
      · exact hrest hskip

theorem stands_toNextToken (hs : Stands text s) : Stands text s.toNextToken := by
  rw [toNextToken]
  split
  · exact stands_skipFiller _ (next_suffix hs)
  · exact stands_skipFiller _ hs

theorem ends_fetchEnd (hs : Stands text s) : Ends (ScanFault text) (Stands text) s.fetchEnd := by
  rw [fetchEnd]
  refine (ends_forgetKey (stands_unwind _ hs)).bind fun s' hs' => ?_
  exact hs'

theorem forgetKey_cursor {s' : ScanState} (h : s.forgetKey = .ok s') : s'.cursor = s.cursor := by
  rw [forgetKey] at h
  split at h
  · cases h
  · cases h
    rfl

theorem ends_fetchDirective (hhere : s.cursor.here = '%') (hs : Stands text s) :
    Ends (ScanFault text) (Stands text) s.fetchDirective := by
  rw [fetchDirective]
  cases hkey : (s.unwind (-1)).forgetKey with
  | error f =>
      have hforget := ends_forgetKey (stands_unwind (-1) hs)
      rw [hkey] at hforget
      exact hforget
  | ok s' =>
      have hcursor : s'.cursor = s.cursor := (forgetKey_cursor hkey).trans (unwind_cursor s _)
      refine (ends_directive (hcursor ▸ hhere) (hcursor ▸ hs)).bind fun r hr => ?_
      exact hr

theorem ends_fetchDocumentMark (t : Token) (hs : Stands text s) :
    Ends (ScanFault text) (Stands text) (s.fetchDocumentMark t) := by
  rw [fetchDocumentMark]
  refine (ends_forgetKey (stands_unwind _ hs)).bind fun s' hs' => ?_
  exact forward_suffix 3 hs'

theorem ends_fetchFlowStart (t : Token) (hs : Stands text s) :
    Ends (ScanFault text) (Stands text) (s.fetchFlowStart t) := by
  rw [fetchFlowStart]
  refine (ends_rememberKey hs).bind fun s' hs' => ?_
  exact next_suffix hs'

theorem ends_fetchFlowEnd (t : Token) (hs : Stands text s) :
    Ends (ScanFault text) (Stands text) (s.fetchFlowEnd t) := by
  rw [fetchFlowEnd]
  refine (ends_forgetKey hs).bind fun s' hs' => ?_
  split
  · exact ends_refuse _
  · exact next_suffix hs'

theorem ends_fetchFlowEntry (hs : Stands text s) : Ends (ScanFault text) (Stands text) s.fetchFlowEntry := by
  rw [fetchFlowEntry]
  refine (ends_forgetKey (s := s.allowKey true) hs).bind fun s' hs' => ?_
  exact next_suffix hs'

theorem ends_beginBlock (t : Token) (hs : Stands text s) : Ends (ScanFault text) (Stands text) (beginBlock t s) := by
  have hopen := openBlock_cursor s s.cursor.column
  rw [beginBlock]
  split
  · exact hs
  split
  · exact ends_refuse _
  · rw [Stands, ← hopen] at hs
    split
    next h =>
      rw [h] at hs
      exact hs
    next h =>
      rw [h] at hs
      exact hs

/-- What may begin a block collection, and forgets a key in front of it, is passed as one character. -/
theorem ends_blockMark (t mark : Token) (allow : ScanState → Bool) (hs : Stands text s) :
    Ends (ScanFault text) (Stands text) (beginBlock t s >>= fun s => (s.allowKey (allow s)).forgetKey >>= fun s =>
      pure ((s.emit mark).goto s.cursor.next)) := by
  refine (ends_beginBlock t hs).bind fun s₁ hs₁ => ?_
  refine (ends_forgetKey (s := s₁.allowKey (allow s₁)) hs₁).bind fun s₂ hs₂ => ?_
  exact next_suffix hs₂

theorem ends_fetchValue (hs : Stands text s) : Ends (ScanFault text) (Stands text) s.fetchValue := by
  rw [fetchValue]
  split
  next place _ =>
    have hplaced (s' : ScanState) (hs' : Stands text s') :
        Stands text (((s'.allowKey false).emit .value).goto (s'.allowKey false).cursor.next) := next_suffix hs'
    dsimp only
    split
    · exact hplaced (s.eraseKey.insert place.token .key) hs
    · have hopen := openBlock_cursor (s.eraseKey.insert place.token .key) place.column
      have hopened : Stands text ((s.eraseKey.insert place.token .key).openBlock place.column).2 := by
        rw [Stands, hopen]
        exact hs
      split
      next s' h =>
        rw [h] at hopened
        exact hplaced (s'.insert place.token .blockMappingStart) hopened
      next s' h =>
        rw [h] at hopened
        exact hplaced s' hopened
  next => exact ends_blockMark .blockMappingStart .value (fun s => !s.inFlow) hs

theorem ends_fetchNode {read : Cursor → Except Fault (Token × Cursor)}
    (hread : ∀ k : Cursor, k.rest <:+ text → Ends (ScanFault text) (fun r => r.2.rest <:+ text) (read k))
    (hs : Stands text s) :
    Ends (ScanFault text) (Stands text) (s.fetchNode read) := by
  rw [fetchNode]
  refine (ends_rememberKey hs).bind fun s' hs' => ?_
  refine (hread s'.cursor hs').bind fun r hr => ?_
  exact hr

theorem ends_fetchBlockScalar (hs : Stands text s) : Ends (ScanFault text) (Stands text) s.fetchBlockScalar := by
  rw [fetchBlockScalar]
  refine (ends_forgetKey (s := s.allowKey true) hs).bind fun s' hs' => ?_
  refine (ends_blockScalar _ hs').bind fun r hr => ?_
  exact hr

theorem ends_fetchPlain (hs : Stands text s) : Ends (ScanFault text) (Stands text) s.fetchPlain := by
  rw [fetchPlain]
  refine (ends_rememberKey hs).bind fun s' hs' => ?_
  exact plainScalar_suffix s'.inFlow s'.indent hs'

theorem ends_fetchHere (hs : Stands text s) : Ends (ScanFault text) (Stands text) s.fetchHere := by
  have hname (t : String → Token) (k : Cursor) (hk : k.rest <:+ text) :
      Ends (ScanFault text) (fun r => r.2.rest <:+ text) ((anchorName k).map fun r => (t r.1, r.2)) :=
    (ends_anchorName hk).map fun _ hr => hr
  have hquoted (k : Cursor) (hk : k.rest <:+ text) : Ends (ScanFault text) (fun r => r.2.rest <:+ text)
      ((quotedScalar k).map fun r => (Token.scalar (String.ofList r.1) false, r.2)) :=
    (ends_quotedScalar hk).map fun _ hr => hr
  have hpercent (h : (s.cursor.here == '%' && s.cursor.column == 0) = true) : s.cursor.here = '%' := by
    rw [Bool.and_eq_true] at h
    exact eq_of_beq h.1
  rw [fetchHere]
  dsimp only
  refine .ite (fun _ => ends_fetchEnd hs) fun _ => ?_
  refine .ite (fun hdirective => ends_fetchDirective (hpercent hdirective) hs) fun _ => ?_
  refine .ite (fun _ => ends_fetchDocumentMark _ hs) fun _ => ?_
  refine .ite (fun _ => ends_fetchDocumentMark _ hs) fun _ => ?_
  refine .ite (fun _ => ends_fetchFlowStart _ hs) fun _ => ?_
  refine .ite (fun _ => ends_fetchFlowStart _ hs) fun _ => ?_
  refine .ite (fun _ => ends_fetchFlowEnd _ hs) fun _ => ?_
  refine .ite (fun _ => ends_fetchFlowEnd _ hs) fun _ => ?_
  refine .ite (fun _ => ends_fetchFlowEntry hs) fun _ => ?_
  refine .ite (fun _ => ends_blockMark .blockSequenceStart .blockEntry (fun _ => true) hs) fun _ => ?_
  refine .ite (fun _ => ends_blockMark .blockMappingStart .key (fun s => !s.inFlow) hs) fun _ => ?_
  refine .ite (fun _ => ends_fetchValue hs) fun _ => ?_
  refine .ite (fun _ => ends_fetchNode (hname .reference) hs) fun _ => ?_
  refine .ite (fun _ => ends_fetchNode (hname .anchor) hs) fun _ => ?_
  refine .ite (fun _ => ends_fetchNode (fun k hk => ends_tag hk) hs) fun _ => ?_
  refine .ite (fun _ => ends_fetchBlockScalar hs) fun _ => ?_
  refine .ite (fun _ => ends_fetchNode hquoted hs) fun _ => ?_
  exact .ite (fun _ => ends_fetchPlain hs) fun _ => ends_refuse _

theorem ends_fetch (hs : Stands text s) : Ends (ScanFault text) (Stands text) s.fetch := by
  rw [fetch]
  refine (ends_dropStaleKeys (stands_toNextToken hs)).bind fun s' hs' => ?_
  exact ends_fetchHere (stands_unwind _ hs')

section

attribute [local irreducible] fetch

theorem fetchAll_zero (s : ScanState) : fetchAll 0 s = (s.tokens.toList, some (.malformed .token)) := rfl

theorem fetchAll_succ (fuel : Nat) (s : ScanState) :
    fetchAll (fuel + 1) s =
      if s.done then (s.tokens.toList, none)
      else
        match s.fetch with
        | .ok s => fetchAll fuel s
        | .error f => (s.tokens.toList, some f) := rfl

end

/-- One step keeps the cursor in the text or ends with a fault that the text accounts for, and so does a whole run. -/
theorem scanFault_of_fetchAll {fuel : Nat} {ts : List Token} {f : Fault} (hs : Stands text s)
    (h : fetchAll fuel s = (ts, some f)) : ScanFault text f := by
  induction fuel generalizing s with
  | zero =>
      rw [fetchAll_zero] at h
      cases h
      exact .malformed _
  | succ fuel ih =>
      have hfetch := ends_fetch hs
      rw [fetchAll_succ] at h
      by_cases hdone : s.done = true
      · rw [if_pos hdone] at h
        cases h
      · rw [if_neg hdone] at h
        cases hstep : s.fetch with
        | ok s' =>
            rw [hstep] at h hfetch
            exact ih hfetch h
        | error f' =>
            rw [hstep] at h hfetch
            cases h
            exact hfetch

end ScanState

/-- The fault that ends the tokens of a text is one of form, or the text holds what it is about. -/
theorem scanFault_of_scan {text : List Char} {ts : List Token} {f : Fault} (h : Token.scan text = (ts, some f)) :
    ScanFault text f := by
  rw [Token.scan] at h
  split at h
  · exact ScanState.scanFault_of_fetchAll (s := ScanState.start text) List.suffix_rfl h
  · cases h
    exact .malformed _

end ApiDiscovery.Yaml
