import ApiDiscovery.Files
import ApiDiscovery.Proofs.JsonText
import Mathlib.Data.List.Basic

/-!
# Ends of lines in JSON

A text that is read from a file has all ends of lines as line feeds. To a text in JSON that makes no difference. A
carriage return can stand in it only as space: strings refuse it, and it is no part of anything else. So what is
read is the same part by part, and what is left after each part is what was left before, with its ends of lines
made line feeds as well (`Reads.normalize`).

Main statement: `parse_normalizeLines`.
-/

namespace ApiDiscovery

/-! ## Ends of lines -/

theorem normalizeLines_cons {c : Char} (h : c ≠ '\r') (cs : List Char) :
    normalizeLines (c :: cs) = c :: normalizeLines cs := by
  rw [normalizeLines.eq_def]
  split
  next heq => exact absurd (List.cons.inj heq).1 h
  next heq => exact absurd (List.cons.inj heq).1 h
  next heq =>
    cases heq
    rfl
  next heq => cases heq

/-- A carriage return ends a line, perhaps together with the line feed behind it. -/
theorem normalizeLines_return (rest : List Char) :
    ∃ rest', normalizeLines ('\r' :: rest) = '\n' :: normalizeLines rest' ∧ (rest = '\n' :: rest' ∨ rest = rest') := by
  rw [normalizeLines.eq_def]
  split
  next heq =>
    cases heq
    exact ⟨_, rfl, .inl rfl⟩
  next heq =>
    cases heq
    exact ⟨_, rfl, .inr rfl⟩
  next hno heq => exact (hno (List.cons.inj heq).1.symm).elim
  next heq => cases heq

theorem normalizeLines_eq_nil {cs : List Char} : normalizeLines cs = [] ↔ cs = [] := by
  fun_cases normalizeLines cs <;> simp

/-- Characters of a class at the front stay, if the class has no ends of lines. -/
theorem takeWhile_normalizeLines {p : Char → Bool} (hr : p '\r' = false) (hn : p '\n' = false) (cs : List Char) :
    (normalizeLines cs).takeWhile p = cs.takeWhile p ∧
      (normalizeLines cs).dropWhile p = normalizeLines (cs.dropWhile p) := by
  induction cs with
  | nil => exact ⟨rfl, rfl⟩
  | cons c cs ih =>
      by_cases hc : c = '\r'
      · subst hc
        obtain ⟨rest', hrest', -⟩ := normalizeLines_return cs
        rw [List.takeWhile_cons_of_neg (by simp [hr]), List.dropWhile_cons_of_neg (by simp [hr]), hrest',
          List.takeWhile_cons_of_neg (by simp [hn]), List.dropWhile_cons_of_neg (by simp [hn])]
        exact ⟨rfl, rfl⟩
      · rw [normalizeLines_cons hc, List.takeWhile_cons, List.takeWhile_cons, List.dropWhile_cons, List.dropWhile_cons]
        cases hp : p c with
        | true => exact ⟨congrArg _ ih.1, ih.2⟩
        | false => exact ⟨rfl, (normalizeLines_cons hc cs).symm⟩

/-- What begins with a character that ends no line began with it before. -/
theorem of_normalizeLines_eq_cons {c : Char} (hc : c ≠ '\n') {cs rest : List Char}
    (h : normalizeLines cs = c :: rest) : ∃ rest', cs = c :: rest' ∧ rest = normalizeLines rest' := by
  cases cs with
  | nil => cases h
  | cons d cs =>
      by_cases hd : d = '\r'
      · subst hd
        obtain ⟨rest', hrest', -⟩ := normalizeLines_return cs
        rw [hrest'] at h
        exact absurd (List.cons.inj h).1.symm hc
      · rw [normalizeLines_cons hd] at h
        cases h
        exact ⟨cs, rfl, rfl⟩

theorem length_normalizeLines (cs : List Char) : (normalizeLines cs).length ≤ cs.length := by
  fun_induction normalizeLines cs with
  | case1 rest ih =>
      simp only [List.length_cons]
      omega
  | case2 rest _ ih => exact Nat.succ_le_succ ih
  | case3 c rest _ _ ih => exact Nat.succ_le_succ ih
  | case4 => exact Nat.le_refl _

theorem normalizeLines_append {w : List Char} (h : '\r' ∉ w) (cs : List Char) :
    normalizeLines (w ++ cs) = w ++ normalizeLines cs := by
  induction w with
  | nil => rfl
  | cons c w ih =>
      rw [List.mem_cons, not_or] at h
      rw [List.cons_append, normalizeLines_cons (Ne.symm h.1), ih h.2]
      rfl

/-- What begins with a text that has no line feed began with it before. -/
theorem prefix_of_prefix_normalizeLines {w cs : List Char} (h : '\n' ∉ w) (hw : w <+: normalizeLines cs) :
    w <+: cs := by
  induction w generalizing cs with
  | nil => exact List.nil_prefix
  | cons c w ih =>
      rw [List.mem_cons, not_or] at h
      obtain ⟨rest, hrest⟩ := hw
      obtain ⟨cs', rfl, hcs⟩ := of_normalizeLines_eq_cons (Ne.symm h.1) hrest.symm
      obtain ⟨rest', hrest'⟩ := ih h.2 ⟨rest, hcs⟩
      exact ⟨rest', by rw [List.cons_append, hrest']⟩

namespace Json

open Number Text

/-- Space ends at the same place. -/
theorem skipSpace_normalizeLines (cs : List Char) : skipSpace (normalizeLines cs) = normalizeLines (skipSpace cs) := by
  fun_induction normalizeLines cs with
  | case1 rest ih => exact ih
  | case2 rest _ ih => exact ih
  | case3 c rest _ hc ih =>
      have hreturn : c ≠ '\r' := hc
      rw [skipSpace, skipSpace, List.dropWhile_cons, List.dropWhile_cons]
      cases hspace : isSpace c with
      | true => exact ih
      | false => exact (normalizeLines_cons hreturn rest).symm
  | case4 => rfl

/-! ## Strings -/

theorem hex4?_normalizeLines {cs rest : List Char} {n : Nat} (h : hex4? cs = some (n, rest)) :
    hex4? (normalizeLines cs) = some (n, normalizeLines rest) := by
  obtain ⟨ds, rfl, -, hdigits, hread⟩ := hex4?_eq_some h
  rw [normalizeLines_append fun hr => absurd (hdigits _ hr) (by decide), hread]

/-- What is too short for a second half is too short with its ends of lines as line feeds as well. -/
theorem LeavesAlone.normalizeLines {n : Nat} {cs : List Char} (h : LeavesAlone n cs) :
    LeavesAlone n (normalizeLines cs) := by
  intro hhigh more hmore hdrop
  obtain ⟨cs', rfl, hcs⟩ := of_normalizeLines_eq_cons (by decide) hmore
  obtain ⟨more', rfl, rfl⟩ := of_normalizeLines_eq_cons (by decide) hcs.symm
  have hlong : more'.drop 4 ≠ [] := by
    have hle := length_normalizeLines more'
    rw [← List.length_pos_iff, List.length_drop] at hdrop ⊢
    omega
  obtain ⟨m, after, hhex, hlow⟩ := h hhigh more' rfl hlong
  exact ⟨m, _, hex4?_normalizeLines hhex, hlow⟩

theorem pairedChar_normalizeLines {n : Nat} {cs rest : List Char} {d : Char} (h : pairedChar n cs = .ok (d, rest)) :
    pairedChar n (normalizeLines cs) = .ok (d, normalizeLines rest) := by
  rcases pairedChar_eq_ok.1 h with ⟨hhigh, more, m, rfl, hhex, hne, hlow, hd⟩ | ⟨halone, hd, rfl⟩
  · refine pairedChar_eq_ok.2 (.inl ⟨hhigh, normalizeLines more, m, ?_, hex4?_normalizeLines hhex,
      mt normalizeLines_eq_nil.1 hne, hlow, hd⟩)
    rw [normalizeLines_cons (by decide), normalizeLines_cons (by decide)]
  · exact pairedChar_eq_ok.2 (.inr ⟨halone.normalizeLines, hd, rfl⟩)

theorem numberedChar_normalizeLines {x : Char} {digits rest : List Char} {d : Char}
    (h : numberedChar (x :: digits) = .ok (d, rest)) :
    numberedChar (x :: normalizeLines digits) = .ok (d, normalizeLines rest) := by
  obtain ⟨n, after, hhex, hne, hpaired⟩ := numberedChar_eq_ok.1 h
  exact numberedChar_eq_ok.2 ⟨n, normalizeLines after, hex4?_normalizeLines hhex, mt normalizeLines_eq_nil.1 hne,
    pairedChar_normalizeLines hpaired⟩

/-- A string has no ends of lines. -/
theorem Body.normalize {cs ds rest : List Char} (h : Body cs ds rest) :
    Body (normalizeLines cs) ds (normalizeLines rest) := by
  induction h with
  | close rest =>
      rw [normalizeLines_cons (by decide)]
      exact .close _
  | numbered h _ ih =>
      rw [normalizeLines_cons (by decide), normalizeLines_cons (by decide)]
      exact .numbered (numberedChar_normalizeLines h) ih
  | @short after ds rest e d h _ ih =>
      have he : e ≠ '\r' := by
        rintro rfl
        cases h
      rw [normalizeLines_cons (by decide), normalizeLines_cons he]
      exact .short h ih
  | @plain cs ds rest c hquote hescape hcontrol _ ih =>
      have hc : c ≠ '\r' := by
        rintro rfl
        exact hcontrol (by decide)
      rw [normalizeLines_cons hc]
      exact .plain hquote hescape hcontrol ih

/-! ## Words and numbers -/

/-- Words have no ends of lines. -/
theorem word?_normalizeLines (cs : List Char) :
    word? (normalizeLines cs) = (word? cs).map fun found => (found.1, normalizeLines found.2) := by
  have hplain : ∀ e ∈ words, '\r' ∉ e.1 ∧ '\n' ∉ e.1 := by decide
  have hword : ∀ e ∈ words, (if e.1.isPrefixOf (normalizeLines cs) then some (e.2, (normalizeLines cs).drop e.1.length)
      else none) =
      (if e.1.isPrefixOf cs then some (e.2, cs.drop e.1.length) else none).map fun found =>
        (found.1, normalizeLines found.2) := by
    intro e he
    obtain ⟨hreturn, hfeed⟩ := hplain e he
    by_cases hprefix : e.1 <+: cs
    · obtain ⟨rest, rfl⟩ := hprefix
      have hin (rest : List Char) : e.1.isPrefixOf (e.1 ++ rest) = true :=
        List.isPrefixOf_iff_prefix.2 (List.prefix_append _ _)
      rw [normalizeLines_append hreturn, if_pos (hin _), if_pos (hin _), List.drop_left, List.drop_left]
      rfl
    · have hprefix' := mt (prefix_of_prefix_normalizeLines hfeed) hprefix
      rw [if_neg (mt List.isPrefixOf_iff_prefix.1 hprefix), if_neg (mt List.isPrefixOf_iff_prefix.1 hprefix')]
      rfl
  rw [word?, word?, List.map_findSome?, ← List.head?_filterMap, ← List.head?_filterMap]
  exact congrArg List.head? (List.filterMap_congr hword)

/-- What takes the same part from the front, whatever the ends of lines are. -/
def TakesNoLines (f : List Char → α × List Char) : Prop :=
  ∀ cs, f (normalizeLines cs) = ((f cs).1, normalizeLines (f cs).2)

/-- What takes nothing where a line ends need only be looked at elsewhere. -/
theorem takesNoLines_of_cons {f : List Char → α × List Char} (hnil : (f []).2 = [])
    (hreturn : ∀ rest, f ('\r' :: rest) = ((f []).1, '\r' :: rest))
    (hfeed : ∀ rest, f ('\n' :: rest) = ((f []).1, '\n' :: rest))
    (hcons : ∀ c rest, c ≠ '\r' →
      f (c :: normalizeLines rest) = ((f (c :: rest)).1, normalizeLines (f (c :: rest)).2)) : TakesNoLines f := by
  intro cs
  cases cs with
  | nil => exact Prod.ext rfl (by rw [hnil]; exact hnil)
  | cons c rest =>
      by_cases hc : c = '\r'
      · subst hc
        obtain ⟨rest', hrest', -⟩ := normalizeLines_return rest
        rw [hreturn, hrest', hfeed]
      · rw [normalizeLines_cons hc]
        exact hcons c rest hc

theorem takesNoLines_digits : TakesNoLines fun cs => (cs.takeWhile Char.isDigit, cs.dropWhile Char.isDigit) := by
  intro cs
  obtain ⟨htake, hdrop⟩ := takeWhile_normalizeLines (p := Char.isDigit) (by decide) (by decide) cs
  exact Prod.ext htake hdrop

theorem takesNoLines_wholeDigits : TakesNoLines wholeDigits := by
  refine takesNoLines_of_cons rfl (fun _ => rfl) (fun _ => rfl) fun c rest hc => ?_
  by_cases hzero : c = '0'
  · subst hzero
    rfl
  · rw [wholeDigits_cons hzero, wholeDigits_cons hzero, ← normalizeLines_cons hc]
    exact takesNoLines_digits (c :: rest)

theorem takesNoLines_fraction : TakesNoLines fraction := by
  refine takesNoLines_of_cons rfl (fun _ => rfl) (fun _ => rfl) fun c rest hc => ?_
  by_cases hpoint : c = '.'
  · subst hpoint
    obtain ⟨htake, hdrop⟩ := Prod.mk.inj (takesNoLines_digits rest)
    rw [fraction, fraction, htake, hdrop]
    dsimp only
    split
    · exact Prod.ext rfl (normalizeLines_cons hc rest).symm
    · rfl
  · rw [fraction_cons hpoint, fraction_cons hpoint, normalizeLines_cons hc]

theorem takesNoLines_exponentSign : TakesNoLines exponentSign := by
  refine takesNoLines_of_cons rfl (fun _ => rfl) (fun _ => rfl) fun c rest hc => ?_
  by_cases hplus : c = '+'
  · subst hplus
    rfl
  by_cases hminus : c = '-'
  · subst hminus
    rfl
  · rw [exponentSign_cons hplus hminus, exponentSign_cons hplus hminus, normalizeLines_cons hc]

theorem takesNoLines_exponent : TakesNoLines exponent := by
  refine takesNoLines_of_cons rfl (fun _ => rfl) (fun _ => rfl) fun c rest hc => ?_
  rw [exponent_cons, exponent_cons, takesNoLines_exponentSign rest]
  dsimp only
  obtain ⟨htake, hdrop⟩ := Prod.mk.inj (takesNoLines_digits (exponentSign rest).2)
  rw [htake, hdrop]
  split
  · split
    · exact Prod.ext rfl (normalizeLines_cons hc rest).symm
    · rfl
  · exact Prod.ext rfl (normalizeLines_cons hc rest).symm

theorem takesNoLines_numberSign : TakesNoLines numberSign := by
  refine takesNoLines_of_cons rfl (fun _ => rfl) (fun _ => rfl) fun c rest hc => ?_
  by_cases hminus : c = '-'
  · subst hminus
    rfl
  · rw [numberSign_cons hminus, numberSign_cons hminus, normalizeLines_cons hc]

theorem number_normalizeLines {cs rest : List Char} {v : Value} (h : number cs = .ok (v, rest)) :
    number (normalizeLines cs) = .ok (v, normalizeLines rest) := by
  rw [number_eq_ok, takesNoLines_numberSign cs, takesNoLines_wholeDigits, takesNoLines_fraction, takesNoLines_exponent]
  obtain ⟨hwhole, hv, rfl⟩ := number_eq_ok.1 h
  exact ⟨hwhole, hv, rfl⟩

theorem scalar_normalizeLines {cs rest : List Char} {v : Value} (h : scalar cs = .ok (v, rest)) :
    scalar (normalizeLines cs) = .ok (v, normalizeLines rest) := by
  rw [scalar] at h
  rw [scalar, word?_normalizeLines]
  cases hword : word? cs with
  | none =>
      rw [hword] at h
      exact number_normalizeLines h
  | some found =>
      rw [hword] at h
      cases h
      rfl

/-! ## Values -/

/-- Space ends where it ended before. -/
theorem skipSpace_normalizeLines_cons {cs rest : List Char} {c : Char} (hc : c ≠ '\r') (h : skipSpace cs = c :: rest) :
    skipSpace (normalizeLines cs) = c :: normalizeLines rest := by
  rw [skipSpace_normalizeLines, h, normalizeLines_cons hc]

/-- Each part of a text in JSON is the same part whatever the ends of lines are. -/
theorem Reads.normalize {p : Part} {cs rest : List Char} (h : Reads p cs rest) :
    Reads p (normalizeLines cs) (normalizeLines rest) := by
  induction h with
  | string h =>
      rw [normalizeLines_cons (by decide)]
      exact .string h.normalize
  | emptyObject h =>
      rw [normalizeLines_cons (by decide)]
      exact .emptyObject (skipSpace_normalizeLines_cons (by decide) h)
  | object _ ih =>
      rw [normalizeLines_cons (by decide)]
      exact .object (by rw [skipSpace_normalizeLines]; exact ih)
  | emptyArray h =>
      rw [normalizeLines_cons (by decide)]
      exact .emptyArray (skipSpace_normalizeLines_cons (by decide) h)
  | array _ ih =>
      rw [normalizeLines_cons (by decide)]
      exact .array (by rw [skipSpace_normalizeLines]; exact ih)
  | scalar h => exact .scalar (scalar_normalizeLines h)
  | lastMember hname hcolon _ hclose ih =>
      rw [normalizeLines_cons (by decide)]
      rw [← skipSpace_normalizeLines] at ih
      exact .lastMember hname.normalize (skipSpace_normalizeLines_cons (by decide) hcolon) ih
        (skipSpace_normalizeLines_cons (by decide) hclose)
  | member hname hcolon _ hcomma _ ih ihmore =>
      rw [normalizeLines_cons (by decide)]
      rw [← skipSpace_normalizeLines] at ih ihmore
      exact .member hname.normalize (skipSpace_normalizeLines_cons (by decide) hcolon) ih
        (skipSpace_normalizeLines_cons (by decide) hcomma) ihmore
  | lastElement _ hclose ih => exact .lastElement ih (skipSpace_normalizeLines_cons (by decide) hclose)
  | element _ hcomma _ ih ihmore =>
      rw [← skipSpace_normalizeLines] at ihmore
      exact .element ih (skipSpace_normalizeLines_cons (by decide) hcomma) ihmore

/-- A whole text in JSON is the same value whatever its ends of lines are. -/
theorem parseChars_normalizeLines {cs : List Char} {v : Value} (h : parseChars cs = .ok v) :
    parseChars (normalizeLines cs) = .ok v := by
  obtain ⟨hmark, rest, hv, hend⟩ := parseChars_eq_ok.1 h
  refine parseChars_eq_ok.2 ⟨?_, normalizeLines rest, ?_, ?_⟩
  · intro hmark'
    obtain ⟨rest', hrest'⟩ := List.head?_eq_some_iff.1 hmark'
    obtain ⟨cs', rfl, -⟩ := of_normalizeLines_eq_cons (by decide) hrest'
    exact hmark rfl
  · rw [skipSpace_normalizeLines]
    exact hv.normalize
  · rw [skipSpace_normalizeLines, hend, normalizeLines]

theorem parse_eq_ok {s : String} {v : Value} : parse s = .ok v ↔ parseChars s.toList = .ok v := by
  rw [parse]
  cases parseChars s.toList with
  | ok v' => exact ⟨fun h => by cases h; rfl, fun h => by cases h; rfl⟩
  | error f => cases f <;> exact ⟨nofun, nofun⟩

theorem parse_normalizeLines {s : String} {v : Value} (h : parse s = .ok v) :
    parse (String.ofList (normalizeLines s.toList)) = .ok v := by
  rw [parse_eq_ok, String.toList_ofList]
  exact parseChars_normalizeLines (parse_eq_ok.1 h)

end Json

end ApiDiscovery
