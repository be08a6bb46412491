import ApiDiscovery.Files.Replace
import ApiDiscovery.Proofs.Directories
import ApiDiscovery.Proofs.Numerals

/-!
# Replacing a file

A replacement writes the file beside under a name that is not taken (`freshName_not_mem`) and moves it to the place of
the file. So it succeeds where the directory is there and no directory stands in the file's place
(`Files.exists_replace`), and where it succeeded the file has the new bytes (`Files.node?_of_replace`).
-/

namespace ApiDiscovery

open Text

/-! ## Replacements -/

namespace Replacement

variable {r : Replacement}

theorem attempt_eq_ok {obstacles : Obstacles} {fs fs' : Files} {s : ReplaceStep} :
    r.attempt obstacles fs s = .ok fs' ↔ obstacles.atStep s = none ∧ r.step fs s = .ok fs' := by
  rw [attempt]
  cases obstacles.atStep s with
  | some o => exact ⟨nofun, fun h => nomatch h.1⟩
  | none =>
      cases r.step fs s with
      | error f => exact ⟨nofun, fun h => nomatch h.2⟩
      | ok after =>
          exact ⟨fun h => ⟨rfl, congrArg Except.ok (Except.ok.inj h)⟩, fun h => congrArg Except.ok (Except.ok.inj h.2)⟩

/-- Where nothing stands in the way, the steps happen one after the other, and the last leaves the files. -/
theorem runSteps_eq_ok {obstacles : Obstacles} {steps : List ReplaceStep} {fs fs' : Files} :
    ((r.runSteps obstacles steps fs).1 = .ok () ∧ (r.runSteps obstacles steps fs).2.getLast?.getD fs = fs') ↔
      (∀ s ∈ steps, obstacles.atStep s = none) ∧ steps.foldlM r.step fs = .ok fs' := by
  induction steps generalizing fs with
  | nil => exact ⟨fun h => ⟨nofun, congrArg Except.ok h.2⟩, fun h => ⟨rfl, Except.ok.inj h.2⟩⟩
  | cons s rest ih =>
      rw [List.foldlM_cons, List.forall_mem_cons, runSteps]
      cases hattempt : r.attempt obstacles fs s with
      | error broken =>
          constructor
          · rintro ⟨h, -⟩
            cases h
          · rintro ⟨⟨hnone, -⟩, h⟩
            obtain ⟨after, hstep, -⟩ := bind_eq_ok.1 h
            rw [attempt_eq_ok.2 ⟨hnone, hstep⟩] at hattempt
            cases hattempt
      | ok after =>
          obtain ⟨hnone, hstep⟩ := attempt_eq_ok.1 hattempt
          rw [hstep, ok_bind, and_iff_right hnone, ← ih]
          refine and_congr_right fun _ => ?_
          dsimp only
          rw [List.getLast?_cons]
          rfl

/-- A replacement returns if and only if no step breaks off and the files allow each step. -/
theorem run_eq_ok {obstacles : Obstacles} {fs fs' : Files} : r.run obstacles fs = (.ok (), fs') ↔
    (∀ s, obstacles.atStep s = none) ∧ ReplaceStep.all.foldlM r.step fs = .ok fs' := by
  have hall : (∀ s ∈ ReplaceStep.all, obstacles.atStep s = none) ↔ ∀ s, obstacles.atStep s = none := by
    refine ⟨fun h s => h s ?_, fun h s _ => h s⟩
    cases s <;> decide
  rw [← hall, ← runSteps_eq_ok, run]
  exact Prod.ext_iff

end Replacement

/-! ## The name beside -/

/-- The names that are tried for the file beside. -/
def besideName (name : String) (i : Nat) : String := "." ++ name ++ "." ++ toString i ++ ".tmp"

theorem besideName_injective (name : String) : Function.Injective (besideName name) := by
  intro i j h
  have hlist := congrArg String.toList h
  simp only [besideName, String.toList_append, List.append_cancel_right_eq, List.append_cancel_left_eq] at hlist
  have hdigits : Nat.toDigits 10 i = Nat.toDigits 10 j := by
    simpa only [Nat.toString_eq_ofList_toDigits, String.toList_ofList] using hlist
  rw [← Number.decimalDigits_toDigits i, hdigits, Number.decimalDigits_toDigits]

theorem besideName_ne {name y : String} (h : y.length ≤ name.length + 5) (k : Nat) : besideName name k ≠ y := by
  rintro rfl
  simp only [besideName, String.length_append] at h
  have hdot : ".".length = 1 := rfl
  have htmp : ".tmp".length = 4 := rfl
  omega

theorem length_encode_digits {ds : List Char} (h : ∀ c ∈ ds, c.isDigit = true) :
    (Utf8.encode ds).length = ds.length := by
  induction ds with
  | nil => rfl
  | cons c ds ih =>
      have hc := h c List.mem_cons_self
      rw [Char.isDigit, Bool.and_eq_true, decide_eq_true_eq, decide_eq_true_eq] at hc
      have hle : c.toNat ≤ 57 := hc.2
      have hone : Utf8.encodeChar c = [UInt8.ofNat c.toNat] := if_pos (by omega)
      rw [Utf8.encode, List.flatMap_cons, hone, List.length_append, List.length_singleton, List.length_cons,
        Nat.add_comm, ← ih fun d hd => h d (List.mem_cons_of_mem c hd)]
      rfl

/-- How long a name beside is. -/
theorem length_encode_besideName (name : String) (k : Nat) :
    (Utf8.encode (besideName name k).toList).length =
      (Utf8.encode name.toList).length + Number.digitCount k + 6 := by
  have hdigits : (Utf8.encode (toString k).toList).length = Number.digitCount k := by
    rw [Nat.toString_eq_ofList_toDigits, String.toList_ofList]
    exact length_encode_digits fun c hc => Number.isDigit_of_mem_toDigits hc
  have hdot : (Utf8.encode ".".toList).length = 1 := rfl
  have htmp : (Utf8.encode ".tmp".toList).length = 4 := rfl
  simp only [besideName, Files.length_encode_append, hdigits, hdot, htmp]
  omega

/-- The name that is taken is one of those, and if it was used before then so were all that were tried. -/
theorem freshName_spec (taken : List String) (name : String) (fuel i : Nat) :
    ∃ k ≤ i + fuel, freshName taken name fuel i = besideName name k ∧
      (besideName name k ∈ taken → ∀ j, i ≤ j → j ≤ i + fuel → besideName name j ∈ taken) := by
  induction fuel generalizing i with
  | zero =>
      refine ⟨i, Nat.le_refl _, rfl, fun htaken j hlow hhigh => ?_⟩
      rw [Nat.le_antisymm hhigh hlow]
      exact htaken
  | succ fuel ih =>
      have hstep : freshName taken name (fuel + 1) i =
          if taken.contains (besideName name i) then freshName taken name fuel (i + 1) else besideName name i := rfl
      rw [hstep]
      split
      next htaken =>
        rw [List.contains_iff_mem] at htaken
        obtain ⟨k, hk, hname, hall⟩ := ih (i + 1)
        refine ⟨k, by omega, hname, fun hused j hlow hhigh => ?_⟩
        rcases Nat.eq_or_lt_of_le hlow with rfl | hlow
        · exact htaken
        · exact hall hused j hlow (by omega)
      next hfree =>
        rw [List.contains_iff_mem] at hfree
        exact ⟨i, Nat.le_add_right _ _, rfl, fun hused => absurd hused hfree⟩

/-- As many names are tried as are taken, and one more: not all of them can be. -/
theorem freshName_not_mem (taken : List String) (name : String) :
    ∃ k ≤ taken.length, freshName taken name taken.length 0 = besideName name k ∧ besideName name k ∉ taken := by
  obtain ⟨k, hk, hname, hall⟩ := freshName_spec taken name taken.length 0
  rw [Nat.zero_add] at hk hall
  refine ⟨k, hk, hname, fun hused => ?_⟩
  have hsubset : (List.range (taken.length + 1)).map (besideName name) ⊆ taken := by
    intro x hx
    obtain ⟨j, hj, rfl⟩ := List.mem_map.1 hx
    exact hall hused j (Nat.zero_le j) (Nat.le_of_lt_succ (List.mem_range.1 hj))
  have hdistinct := List.nodup_range.map (besideName_injective name) (l := List.range (taken.length + 1))
  have hlength := (List.subperm_of_subset hdistinct hsubset).length_le
  rw [List.length_map, List.length_range] at hlength
  exact absurd hlength (Nat.not_succ_le_self _)

/-! ## One file in its directory -/

theorem lookupEntry_setEntry_self (x : String) (a : α) (es : List (String × α)) :
    lookupEntry x (setEntry x a es) = some a := by
  rw [lookupEntry_setEntry, if_pos rfl]

theorem Path.parent_below (p : Path) (x : String) : (p.below [x]).parent = p :=
  congrArg (Path.mk p.anchor) List.dropLast_concat

theorem Path.name_below (p : Path) (x : String) : (p.below [x]).name = x := by
  have hlast : (p.names ++ [x]).getLast? = some x := List.getLast?_concat
  show (p.names ++ [x]).getLast?.getD "" = x
  rw [hlast]
  rfl

section Moving

open Files

variable {fs fs' : Files} {p : Path} {es : List (String × Node)} {x b : String} {bytes : List UInt8}

/-- A file can be moved within its directory, to where no directory is. -/
theorem Files.move_below (h : fs.node? p = .ok (.dir es)) (hb : b ≠ "..") (hx : x ≠ "..") (hne : b ≠ x)
    (hbfits : Fits b) (hxfits : Fits x) (hfile : lookupEntry b es = some (.file bytes)) (hxfile : NoDir x es) :
    ∃ fs', fs.move (p.below [b]) (p.below [x]) = .ok fs' ∧
      fs'.node? p = .ok (.dir ((setEntry x (.file bytes) es).filter fun e => e.1 != b)) := by
  have hread : fs.read (p.below [b]) = .ok bytes :=
    bind_eq_ok.2 ⟨.file bytes, (node?_below hb).2 ⟨es, h, hbfits, hfile⟩, rfl⟩
  obtain ⟨fs₁, hwrite, h₁⟩ := write_below h hx hxfits hxfile bytes
  have hstays : lookupEntry b (setEntry x (.file bytes) es) = some (.file bytes) := by
    rw [lookupEntry_setEntry, if_neg hne.symm, hfile]
  obtain ⟨fs₂, hremove, h₂⟩ := remove_below h₁ hb hbfits hstays
  exact ⟨fs₂, bind_eq_ok.2 ⟨bytes, hread, bind_eq_ok.2 ⟨fs₁, hwrite, hremove⟩⟩, h₂⟩

/-- Where a file was moved nothing stood in the way. -/
theorem Files.of_move_below (h : fs.node? p = .ok (.dir es)) (hb : b ≠ "..") (hx : x ≠ "..") (hne : b ≠ x)
    (hfile : lookupEntry b es = some (.file bytes)) (hmove : fs.move (p.below [b]) (p.below [x]) = .ok fs') :
    Fits x ∧ fs'.node? p = .ok (.dir ((setEntry x (.file bytes) es).filter fun e => e.1 != b)) := by
  obtain ⟨held, hread, hrest⟩ := bind_eq_ok.1 hmove
  obtain ⟨fs₁, hwrite, -⟩ := bind_eq_ok.1 hrest
  obtain ⟨n, hnode, -⟩ := bind_eq_ok.1 hread
  obtain ⟨-, -, hbfits, -⟩ := (node?_below hb).1 hnode
  obtain ⟨hxfits, hxfile, -⟩ := of_write_below h hx hwrite
  obtain ⟨after, hafter, hes⟩ := move_below h hb hx hne hbfits hxfits hfile hxfile
  rw [hmove] at hafter
  cases hafter
  exact ⟨hxfits, hes⟩

end Moving

namespace Replacement

open Files

variable {fs fs' : Files} {p : Path} {es : List (String × Node)} {x b : String}

theorem beside_below (p : Path) (x b : String) (bytes : List UInt8) :
    (mk (p.below [x]) b bytes).beside = p.below [b] := by
  show (p.below [x]).parent.join ⟨"", [b]⟩ = _
  rw [Path.parent_below]
  rfl

/-- What the steps come to where the directory is there. -/
theorem foldlM_step_eq_ok (h : fs.node? p = .ok (.dir es)) {bytes : List UInt8} :
    ReplaceStep.all.foldlM (mk (p.below [x]) b bytes).step fs = .ok fs' ↔
      ∃ fs₁, fs.write (p.below [b]) [] = .ok fs₁ ∧ ∃ fs₂, fs₁.write (p.below [b]) bytes = .ok fs₂ ∧
        fs₂.move (p.below [b]) (p.below [x]) = .ok fs' := by
  simp only [ReplaceStep.all, List.foldlM_cons, List.foldlM_nil, step, beside_below, Path.parent_below,
    makeDirs_self h, ok_bind, bind_eq_ok, pure, Except.pure, Except.ok.injEq, exists_eq_right]

/-- The steps can be taken where nothing stands in the way of the file and of the one beside it. -/
theorem exists_steps (h : fs.node? p = .ok (.dir es)) (hx : x ≠ "..") (hb : b ≠ "..") (hne : b ≠ x)
    (hxfits : Fits x) (hbfits : Fits b) (hxfile : NoDir x es) (hbfile : NoDir b es) (bytes : List UInt8) :
    ∃ fs', ReplaceStep.all.foldlM (mk (p.below [x]) b bytes).step fs = .ok fs' := by
  obtain ⟨fs₁, hcreate, h₁⟩ := write_below h hb hbfits hbfile []
  obtain ⟨fs₂, hwrite, h₂⟩ := write_below h₁ hb hbfits hbfile.setEntry bytes
  obtain ⟨fs₃, hmove, -⟩ :=
    move_below h₂ hb hx hne hbfits hxfits (lookupEntry_setEntry_self ..) hxfile.setEntry.setEntry
  exact ⟨fs₃, (foldlM_step_eq_ok h).2 ⟨fs₁, hcreate, fs₂, hwrite, hmove⟩⟩

/-- Where the steps were taken the directory has the new bytes under the name of the file. -/
theorem of_steps (h : fs.node? p = .ok (.dir es)) (hx : x ≠ "..") (hb : b ≠ "..") (hne : b ≠ x) {bytes : List UInt8}
    (hsteps : ReplaceStep.all.foldlM (mk (p.below [x]) b bytes).step fs = .ok fs') :
    fs'.node? (p.below [x]) = .ok (.file bytes) := by
  obtain ⟨fs₁, hcreate, fs₂, hwrite, hmove⟩ := (foldlM_step_eq_ok h).1 hsteps
  obtain ⟨-, -, h₁⟩ := of_write_below h hb hcreate
  obtain ⟨-, -, h₂⟩ := of_write_below h₁ hb hwrite
  obtain ⟨hxfits, h₃⟩ := of_move_below h₂ hb hx hne (lookupEntry_setEntry_self ..) hmove
  refine (node?_below hx).2 ⟨_, h₃, hxfits, ?_⟩
  rw [lookupEntry_filter_ne hne, lookupEntry_setEntry, if_pos rfl]

end Replacement

/-! ## Replaced files -/

namespace Files

variable {fs fs' : Files} {p : Path} {es : List (String × Node)} {x : String} {bytes : List UInt8}

theorem replace_below (h : fs.node? p = .ok (.dir es)) (x : String) (bytes : List UInt8) :
    ∃ k ≤ es.length, besideName x k ∉ es.map (·.1) ∧ ∀ fs', fs.replace (p.below [x]) bytes = (.ok (), fs') ↔
      ReplaceStep.all.foldlM (Replacement.mk (p.below [x]) (besideName x k) bytes).step fs = .ok fs' := by
  have hlist : fs.list p = .ok es := bind_eq_ok.2 ⟨.dir es, h, rfl⟩
  obtain ⟨k, hk, hname, hfree⟩ := freshName_not_mem (es.map (·.1)) x
  rw [List.length_map] at hk
  refine ⟨k, hk, hfree, fun fs' => ?_⟩
  have hrun : fs.replace (p.below [x]) bytes =
      (Replacement.mk (p.below [x]) (freshName (es.map (·.1)) x (es.map (·.1)).length 0) bytes).run {} fs := by
    have hmade : (fs.makeDirs p).toOption.getD fs = fs := by
      rw [makeDirs_self h]
      rfl
    rw [replace, replacement, Path.parent_below, Path.name_below, hmade, hlist]
    rfl
  rw [hrun, hname, Replacement.run_eq_ok, and_iff_right fun _ => rfl]

/-- A file that was replaced has the new bytes. -/
theorem node?_of_replace (h : fs.node? p = .ok (.dir es)) (hx : x ≠ "..")
    (hreplace : fs.replace (p.below [x]) bytes = (.ok (), fs')) : fs'.node? (p.below [x]) = .ok (.file bytes) := by
  obtain ⟨k, -, -, hsteps⟩ := replace_below h x bytes
  have hdots : "..".length = 2 := rfl
  exact Replacement.of_steps h hx (besideName_ne (by omega) k) (besideName_ne (Nat.le_add_right _ _) k)
    ((hsteps fs').1 hreplace)

/-- A file can be replaced where no directory stands in its place and the names that are tried beside it are not too
long. -/
theorem exists_replace (h : fs.node? p = .ok (.dir es)) (hx : x ≠ "..") (hfits : Fits x) (hfile : NoDir x es)
    (hbeside : ∀ k ≤ es.length, Fits (besideName x k)) (bytes : List UInt8) :
    ∃ fs', fs.replace (p.below [x]) bytes = (.ok (), fs') := by
  obtain ⟨k, hk, hfree, hsteps⟩ := replace_below h x bytes
  have hdots : "..".length = 2 := rfl
  have hnone : NoDir (besideName x k) es := fun es' hes' => by
    rw [lookupEntry_eq_none.2 hfree] at hes'
    cases hes'
  obtain ⟨fs', hfs'⟩ := Replacement.exists_steps h hx (besideName_ne (by omega) k)
    (besideName_ne (Nat.le_add_right _ _) k) hfits (hbeside k hk) hfile hnone bytes
  exact ⟨fs', (hsteps fs').2 hfs'⟩

end Files

end ApiDiscovery
