import ApiDiscovery.Proofs.Places
import ApiDiscovery.Proofs.Replacing

/-!
# A file is replaced as a whole or not at all

Up to the last step of a replacement every file but the one beside is as it was, and what that one holds is told by
the step that begins (`Replacement.Ready`). The last step alone changes the file, and changes it at once. So whichever
step breaks off, and with however much of it done, only the file beside is to be taken away again.

    step that begins                  the file beside         if it breaks off
    makeDirectory, createBeside       as before: none         nothing is taken away
    openBeside, writeBeside           is empty                the file beside is taken away
    flush, sync, rename               has the new bytes       the file beside is taken away
    after rename                      none

A state of the files in the midst of a step is the state in which a step that breaks off there leaves them. So the
states of all runs, with any obstacles, are all the states that a reader can see.

Main statement: `Replacement.run_all_or_nothing`.
-/

namespace ApiDiscovery

namespace ReplaceStep

def next? : ReplaceStep → Option ReplaceStep
  | makeDirectory => some createBeside
  | createBeside => some openBeside
  | openBeside => some writeBeside
  | writeBeside => some flush
  | flush => some sync
  | sync => some rename
  | rename => none

/-- The steps from one on. -/
inductive Onwards : ReplaceStep → List ReplaceStep → Prop
  | last : Onwards rename [rename]
  | step {s s' : ReplaceStep} {rest : List ReplaceStep} : s.next? = some s' → Onwards s' rest → Onwards s (s :: rest)

theorem onwards_all : Onwards makeDirectory all :=
  .step rfl (.step rfl (.step rfl (.step rfl (.step rfl (.step rfl .last)))))

end ReplaceStep

/-! ## The name beside -/

open Files in
/-- The file beside is in the directory of the file, and has a name of its own there. -/
theorem Path.place_besideName_ne (p : Path) (k : Nat) : (p.parent.below [besideName p.name k]).place ≠ p.place := by
  have hdots : "..".length = 2 := rfl
  rw [Path.place_below _ (besideName_ne (by omega) k)]
  intro h
  have hnames : p.parent.place.names ++ [besideName p.name k] = p.names.foldl placeAfter [] :=
    congrArg FilePlace.names h
  rcases List.eq_nil_or_concat p.names with hnil | ⟨top, x, hconcat⟩
  · rw [hnil] at hnames
    exact List.append_ne_nil_of_right_ne_nil _ (List.cons_ne_nil _ _) hnames
  · rw [List.concat_eq_append] at hconcat
    have htop : p.parent.place.names = top.foldl placeAfter [] := by
      rw [Path.place, Path.parent, hconcat, List.dropLast_concat]
    have hname : p.name = x := by
      rw [Path.name, hconcat, List.getLast?_concat]
      rfl
    rw [htop, hname, hconcat, List.foldl_append] at hnames
    generalize top.foldl placeAfter [] = place at hnames
    have hlast : place ++ [besideName x k] = placeAfter place x := hnames
    rw [placeAfter] at hlast
    split at hlast
    next =>
      have hlength := congrArg List.length hlast
      rw [List.length_append, List.length_dropLast, List.length_singleton] at hlength
      omega
    next => exact besideName_ne (Nat.le_add_right _ _) k (List.cons.inj (List.append_cancel_left hlast)).1

namespace Replacement

open Files

variable {r : Replacement} {obstacles : Obstacles} {fs g g' : Files} {s s' : ReplaceStep} {f : FileFault}

/-- The name beside is not taken in the directory of the file, once that is there, and is not the file's own. -/
structure IsFresh (r : Replacement) (fs : Files) : Prop where
  ne : r.beside.place ≠ r.target.place
  free : ∀ made, fs.makeDirs r.target.parent = .ok made → made.bytesAt? r.beside.place = none

/-- The name that is chosen for the file beside is free. -/
theorem isFresh_replacement (fs : Files) (p : Path) (bytes : List UInt8) : (fs.replacement p bytes).IsFresh fs := by
  obtain ⟨k, -, hname, hfree⟩ := freshName_not_mem
    (((((fs.makeDirs p.parent).toOption.getD fs).list p.parent).toOption.getD []).map (·.1)) p.name
  have hbeside : (fs.replacement p bytes).beside = p.parent.below [ApiDiscovery.besideName p.name k] :=
    congrArg (fun b => p.parent.below [b]) hname
  have hdots : "..".length = 2 := rfl
  refine ⟨hbeside ▸ p.place_besideName_ne k, fun made hmade => ?_⟩
  have hmade : fs.makeDirs p.parent = .ok made := hmade
  rw [hmade] at hfree
  rw [hbeside, Path.place_below _ (besideName_ne (by omega) k)]
  show (made.treeAt p.parent.place.rooted).bytesAt? (p.parent.place.names ++ [ApiDiscovery.besideName p.name k]) = none
  rw [← tree_eq, Node.bytesAt?_append]
  cases hfound : (made.tree p.parent).find? p.parent.place.names with
  | none => rfl
  | some c =>
      cases c with
      | file held => rfl
      | dir es =>
          have hlist : made.list p.parent = .ok es := bind_eq_ok.2
            ⟨.dir es, node?_eq_ok.2 ⟨_, locate?_of_makeDirs hmade ⟨es, hfound⟩, hfound⟩, rfl⟩
          have hnone : lookupEntry (ApiDiscovery.besideName p.name k) es = none := by
            rw [lookupEntry_eq_none]
            simpa [Except.toOption, hlist] using hfree
          rw [Option.bind_some, Node.bytesAt?_cons, Node.entries, hnone]
          rfl

/-- What the file beside holds when a step begins, once it was made. -/
def held? (r : Replacement) : ReplaceStep → Option (List UInt8)
  | .makeDirectory | .createBeside => none
  | .openBeside | .writeBeside => some []
  | .flush | .sync | .rename => some r.bytes

theorem held?_eq_none (h : s.leavesBeside = false) : r.held? s = none := by
  cases s <;> first | rfl | cases h

theorem exists_held (h : s.leavesBeside = true) : ∃ held, r.held? s = some held := by
  cases s <;> first | exact ⟨_, rfl⟩ | cases h

/-- The files `g`, which were `fs` at first, when a step begins. -/
structure Ready (r : Replacement) (fs : Files) (s : ReplaceStep) (g : Files) : Prop where
  start : s = .makeDirectory → g = fs
  free : s ≠ .makeDirectory → fs.bytesAt? r.beside.place = none
  dirs : fs.DirsStay g
  files : ∀ q, g.bytesAt? q = if q = r.beside.place then (r.held? s).or (fs.bytesAt? q) else fs.bytesAt? q
  found : s.leavesBeside = true → g.locate? r.beside = .ok r.beside.place.names

/-- The files after a part of a step. -/
structure Broken (r : Replacement) (fs : Files) (s : ReplaceStep) (g : Files) : Prop where
  dirs : fs.DirsStay g
  others : ∀ q, q ≠ r.beside.place → g.bytesAt? q = fs.bytesAt? q
  untouched : s.leavesBeside = false → g.bytesAt? r.beside.place = fs.bytesAt? r.beside.place
  toClean : s.leavesBeside = true → fs.bytesAt? r.beside.place = none ∧
    g.locate? r.beside = .ok r.beside.place.names ∧ ∃ held, g.bytesAt? r.beside.place = some held

/-- All files are as they were, but one beside may stay where it cannot be taken away. -/
structure Undone (r : Replacement) (obstacles : Obstacles) (fs g : Files) : Prop where
  others : ∀ q, q ≠ r.beside.place → g.bytesAt? q = fs.bytesAt? q
  beside : obstacles.atCleanUp = false → g.bytesAt? r.beside.place = fs.bytesAt? r.beside.place

/-- The file has the new bytes, and all others are as they were. -/
structure Done (r : Replacement) (fs g : Files) : Prop where
  found : g.locate? r.target = .ok r.target.place.names
  free : fs.bytesAt? r.beside.place = none
  files : ∀ q, g.bytesAt? q = if q = r.target.place then some r.bytes else fs.bytesAt? q

/-- No part of the new bytes is seen without the rest. -/
structure Whole (r : Replacement) (fs g : Files) : Prop where
  dirs : fs.DirsStay g
  others : ∀ q, q ≠ r.beside.place → q ≠ r.target.place → g.bytesAt? q = fs.bytesAt? q
  target : g.bytesAt? r.target.place = fs.bytesAt? r.target.place ∨ g.bytesAt? r.target.place = some r.bytes

/-! ## One step -/

theorem names_beside (r : Replacement) : r.beside.names = r.target.parent.names ++ [r.besideName] := rfl

theorem Ready.first (r : Replacement) (fs : Files) : r.Ready fs .makeDirectory fs where
  start _ := rfl
  free h := absurd rfl h
  dirs := .refl fs
  files q := by
    split
    · exact (Option.none_or).symm
    · rfl
  found h := nomatch h

/-- What is written beside is what the file beside holds when the next step begins. -/
theorem Ready.of_write (hg : r.Ready fs s g) (hs : s ≠ .makeDirectory) {bytes : List UInt8}
    (hwrite : g.write r.beside bytes = .ok g') (hs' : s' ≠ .makeDirectory) (hheld : r.held? s' = some bytes) :
    r.Ready fs s' g' := by
  obtain ⟨hplace, hdirs, hbytes⟩ := Files.of_write hwrite
  refine ⟨fun h => absurd h hs', fun _ => hg.free hs, hg.dirs.trans hdirs, fun q => ?_, fun _ => hdirs.locate? hplace⟩
  rw [hbytes, hheld, hg.files]
  split <;> rfl

/-- What a step before the last leaves is what the next one begins with. -/
theorem Ready.step (hfresh : r.IsFresh fs) (hg : r.Ready fs s g) (hnext : s.next? = some s')
    (hstep : r.step g s = .ok g') : r.Ready fs s' g' := by
  cases s with
  | makeDirectory =>
      cases hnext
      cases hg.start rfl
      obtain ⟨hdirs, hbytes⟩ := of_makeDirs hstep
      refine ⟨nofun, fun _ => ?_, hdirs, fun q => ?_, nofun⟩
      · exact (hbytes _).symm.trans (hfresh.free g' hstep)
      · rw [hbytes]
        exact (Ready.first r fs).files q
  | createBeside =>
      cases hnext
      exact hg.of_write nofun hstep nofun rfl
  | writeBeside =>
      cases hnext
      exact hg.of_write nofun hstep nofun rfl
  | openBeside | flush | sync =>
      cases hnext
      cases hstep
      exact ⟨nofun, fun _ => hg.free nofun, hg.dirs, hg.files, fun _ => hg.found rfl⟩
  | rename => cases hnext

/-- The last step puts the new bytes in the place of the file. -/
theorem Ready.rename (hfresh : r.IsFresh fs) (hg : r.Ready fs .rename g) (hstep : r.step g .rename = .ok g') :
    r.Done fs g' ∧ r.Whole fs g' := by
  have hfree := hg.free nofun
  have hheld : g.bytesAt? r.beside.place = some r.bytes := by
    rw [hg.files, if_pos rfl]
    rfl
  obtain ⟨hplace, hdirs, hbytes⟩ := of_move hstep hfresh.ne
  have hfiles : ∀ q, g'.bytesAt? q = if q = r.target.place then some r.bytes else fs.bytesAt? q := by
    intro q
    rw [hbytes, hheld]
    by_cases hbeside : q = r.beside.place
    · subst hbeside
      rw [if_pos rfl, if_neg hfresh.ne, hfree]
    · rw [if_neg hbeside, hg.files, if_neg hbeside]
  refine ⟨⟨hplace, hfree, hfiles⟩, hg.dirs.trans hdirs, fun q _ hq => ?_, .inr ?_⟩
  · rw [hfiles, if_neg hq]
  · rw [hfiles, if_pos rfl]

/-! ## A step that breaks off -/

/-- Where nothing of a step is done, the files are as the step began. -/
theorem Ready.broken (hg : r.Ready fs s g) : r.Broken fs s g where
  dirs := hg.dirs
  others q hq := by rw [hg.files, if_neg hq]
  untouched h := by rw [hg.files, if_pos rfl, held?_eq_none h, Option.none_or]
  toClean h := by
    obtain ⟨held, hheld⟩ := exists_held (r := r) h
    have hs : s ≠ .makeDirectory := by
      rintro rfl
      cases h
    exact ⟨hg.free hs, hg.found h, held, by rw [hg.files, if_pos rfl, hheld, Option.some_or]⟩

theorem of_makeSome (fs : Files) (p : Path) (n : Nat) :
    fs.DirsStay (makeSome fs p n) ∧ ∀ q, (makeSome fs p n).bytesAt? q = fs.bytesAt? q := by
  induction n with
  | zero => exact ⟨.refl fs, fun _ => rfl⟩
  | succ n ih =>
      rw [makeSome]
      split
      next made hmade => exact of_makeDirs hmade
      next => exact ih

/-- Bytes that were written beside in part change no other file. -/
theorem Ready.broken_write (hg : r.Ready fs s g) (hs : s.leavesBeside = true) (bytes : List UInt8) :
    r.Broken fs s ((g.write r.beside bytes).toOption.getD g) := by
  cases hwrite : g.write r.beside bytes with
  | error f => exact hg.broken
  | ok g' =>
      obtain ⟨hplace, hdirs, hbytes⟩ := Files.of_write hwrite
      refine ⟨hg.dirs.trans hdirs, fun q hq => ?_, fun h => ?_, fun _ => ?_⟩
      · exact ((hbytes q).trans (if_neg hq)).trans (hg.broken.others q hq)
      · rw [hs] at h
        cases h
      · exact ⟨(hg.broken.toClean hs).1, hdirs.locate? hplace, bytes, (hbytes _).trans (if_pos rfl)⟩

/-- However much of a step is done, no file but the one beside is changed by it. -/
theorem Ready.begun (hg : r.Ready fs s g) (n : Nat) : r.Broken fs s (r.begun g n s) := by
  cases s with
  | makeDirectory =>
      cases hg.start rfl
      obtain ⟨hdirs, hbytes⟩ := of_makeSome fs r.target.parent n
      exact ⟨hdirs, fun q _ => hbytes q, fun _ => hbytes _, nofun⟩
  | writeBeside | flush => exact hg.broken_write rfl _
  | createBeside | openBeside | sync | rename => exact hg.broken

/-- An attempt takes the step, or leaves a part of it done. -/
theorem of_attempt_eq_error (h : r.attempt obstacles g s = .error (f, g')) : ∃ n, g' = r.begun g n s := by
  rw [attempt] at h
  split at h
  next o ho =>
    cases h
    exact ⟨_, rfl⟩
  next =>
    cases hstep : r.step g s with
    | ok after =>
        rw [hstep] at h
        cases h
    | error f' =>
        rw [hstep] at h
        cases h
        exact ⟨_, rfl⟩

theorem Broken.whole (hfresh : r.IsFresh fs) (h : r.Broken fs s g) : r.Whole fs g :=
  ⟨h.dirs, fun q hq _ => h.others q hq, .inl (h.others _ hfresh.ne.symm)⟩

/-- Taking away the file beside undoes what was done. -/
theorem Broken.cleanUp (hfresh : r.IsFresh fs) (h : r.Broken fs s g) (hs : s.leavesBeside = true)
    (obstacles : Obstacles) :
    r.Undone obstacles fs (r.cleanUp obstacles g) ∧ r.Whole fs (r.cleanUp obstacles g) := by
  obtain ⟨hfree, hplace, held, hheld⟩ := h.toClean hs
  cases hkept : obstacles.atCleanUp with
  | true =>
      have hsame : r.cleanUp obstacles g = g := if_pos hkept
      rw [hsame]
      refine ⟨⟨h.others, fun hno => ?_⟩, h.whole hfresh⟩
      rw [hkept] at hno
      cases hno
  | false =>
      have hnames : r.beside.names ≠ [] := by
        rw [names_beside]
        exact List.append_ne_nil_of_right_ne_nil _ (List.cons_ne_nil _ _)
      obtain ⟨after, hafter⟩ := exists_remove hplace hheld hnames
      have hcleaned : r.cleanUp obstacles g = after := by
        rw [Replacement.cleanUp, hkept, hafter]
        rfl
      obtain ⟨hdirs, hbytes⟩ := Files.of_remove hafter hheld
      have hothers : ∀ q, q ≠ r.beside.place → after.bytesAt? q = fs.bytesAt? q := fun q hq =>
        ((hbytes q).trans (if_neg hq)).trans (h.others q hq)
      rw [hcleaned]
      refine ⟨⟨hothers, fun _ => ((hbytes _).trans (if_pos rfl)).trans hfree.symm⟩, h.dirs.trans hdirs, ?_, .inl ?_⟩
      · exact fun q hq _ => hothers q hq
      · exact hothers _ hfresh.ne.symm

/-! ## All steps -/

/-- What steps come to: their result, and the states of the files at them. -/
structure Outcome (r : Replacement) (obstacles : Obstacles) (fs : Files) (result : Except FileFault Unit)
    (states : List Files) : Prop where
  returned : result = .ok () → ∃ g, states.getLast? = some g ∧ r.Done fs g
  raised : ∀ f, result = .error f → ∃ g, states.getLast? = some g ∧ r.Undone obstacles fs g
  whole : ∀ g ∈ states, r.Whole fs g

theorem Outcome.cons {result : Except FileFault Unit} {states : List Files}
    (h : r.Outcome obstacles fs result states) (hg : r.Whole fs g) : r.Outcome obstacles fs result (g :: states) := by
  have hlast {after : Files} (hafter : states.getLast? = some after) : (g :: states).getLast? = some after := by
    rw [List.getLast?_cons, hafter]
    rfl
  refine ⟨fun hresult => ?_, fun f hresult => ?_, List.forall_mem_cons.2 ⟨hg, h.whole⟩⟩
  · obtain ⟨after, hafter, hdone⟩ := h.returned hresult
    exact ⟨after, hlast hafter, hdone⟩
  · obtain ⟨after, hafter, hundone⟩ := h.raised f hresult
    exact ⟨after, hlast hafter, hundone⟩

/-- Where a step breaks off, no steps follow but the clean-up. -/
theorem outcome_of_broken (hfresh : r.IsFresh fs) (h : r.Broken fs s g) :
    r.Outcome obstacles fs (.error f) (g :: if s.leavesBeside then [r.cleanUp obstacles g] else []) := by
  cases hs : s.leavesBeside with
  | true =>
      obtain ⟨hundone, hwhole⟩ := h.cleanUp hfresh hs obstacles
      refine Outcome.cons ⟨nofun, fun _ _ => ⟨_, rfl, hundone⟩, ?_⟩ (h.whole hfresh)
      exact List.forall_mem_singleton.2 hwhole
  | false =>
      refine ⟨nofun, fun _ _ => ⟨g, rfl, h.others, fun _ => h.untouched hs⟩, ?_⟩
      exact List.forall_mem_singleton.2 (h.whole hfresh)

/-- The steps from one on, where the files are ready for it. -/
theorem outcome_runSteps (hfresh : r.IsFresh fs) {steps : List ReplaceStep} (hsteps : s.Onwards steps)
    (hg : r.Ready fs s g) :
    r.Outcome obstacles fs (r.runSteps obstacles steps g).1 (r.runSteps obstacles steps g).2 := by
  induction hsteps generalizing g with
  | last =>
      rw [runSteps]
      cases hattempt : r.attempt obstacles g .rename with
      | error broken =>
          obtain ⟨n, hn⟩ := of_attempt_eq_error hattempt
          exact outcome_of_broken hfresh (hn ▸ hg.begun n)
      | ok after =>
          obtain ⟨hdone, hwhole⟩ := hg.rename hfresh (attempt_eq_ok.1 hattempt).2
          refine ⟨fun _ => ⟨after, rfl, hdone⟩, fun f hf => ?_, List.forall_mem_singleton.2 hwhole⟩
          cases hf
  | @step s s' rest hnext _ ih =>
      rw [runSteps]
      cases hattempt : r.attempt obstacles g s with
      | error broken =>
          obtain ⟨n, hn⟩ := of_attempt_eq_error hattempt
          exact outcome_of_broken hfresh (hn ▸ hg.begun n)
      | ok after =>
          have hafter := hg.step hfresh hnext (attempt_eq_ok.1 hattempt).2
          exact (ih hafter).cons (hafter.broken.whole hfresh)

/-- What one reads of the file, in a state in which no part of the new bytes is seen without the rest. -/
theorem Whole.read (h : r.Whole fs g) {old : List UInt8} (hread : fs.read r.target = .ok old) :
    g.read r.target = .ok old ∨ g.read r.target = .ok r.bytes := by
  obtain ⟨hplace, hold⟩ := read_eq_ok.1 hread
  have hplace' := h.dirs.locate? hplace
  rcases h.target with htarget | htarget
  · exact .inl (read_eq_ok.2 ⟨hplace', htarget.trans hold⟩)
  · exact .inr (read_eq_ok.2 ⟨hplace', htarget⟩)

/-- A replacement returns where no step breaks off and the files allow each step (`run_eq_ok`). They do in a directory
that is there, where no directory stands in the place of the file and the names that are tried beside it are not too
long. -/
theorem run_returns {p : Path} {es : List (String × Node)} {x : String} (hdir : fs.node? p = .ok (.dir es))
    (hx : x ≠ "..") (hfits : Fits x) (hfile : NoDir x es)
    (hbeside : ∀ k ≤ es.length, Fits (ApiDiscovery.besideName x k))
    (bytes : List UInt8) (hclear : ∀ s, obstacles.atStep s = none) :
    ∃ fs', (fs.replacement (p.below [x]) bytes).run obstacles fs = (.ok (), fs') := by
  obtain ⟨fs', hreplace⟩ := exists_replace hdir hx hfits hfile hbeside bytes
  obtain ⟨-, hsteps⟩ := run_eq_ok.1 hreplace
  exact ⟨fs', run_eq_ok.2 ⟨hclear, hsteps⟩⟩

/-- A replacement with a name beside that is free, as the one that is chosen is (`isFresh_replacement`), whatever
breaks its steps off. If it returns, the file has all of the new bytes, every other file is as it was, and none is left
beside. If it raises, every file is as it was and none is left beside, unless the clean-up is kept from happening; then
the one beside is all that may be left. In every state of the files meanwhile the file is as it was or has all of the
new bytes, and any other one is as it was. -/
theorem run_all_or_nothing (hfresh : r.IsFresh fs) (obstacles : Obstacles) :
    ((r.run obstacles fs).1 = .ok () →
      (r.run obstacles fs).2.read r.target = .ok r.bytes ∧ (r.run obstacles fs).2.bytesAt? r.beside.place = none ∧
      ∀ q, q ≠ r.target.place → (r.run obstacles fs).2.bytesAt? q = fs.bytesAt? q) ∧
    (∀ f, (r.run obstacles fs).1 = .error f →
      (∀ q, q ≠ r.beside.place → (r.run obstacles fs).2.bytesAt? q = fs.bytesAt? q) ∧
      (obstacles.atCleanUp = false →
        (r.run obstacles fs).2.bytesAt? r.beside.place = fs.bytesAt? r.beside.place ∧
        ∀ made, fs.makeDirs r.target.parent = .ok made → (r.run obstacles fs).2.bytesAt? r.beside.place = none)) ∧
    ∀ g ∈ (r.runSteps obstacles ReplaceStep.all fs).2,
      (∀ q, q ≠ r.beside.place → q ≠ r.target.place → g.bytesAt? q = fs.bytesAt? q) ∧
      (g.bytesAt? r.target.place = fs.bytesAt? r.target.place ∨ g.bytesAt? r.target.place = some r.bytes) ∧
      ∀ old, fs.read r.target = .ok old → g.read r.target = .ok old ∨ g.read r.target = .ok r.bytes := by
  have houtcome : r.Outcome obstacles fs (r.runSteps obstacles ReplaceStep.all fs).1 _ :=
    outcome_runSteps hfresh ReplaceStep.onwards_all (Ready.first r fs)
  have hlast {g : Files} (hg : (r.runSteps obstacles ReplaceStep.all fs).2.getLast? = some g) :
      (r.run obstacles fs).2 = g := by
    show (r.runSteps obstacles ReplaceStep.all fs).2.getLast?.getD fs = g
    rw [hg]
    rfl
  refine ⟨fun hreturned => ?_, fun f hraised => ?_, fun g hg => ?_⟩
  · obtain ⟨g, hg, hdone⟩ := houtcome.returned hreturned
    rw [hlast hg]
    refine ⟨read_eq_ok.2 ⟨hdone.found, (hdone.files _).trans (if_pos rfl)⟩, ?_, fun q hq => ?_⟩
    · rw [hdone.files, if_neg hfresh.ne, hdone.free]
    · rw [hdone.files, if_neg hq]
  · obtain ⟨g, hg, hundone⟩ := houtcome.raised f hraised
    rw [hlast hg]
    refine ⟨hundone.others, fun hclean => ⟨hundone.beside hclean, fun made hmade => ?_⟩⟩
    exact (hundone.beside hclean).trans (((of_makeDirs hmade).2 _).symm.trans (hfresh.free made hmade))
  · have hwhole := houtcome.whole g hg
    exact ⟨hwhole.others, hwhole.target, fun old hold => hwhole.read hold⟩

/-- The new bytes break off after the first of them, and this is seen beside the file only. -/
theorem run_all_or_nothing_cut :
    let fs : Files := { root := .dir [("notes", .dir [("a", .file [1])])] }
    let r := fs.replacement ⟨"/", ["notes", "a"]⟩ [2, 3]
    let obstacles : Obstacles := { atStep := fun s => if s = .flush then some ⟨.notFound, 1⟩ else none }
    (r.run obstacles fs).1 = .error .notFound ∧
      (∃ g ∈ (r.runSteps obstacles ReplaceStep.all fs).2, g.bytesAt? r.beside.place = some [2]) ∧
      ∀ q, (r.run obstacles fs).2.bytesAt? q = fs.bytesAt? q := by
  intro fs r obstacles
  have hraised : (r.run obstacles fs).1 = .error .notFound := by
    dsimp only [r, obstacles, fs]
    rfl
  obtain ⟨-, hundone, -⟩ := run_all_or_nothing (isFresh_replacement fs ⟨"/", ["notes", "a"]⟩ [2, 3]) obstacles
  obtain ⟨hothers, hclean⟩ := hundone _ hraised
  refine ⟨hraised, ?_, fun q => ?_⟩
  · have hstates : ((r.runSteps obstacles ReplaceStep.all fs).2.map fun g => g.bytesAt? r.beside.place) =
        [none, some [], some [], some [2, 3], some [2], none] := by
      dsimp only [r, obstacles, fs]
      rfl
    have hmem : some [2] ∈ (r.runSteps obstacles ReplaceStep.all fs).2.map fun g => g.bytesAt? r.beside.place := by
      rw [hstates]
      decide
    exact List.mem_map.1 hmem
  · by_cases hq : q = r.beside.place
    · subst hq
      exact (hclean rfl).1
    · exact hothers q hq

end Replacement

end ApiDiscovery
