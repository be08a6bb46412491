import ApiDiscovery.Proofs.Lookup

/-!
# Documents that are kept

A bundle is asked for documents, again and again, and in the meantime the files are changed in any way. For one name
and version there are two times:

    as long as none was given    the files decide, as they are at the moment (`Bundle.lookUp`)
    after the first one          it is given again, whatever the files are

A failure belongs to the first time and leaves everything as it is, so the same is tried again. Names and versions do
not meet: what is kept of one is told by the times that it was asked for itself (`Bundle.kept?_after`).

Main statement: `Bundle.get_after`.
-/

namespace ApiDiscovery

namespace Bundle

/-! ## Asking once -/

/-- What a document comes to that is looked up in the files: there is none, or it is read from the one that is found. -/
def lookUp (b : Bundle) (fs : Files) (name version : String) : Except Error Document :=
  match b.find? fs name version with
  | .error f => .error (.file f)
  | .ok none => .error (.unknownApi name version none)
  | .ok (some p) => loadDocument fs p.render

/-- The bundle with one more document. -/
def keep (b : Bundle) (name version : String) (d : Document) : Bundle :=
  { b with documents := ((name, version), d) :: b.documents }

section

variable {b : Bundle} {fs : Files} {name version : String} {d : Document} {e : Error}

theorem lookUp_eq_ok : b.lookUp fs name version = .ok d ↔
    ∃ p, b.find? fs name version = .ok (some p) ∧ loadDocument fs p.render = .ok d := by
  rw [lookUp]
  cases b.find? fs name version with
  | error f => simp
  | ok found => cases found <;> simp

theorem get_of_kept (h : b.kept? name version = some d) : b.get fs name version = (.ok d, b) := by
  rw [get, h]

theorem get_of_found (h : b.kept? name version = none) (hfound : b.lookUp fs name version = .ok d) :
    b.get fs name version = (.ok d, b.keep name version d) := by
  obtain ⟨p, hp, hload⟩ := lookUp_eq_ok.1 hfound
  rw [get, h, hp]
  dsimp only
  rw [hload]
  rfl

theorem get_of_failed (h : b.kept? name version = none) (hfailed : b.lookUp fs name version = .error e) :
    b.get fs name version = (.error e, b) := by
  rw [lookUp] at hfailed
  rw [get, h]
  dsimp only
  cases hfind : b.find? fs name version with
  | error f =>
      rw [hfind] at hfailed
      cases hfailed
      rfl
  | ok found =>
      rw [hfind] at hfailed
      cases found with
      | none =>
          cases hfailed
          rfl
      | some p =>
          dsimp only at hfailed ⊢
          rw [hfailed]

theorem get_fst_of_unkept (h : b.kept? name version = none) : (b.get fs name version).1 = b.lookUp fs name version := by
  cases hlook : b.lookUp fs name version with
  | ok d => rw [get_of_found h hlook]
  | error e => rw [get_of_failed h hlook]

/-- A failure is one of looking up, and leaves the bundle as it is. -/
theorem get_eq_error (h : (b.get fs name version).1 = .error e) :
    b.kept? name version = none ∧ b.lookUp fs name version = .error e ∧ (b.get fs name version).2 = b := by
  cases hkept : b.kept? name version with
  | some d =>
      rw [get_of_kept hkept] at h
      cases h
  | none =>
      have hlook := (get_fst_of_unkept hkept).symm.trans h
      exact ⟨rfl, hlook, by rw [get_of_failed hkept hlook]⟩

theorem kept?_keep (b : Bundle) (name version name' version' : String) (d : Document) :
    (b.keep name version d).kept? name' version' =
      if (name, version) = (name', version') then some d else b.kept? name' version' := by
  rw [kept?, keep, List.lookup_cons, kept?]
  by_cases h : (name, version) = (name', version')
  · rw [if_pos h, h, beq_self_eq_true]
  · rw [if_neg h, beq_false_of_ne (Ne.symm h)]

end

/-- The document of a name and version that is found by asking for it. -/
def foundBy (b : Bundle) (name version : String) (a : Asked) : Option Document :=
  if a.2 = (name, version) then (b.lookUp a.1 name version).toOption else none

/-- Asking for a document adds it to what is kept, if there was none of its name and version and one is found. -/
theorem kept?_get (b : Bundle) (a : Asked) (name version : String) :
    (b.get a.1 a.2.1 a.2.2).2.kept? name version = (b.kept? name version).or (b.foundBy name version a) := by
  obtain ⟨fs, name', version'⟩ := a
  rw [foundBy]
  dsimp only
  cases hkept : b.kept? name' version' with
  | some d =>
      rw [get_of_kept hkept]
      split
      next h =>
        cases h
        rw [hkept, Option.some_or]
      next => exact (Option.or_none ..).symm
  | none =>
      cases hlook : b.lookUp fs name' version' with
      | ok d =>
          rw [get_of_found hkept hlook, kept?_keep]
          split
          next h =>
            cases h
            rw [hkept, hlook]
            rfl
          next => exact (Option.or_none ..).symm
      | error e =>
          rw [get_of_failed hkept hlook]
          split
          next h =>
            cases h
            rw [hlook]
            exact (Option.or_none ..).symm
          next => exact (Option.or_none ..).symm

theorem get_directory (b : Bundle) (fs : Files) (name version : String) :
    (b.get fs name version).2.directory = b.directory := by
  rcases b.get_cases fs name version with ⟨d, -, h⟩ | ⟨p, d, -, -, h⟩ | ⟨e, h⟩ <;> rw [h]

/-! ## Asking many times -/

/-- The first document of a name and version that was found. -/
def firstFound (b : Bundle) (name version : String) (asked : List Asked) : Option Document :=
  asked.findSome? (b.foundBy name version)

/-- Where documents are looked up is told by the directory alone. -/
theorem lookUp_congr {b c : Bundle} (h : b.directory = c.directory) : b.lookUp = c.lookUp := by
  funext fs name version
  rw [lookUp, lookUp, find?, find?, candidates, candidates, h]

theorem after_directory (b : Bundle) (asked : List Asked) : (b.after asked).directory = b.directory := by
  induction asked generalizing b with
  | nil => rfl
  | cons a asked ih => exact (ih _).trans (b.get_directory a.1 a.2.1 a.2.2)

/-- What is kept of a name and version is what was kept at first, or else the first document that was found. -/
theorem kept?_after (b : Bundle) (asked : List Asked) (name version : String) :
    (b.after asked).kept? name version = (b.kept? name version).or (b.firstFound name version asked) := by
  induction asked generalizing b with
  | nil => exact (Option.or_none ..).symm
  | cons a asked ih =>
      have hrest : (b.get a.1 a.2.1 a.2.2).2.firstFound name version asked = b.firstFound name version asked := by
        rw [firstFound, firstFound]
        unfold foundBy
        rw [lookUp_congr (b.get_directory a.1 a.2.1 a.2.2)]
      have hstep : b.after (a :: asked) = (b.get a.1 a.2.1 a.2.2).2.after asked := rfl
      rw [hstep, ih, kept?_get, hrest, Option.or_assoc, firstFound, firstFound, List.findSome?_cons]
      cases b.foundBy name version a <;> rfl

/-- Only the times count at which it was asked for the same name and version. -/
theorem firstFound_filter (b : Bundle) (name version : String) (asked : List Asked) :
    b.firstFound name version (asked.filter fun a => a.2 = (name, version)) = b.firstFound name version asked := by
  unfold firstFound
  induction asked with
  | nil => rfl
  | cons a asked ih =>
      rw [List.findSome?_cons, ← ih]
      by_cases h : a.2 = (name, version)
      · rw [List.filter_cons_of_pos (by simpa using h), List.findSome?_cons]
      · rw [List.filter_cons_of_neg (by simpa using h), foundBy, if_neg h]

/-! ## Main statement -/

/-- A bundle that has read nothing. -/
def unread (directory : Path) : Bundle := { directory }

/-- No document of a name and version was given, as often as it was asked for. -/
def NotGiven (b : Bundle) (asked : List Asked) (name version : String) : Prop :=
  ∀ before fs later d, asked = before ++ (fs, name, version) :: later →
    ((b.after before).get fs name version).1 ≠ .ok d

section

variable {directory : Path} {asked : List Asked} {name version : String}

theorem kept?_unread_after (directory : Path) (asked : List Asked) (name version : String) :
    ((unread directory).after asked).kept? name version = (unread directory).firstFound name version asked := by
  rw [kept?_after]
  rfl

/-- What is given while nothing is kept is looked up in the files. -/
theorem get_after_unkept (h : (unread directory).firstFound name version asked = none) (fs : Files) :
    (((unread directory).after asked).get fs name version).1 = (unread directory).lookUp fs name version := by
  rw [get_fst_of_unkept (by rw [kept?_unread_after, h]), lookUp_congr (after_directory _ asked)]

theorem foundBy_eq_some {b : Bundle} {fs : Files} {d : Document} (h : b.lookUp fs name version = .ok d) :
    b.foundBy name version (fs, name, version) = some d := by
  rw [foundBy, if_pos rfl, h]
  rfl

/-- No document was given as long as none was found. -/
theorem notGiven_iff : (unread directory).NotGiven asked name version ↔
    (unread directory).firstFound name version asked = none := by
  constructor
  · intro hnever
    cases hfound : (unread directory).firstFound name version asked with
    | none => rfl
    | some d =>
        -- The call that found the first document gave it.
        obtain ⟨before, ⟨fs, asked'⟩, later, hasked, hfound, hbefore⟩ := List.findSome?_eq_some_iff.1 hfound
        rw [foundBy] at hfound
        split at hfound
        next hsame =>
          cases hsame
          refine absurd ?_ (hnever before fs later d hasked)
          rw [get_after_unkept (List.findSome?_eq_none_iff.2 hbefore)]
          exact eq_ok_of_toOption hfound
        next => cases hfound
  · rintro hnone before fs later d rfl hgiven
    rw [firstFound, List.findSome?_append, Option.or_eq_none_iff, List.findSome?_cons] at hnone
    obtain ⟨hbefore, hnow⟩ := hnone
    rw [get_after_unkept hbefore] at hgiven
    rw [foundBy_eq_some hgiven] at hnow
    cases hnow

/-- A bundle that has read nothing, after documents were asked for in any order while files were changed in any way. A
name and version of which no document was given so far are looked up in the files as they are now. The first document
that is given of them was read from the file that was found at that time, and from then on the same is given, whatever
the files are, and nothing changes any more. A failure is one of looking up, before any document was given, and changes
nothing either. What is given does not depend on what else was asked for. -/
theorem get_after (directory : Path) (asked : List Asked) (fs : Files) (name version : String) :
    let start := unread directory
    let now := start.after asked
    (start.NotGiven asked name version → (now.get fs name version).1 = start.lookUp fs name version) ∧
    (∀ before fs' later d, asked = before ++ (fs', name, version) :: later → start.NotGiven before name version →
      ((start.after before).get fs' name version).1 = .ok d →
        (∃ p, start.find? fs' name version = .ok (some p) ∧ loadDocument fs' p.render = .ok d) ∧
          now.get fs name version = (.ok d, now)) ∧
    (∀ e, (now.get fs name version).1 = .error e → start.NotGiven asked name version ∧
      start.lookUp fs name version = .error e ∧ (now.get fs name version).2 = now) ∧
    (now.get fs name version).1 =
      ((start.after (asked.filter fun a => a.2 = (name, version))).get fs name version).1 := by
  intro start now
  refine ⟨fun hnever => get_after_unkept (notGiven_iff.1 hnever) fs, ?_, ?_, ?_⟩
  · rintro before fs' later d hasked hnever hgiven
    have hbefore := notGiven_iff.1 hnever
    rw [get_after_unkept hbefore] at hgiven
    refine ⟨lookUp_eq_ok.1 hgiven, get_of_kept ?_⟩
    rw [kept?_unread_after, hasked, firstFound, List.findSome?_append, ← firstFound, hbefore, Option.none_or,
      List.findSome?_cons, foundBy_eq_some hgiven]
  · intro e he
    obtain ⟨hkept, hlook, hsame⟩ := get_eq_error he
    rw [lookUp_congr (after_directory start asked)] at hlook
    rw [kept?_unread_after] at hkept
    exact ⟨notGiven_iff.2 hkept, hlook, hsame⟩
  · cases hfound : start.firstFound name version asked with
    | some d =>
        rw [get_of_kept ((kept?_unread_after ..).trans hfound),
          get_of_kept ((kept?_unread_after ..).trans ((firstFound_filter ..).trans hfound))]
    | none => rw [get_after_unkept hfound, get_after_unkept ((firstFound_filter ..).trans hfound)]

/-- A document that is asked for before its file is there, then when it is there, and then when it is gone again. -/
theorem get_after_notes :
    let start := unread (Path.ofText "apis")
    let asked : List Asked := [({}, "notes", "v1"), (notesFiles, "notes", "v1"), ({}, "plus", "v1")]
    start.lookUp {} "notes" "v1" = .error (.unknownApi "notes" "v1" none) ∧
      ∃ d, d.name = "notes" ∧ (start.after asked).get {} "notes" "v1" = (.ok d, start.after asked) := by
  intro start asked
  have hmissing : start.lookUp {} "notes" "v1" = .error (.unknownApi "notes" "v1" none) := rfl
  obtain ⟨d, hd, hname⟩ := exists_of_toOption_map (f := Document.name) (b := "notes")
    (x := ((start.after [({}, "notes", "v1")]).get notesFiles "notes" "v1").1) (by decide +kernel)
  have hnever : start.NotGiven [({}, "notes", "v1")] "notes" "v1" := by
    rw [notGiven_iff, firstFound, List.findSome?_singleton, foundBy, if_pos rfl, hmissing]
    rfl
  obtain ⟨-, hgiven, -⟩ := get_after (Path.ofText "apis") asked {} "notes" "v1"
  obtain ⟨-, hagain⟩ := hgiven [({}, "notes", "v1")] notesFiles [({}, "plus", "v1")] d rfl hnever hd
  exact ⟨hmissing, d, hname, hagain⟩

end

end Bundle

end ApiDiscovery
