import ApiDiscovery.Proofs.FileTree

/-!
# Looking a document up

The file of a version is looked for at a few paths (`Bundle.candidates`), and only if neither its name nor the
version can lead out of their directory (`Bundle.Accepts`). So, for all texts and whatever files there are:

    where it lies    inside of the directory, by the text of its path alone (`Path.IsInside`)
    what it is       a file, whose name is the version with a suffix; no earlier suffix has a file
    whose it is      of one name and one version only

A name of one dot is the one that is left out of the path: its documents lie in the directory itself. They are still
not those of another name, since all others lie one directory deeper. A document that is kept is looked up as well
(`Bundle.Traced`), so it is not given for another name either.

Main statement: `Bundle.find?_contained`.
-/

namespace ApiDiscovery

open Text

/-! ## Paths without dots -/

namespace Path

/-- One more name of a path, with dots taken as text: two dots take the name before back, as far as there is one. -/
def resolveName (anchored : Bool) (names : List String) (name : String) : List String :=
  if name = ".." then
    match names.getLast? with
    | none => if anchored then [] else [".."]
    | some last => if last = ".." then names ++ [".."] else names.dropLast
  else names ++ [name]

/-- A path with dots taken as text, whatever the files are. -/
def normalized (p : Path) : Path := ⟨p.anchor, p.names.foldl (resolveName !p.anchor.isEmpty) []⟩

/-- A path leads further on from another one, by text. -/
def IsInside (p base : Path) : Prop :=
  ∃ names, names ≠ [] ∧ ".." ∉ names ∧ p.normalized = base.normalized.below names

theorem normalized_below (p : Path) {names : List String} (hup : ".." ∉ names) :
    (p.below names).normalized = p.normalized.below names := by
  have hfold (start : List String) :
      names.foldl (resolveName !p.anchor.isEmpty) start = start ++ names := by
    induction names generalizing start with
    | nil => exact (List.append_nil start).symm
    | cons x names ih =>
        obtain ⟨hx, hnames⟩ := not_or.1 (mt List.mem_cons.2 hup)
        rw [List.foldl_cons, resolveName, if_neg (Ne.symm hx), ih hnames, List.append_assoc]
        rfl
  exact congrArg (Path.mk p.anchor) (List.foldl_append.trans (hfold _))

theorem isInside_below (p : Path) {names : List String} (hsome : names ≠ []) (hup : ".." ∉ names) :
    (p.below names).IsInside p :=
  ⟨names, hsome, hup, p.normalized_below hup⟩

theorem below_inj {p : Path} {xs ys : List String} (h : p.below xs = p.below ys) : xs = ys :=
  List.append_cancel_left (Path.mk.inj h).2

end Path

namespace Files

theorem walk_eq_ok {n : Node} {place names reached : List String} (hup : ".." ∉ names)
    (h : walk n place names = .ok reached) : reached = place ++ names := by
  induction names generalizing place with
  | nil =>
      cases h
      exact (List.append_nil _).symm
  | cons x names ih =>
      obtain ⟨hx, hnames⟩ := not_or.1 (mt List.mem_cons.2 hup)
      obtain ⟨next, hnext, hrest⟩ := bind_eq_ok.1 ((walk_append n place [x] names).symm.trans h)
      obtain ⟨_, _, _, rfl⟩ := (walk_singleton (Ne.symm hx)).1 hnext
      rw [ih hnames hrest, List.append_assoc]
      rfl

/-- Different names below a directory lead to different places. -/
theorem locate?_below_inj {fs : Files} {p : Path} {xs ys place : List String} (hxs : ".." ∉ xs) (hys : ".." ∉ ys)
    (hx : fs.locate? (p.below xs) = .ok place) (hy : fs.locate? (p.below ys) = .ok place) : xs = ys := by
  rw [locate?_below] at hx hy
  obtain ⟨start, hstart, hx⟩ := bind_eq_ok.1 hx
  obtain ⟨start', hstart', hy⟩ := bind_eq_ok.1 hy
  cases hstart.symm.trans hstart'
  exact List.append_cancel_left ((walk_eq_ok hxs hx).symm.trans (walk_eq_ok hys hy))

end Files

namespace Bundle

/-! ## Names that are looked for -/

/-- A name and a version that are looked for. -/
structure Accepts (name version : String) : Prop where
  name_ne : name ≠ ""
  version_ne : version ≠ ""
  name_stays : leadsOut name = false
  version_stays : leadsOut version = false

theorem slash_not_mem_of_stays {s : String} (h : leadsOut s = false) : '/' ∉ s.toList := by
  intro hmem
  rw [leadsOut, List.contains_iff_mem.2 hmem] at h
  cases h

theorem ne_dots_of_stays {s : String} (h : leadsOut s = false) : s ≠ ".." := by
  rintro rfl
  exact absurd h (by decide)

/-- The names from the directory to that of an API. -/
def folder (name : String) : List String := if name = "." then [] else [name]

/-- The names from the directory to a file of an API. -/
def wayTo (name file : String) : List String := folder name ++ [file]

theorem folder_inj {name name' : String} (h : folder name = folder name') : name = name' := by
  unfold folder at h
  split at h <;> split at h
  next hdot hdot' => exact hdot.trans hdot'.symm
  next => cases h
  next => cases h
  next => exact (List.cons.inj h).1

theorem wayTo_inj {name name' file file' : String} (h : wayTo name file = wayTo name' file') :
    name = name' ∧ file = file' := by
  obtain ⟨hfolder, hfile⟩ := List.append_inj' h rfl
  exact ⟨folder_inj hfolder, (List.cons.inj hfile).1⟩

theorem wayTo_ne_nil (name file : String) : wayTo name file ≠ [] :=
  List.append_ne_nil_of_right_ne_nil _ (List.cons_ne_nil _ _)

theorem up_not_mem_folder {name : String} (h : leadsOut name = false) : ".." ∉ folder name := by
  unfold folder
  split
  · exact List.not_mem_nil
  · exact mt List.mem_singleton.1 (ne_dots_of_stays h).symm

namespace Accepts

variable {name version : String}

theorem file_ne (h : Accepts name version) {s : String} (hs : s ∈ suffixes) :
    version ++ s ≠ "" ∧ version ++ s ≠ "." ∧ version ++ s ≠ ".." := by
  have hsplit := splitName_suffix h.version_ne hs
  refine ⟨?_, ?_, ?_⟩ <;>
  · intro heq
    rw [heq] at hsplit
    exact absurd ((Prod.mk.inj hsplit).2 ▸ hs) (by decide)

theorem up_not_mem_wayTo (h : Accepts name version) {s : String} (hs : s ∈ suffixes) :
    ".." ∉ wayTo name (version ++ s) := by
  rw [wayTo, List.mem_append, List.mem_singleton, not_or]
  exact ⟨up_not_mem_folder h.name_stays, (h.file_ne hs).2.2.symm⟩

theorem slash_not_mem (h : Accepts name version) {s : String} (hs : s ∈ suffixes) : '/' ∉ (version ++ s).toList := by
  rw [String.toList_append, List.mem_append, not_or]
  refine ⟨slash_not_mem_of_stays h.version_stays, ?_⟩
  rcases mem_suffixes.1 hs with rfl | rfl | rfl <;> decide

/-- Where the file with a suffix is looked for. -/
theorem candidate_eq (h : Accepts name version) (p : Path) {s : String} (hs : s ∈ suffixes) :
    (p.child name).child (version ++ s) = p.below (wayTo name (version ++ s)) := by
  rw [Path.child_eq_below _ (h.slash_not_mem hs), if_neg (not_or.2 ⟨(h.file_ne hs).1, (h.file_ne hs).2.1⟩),
    Path.child_eq_below p (slash_not_mem_of_stays h.name_stays), Path.below_below, wayTo, folder]
  simp only [h.name_ne, false_or]

end Accepts

/-! ## What is found -/

theorem firstFile_eq_some {fs : Files} {paths : List Path} {p : Path} :
    firstFile fs paths = .ok (some p) ↔
      ∃ before after, paths = before ++ p :: after ∧ fs.isFile p = .ok true ∧
        ∀ q ∈ before, fs.isFile q = .ok false := by
  induction paths with
  | nil => exact ⟨nofun, fun ⟨before, after, h, _⟩ => by simp at h⟩
  | cons q paths ih =>
      rw [firstFile, bind_eq_ok]
      constructor
      · rintro ⟨there, hq, h⟩
        cases there with
        | true =>
            cases h
            exact ⟨[], paths, rfl, hq, by simp⟩
        | false =>
            obtain ⟨before, after, rfl, hp, hbefore⟩ := ih.1 h
            exact ⟨q :: before, after, rfl, hp, List.forall_mem_cons.2 ⟨hq, hbefore⟩⟩
      · rintro ⟨before, after, heq, hp, hbefore⟩
        cases before with
        | nil =>
            obtain ⟨rfl, -⟩ := List.cons.inj heq
            exact ⟨true, hp, rfl⟩
        | cons q' before =>
            obtain ⟨rfl, hrest⟩ := List.cons.inj heq
            obtain ⟨hq, hbefore⟩ := List.forall_mem_cons.1 hbefore
            exact ⟨false, hq, ih.2 ⟨before, after, hrest, hp, hbefore⟩⟩

theorem find?_of_accepts {name version : String} (h : Accepts name version) (b : Bundle) (fs : Files) :
    b.find? fs name version = firstFile fs (b.candidates name version) := by
  rw [find?, if_neg]
  rw [h.name_stays, h.version_stays, Bool.or_false, Bool.or_false, Bool.or_eq_true, String.isEmpty_iff,
    String.isEmpty_iff, not_or]
  exact ⟨h.name_ne, h.version_ne⟩

theorem find?_of_not_accepts {name version : String} (h : ¬ Accepts name version) (b : Bundle) (fs : Files) :
    b.find? fs name version = .ok none := by
  rw [find?]
  refine if_pos (by_contra fun hnot => h ?_)
  simp only [Bool.or_eq_true, String.isEmpty_iff, not_or, Bool.not_eq_true] at hnot
  exact ⟨hnot.1.1.1, hnot.1.1.2, hnot.1.2, hnot.2⟩

/-- What is found has the first suffix with which there is a file. -/
theorem find?_eq_some {b : Bundle} {fs : Files} {name version : String} {p : Path} :
    b.find? fs name version = .ok (some p) ↔
      Accepts name version ∧ ∃ before s after, suffixes = before ++ s :: after ∧
        p = (b.directory.child name).child (version ++ s) ∧ fs.isFile p = .ok true ∧
        ∀ s' ∈ before, fs.isFile ((b.directory.child name).child (version ++ s')) = .ok false := by
  by_cases haccepts : Accepts name version
  · rw [find?_of_accepts haccepts, firstFile_eq_some, candidates, and_iff_right haccepts]
    constructor
    · rintro ⟨before, after, heq, hp, hbefore⟩
      obtain ⟨before, rest, hsuffixes, rfl, hrest⟩ := List.map_eq_append_iff.1 heq
      obtain ⟨s, after, rfl, rfl, rfl⟩ := List.map_eq_cons_iff.1 hrest
      exact ⟨before, s, after, hsuffixes, rfl, hp, fun s' hs' => hbefore _ (List.mem_map.2 ⟨s', hs', rfl⟩)⟩
    · rintro ⟨before, s, after, hsuffixes, rfl, hp, hbefore⟩
      refine ⟨_, _, by rw [hsuffixes, List.map_append, List.map_cons], hp, fun q hq => ?_⟩
      obtain ⟨s', hs', rfl⟩ := List.mem_map.1 hq
      exact hbefore s' hs'
  · rw [find?_of_not_accepts haccepts]
    exact ⟨nofun, fun h => absurd h.1 haccepts⟩

/-- The same by the names from the directory to the file. -/
theorem below_of_find? {b : Bundle} {fs : Files} {name version : String} {p : Path}
    (h : b.find? fs name version = .ok (some p)) : Accepts name version ∧
      ∃ before, ∃ s ∈ suffixes, before ++ [s] <+: suffixes ∧ p = b.directory.below (wayTo name (version ++ s)) ∧
        fs.isFile p = .ok true ∧
        ∀ s' ∈ before, fs.isFile (b.directory.below (wayTo name (version ++ s'))) = .ok false := by
  obtain ⟨haccepts, before, s, after, hsuffixes, rfl, hfile, hbefore⟩ := find?_eq_some.1 h
  have hs : s ∈ suffixes := by simp [hsuffixes]
  have hprefix : before ++ [s] <+: suffixes := ⟨after, by simp [hsuffixes]⟩
  refine ⟨haccepts, before, s, hs, hprefix, haccepts.candidate_eq b.directory hs, hfile, fun s' hs' => ?_⟩
  have hearlier : s' ∈ suffixes := by simp [hsuffixes, hs']
  rw [← haccepts.candidate_eq b.directory hearlier]
  exact hbefore s' hs'

/-- Where a document was found lies inside of the directory, and its name is the version with a suffix. -/
theorem isInside_of_find? {b : Bundle} {fs : Files} {name version : String} {p : Path}
    (h : b.find? fs name version = .ok (some p)) :
    p.IsInside b.directory ∧ ∃ s ∈ suffixes, p.name = version ++ s := by
  obtain ⟨haccepts, before, s, hs, -, rfl, -, -⟩ := below_of_find? h
  refine ⟨Path.isInside_below _ (wayTo_ne_nil name _) (haccepts.up_not_mem_wayTo hs), s, hs, ?_⟩
  rw [← haccepts.candidate_eq b.directory hs]
  exact Path.child_name (haccepts.file_ne hs).1 (haccepts.file_ne hs).2.1 (haccepts.slash_not_mem hs)

/-- What is found below the directory tells of which name and version it is. -/
theorem eq_of_find? {b : Bundle} {fs fs' : Files} {name name' version version' : String} {p p' : Path}
    (h : b.find? fs name version = .ok (some p)) (h' : b.find? fs' name' version' = .ok (some p'))
    (hsame : p.normalized = p'.normalized ∨ fs = fs' ∧ fs.locate? p = fs'.locate? p') :
    name = name' ∧ version = version' := by
  obtain ⟨haccepts, -, s, hs, -, rfl, hfile, -⟩ := below_of_find? h
  obtain ⟨haccepts', -, s', hs', -, rfl, -, -⟩ := below_of_find? h'
  have hup := haccepts.up_not_mem_wayTo hs
  have hup' := haccepts'.up_not_mem_wayTo hs'
  have hway : wayTo name (version ++ s) = wayTo name' (version' ++ s') := by
    rcases hsame with hsame | ⟨rfl, hsame⟩
    · rw [Path.normalized_below _ hup, Path.normalized_below _ hup'] at hsame
      exact Path.below_inj hsame
    · obtain ⟨bytes, hnode⟩ := Files.isFile_eq_true.1 hfile
      obtain ⟨place, hplace, -⟩ := Files.node?_eq_ok.1 hnode
      exact Files.locate?_below_inj hup hup' hplace (hsame ▸ hplace)
  obtain ⟨hname, hversion⟩ := wayTo_inj hway
  have hsplit := splitName_suffix haccepts.version_ne hs
  rw [hversion, splitName_suffix haccepts'.version_ne hs'] at hsplit
  exact ⟨hname, (Prod.mk.inj hsplit).1.symm⟩

/-! ## What is kept -/

/-- All that asking for a document can do. -/
theorem get_cases (b : Bundle) (fs : Files) (name version : String) :
    (∃ d, b.kept? name version = some d ∧ b.get fs name version = (.ok d, b)) ∨
    (∃ p d, b.find? fs name version = .ok (some p) ∧ loadDocument fs p.render = .ok d ∧
      b.get fs name version = (.ok d, { b with documents := ((name, version), d) :: b.documents })) ∨
    ∃ e, b.get fs name version = (.error e, b) := by
  rw [get]
  cases b.kept? name version with
  | some d => exact .inl ⟨d, rfl, rfl⟩
  | none =>
      refine .inr ?_
      cases b.find? fs name version with
      | error f => exact .inr ⟨_, rfl⟩
      | ok found =>
          cases found with
          | none => exact .inr ⟨_, rfl⟩
          | some p =>
              dsimp only
              cases hload : loadDocument fs p.render with
              | error e => exact .inr ⟨e, rfl⟩
              | ok d => exact .inl ⟨p, d, rfl, hload, rfl⟩

/-- Files, and the name and the version of a document that is asked for while they are so. -/
abbrev Asked := Files × String × String

/-- A bundle after some documents have been asked for, one after the other, while files change. -/
def after (b : Bundle) (asked : List Asked) : Bundle :=
  asked.foldl (fun b a => (b.get a.1 a.2.1 a.2.2).2) b

/-- Where a document of a name and a version comes from: it was read when it was asked for, at the path that was found
for them. -/
def Origin (directory : Path) (asked : List Asked) (name version : String) (d : Document) : Prop :=
  ∃ fs p, (fs, name, version) ∈ asked ∧ ({ directory } : Bundle).find? fs name version = .ok (some p) ∧
    loadDocument fs p.render = .ok d

/-- All documents that are kept were asked for and found. -/
structure Traced (directory : Path) (asked : List Asked) (b : Bundle) : Prop where
  directory_eq : b.directory = directory
  origin : ∀ name version d, ((name, version), d) ∈ b.documents → Origin directory asked name version d

theorem Origin.mono {directory : Path} {asked more : List Asked} {name version : String} {d : Document}
    (h : Origin directory asked name version d) : Origin directory (asked ++ more) name version d := by
  obtain ⟨fs, p, hasked, hfound, hload⟩ := h
  exact ⟨fs, p, List.mem_append_left more hasked, hfound, hload⟩

/-- What is given has been found for what is asked for, now or before. -/
theorem Traced.get {directory : Path} {asked : List Asked} {b : Bundle} (h : Traced directory asked b) (fs : Files)
    (name version : String) :
    Traced directory (asked ++ [(fs, name, version)]) (b.get fs name version).2 ∧
      ∀ d, (b.get fs name version).1 = .ok d → Origin directory (asked ++ [(fs, name, version)]) name version d := by
  obtain ⟨rfl, horigin⟩ := h
  have hold : Traced b.directory (asked ++ [(fs, name, version)]) b :=
    ⟨rfl, fun name' version' d hmem => (horigin name' version' d hmem).mono⟩
  rcases b.get_cases fs name version with ⟨d, hkept, hget⟩ | ⟨p, d, hfound, hload, hget⟩ | ⟨e, hget⟩
  · rw [hget]
    obtain ⟨before, after, hdocuments, -⟩ := List.lookup_eq_some_iff.1 hkept
    refine ⟨hold, fun d' hd => ?_⟩
    cases hd
    exact hold.origin name version d (by simp [hdocuments])
  · rw [hget]
    have hnew : Origin b.directory (asked ++ [(fs, name, version)]) name version d :=
      ⟨fs, p, by simp, hfound, hload⟩
    refine ⟨⟨rfl, fun name' version' d' hmem => ?_⟩, fun d' hd => ?_⟩
    · rcases List.mem_cons.1 hmem with heq | hmem
      · cases heq
        exact hnew
      · exact hold.origin name' version' d' hmem
    · cases hd
      exact hnew
  · rw [hget]
    exact ⟨hold, nofun⟩

theorem Traced.after {directory : Path} {asked : List Asked} {b : Bundle} (h : Traced directory asked b)
    (more : List Asked) : Traced directory (asked ++ more) (b.after more) := by
  induction more generalizing asked b with
  | nil => rwa [List.append_nil]
  | cons a more ih =>
      have hrest := ih (h.get a.1 a.2.1 a.2.2).1
      rwa [List.append_assoc] at hrest

/-- Where a document is found: it is the file with the version in its name that has the first suffix of which there is
one, for a name and a version that are looked for. By the text of its path it lies inside of the directory. Neither
that path nor the place that it leads to is found for another name or another version, at no time. So, in whatever
order documents are asked for of a bundle that has read none, and however files change meanwhile, a document that it
gives was read at a path that is found for the name and the version asked for, and for no others. -/
theorem find?_contained (b : Bundle) :
    (∀ fs name version p, b.find? fs name version = .ok (some p) ↔
      Accepts name version ∧ ∃ before s after, suffixes = before ++ s :: after ∧
        p = (b.directory.child name).child (version ++ s) ∧ fs.isFile p = .ok true ∧
          ∀ s' ∈ before, fs.isFile ((b.directory.child name).child (version ++ s')) = .ok false) ∧
    (∀ fs name version p, b.find? fs name version = .ok (some p) →
      p.IsInside b.directory ∧ ∃ s ∈ suffixes, p.name = version ++ s) ∧
    (∀ fs fs' name name' version version' p p', b.find? fs name version = .ok (some p) →
      b.find? fs' name' version' = .ok (some p') →
        p.normalized = p'.normalized ∨ fs = fs' ∧ fs.locate? p = fs'.locate? p' → name = name' ∧ version = version') ∧
    (b.documents = [] → ∀ asked fs name version d, ((b.after asked).get fs name version).1 = .ok d →
      ∃ fs' p, (fs', name, version) ∈ asked ++ [(fs, name, version)] ∧ b.find? fs' name version = .ok (some p) ∧
        loadDocument fs' p.render = .ok d ∧
          ∀ fs'' name' version', b.find? fs'' name' version' = .ok (some p) → name' = name ∧ version' = version) := by
  refine ⟨fun fs name version p => find?_eq_some, fun fs name version p h => isInside_of_find? h,
    fun fs fs' name name' version version' p p' h h' hsame => eq_of_find? h h' hsame,
    fun hfresh asked fs name version d hd => ?_⟩
  have hstart : Traced b.directory [] b := ⟨rfl, by simp [hfresh]⟩
  obtain ⟨fs', p, hasked, hfound, hload⟩ := ((hstart.after asked).get fs name version).2 d hd
  refine ⟨fs', p, hasked, hfound, hload, fun fs'' name' version' hother => ?_⟩
  exact eq_of_find? hother hfound (.inl rfl)

/-- A version in two formats. -/
def notesFiles : Files :=
  { here := .dir [("apis", .dir [("notes", .dir [("v1.yaml", .file []),
      ("v1.json", .file (Utf8.encode "\x7b\"name\": \"notes\", \"version\": \"v1\"\x7d".toList))])])] }

/-- The bundle of these files. -/
def notesBundle : Bundle := { directory := Path.ofText "apis" }

/-- The file in JSON is found, for this version only. Its document is given when the files are gone, too. -/
theorem find?_contained_notes :
    let p : Path := ⟨"", ["apis", "notes", "v1.json"]⟩
    notesBundle.find? notesFiles "notes" "v1" = .ok (some p) ∧ p.IsInside notesBundle.directory ∧
      (∀ fs name version, notesBundle.find? fs name version = .ok (some p) → name = "notes" ∧ version = "v1") ∧
      ∃ d fs p', ((notesBundle.after [(notesFiles, "notes", "v1")]).get {} "notes" "v1").1 = .ok d ∧
        notesBundle.find? fs "notes" "v1" = .ok (some p') ∧ loadDocument fs p'.render = .ok d := by
  intro p
  obtain ⟨-, hinside, hsame, hkept⟩ := find?_contained notesBundle
  have hfound : notesBundle.find? notesFiles "notes" "v1" = .ok (some p) := rfl
  obtain ⟨d, hd, -⟩ := exists_of_toOption_map (f := Document.name) (b := "notes")
    (x := ((notesBundle.after [(notesFiles, "notes", "v1")]).get {} "notes" "v1").1) (by decide +kernel)
  obtain ⟨fs, p', -, hfound', hload, -⟩ := hkept rfl _ _ _ _ d hd
  exact ⟨hfound, (hinside _ _ _ _ hfound).1, fun fs name version h => hsame _ _ _ _ _ _ _ _ h hfound (.inl rfl),
    d, fs, p', hd, hfound', hload⟩

end Bundle

end ApiDiscovery
