import ApiDiscovery.Proofs.Lookup
import ApiDiscovery.Proofs.Sorted

/-!
# Listing and looking up

A bundle lists its documents by what lies in its directory, and looks a document up by the names of files that it
makes of a name and a version. The two go by different things:

                        listed                            looked up
    suffix              in upper and lower case           in lower case
    names with dots     all that files can have           no two dots in a row, no backslash
    long names          all that files can have           room for `.json` behind the version
    how deep            in directories of the directory   and, for the name of one dot, in it itself

So they agree on a directory exactly if nothing lies in it that makes a difference (`Bundle.IsPlain`). All else holds
for any directory: a version is looked up in vain exactly if its document is unknown, versions are listed in order and
each once, and an API is known exactly if it has a version that is listed.

Main statement: `Bundle.available_iff_hasApi`.
-/

namespace ApiDiscovery

open Files

namespace Bundle

/-! ## The order of pairs -/

theorem pairLe_iff {a b : String × String} : pairLe a b = true ↔ a.1 < b.1 ∨ a.1 = b.1 ∧ a.2 ≤ b.2 := by
  rw [pairLe, Bool.or_eq_true, Bool.and_eq_true, beq_iff_eq, decide_eq_true_eq, decide_eq_true_eq]

theorem pairLe_trans (a b c : String × String) (hab : pairLe a b = true) (hbc : pairLe b c = true) :
    pairLe a c = true := by
  rw [pairLe_iff] at *
  rcases hab with hab | ⟨hab, hab'⟩
  · rcases hbc with hbc | ⟨hbc, -⟩
    · exact .inl (hab.trans hbc)
    · exact .inl (hbc ▸ hab)
  · rcases hbc with hbc | ⟨hbc, hbc'⟩
    · exact .inl (hab ▸ hbc)
    · exact .inr ⟨hab.trans hbc, hab'.trans hbc'⟩

theorem pairLe_total (a b : String × String) : (pairLe a b || pairLe b a) = true := by
  rw [Bool.or_eq_true, pairLe_iff, pairLe_iff]
  rcases lt_trichotomy a.1 b.1 with h | h | h
  · exact .inl (.inl h)
  · exact (le_total a.2 b.2).imp (fun hle => .inr ⟨h, hle⟩) fun hle => .inr ⟨h.symm, hle⟩
  · exact .inr (.inl h)

theorem pairLe_antisymm (a b : String × String) (hab : pairLe a b = true) (hba : pairLe b a = true) : a = b := by
  rw [pairLe_iff] at hab hba
  rcases hab with hab | ⟨hab, hab'⟩
  · rcases hba with hba | ⟨hba, -⟩
    · exact absurd hba hab.not_gt
    · exact absurd hba.symm hab.ne
  · rcases hba with hba | ⟨-, hba'⟩
    · exact absurd hab hba.ne'
    · exact Prod.ext hab (hab'.antisymm hba')

/-! ## The listing -/

theorem mem_versionsIn {n : Node} {version : String} :
    version ∈ versionsIn n ↔
      ∃ file bytes, (file, Node.file bytes) ∈ n.entries ∧ isDocumentName file = true ∧ stemOf file = version := by
  rw [versionsIn, List.mem_map]
  constructor
  · rintro ⟨⟨file, c⟩, hmem, rfl⟩
    obtain ⟨hmem, hkept⟩ := List.mem_filter.1 hmem
    obtain ⟨hkind, hname⟩ := Bool.and_eq_true_iff.1 hkept
    cases c with
    | file bytes => exact ⟨file, bytes, hmem, hname, rfl⟩
    | dir es => cases hkind
  · rintro ⟨file, bytes, hmem, hname, rfl⟩
    exact ⟨(file, .file bytes), List.mem_filter.2 ⟨hmem, Bool.and_eq_true_iff.2 ⟨rfl, hname⟩⟩, rfl⟩

/-- The listing of what lies in a directory. -/
def listingOf (entries : List (String × Node)) : List (String × String) :=
  ((entries.flatMap fun e => (versionsIn e.2).map fun v => (e.1, v)).mergeSort pairLe).eraseReps

theorem available_eq {b : Bundle} {fs : Files} {there : Bool} (h : fs.isDir b.directory = .ok there) :
    b.available fs = .ok (listingOf (fs.entriesAt b.directory)) := by
  rw [available, h, ok_bind]
  cases there with
  | true =>
      obtain ⟨es, hdir⟩ := isDir_eq_true.1 h
      have hlist : fs.list b.directory = .ok es := by
        rw [list, hdir]
        rfl
      rw [entriesAt_eq hdir, hlist]
      rfl
  | false =>
      have hnone : fs.entriesAt b.directory = [] := by
        rw [entriesAt]
        cases hnode : fs.node? b.directory with
        | error f => rfl
        | ok n =>
            cases n with
            | file bytes => rfl
            | dir es => cases h.symm.trans (isDir_eq_true.2 ⟨es, hnode⟩)
      rw [hnone, listingOf, List.flatMap_nil, List.mergeSort_nil]
      rfl

/-- What is listed: the names of directories, with the stems of the files in them that are named as documents are. -/
theorem mem_listingOf {entries : List (String × Node)} {name version : String} :
    (name, version) ∈ listingOf entries ↔ ∃ es, (name, Node.dir es) ∈ entries ∧
      ∃ file bytes, (file, Node.file bytes) ∈ es ∧ isDocumentName file = true ∧ stemOf file = version := by
  rw [listingOf, mem_inOrder, List.mem_flatMap]
  constructor
  · rintro ⟨⟨name', n⟩, hmem, hpair⟩
    obtain ⟨version', hversion, heq⟩ := List.mem_map.1 hpair
    cases heq
    have hfiles := mem_versionsIn.1 hversion
    cases n with
    | file bytes =>
        obtain ⟨_, _, hnone, -⟩ := hfiles
        cases hnone
    | dir es => exact ⟨es, hmem, hfiles⟩
  · rintro ⟨es, hmem, hfiles⟩
    exact ⟨(name, .dir es), hmem, List.mem_map.2 ⟨version, mem_versionsIn.2 hfiles, rfl⟩⟩

theorem pairwise_listingOf (entries : List (String × Node)) :
    (listingOf entries).Pairwise fun a b => pairLe a b = true ∧ a ≠ b :=
  pairwise_inOrder pairLe_trans pairLe_total pairLe_antisymm _

/-- The versions of one name in the listing are in order, and each is there once. -/
theorem pairwise_versions (name : String) (entries : List (String × Node)) :
    (((listingOf entries).filter fun p => p.1 == name).map (·.2)).Pairwise (· < ·) := by
  refine List.pairwise_map.2 (List.pairwise_filter.2 ((pairwise_listingOf entries).imp fun {a b} hab ha hb => ?_))
  have hname : a.1 = b.1 := (beq_iff_eq.1 ha).trans (beq_iff_eq.1 hb).symm
  rcases pairLe_iff.1 hab.1 with hlt | ⟨-, hle⟩
  · exact absurd hname hlt.ne
  · exact lt_of_le_of_ne hle fun hversion => hab.2 (Prod.ext hname hversion)

/-! ## The lookup -/

/-- There is a file for a version, with a suffix as it is looked for. -/
def HasDocument (entries : List (String × Node)) (version : String) : Prop :=
  ∃ s ∈ suffixes, ∃ bytes, (version ++ s, Node.file bytes) ∈ entries

theorem firstFile_eq_none {fs : Files} {paths : List Path} :
    firstFile fs paths = .ok none ↔ ∀ q ∈ paths, fs.isFile q = .ok false := by
  induction paths with
  | nil =>
      constructor
      · intro _ q hq
        cases hq
      · intro _
        rfl
  | cons q paths ih =>
      rw [firstFile, bind_eq_ok, List.forall_mem_cons, ← ih]
      constructor
      · rintro ⟨there, hq, h⟩
        cases there with
        | true => cases h
        | false => exact ⟨hq, h⟩
      · rintro ⟨hq, h⟩
        exact ⟨false, hq, h⟩

theorem firstFile_total {fs : Files} {paths : List Path} (h : ∀ q ∈ paths, ∃ there, fs.isFile q = .ok there) :
    ∃ found, firstFile fs paths = .ok found := by
  induction paths with
  | nil => exact ⟨none, rfl⟩
  | cons q paths ih =>
      obtain ⟨hq, hrest⟩ := List.forall_mem_cons.1 h
      obtain ⟨there, hthere⟩ := hq
      rw [firstFile, hthere, ok_bind]
      cases there with
      | true => exact ⟨some q, rfl⟩
      | false => exact ih hrest

theorem fits_suffix {version s : String} (h : Fits (version ++ ".json")) (hs : s ∈ suffixes) :
    Fits (version ++ s) := by
  have hshort : (Text.Utf8.encode s.toList).length ≤ 5 := by
    rcases mem_suffixes.1 hs with rfl | rfl | rfl <;> decide
  have hjson : (Text.Utf8.encode ".json".toList).length = 5 := rfl
  rw [Fits, length_encode_append] at h ⊢
  omega

/-- Below a directory, and where there is none, names that are not too long are no fault. -/
theorem isFile_total {fs : Files} {p : Path} (hp : fs.node? p ≠ .error .nameTooLong) {x : String} (hx : Fits x) :
    ∃ there, fs.isFile (p.below [x]) = .ok there := by
  cases h : fs.isFile (p.below [x]) with
  | ok there => exact ⟨there, rfl⟩
  | error f => exact absurd (tooLong_below.1 (test_eq_error.1 h).1) (not_or.2 ⟨hp, fun hlong => hlong.2 hx⟩)

/-- The lookup ends where the directory can be reached, and names are not too long. -/
theorem find?_total {b : Bundle} {fs : Files} {name version : String}
    (hfolder : fs.node? (b.directory.below (folder name)) ≠ .error .nameTooLong)
    (hversion : Fits (version ++ ".json")) : ∃ found, b.find? fs name version = .ok found := by
  by_cases haccepts : Accepts name version
  · rw [find?_of_accepts haccepts]
    refine firstFile_total fun q hq => ?_
    obtain ⟨s, hs, rfl⟩ := List.mem_map.1 hq
    rw [haccepts.candidate_eq b.directory hs, wayTo, ← Path.below_below]
    exact isFile_total hfolder (fits_suffix hversion hs)
  · exact ⟨none, find?_of_not_accepts haccepts b fs⟩

theorem hasApi_eq_ok {b : Bundle} {fs : Files} {name version : String} {there : Bool} :
    b.hasApi fs name (some version) = .ok there ↔
      ∃ found, b.find? fs name version = .ok found ∧ found.isSome = there := by
  rw [hasApi, bind_eq_ok]
  exact exists_congr fun found => and_congr_right fun _ => ⟨Except.ok.inj, congrArg Except.ok⟩

section

variable {b : Bundle} {fs : Files} {name version : String}

/-- What lies in the directory of a name decides which of its files are there. -/
theorem isFile_wayTo (htree : (fs.tree b.directory).WellNamed) (haccepts : Accepts name version) {s : String}
    (hs : s ∈ suffixes) : fs.isFile (b.directory.below (wayTo name (version ++ s))) = .ok true ↔
      ∃ bytes, (version ++ s, Node.file bytes) ∈ fs.entriesAt (b.directory.below (folder name)) := by
  rw [wayTo, ← Path.below_below]
  exact isFile_below_iff_mem (p := b.directory.below (folder name)) htree (haccepts.file_ne hs).2.2

/-- The file in JSON is looked for first: it is what was found, or its name was no fault. -/
theorem fits_json_of_find? (htree : (fs.tree b.directory).WellNamed) {p : Path}
    (h : b.find? fs name version = .ok (some p)) : Fits (version ++ ".json") := by
  obtain ⟨haccepts, before, s, hs, hprefix, rfl, hfile, hbefore⟩ := below_of_find? h
  cases before with
  | nil =>
      obtain ⟨rfl, -⟩ := List.cons_prefix_cons.1 hprefix
      obtain ⟨bytes, hentry⟩ := (isFile_wayTo htree haccepts hs).1 hfile
      have hfolder := Node.WellNamed.entriesAt (p := b.directory.below (folder name)) htree
      exact (hfolder.isFileName hentry).fits
  | cons first before =>
      obtain ⟨rfl, -⟩ := List.cons_prefix_cons.1 hprefix
      by_contra hlong
      have hjson := hbefore ".json" List.mem_cons_self
      rw [wayTo, ← Path.below_below] at hfile hjson
      obtain ⟨bytes, hnode⟩ := isFile_eq_true.1 hfile
      obtain ⟨es, hdir, -⟩ := (node?_below (haccepts.file_ne hs).2.2).1 hnode
      have hfault := tooLong_below.2 (.inr ⟨⟨es, hdir⟩, hlong⟩)
      cases hjson.symm.trans (test_eq_error.2 ⟨hfault, rfl⟩)

/-- What is looked up successfully: a version with a file, which can have each of the suffixes behind it. -/
theorem hasApi_eq_true (htree : (fs.tree b.directory).WellNamed) :
    b.hasApi fs name (some version) = .ok true ↔
      Accepts name version ∧ Fits (version ++ ".json") ∧
        HasDocument (fs.entriesAt (b.directory.below (folder name))) version := by
  rw [hasApi_eq_ok]
  constructor
  · rintro ⟨found, hfound, hsome⟩
    obtain ⟨p, rfl⟩ := Option.isSome_iff_exists.1 hsome
    obtain ⟨haccepts, -, s, hs, -, rfl, hfile, -⟩ := below_of_find? hfound
    obtain ⟨bytes, hentry⟩ := (isFile_wayTo htree haccepts hs).1 hfile
    exact ⟨haccepts, fits_json_of_find? htree hfound, s, hs, bytes, hentry⟩
  · rintro ⟨haccepts, hfits, s, hs, bytes, hentry⟩
    have hfile := (isFile_wayTo htree haccepts hs).2 ⟨bytes, hentry⟩
    have hfolder : fs.node? (b.directory.below (folder name)) ≠ .error .nameTooLong := by
      intro hfault
      rw [entriesAt, hfault] at hentry
      cases hentry
    obtain ⟨found, hfound⟩ := find?_total hfolder hfits
    refine ⟨found, hfound, ?_⟩
    cases found with
    | some p => rfl
    | none =>
        rw [find?_of_accepts haccepts, firstFile_eq_none] at hfound
        have hnone := hfound _ (List.mem_map.2 ⟨s, hs, rfl⟩)
        rw [haccepts.candidate_eq b.directory hs, hfile] at hnone
        cases hnone

end

/-! ## Unknown documents -/

/-- A file that is there is not unknown, whatever is wrong with it. -/
theorem loadDocument_ne_unknown (fs : Files) (shown name version : String) (message : Option String) :
    loadDocument fs shown ≠ .error (.unknownApi name version message) := by
  rw [loadDocument, FileSystem.load]
  cases fs.system.isFile (Path.ofText shown) with
  | error f => rintro ⟨⟩
  | ok there =>
      cases there with
      | false => rintro ⟨⟩
      | true =>
          cases fs.system.read (Path.ofText shown) with
          | error f => rintro ⟨⟩
          | ok bytes =>
              simp only [pure_bind, Bool.not_true, Bool.false_eq_true, if_false]
              cases fileText bytes with
              | error f => rintro ⟨⟩
              | ok text =>
                  dsimp only
                  split
                  · rintro ⟨⟩
                  · cases Content.document text (formatOfName (Path.ofText shown).name) with
                    | ok d => rintro ⟨⟩
                    | error f => cases f <;> rintro ⟨⟩

/-- A document that has not been read is unknown if it is looked up in vain. -/
theorem get_unknown {b : Bundle} (hfresh : b.documents = []) (fs : Files) (name version : String) :
    (∃ n v message, (b.get fs name version).1 = .error (.unknownApi n v message)) ↔
      b.hasApi fs name (some version) = .ok false := by
  have hunread : b.kept? name version = none := by
    rw [kept?, hfresh]
    rfl
  rw [get, hunread, hasApi_eq_ok]
  cases b.find? fs name version with
  | error f =>
      constructor
      · rintro ⟨_, _, _, h⟩
        cases h
      · rintro ⟨_, h, -⟩
        cases h
  | ok found =>
      cases found with
      | none => exact ⟨fun _ => ⟨none, rfl, rfl⟩, fun _ => ⟨name, version, none, rfl⟩⟩
      | some p =>
          constructor
          · rintro ⟨n, v, message, h⟩
            dsimp only at h
            have hknown := loadDocument_ne_unknown fs p.render n v message
            cases hload : loadDocument fs p.render with
            | ok d =>
                rw [hload] at h
                cases h
            | error e =>
                rw [hload] at h hknown
                exact absurd (congrArg Except.error (Except.error.inj h)) hknown
          · rintro ⟨found, h, hnone⟩
            cases h
            cases hnone

/-! ## Plain directories -/

/-- A directory in which nothing lies that is listed and not looked up, or the other way round. -/
structure IsPlain (entries : List (String × Node)) : Prop where
  /-- No document lies in it directly, except with a name that is not looked for. -/
  shallow : ∀ version, HasDocument entries version →
    version = "" ∨ leadsOut version = true ∨ ¬ Fits (version ++ ".json")
  /-- Every file that is named as documents are, in upper or lower case, is of a version that is looked for, and has
  a file of that version with it, or is one itself, in lower case. -/
  stored : ∀ name es file bytes, (name, Node.dir es) ∈ entries → (file, Node.file bytes) ∈ es →
    isDocumentName file = true → leadsOut name = false ∧ leadsOut (stemOf file) = false ∧
      Fits (stemOf file ++ ".json") ∧ HasDocument es (stemOf file)

theorem stemOf_ne_empty {file : String} (h : isDocumentName file = true) : stemOf file ≠ "" := by
  have hsuffix : (splitName file).2 ≠ "" := by
    intro hnone
    rw [isDocumentName, suffixOf, hnone] at h
    exact absurd h (by decide +kernel)
  rw [stemOf]
  unfold splitName at hsuffix ⊢
  dsimp only at hsuffix ⊢
  split at hsuffix
  next hparts =>
    rw [if_pos hparts]
    simp only [Bool.and_eq_true, Bool.not_eq_true', List.isEmpty_eq_false_iff] at hparts
    exact mt String.ofList_eq_empty_iff.1 hparts.1.2
  next => exact absurd rfl hsuffix

theorem isDocumentName_suffix {version s : String} (hversion : version ≠ "") (hs : s ∈ suffixes) :
    isDocumentName (version ++ s) = true ∧ stemOf (version ++ s) = version := by
  rw [isDocumentName, suffixOf, stemOf, splitName_suffix hversion hs]
  refine ⟨?_, rfl⟩
  show suffixes.contains (Text.lowerAscii s) = true
  rcases mem_suffixes.1 hs with rfl | rfl | rfl <;> decide +kernel

section

variable {b : Bundle} {fs : Files}

/-- The directory of a name that is listed is the one in which the name is looked up. -/
theorem entriesAt_folder {p : Path} (htree : (fs.tree p).WellNamed) {name : String} {es : List (String × Node)}
    (hmem : (name, Node.dir es) ∈ fs.entriesAt p) : fs.entriesAt (p.below (folder name)) = es := by
  have hentries := htree.entriesAt
  have hname := hentries.isFileName hmem
  have hlookup := (lookupEntry_eq_some hentries.distinct_entries).2 hmem
  rw [folder, if_neg hname.ne_dot]
  exact entriesAt_eq ((node?_below_iff hname.ne_dots).2 ⟨hname.fits, hlookup⟩)

/-- A name other than a dot has a directory of its own, if anything lies where it is looked up. -/
theorem exists_folder {p : Path} {name : String} (hdot : name ≠ ".") (hdots : name ≠ "..") {e : String × Node}
    (h : e ∈ fs.entriesAt (p.below (folder name))) : ∃ es, (name, Node.dir es) ∈ fs.entriesAt p := by
  rw [folder, if_neg hdot] at h
  cases hnode : fs.node? (p.below [name]) with
  | error f =>
      rw [entriesAt, hnode] at h
      cases h
  | ok n =>
      cases n with
      | file bytes =>
          rw [entriesAt, hnode] at h
          cases h
      | dir es => exact ⟨es, mem_of_lookupEntry ((node?_below_iff hdots).1 hnode).2⟩

theorem IsPlain.found_of_listed (htree : (fs.tree b.directory).WellNamed) (h : IsPlain (fs.entriesAt b.directory))
    {name version : String} (hlisted : (name, version) ∈ listingOf (fs.entriesAt b.directory)) :
    b.hasApi fs name (some version) = .ok true := by
  obtain ⟨es, hmem, file, bytes, hfile, hnamed, rfl⟩ := mem_listingOf.1 hlisted
  obtain ⟨hname, hversion, hfits, hstored⟩ := h.stored name es file bytes hmem hfile hnamed
  have hempty := (htree.entriesAt.isFileName hmem).ne_empty
  refine (hasApi_eq_true htree).2 ⟨⟨hempty, stemOf_ne_empty hnamed, hname, hversion⟩, hfits, ?_⟩
  rwa [entriesAt_folder htree hmem]

theorem IsPlain.listed_of_found (htree : (fs.tree b.directory).WellNamed) (h : IsPlain (fs.entriesAt b.directory))
    {name version : String} (hfound : b.hasApi fs name (some version) = .ok true) :
    (name, version) ∈ listingOf (fs.entriesAt b.directory) := by
  obtain ⟨haccepts, hfits, hstored⟩ := (hasApi_eq_true htree).1 hfound
  by_cases hdot : name = "."
  · rw [folder, if_pos hdot, Path.below_nil] at hstored
    rcases h.shallow version hstored with hempty | hout | hlong
    · exact absurd hempty haccepts.version_ne
    · cases hout.symm.trans haccepts.version_stays
    · exact absurd hfits hlong
  · obtain ⟨s, hs, bytes, hfile⟩ := hstored
    obtain ⟨hnamed, hstem⟩ := isDocumentName_suffix haccepts.version_ne hs
    obtain ⟨es, hmem⟩ := exists_folder hdot (ne_dots_of_stays haccepts.name_stays) hfile
    rw [entriesAt_folder htree hmem] at hfile
    exact mem_listingOf.2 ⟨es, hmem, version ++ s, bytes, hfile, hnamed, hstem⟩

theorem isPlain_of_agree (htree : (fs.tree b.directory).WellNamed)
    (h : ∀ name version, (name, version) ∈ listingOf (fs.entriesAt b.directory) ↔
      b.hasApi fs name (some version) = .ok true) : IsPlain (fs.entriesAt b.directory) := by
  constructor
  · intro version hdocument
    by_contra hnot
    obtain ⟨hversion, hrest⟩ := not_or.1 hnot
    obtain ⟨hout, hlong⟩ := not_or.1 hrest
    have haccepts : Accepts "." version := ⟨by decide, hversion, by decide, by simpa using hout⟩
    have hstored : HasDocument (fs.entriesAt (b.directory.below (folder "."))) version := by
      rwa [folder, if_pos rfl, Path.below_nil]
    have hlisted := (h "." version).2 ((hasApi_eq_true htree).2 ⟨haccepts, not_not.1 hlong, hstored⟩)
    obtain ⟨es, hmem, -⟩ := mem_listingOf.1 hlisted
    exact (htree.entriesAt.isFileName hmem).ne_dot rfl
  · intro name es file bytes hmem hfile hnamed
    have hlisted := mem_listingOf.2 ⟨es, hmem, file, bytes, hfile, hnamed, rfl⟩
    obtain ⟨haccepts, hfits, hstored⟩ := (hasApi_eq_true htree).1 ((h name (stemOf file)).1 hlisted)
    rw [entriesAt_folder htree hmem] at hstored
    exact ⟨haccepts.name_stays, haccepts.version_stays, hfits, hstored⟩

theorem isPlain_iff (htree : (fs.tree b.directory).WellNamed) :
    IsPlain (fs.entriesAt b.directory) ↔ ∀ name version,
      (name, version) ∈ listingOf (fs.entriesAt b.directory) ↔ b.hasApi fs name (some version) = .ok true :=
  ⟨fun h _ _ => ⟨h.found_of_listed htree, h.listed_of_found htree⟩, isPlain_of_agree htree⟩

end

/-- What a bundle that has read nothing lists, and what it looks up. The listing can be made wherever its directory can
be reached; it has the files that are named as documents are, one directory below, in order and each pair once. Names
that are not too long can be looked up: this fails exactly if the document is then unknown. The versions of a name are
those that are listed with it, in order and each once, and the API is known if there are any. The listing and the
lookup agree on all names and versions exactly if the directory is plain. -/
theorem available_iff_hasApi {b : Bundle} {fs : Files} (hfresh : b.documents = [])
    (hdir : ∃ there, fs.isDir b.directory = .ok there) (htree : (fs.tree b.directory).WellNamed) :
    ∃ listed, b.available fs = .ok listed ∧
      (listed.Pairwise fun p q => pairLe p q = true ∧ p ≠ q) ∧
      (∀ name version, (name, version) ∈ listed ↔ ∃ es, (name, Node.dir es) ∈ fs.entriesAt b.directory ∧
        ∃ file bytes, (file, Node.file bytes) ∈ es ∧ isDocumentName file = true ∧ stemOf file = version) ∧
      (∀ name version, Fits name → Fits (version ++ ".json") →
        ∃ found, b.hasApi fs name (some version) = .ok found ∧
          ((∃ n v message, (b.get fs name version).1 = .error (.unknownApi n v message)) ↔ found = false)) ∧
      (∀ name, ∃ versions, b.versions fs name = .ok versions ∧ versions.Pairwise (· < ·) ∧
        (∀ version, version ∈ versions ↔ (name, version) ∈ listed) ∧
          b.hasApi fs name none = .ok !versions.isEmpty) ∧
      ((∀ name version, (name, version) ∈ listed ↔ b.hasApi fs name (some version) = .ok true) ↔
        IsPlain (fs.entriesAt b.directory)) := by
  obtain ⟨there, hthere⟩ := hdir
  have hlisted := available_eq hthere
  have hreached : fs.node? b.directory ≠ .error .nameTooLong := by
    intro hfault
    cases hthere.symm.trans (test_eq_error.2 ⟨hfault, rfl⟩)
  refine ⟨_, hlisted, pairwise_listingOf _, fun _ _ => mem_listingOf, fun name version hname hversion => ?_,
    fun name => ?_, (isPlain_iff htree).symm⟩
  · have hfolder : fs.node? (b.directory.below (folder name)) ≠ .error .nameTooLong := by
      unfold folder
      split
      · rwa [Path.below_nil]
      · exact fun hfault => absurd (tooLong_below.1 hfault) (not_or.2 ⟨hreached, fun hlong => hlong.2 hname⟩)
    obtain ⟨found, hfound⟩ := find?_total hfolder hversion
    have hhas := hasApi_eq_ok.2 ⟨found, hfound, rfl⟩
    refine ⟨found.isSome, hhas, (get_unknown hfresh fs name version).trans ?_⟩
    rw [hhas]
    exact ⟨Except.ok.inj, congrArg Except.ok⟩
  · refine ⟨_, by rw [versions, hlisted]; rfl, pairwise_versions name _, fun version => ?_, ?_⟩
    · rw [List.mem_map]
      constructor
      · rintro ⟨pair, hmem, rfl⟩
        obtain ⟨hlisted, hname⟩ := List.mem_filter.1 hmem
        rwa [← beq_iff_eq.1 hname]
      · intro hmem
        exact ⟨(name, version), List.mem_filter.2 ⟨hmem, BEq.rfl⟩, rfl⟩
    · rw [hasApi, hlisted, ok_bind, List.isEmpty_map]
      refine congrArg Except.ok (Bool.eq_iff_iff.2 ?_)
      rw [List.any_eq_true, Bool.not_eq_true', List.isEmpty_eq_false_iff_exists_mem]
      simp only [List.mem_filter]

theorem wellNamed_notesFiles : (notesFiles.tree notesBundle.directory).WellNamed := by
  have hname : ∀ name ∈ ["apis", "notes", "v1.yaml", "v1.json"], IsFileName name := by
    simp only [List.forall_mem_cons]
    refine ⟨?_, ?_, ?_, ?_, List.forall_mem_nil _⟩ <;>
      exact ⟨by decide, by decide, by decide, by decide, by unfold Fits; decide⟩
  refine .dir (by decide) (List.forall_mem_singleton.2 (hname _ (by decide))) (List.forall_mem_singleton.2 ?_)
  refine .dir (by decide) (List.forall_mem_singleton.2 (hname _ (by decide))) (List.forall_mem_singleton.2 ?_)
  refine .dir (by decide) ?_ ?_
  · exact List.forall_mem_cons.2 ⟨hname _ (by decide), List.forall_mem_singleton.2 (hname _ (by decide))⟩
  · exact List.forall_mem_cons.2 ⟨.file _, List.forall_mem_singleton.2 (.file _)⟩

theorem isPlain_notesFiles : IsPlain (notesFiles.entriesAt notesBundle.directory) := by
  constructor
  · rintro version ⟨s, -, bytes, hmem⟩
    cases (Prod.mk.inj (List.mem_singleton.1 hmem)).2
  · intro name es file bytes hmem hfile _
    cases List.mem_singleton.1 hmem
    have hstem : stemOf file = "v1" := by
      rcases List.mem_pair.1 hfile with h | h <;> cases h <;> decide +kernel
    rw [hstem]
    exact ⟨by decide, by decide, by unfold Fits; decide, ".json", by decide, _, .tail _ (.head _)⟩

/-- A bundle whose directory is plain: what it lists is what it has. -/
theorem available_iff_hasApi_notes :
    notesBundle.documents = [] ∧ notesFiles.isDir notesBundle.directory = .ok true ∧
      (notesFiles.tree notesBundle.directory).WellNamed ∧ IsPlain (notesFiles.entriesAt notesBundle.directory) ∧
      ∃ listed, notesBundle.available notesFiles = .ok listed ∧ ("notes", "v1") ∈ listed ∧
        ∀ name version, (name, version) ∈ listed ↔ notesBundle.hasApi notesFiles name (some version) = .ok true := by
  have hdir : notesFiles.isDir notesBundle.directory = .ok true := rfl
  obtain ⟨listed, hlisted, -, -, -, -, hagree⟩ := available_iff_hasApi rfl ⟨true, hdir⟩ wellNamed_notesFiles
  have hagree := hagree.2 isPlain_notesFiles
  exact ⟨rfl, hdir, wellNamed_notesFiles, isPlain_notesFiles, listed, hlisted, (hagree _ _).2 rfl, hagree⟩

/-- A document whose suffix is in upper case. -/
def capitalFiles : Files :=
  { here := .dir [("apis", .dir [("notes", .dir [("v1.JSON",
      .file (Text.Utf8.encode "\x7b\"name\": \"notes\", \"version\": \"v1\"\x7d".toList))])])] }

/-- It is listed, but it is looked up in vain, and so unknown. -/
theorem available_capitalFiles :
    notesBundle.available capitalFiles = .ok [("notes", "v1")] ∧
      notesBundle.hasApi capitalFiles "notes" (some "v1") = .ok false ∧
        (notesBundle.get capitalFiles "notes" "v1").1 = .error (.unknownApi "notes" "v1" none) := by
  refine ⟨?_, ?_, ?_⟩
  · decide +kernel
  · rfl
  · rfl

end Bundle

end ApiDiscovery
