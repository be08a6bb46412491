import ApiDiscovery.Proofs.Directories
import ApiDiscovery.Proofs.Provenance

/-!
# Loading a document from a file

What becomes of a path is told by what the file system says of it. All that is amiss with the file comes to a fault of
the document, but for two things that nothing looks after:

    nothing is there, or no file              not found
    it cannot be told what is there           what the file system says
    a file that cannot be read                a fault of the document, with what the file system says
    a file whose bytes are no text            the fault of the decoder
    a file of white space                     blank
    any other file                            what its text comes to, with single line feeds, in the format that
                                              the suffix of its name tells

Bytes are a text where they are what some characters are written by (`Utf8.decode?_eq_ok`). In a tree of files it can
always be told what is there, except behind a name that is too long (`Files.isFile_system_eq_error`).

Main statement: `FileSystem.load_cases`.
-/

namespace ApiDiscovery

open Text

/-! ## Trees of files -/

namespace Files

/-- A path leads to a directory, and on from there by a name that is longer than names of files may be. -/
def TooLong (fs : Files) (p : Path) : Prop :=
  ∃ front name back place es, p.names = front ++ name :: back ∧ walk (fs.tree p) [] front = .ok place ∧
    (fs.tree p).find? place = some (.dir es) ∧ ¬ Fits name

/-- A walk fails for nothing that leads on, or for a name that is too long. -/
theorem walk_eq_error {n : Node} {place names : List String} {f : FileFault} (h : walk n place names = .error f) :
    f = .notFound ∨ f = .notDirectory ∨ f = .nameTooLong := by
  induction names generalizing place with
  | nil => cases h
  | cons name rest ih =>
      rcases walk_cons_cases n place name rest with ⟨-, hwalk | hwalk⟩ | ⟨-, -, hwalk⟩ | ⟨-, -, hwalk⟩
      · exact .inl (Except.error.inj (h.symm.trans hwalk))
      · exact .inr (.inl (Except.error.inj (h.symm.trans hwalk)))
      · exact .inr (.inr (Except.error.inj (h.symm.trans hwalk)))
      · exact ih (hwalk.symm.trans h)

theorem walk_eq_tooLong {n : Node} {place names : List String} :
    walk n place names = .error .nameTooLong ↔
      ∃ front name back reached es, names = front ++ name :: back ∧ walk n place front = .ok reached ∧
        n.find? reached = some (.dir es) ∧ ¬ Fits name := by
  induction names generalizing place with
  | nil =>
      constructor
      · intro h
        cases h
      · rintro ⟨front, name, back, reached, es, hnames, -⟩
        exact absurd hnames.symm (List.append_ne_nil_of_right_ne_nil _ (List.cons_ne_nil _ _))
  | cons x names ih =>
      rcases walk_cons_cases n place x names with ⟨hno, hwalk⟩ | ⟨⟨es, hdir⟩, hlong, hwalk⟩ | ⟨hdir, hfits, hwalk⟩
      · -- Nothing leads on, so no part of the way has been gone.
        refine iff_of_false ?_ ?_
        · intro h
          rcases hwalk with hwalk | hwalk
          · cases hwalk.symm.trans h
          · cases hwalk.symm.trans h
        · rintro ⟨front, name, back, reached, es, hnames, hfront, hdir, -⟩
          cases front with
          | nil =>
              cases hfront
              exact hno ⟨es, hdir⟩
          | cons y front => exact hno (walk_cons_eq_ok.1 hfront).1
      · exact iff_of_true hwalk ⟨[], x, names, place, es, rfl, rfl, hdir, hlong⟩
      · rw [hwalk, ih]
        constructor
        · rintro ⟨front, name, back, reached, es, rfl, hfront, hreached⟩
          exact ⟨x :: front, name, back, reached, es, rfl, walk_cons_eq_ok.2 ⟨hdir, hfits, hfront⟩, hreached⟩
        · rintro ⟨front, name, back, reached, es, hnames, hfront, hreached, hlong⟩
          cases front with
          | nil =>
              obtain ⟨rfl, -⟩ := List.cons.inj hnames
              exact absurd hfits hlong
          | cons y front =>
              obtain ⟨rfl, rfl⟩ := List.cons.inj hnames
              exact ⟨front, name, back, reached, es, rfl, (walk_cons_eq_ok.1 hfront).2.2, hreached, hlong⟩

theorem node?_eq_tooLong {fs : Files} {p : Path} : fs.node? p = .error .nameTooLong ↔ fs.TooLong p := by
  rw [node?_eq, TooLong, ← walk_eq_tooLong, locate?]
  cases walk (fs.tree p) [] p.names with
  | error f => exact ⟨fun h => congrArg _ (Except.error.inj h), fun h => congrArg _ (Except.error.inj h)⟩
  | ok place =>
      have hfound :
          ((fs.tree p).find? place).elim (.error .notFound) Except.ok ≠ Except.error FileFault.nameTooLong := by
        cases (fs.tree p).find? place <;> simp
      rw [ok_bind]
      exact iff_of_false hfound (by simp)

theorem node?_eq_error {fs : Files} {p : Path} {f : FileFault} (h : fs.node? p = .error f) :
    f.isAbsence = true ∨ f = .nameTooLong := by
  rw [node?_eq] at h
  rcases bind_eq_error.1 h with hwalk | ⟨place, -, hnone⟩
  · rcases walk_eq_error hwalk with rfl | rfl | rfl
    · exact .inl rfl
    · exact .inl rfl
    · exact .inr rfl
  · cases hfound : (fs.tree p).find? place with
    | none =>
        rw [hfound] at hnone
        cases hnone
        exact .inl rfl
    | some n =>
        rw [hfound] at hnone
        cases hnone

end Files

/-- What is told of the place behind a path is passed on, unless it says that nothing is there. -/
theorem FileSystem.isFile_eq_error {v : FileSystem} {p : Path} {f : FileFault} :
    v.isFile p = .error f ↔ v.status p = .error f ∧ f.isAbsence = false := by
  rw [isFile]
  cases v.status p with
  | ok b =>
      constructor
      · intro h
        cases h
      · rintro ⟨h, -⟩
        cases h
  | error g =>
      show (if g.isAbsence = true then Except.ok false else Except.error g) = _ ↔ _
      by_cases habsent : g.isAbsence = true
      · rw [if_pos habsent]
        constructor
        · intro h
          cases h
        · rintro ⟨h, hpresent⟩
          cases h
          rw [habsent] at hpresent
          cases hpresent
      · rw [if_neg habsent]
        constructor
        · intro h
          cases h
          exact ⟨rfl, Bool.eq_false_iff.2 habsent⟩
        · exact And.left

namespace Files

/-- What stands at a path of a tree can be told if no name on the way is too long. -/
theorem isFile_system_eq_error {fs : Files} {p : Path} {f : FileFault} :
    fs.system.isFile p = .error f ↔ f = .nameTooLong ∧ fs.TooLong p := by
  have hstatus : fs.system.status p = .error f ↔ fs.node? p = .error f := map_eq_error
  rw [FileSystem.isFile_eq_error, hstatus, ← node?_eq_tooLong]
  constructor
  · rintro ⟨hnode, hpresent⟩
    rcases node?_eq_error hnode with habsent | rfl
    · rw [hpresent] at habsent
      cases habsent
    · exact ⟨rfl, hnode⟩
  · rintro ⟨rfl, hnode⟩
    exact ⟨hnode, rfl⟩

end Files

/-! ## Main statement -/

/-- The text of a file that some characters were written to: these, with single line feeds. -/
def writtenText (cs : List Char) : String := String.ofList (normalizeLines cs)

namespace FileSystem

variable {v : FileSystem} {shown : String}

theorem load_of_fault {f : FileFault} (h : v.isFile (Path.ofText shown) = .error f) :
    v.load shown = .error (.file f) := by
  rw [load, h]
  rfl

theorem load_of_noFile (h : v.isFile (Path.ofText shown) = .ok false) :
    v.load shown = .error (.document (.notFound shown)) := by
  rw [load, h]
  rfl

theorem load_of_notRead {f : FileFault} (h : v.isFile (Path.ofText shown) = .ok true)
    (hread : v.read (Path.ofText shown) = .error f) :
    v.load shown = .error (.document (.notRead shown (Path.ofText shown) f)) := by
  rw [load, h, hread]
  rfl

theorem load_of_undecodable {bytes : List UInt8} (h : v.isFile (Path.ofText shown) = .ok true)
    (hread : v.read (Path.ofText shown) = .ok bytes) (hno : ¬ ∃ cs, bytes = Utf8.encode cs) :
    ∃ f, Utf8.decode? bytes = .error f ∧ v.load shown = .error (.undecodable f) := by
  cases hdecode : Utf8.decode? bytes with
  | ok cs => exact absurd ⟨cs, Utf8.decode?_eq_ok.1 hdecode⟩ hno
  | error f =>
      refine ⟨f, rfl, ?_⟩
      rw [load_of_bytes h hread, fileText, hdecode]
      rfl

theorem load_of_text {cs : List Char} (h : v.isFile (Path.ofText shown) = .ok true)
    (hread : v.read (Path.ofText shown) = .ok (Utf8.encode cs)) : v.load shown =
      if (writtenText cs).toList.all isBlank then .error (.document (.blank shown))
      else (Content.document (writtenText cs) (formatOfName (Path.ofText shown).name)).mapError .ofContent := by
  rw [load_of_bytes h hread, fileText_encode]
  rfl

/-- What loading a document comes to, whatever is told of the path. Where there is no file, none is found; a file that
cannot be read is a fault of the document; a file of white space is blank; and any other file with a text comes to what
its text comes to, read in the format that the suffix of its name tells. So it is a fault of the document or what the
text comes to, if and only if it can be told whether a file is there, and the bytes of the file, if it is there and can
be read, are a text. -/
theorem load_cases (v : FileSystem) (shown : String) :
    (∀ f, v.isFile (Path.ofText shown) = .error f → v.load shown = .error (.file f)) ∧
    (v.isFile (Path.ofText shown) = .ok false → v.load shown = .error (.document (.notFound shown))) ∧
    (v.isFile (Path.ofText shown) = .ok true →
      (∀ f, v.read (Path.ofText shown) = .error f →
        v.load shown = .error (.document (.notRead shown (Path.ofText shown) f))) ∧
      (∀ bytes, v.read (Path.ofText shown) = .ok bytes → (¬ ∃ cs, bytes = Utf8.encode cs) →
        ∃ f, Utf8.decode? bytes = .error f ∧ v.load shown = .error (.undecodable f)) ∧
      ∀ cs, v.read (Path.ofText shown) = .ok (Utf8.encode cs) →
        ((writtenText cs).toList.all isBlank = true → v.load shown = .error (.document (.blank shown))) ∧
        ((writtenText cs).toList.all isBlank = false → v.load shown =
          (Content.document (writtenText cs) (formatOfName (Path.ofText shown).name)).mapError .ofContent)) ∧
    ((∃ f, v.load shown = .error (.document f)) ∨
        (∃ cs, v.isFile (Path.ofText shown) = .ok true ∧ v.read (Path.ofText shown) = .ok (Utf8.encode cs) ∧
          v.load shown =
            (Content.document (writtenText cs) (formatOfName (Path.ofText shown).name)).mapError .ofContent) ↔
      (∃ there, v.isFile (Path.ofText shown) = .ok there) ∧
        (v.isFile (Path.ofText shown) = .ok true →
          ∀ bytes, v.read (Path.ofText shown) = .ok bytes → ∃ cs, bytes = Utf8.encode cs)) := by
  refine ⟨fun f => load_of_fault, load_of_noFile, fun hfile =>
    ⟨fun f => load_of_notRead hfile, fun bytes => load_of_undecodable hfile, fun cs hread => ⟨?_, ?_⟩⟩, ?_, ?_⟩
  · intro hblank
    rw [load_of_text hfile hread, hblank]
    rfl
  · intro hblank
    rw [load_of_text hfile hread, hblank]
    rfl
  · intro houtcome
    constructor
    · cases hfile : v.isFile (Path.ofText shown) with
      | ok there => exact ⟨there, rfl⟩
      | error f =>
          rcases houtcome with ⟨g, hg⟩ | ⟨cs, hthere, -⟩
          · rw [load_of_fault hfile] at hg
            cases hg
          · rw [hfile] at hthere
            cases hthere
    · intro hfile bytes hread
      by_contra hno
      obtain ⟨f, -, hf⟩ := load_of_undecodable hfile hread hno
      rcases houtcome with ⟨g, hg⟩ | ⟨cs, -, hwritten, -⟩
      · rw [hf] at hg
        cases hg
      · rw [hread] at hwritten
        cases hwritten
        exact hno ⟨cs, rfl⟩
  · rintro ⟨⟨there, hfile⟩, hdecodable⟩
    cases there with
    | false => exact .inl ⟨_, load_of_noFile hfile⟩
    | true =>
        cases hread : v.read (Path.ofText shown) with
        | error f => exact .inl ⟨_, load_of_notRead hfile hread⟩
        | ok bytes =>
            obtain ⟨cs, rfl⟩ := hdecodable hfile bytes hread
            cases hblank : (writtenText cs).toList.all isBlank with
            | true =>
                rw [load_of_text hfile hread, hblank]
                exact .inl ⟨_, rfl⟩
            | false =>
                refine .inr ⟨cs, hfile, rfl, ?_⟩
                rw [load_of_text hfile hread, hblank]
                rfl

end FileSystem

/-- A path of one name with three hundred letters. -/
def longPath : Path := ⟨"", [String.ofList (List.replicate 300 'n')]⟩

theorem tooLong_longPath (fs : Files) (es : List (String × Node)) (h : fs.here = .dir es) :
    fs.TooLong (Path.ofText longPath.render) := by
  have hletters : (String.ofList (List.replicate 300 'n')).toList = List.replicate 300 'n' := String.toList_ofList
  have hnormal : longPath.IsNormal := by
    refine ⟨.inl rfl, fun name hname => ?_, fun name hname => ?_, fun name hname => ?_⟩
    all_goals obtain rfl := List.mem_singleton.1 hname
    · intro hempty
      rw [hempty] at hletters
      cases hletters
    · intro hdot
      rw [hdot] at hletters
      cases hletters
    · rw [hletters, List.mem_replicate]
      exact fun hslash => absurd hslash.2 (by decide)
  rw [Path.ofText_render hnormal]
  refine ⟨[], _, [], [], es, rfl, rfl, ?_, fun hfits => ?_⟩
  · show (Files.tree fs longPath).find? [] = _
    exact congrArg some h
  · have hlength := Utf8.length_encode (List.replicate 300 'n')
    rw [Files.Fits, hletters] at hfits
    rw [List.length_replicate] at hlength
    exact absurd (Nat.le_trans hlength hfits) (by decide)

/-- A path of which nothing may be told, since a directory on the way is guarded. -/
def guarded : FileSystem where
  status _ := .error (.other 13 "Permission denied")
  read _ := .error (.other 13 "Permission denied")

/-- A file of one byte that begins no character, a name that is too long where there are no files, and a path behind a
guarded directory: none of them comes to a fault of the document. -/
theorem loadDocument_escapes :
    loadDocument { here := .dir [("v1.json", .file [0xff])] } "v1.json" =
        .error (.undecodable ⟨0, 0xff, 1, .startByte⟩) ∧
      loadDocument {} longPath.render = .error (.file .nameTooLong) ∧
      guarded.load "notes/v1.json" = .error (.file (.other 13 "Permission denied")) := by
  refine ⟨?_, ?_, FileSystem.load_of_fault rfl⟩
  · have hfile : (Files.system { here := .dir [("v1.json", .file [0xff])] }).isFile (Path.ofText "v1.json") =
        .ok true := rfl
    rw [loadDocument, FileSystem.load_of_bytes hfile rfl]
    rfl
  · exact FileSystem.load_of_fault (Files.isFile_system_eq_error.2 ⟨rfl, tooLong_longPath {} [] rfl⟩)

end ApiDiscovery
