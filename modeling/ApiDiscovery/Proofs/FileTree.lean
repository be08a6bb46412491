import ApiDiscovery.Proofs.FilePaths
import ApiDiscovery.Proofs.Outcome

/-!
# What stands below a directory

A path leads through directories to a place, name by name. So what is found below a path is told by what stands at
the path: there is something under one more name (`Files.node?_below`) if there is a directory at the path, the name
is not too long, and the directory has an entry of that name. A name of two dots is not such a name.

A name that is too long is a fault, but only below a directory (`Files.tooLong_below`). Where there is none nothing
is below it, and names do not matter. In a tree whose names are those of files (`Node.WellNamed`) what lies in a
directory is found by its name, and its name is never too long (`Files.isFile_below_iff_mem`).

    at the path            one more name, short enough     one more name, too long
    a directory            what the directory has there    a fault
    a file, or nothing     nothing                         nothing
-/

namespace ApiDiscovery

open Text

theorem Node.find?_append (n : Node) (xs ys : List String) : n.find? (xs ++ ys) = (n.find? xs).bind (·.find? ys) := by
  induction xs generalizing n with
  | nil => rfl
  | cons x xs ih =>
      rw [List.cons_append, Node.find?, Node.find?]
      cases lookupEntry x n.entries with
      | none => rfl
      | some c => exact ih c

theorem Node.find?_singleton (n : Node) (x : String) : n.find? [x] = lookupEntry x n.entries := by
  rw [Node.find?]
  cases lookupEntry x n.entries <;> rfl

namespace Files

/-- A name is not longer than names of files may be. -/
def Fits (name : String) : Prop := (Utf8.encode name.toList).length ≤ nameLimit

/-- The bytes of names that are put together. -/
theorem length_encode_append (s t : String) : (Utf8.encode (s ++ t).toList).length =
    (Utf8.encode s.toList).length + (Utf8.encode t.toList).length := by
  rw [String.toList_append, Utf8.encode, List.flatMap_append, List.length_append]
  rfl

theorem walk_append (n : Node) (place xs ys : List String) :
    walk n place (xs ++ ys) = walk n place xs >>= fun reached => walk n reached ys := by
  induction xs generalizing place with
  | nil => rfl
  | cons x xs ih =>
      rw [List.cons_append, walk, walk]
      cases n.find? place with
      | none => rfl
      | some c =>
          cases c with
          | file bytes => rfl
          | dir es =>
              dsimp only
              split
              · rfl
              · split <;> exact ih _

theorem locate?_below (fs : Files) (p : Path) (names : List String) :
    fs.locate? (p.below names) = fs.locate? p >>= fun place => walk (fs.tree p) place names :=
  walk_append (fs.tree p) [] p.names names

theorem node?_eq (fs : Files) (p : Path) :
    fs.node? p = fs.locate? p >>= fun place => ((fs.tree p).find? place).elim (.error .notFound) .ok := by
  rw [node?]
  refine congrArg _ (funext fun place => ?_)
  cases (fs.tree p).find? place <;> rfl

theorem node?_eq_ok {fs : Files} {p : Path} {n : Node} :
    fs.node? p = .ok n ↔ ∃ place, fs.locate? p = .ok place ∧ (fs.tree p).find? place = some n := by
  rw [node?_eq, bind_eq_ok]
  refine exists_congr fun place => and_congr_right fun _ => ?_
  cases (fs.tree p).find? place with
  | none => exact ⟨nofun, nofun⟩
  | some m => exact ⟨fun h => congrArg some (Except.ok.inj h), fun h => congrArg Except.ok (Option.some.inj h)⟩

/-- A step leads on from a directory, by a name that is not too long. -/
theorem walk_singleton {n : Node} {place : List String} {x : String} {reached : List String} (hx : x ≠ "..") :
    walk n place [x] = .ok reached ↔
      ∃ es, n.find? place = some (.dir es) ∧ Fits x ∧ reached = place ++ [x] := by
  rw [walk]
  cases n.find? place with
  | none => exact ⟨nofun, nofun⟩
  | some c =>
      cases c with
      | file bytes => exact ⟨nofun, nofun⟩
      | dir es =>
          dsimp only
          split
          next hlong => exact ⟨nofun, fun ⟨_, _, hfits, _⟩ => absurd hlong (not_lt.2 hfits)⟩
          next hshort =>
            rw [if_neg (by simpa using hx), walk]
            refine ⟨fun h => ?_, fun ⟨_, _, _, h⟩ => by rw [h]⟩
            cases h
            exact ⟨es, rfl, not_lt.1 hshort, rfl⟩

/-- What is found one name below a path. -/
theorem node?_below {fs : Files} {p : Path} {x : String} {n : Node} (hx : x ≠ "..") :
    fs.node? (p.below [x]) = .ok n ↔
      ∃ es, fs.node? p = .ok (.dir es) ∧ Fits x ∧ lookupEntry x es = some n := by
  have hstep {place : List String} {es : List (String × Node)} (hdir : (fs.tree p).find? place = some (.dir es)) :
      (fs.tree p).find? (place ++ [x]) = lookupEntry x es := by
    rw [Node.find?_append, hdir]
    exact Node.find?_singleton (.dir es) x
  rw [node?_eq_ok, locate?_below]
  constructor
  · rintro ⟨reached, hwalk, hfound⟩
    obtain ⟨place, hplace, hone⟩ := bind_eq_ok.1 hwalk
    obtain ⟨es, hdir, hfits, rfl⟩ := (walk_singleton hx).1 hone
    exact ⟨es, node?_eq_ok.2 ⟨place, hplace, hdir⟩, hfits, (hstep hdir).symm.trans hfound⟩
  · rintro ⟨es, hnode, hfits, hlookup⟩
    obtain ⟨place, hplace, hdir⟩ := node?_eq_ok.1 hnode
    exact ⟨place ++ [x], bind_eq_ok.2 ⟨place, hplace, (walk_singleton hx).2 ⟨es, hdir, hfits, rfl⟩⟩,
      (hstep hdir).trans hlookup⟩

/-- A name that is too long is a fault below a directory only. -/
theorem tooLong_below {fs : Files} {p : Path} {x : String} :
    fs.node? (p.below [x]) = .error .nameTooLong ↔
      fs.node? p = .error .nameTooLong ∨ (∃ es, fs.node? p = .ok (.dir es)) ∧ ¬ Fits x := by
  have hreached (place : List String) :
      ((fs.tree p).find? place).elim (.error .notFound) Except.ok ≠ Except.error FileFault.nameTooLong := by
    cases (fs.tree p).find? place <;> nofun
  rw [node?_eq, node?_eq, locate?_below]
  cases fs.locate? p with
  | error f => exact ⟨.inl, fun h => h.elim id fun ⟨⟨_, hdir⟩, _⟩ => nomatch hdir⟩
  | ok place =>
      rw [ok_bind, ok_bind, walk]
      cases hfound : (fs.tree p).find? place with
      | none => exact ⟨nofun, fun h => h.elim nofun fun ⟨⟨_, hdir⟩, _⟩ => nomatch hdir⟩
      | some c =>
          cases c with
          | file bytes => exact ⟨nofun, fun h => h.elim nofun fun ⟨⟨_, hdir⟩, _⟩ => nomatch hdir⟩
          | dir es =>
              dsimp only
              split
              next hlong => exact ⟨fun _ => .inr ⟨⟨es, rfl⟩, not_le.2 hlong⟩, fun _ => rfl⟩
              next hshort =>
                refine ⟨fun h => ?_, fun h => h.elim nofun fun ⟨_, hlong⟩ => absurd (not_lt.1 hshort) hlong⟩
                split at h <;> exact absurd h (hreached _)

/-! ## Tests -/

theorem test_eq_true {fs : Files} {kind : Node → Bool} {p : Path} :
    fs.test kind p = .ok true ↔ ∃ n, fs.node? p = .ok n ∧ kind n = true := by
  rw [test]
  cases fs.node? p with
  | ok n =>
      refine ⟨fun h => ⟨n, rfl, Except.ok.inj h⟩, ?_⟩
      rintro ⟨_, hn, h⟩
      cases hn
      exact congrArg Except.ok h
  | error f => cases f <;> exact ⟨nofun, nofun⟩

theorem test_eq_error {fs : Files} {kind : Node → Bool} {p : Path} {f : FileFault} :
    fs.test kind p = .error f ↔ fs.node? p = .error .nameTooLong ∧ f = .nameTooLong := by
  rw [test]
  cases fs.node? p with
  | ok n => exact ⟨nofun, nofun⟩
  | error g =>
      cases g with
      | nameTooLong => exact ⟨fun h => ⟨rfl, (Except.error.inj h).symm⟩, fun h => by rw [h.2]⟩
      | _ => exact ⟨nofun, nofun⟩

theorem isFile_eq_true {fs : Files} {p : Path} :
    fs.isFile p = .ok true ↔ ∃ bytes, fs.node? p = .ok (.file bytes) := by
  rw [isFile, test_eq_true]
  constructor
  · rintro ⟨n, hn, hkind⟩
    cases n with
    | file bytes => exact ⟨bytes, hn⟩
    | dir es => cases hkind
  · rintro ⟨bytes, h⟩
    exact ⟨_, h, rfl⟩

theorem isDir_eq_true {fs : Files} {p : Path} : fs.isDir p = .ok true ↔ ∃ es, fs.node? p = .ok (.dir es) := by
  rw [isDir, test_eq_true]
  constructor
  · rintro ⟨n, hn, hkind⟩
    cases n with
    | file bytes => cases hkind
    | dir es => exact ⟨es, hn⟩
  · rintro ⟨es, h⟩
    exact ⟨_, h, rfl⟩

/-! ## Directories and what lies in them -/

/-- What lies in the directory at a path; nothing if there is none. -/
def entriesAt (fs : Files) (p : Path) : List (String × Node) :=
  match fs.node? p with
  | .ok n => n.entries
  | .error _ => []

theorem entriesAt_eq {fs : Files} {p : Path} {es : List (String × Node)} (h : fs.node? p = .ok (.dir es)) :
    fs.entriesAt p = es := by
  rw [entriesAt, h]
  rfl

theorem node?_of_lookup {fs : Files} {p : Path} {x : String} {n : Node}
    (h : lookupEntry x (fs.entriesAt p) = some n) : ∃ es, fs.node? p = .ok (.dir es) ∧ lookupEntry x es = some n := by
  rw [entriesAt] at h
  cases hnode : fs.node? p with
  | error f =>
      rw [hnode] at h
      cases h
  | ok m =>
      rw [hnode] at h
      cases m with
      | file bytes => cases h
      | dir es => exact ⟨es, rfl, h⟩

/-- What is found one name below a path is what lies there in the directory. -/
theorem node?_below_iff {fs : Files} {p : Path} {x : String} {n : Node} (hx : x ≠ "..") :
    fs.node? (p.below [x]) = .ok n ↔ Fits x ∧ lookupEntry x (fs.entriesAt p) = some n := by
  rw [node?_below hx]
  constructor
  · rintro ⟨es, hdir, hfits, hlookup⟩
    exact ⟨hfits, by rwa [entriesAt_eq hdir]⟩
  · rintro ⟨hfits, hlookup⟩
    obtain ⟨es, hdir, hlookup⟩ := node?_of_lookup hlookup
    exact ⟨es, hdir, hfits, hlookup⟩

/-- What lies below a path is told by what lies in its directory. -/
theorem isFile_below {fs : Files} {p : Path} {x : String} (hx : x ≠ "..") :
    fs.isFile (p.below [x]) = .ok true ↔ Fits x ∧ ∃ bytes, lookupEntry x (fs.entriesAt p) = some (.file bytes) := by
  simp only [isFile_eq_true, node?_below_iff hx, exists_and_left]

end Files

/-! ## Trees -/

/-- What the name of a file or of a directory is. -/
structure IsFileName (name : String) : Prop where
  ne_empty : name ≠ ""
  ne_dot : name ≠ "."
  ne_dots : name ≠ ".."
  no_slash : '/' ∉ name.toList
  fits : Files.Fits name

/-- A tree whose directories have each name once, and only names of files. -/
inductive Node.WellNamed : Node → Prop where
  | file (bytes : List UInt8) : WellNamed (.file bytes)
  | dir {es : List (String × Node)} (distinct : (es.map (·.1)).Nodup) (named : ∀ e ∈ es, IsFileName e.1)
      (below : ∀ e ∈ es, WellNamed e.2) : WellNamed (.dir es)

namespace Node.WellNamed

theorem distinct_entries {n : Node} (h : n.WellNamed) : (n.entries.map (·.1)).Nodup := by
  cases h with
  | file bytes => exact List.nodup_nil
  | dir hdistinct _ _ => exact hdistinct

theorem isFileName {n : Node} (h : n.WellNamed) {e : String × Node} (he : e ∈ n.entries) : IsFileName e.1 := by
  cases h with
  | file bytes => cases he
  | dir _ hnamed _ => exact hnamed e he

theorem of_mem {n : Node} (h : n.WellNamed) {e : String × Node} (he : e ∈ n.entries) : e.2.WellNamed := by
  cases h with
  | file bytes => cases he
  | dir _ _ hbelow => exact hbelow e he

theorem of_find? {n m : Node} (h : n.WellNamed) {place : List String} (hm : n.find? place = some m) :
    m.WellNamed := by
  induction place generalizing n with
  | nil =>
      cases hm
      exact h
  | cons x place ih =>
      rw [Node.find?] at hm
      cases hx : lookupEntry x n.entries with
      | none =>
          rw [hx] at hm
          cases hm
      | some c =>
          rw [hx] at hm
          exact ih (h.of_mem (mem_of_lookupEntry hx)) hm

/-- The directory at a path is well named where the whole tree is. -/
theorem entriesAt {fs : Files} {p : Path} (h : (fs.tree p).WellNamed) : (Node.dir (fs.entriesAt p)).WellNamed := by
  rw [Files.entriesAt]
  cases hnode : fs.node? p with
  | error f => exact .dir List.nodup_nil nofun nofun
  | ok n =>
      obtain ⟨place, -, hfound⟩ := Files.node?_eq_ok.1 hnode
      have hn := h.of_find? hfound
      exact .dir hn.distinct_entries (fun e he => hn.isFileName he) fun e he => hn.of_mem he

end Node.WellNamed

theorem Files.isFile_below_iff_mem {fs : Files} {p : Path} {x : String} (htree : (fs.tree p).WellNamed)
    (hx : x ≠ "..") :
    fs.isFile (p.below [x]) = .ok true ↔ ∃ bytes, (x, Node.file bytes) ∈ fs.entriesAt p := by
  have hentries := htree.entriesAt
  rw [isFile_below hx]
  constructor
  · rintro ⟨-, bytes, hlookup⟩
    exact ⟨bytes, mem_of_lookupEntry hlookup⟩
  · rintro ⟨bytes, hmem⟩
    exact ⟨(hentries.isFileName hmem).fits, bytes, (lookupEntry_eq_some hentries.distinct_entries).2 hmem⟩

end ApiDiscovery
