import ApiDiscovery.Files.Replace
import ApiDiscovery.Proofs.Directories

/-!
# Files by their places

A place is a tree and names from its top on. How far a path leads depends on the directories that are there, but not
to which place (`Path.place`): each name goes one down, and two dots one up. So a file is told from all others by its
place, and what an operation does is told by what it leaves at every place (`Files.bytesAt?`).

    making directories     no file changes                          (`Files.of_makeDirs`)
    writing                the place of the path has the bytes      (`Files.of_write`)
    taking a file away     the place of the path has nothing        (`Files.of_remove`)
    moving a file          its bytes are at the other place         (`Files.of_move`)

All of them leave directories where they are (`Files.DirsStay`), and so a path that led to its place leads there still.
-/

namespace ApiDiscovery

open Text

/-! ## One tree -/

namespace Node

/-- The bytes of a file. -/
def bytes? : Node → Option (List UInt8)
  | file bytes => some bytes
  | dir _ => none

/-- The bytes of the file at a sequence of names, if a file is there. -/
def bytesAt? (n : Node) (names : List String) : Option (List UInt8) := (n.find? names).bind bytes?

variable {n n' new : Node} {place q : List String} {es : List (String × Node)} {x : String} {bytes : List UInt8}

theorem bytesAt?_append (n : Node) (xs ys : List String) :
    n.bytesAt? (xs ++ ys) = (n.find? xs).bind (·.bytesAt? ys) := by
  rw [bytesAt?, find?_append, Option.bind_assoc]
  rfl

theorem bytesAt?_cons (n : Node) (x : String) (rest : List String) :
    n.bytesAt? (x :: rest) = (lookupEntry x n.entries).bind (·.bytesAt? rest) := by
  rw [← List.singleton_append, bytesAt?_append, find?_singleton]

theorem bytesAt?_eq_some : n.bytesAt? place = some bytes ↔ n.find? place = some (.file bytes) := by
  rw [bytesAt?, Option.bind_eq_some_iff]
  constructor
  · rintro ⟨c, hc, hbytes⟩
    cases c with
    | file held =>
        cases hbytes
        exact hc
    | dir es => cases hbytes
  · exact fun h => ⟨_, h, rfl⟩

/-- There is no file below what is no directory. -/
theorem bytesAt?_below (h : ∀ es, n.find? place ≠ some (.dir es)) (x : String) (rest : List String) :
    n.bytesAt? (place ++ x :: rest) = none := by
  rw [bytesAt?_append]
  cases hfound : n.find? place with
  | none => rfl
  | some c =>
      cases c with
      | file bytes => rfl
      | dir es => exact absurd hfound (h es)

/-- What was put at a place says which files are below it. -/
theorem bytesAt?_put (h : n.put new place = .ok n') (rest : List String) :
    n'.bytesAt? (place ++ rest) = new.bytesAt? rest := by
  rw [bytesAt?_append, find?_put h]
  rfl

/-- What is put at a place changes no file elsewhere. -/
theorem bytesAt?_put_outside (h : n.put new place = .ok n') (hq : ¬ place <+: q) :
    n'.bytesAt? q = n.bytesAt? q := by
  induction place generalizing n n' q with
  | nil => exact absurd q.nil_prefix hq
  | cons x rest ih =>
      cases q with
      | nil => obtain ⟨es, rfl, ⟨c, c', -, -, rfl⟩ | ⟨-, -, rfl⟩⟩ := put_eq_ok.1 h <;> rfl
      | cons y q =>
          rw [List.cons_prefix_cons, not_and] at hq
          obtain ⟨es, rfl, ⟨c, c', hc, hc', rfl⟩ | ⟨hnone, rfl, rfl⟩⟩ := put_eq_ok.1 h
          · rw [bytesAt?_cons, bytesAt?_cons, entries, entries, lookupEntry_setEntry]
            split
            next hxy =>
              subst hxy
              rw [hc]
              exact ih hc' (hq rfl)
            next => rfl
          · have hxy : x ≠ y := fun hxy => hq hxy q.nil_prefix
            rw [bytesAt?_cons, bytesAt?_cons, entries, entries, lookupEntry_setEntry, if_neg hxy]

/-- A file that is put where no directory is changes no other file. -/
theorem bytesAt?_put_file (h : n.put (.file bytes) place = .ok n') (hfile : ∀ es, n.find? place ≠ some (.dir es))
    (q : List String) : n'.bytesAt? q = if q = place then some bytes else n.bytesAt? q := by
  by_cases hq : place <+: q
  · obtain ⟨rest, rfl⟩ := hq
    rw [bytesAt?_put h]
    cases rest with
    | nil =>
        rw [List.append_nil, if_pos rfl]
        rfl
    | cons x rest =>
        rw [bytesAt?_below hfile, if_neg (by simp)]
        rfl
  · have hne : q ≠ place := fun he => hq (he ▸ List.prefix_rfl)
    rw [bytesAt?_put_outside h hq, if_neg hne]

/-- An empty directory that is put where nothing is changes no file. -/
theorem bytesAt?_put_dir (h : n.put (.dir []) place = .ok n') (hnone : n.find? place = none) (q : List String) :
    n'.bytesAt? q = n.bytesAt? q := by
  by_cases hq : place <+: q
  · obtain ⟨rest, rfl⟩ := hq
    rw [bytesAt?_put h, bytesAt?_append, hnone]
    cases rest <;> rfl
  · exact bytesAt?_put_outside h hq

/-- A file is in a directory, or is all there is. -/
theorem exists_dir_of_file (h : n.find? (place ++ [x]) = some (.file bytes)) :
    ∃ es, n.find? place = some (.dir es) ∧ lookupEntry x es = some (.file bytes) := by
  rw [find?_append, Option.bind_eq_some_iff] at h
  obtain ⟨c, hc, hx⟩ := h
  rw [find?_singleton] at hx
  cases c with
  | file held => cases hx
  | dir es => exact ⟨es, hc, hx⟩

/-- A file that is taken away leaves nothing at its place, and all else as it was. -/
theorem of_remove (h : n.remove place = .ok n') (hfile : n.find? place = some (.file bytes)) :
    n.DirsIn n' ∧ ∀ q, n'.bytesAt? q = if q = place then none else n.bytesAt? q := by
  rcases List.eq_nil_or_concat place with rfl | ⟨top, x, rfl⟩
  · cases h
  rw [List.concat_eq_append] at h hfile ⊢
  obtain ⟨es, hdir, hx⟩ := exists_dir_of_file hfile
  rw [remove_child hdir hx] at h
  refine ⟨dirsIn_put h fun c hc => ?_, fun q => ?_⟩
  · rw [hdir] at hc
    cases hc
    exact Files.dirsIn_filter (Files.noDir_of_file hx)
  by_cases hq : top <+: q
  · obtain ⟨rest, rfl⟩ := hq
    rw [bytesAt?_put h, bytesAt?_append, hdir]
    cases rest with
    | nil => rw [if_neg (by simp)]; rfl
    | cons y rest =>
        simp only [List.append_cancel_left_eq, Option.bind_some]
        rw [bytesAt?_cons, bytesAt?_cons, entries, entries]
        by_cases hxy : x = y
        · subst hxy
          rw [lookupEntry_eq_none.2 (by simp), hx]
          cases rest with
          | nil => rw [if_pos rfl]; rfl
          | cons z rest => rw [if_neg (by simp)]; rfl
        · rw [lookupEntry_filter_ne hxy, if_neg fun he => hxy (List.cons.inj he).1.symm]
  · have hne : q ≠ top ++ [x] := fun he => hq (he ▸ List.prefix_append _ _)
    rw [bytesAt?_put_outside h hq, if_neg hne]

/-- A file in a directory can be taken away. -/
theorem exists_remove (hfile : n.find? (place ++ [x]) = some (.file bytes)) :
    ∃ n', n.remove (place ++ [x]) = .ok n' := by
  obtain ⟨es, hdir, hx⟩ := exists_dir_of_file hfile
  rw [remove_child hdir hx]
  exact exists_put hdir _

end Node

/-! ## Both trees -/

/-- A place in the files: in which tree, and the names from the top of that. -/
structure FilePlace where
  rooted : Bool
  names : List String
deriving DecidableEq, Repr

/-- The place to which a path leads where all its directories are there. -/
def Path.place (p : Path) : FilePlace := ⟨!p.anchor.isEmpty, p.names.foldl Files.placeAfter []⟩

theorem Path.place_below (p : Path) {x : String} (hx : x ≠ "..") :
    (p.below [x]).place = ⟨p.place.rooted, p.place.names ++ [x]⟩ := by
  rw [place, below, List.foldl_append]
  exact congrArg (FilePlace.mk _) (if_neg (by simpa using hx))

namespace Files

open Node

variable {fs fs' fs'' : Files} {p p' : Path} {bytes : List UInt8}

def treeAt (fs : Files) (rooted : Bool) : Node := if rooted then fs.root else fs.here

/-- The bytes of the file at a place, if a file is there. -/
def bytesAt? (fs : Files) (q : FilePlace) : Option (List UInt8) := (fs.treeAt q.rooted).bytesAt? q.names

theorem tree_eq (fs : Files) (p : Path) : fs.tree p = fs.treeAt p.place.rooted := by
  rw [tree, treeAt, Path.place]
  cases p.anchor.isEmpty <;> rfl

theorem treeAt_setTree (fs : Files) (p : Path) (n : Node) (rooted : Bool) :
    (fs.setTree p n).treeAt rooted = if rooted = p.place.rooted then n else fs.treeAt rooted := by
  rw [setTree, treeAt, treeAt, Path.place]
  cases p.anchor.isEmpty <;> cases rooted <;> rfl

theorem bytesAt?_place (fs : Files) (p : Path) : fs.bytesAt? p.place = (fs.tree p).bytesAt? p.place.names := by
  rw [tree_eq]
  rfl

/-- A path leads to its place, if anywhere. -/
theorem names_of_walk {n : Node} {place reached names : List String} (h : walk n place names = .ok reached) :
    reached = names.foldl placeAfter place := by
  induction names generalizing place with
  | nil => exact (Except.ok.inj h).symm
  | cons name rest ih => exact ih (walk_cons_eq_ok.1 h).2.2

theorem names_of_locate? {place : List String} (h : fs.locate? p = .ok place) : place = p.place.names := names_of_walk h

theorem read_eq_ok : fs.read p = .ok bytes ↔
    fs.locate? p = .ok p.place.names ∧ fs.bytesAt? p.place = some bytes := by
  have hread : fs.read p = .ok bytes ↔ fs.node? p = .ok (.file bytes) := by
    refine bind_eq_ok.trans ⟨?_, fun h => ⟨_, h, rfl⟩⟩
    rintro ⟨n, hn, h⟩
    cases n with
    | file held =>
        cases h
        exact hn
    | dir es => cases h
  rw [hread, node?_eq_ok, bytesAt?_place, bytesAt?_eq_some]
  constructor
  · rintro ⟨place, hplace, hfile⟩
    cases names_of_locate? hplace
    exact ⟨hplace, hfile⟩
  · rintro ⟨hplace, hfile⟩
    exact ⟨_, hplace, hfile⟩

/-! ## Directories stay -/

/-- Whatever place was a directory is one still. -/
def DirsStay (fs fs' : Files) : Prop := ∀ rooted, (fs.treeAt rooted).DirsIn (fs'.treeAt rooted)

theorem DirsStay.refl (fs : Files) : fs.DirsStay fs := fun _ _ h => h

theorem DirsStay.trans (h : fs.DirsStay fs') (h' : fs'.DirsStay fs'') : fs.DirsStay fs'' :=
  fun rooted place hplace => h' rooted place (h rooted place hplace)

theorem dirsStay_setTree {n : Node} (h : (fs.tree p).DirsIn n) : fs.DirsStay (fs.setTree p n) := by
  intro rooted
  rw [treeAt_setTree]
  split
  next hrooted => rwa [tree_eq, ← hrooted] at h
  next => exact fun _ hplace => hplace

/-- A path that led to its place leads there still. -/
theorem DirsStay.locate? (h : fs.DirsStay fs') (hplace : fs.locate? p = .ok p.place.names) :
    fs'.locate? p = .ok p.place.names := by
  rw [Files.locate?, tree_eq] at hplace ⊢
  exact walk_of_dirsIn (h _) hplace

/-! ## What operations leave -/

/-- A changed tree is all that changes. -/
theorem bytesAt?_setTree {n : Node} {at? : List String → Option (List UInt8)}
    (h : ∀ names, n.bytesAt? names = at? names) (q : FilePlace) :
    (fs.setTree p n).bytesAt? q = if q.rooted = p.place.rooted then at? q.names else fs.bytesAt? q := by
  rw [bytesAt?, treeAt_setTree]
  split
  · exact h q.names
  · rfl

/-- Only one place of a tree changes. -/
theorem bytesAt?_setTree_of_one {n : Node} {held : Option (List UInt8)}
    (h : ∀ names, n.bytesAt? names = if names = p.place.names then held else (fs.tree p).bytesAt? names)
    (q : FilePlace) : (fs.setTree p n).bytesAt? q = if q = p.place then held else fs.bytesAt? q := by
  rw [bytesAt?_setTree h]
  obtain ⟨rooted, names⟩ := q
  by_cases hrooted : rooted = p.place.rooted
  · subst hrooted
    rw [if_pos rfl]
    by_cases hnames : names = p.place.names
    · subst hnames
      rw [if_pos rfl, if_pos rfl]
    · rw [if_neg hnames, if_neg fun he => hnames (congrArg FilePlace.names he), tree_eq]
      rfl
  · rw [if_neg hrooted, if_neg fun he => hrooted (congrArg FilePlace.rooted he)]

theorem bytesAt?_of_makeDirsFrom {n n' : Node} {place names : List String} (h : makeDirsFrom n place names = .ok n')
    (q : List String) : n'.bytesAt? q = n.bytesAt? q := by
  induction names generalizing n place with
  | nil =>
      cases h
      rfl
  | cons name rest ih =>
      obtain ⟨-, ⟨-, hrest⟩ | ⟨hnone, made, hmade, hrest⟩⟩ := makeDirsFrom_cons_eq_ok.1 h
      · exact ih hrest
      · exact (ih hrest).trans (bytesAt?_put_dir hmade hnone q)

/-- Directories can be made without a change to any file. -/
theorem of_makeDirs (h : fs.makeDirs p = .ok fs') : fs.DirsStay fs' ∧ ∀ q, fs'.bytesAt? q = fs.bytesAt? q := by
  obtain ⟨n, hn, h⟩ := bind_eq_ok.1 h
  cases h
  refine ⟨dirsStay_setTree (makeDirsFrom_eq_ok hn).1, fun q => ?_⟩
  rw [bytesAt?_setTree (bytesAt?_of_makeDirsFrom hn)]
  split
  next hrooted =>
    rw [tree_eq, ← hrooted]
    rfl
  next => rfl

/-- Where directories were made their path leads to its place, unless that is no directory. -/
theorem locate?_of_makeDirs (h : fs.makeDirs p = .ok fs') (hdir : (fs'.tree p).DirAt p.place.names) :
    fs'.locate? p = .ok p.place.names := by
  obtain ⟨n, hn, h⟩ := bind_eq_ok.1 h
  cases h
  rw [tree_setTree] at hdir
  obtain ⟨reached, hwalk, -⟩ := (makeDirsFrom_eq_ok hn).2 (dirAt_root hdir)
  cases names_of_walk hwalk
  rw [Files.locate?, tree_setTree]
  exact hwalk

/-- Where a file was written its path led to its place, and no other file changed. -/
theorem of_write (h : fs.write p bytes = .ok fs') : fs.locate? p = .ok p.place.names ∧ fs.DirsStay fs' ∧
    ∀ q, fs'.bytesAt? q = if q = p.place then some bytes else fs.bytesAt? q := by
  obtain ⟨place, hplace, h⟩ := bind_eq_ok.1 h
  cases names_of_locate? hplace
  have hfile : ∀ es, (fs.tree p).find? p.place.names ≠ some (.dir es) := by
    intro es hes
    rw [hes] at h
    cases h
  have hput : ∃ n, (fs.tree p).put (.file bytes) p.place.names = .ok n ∧ fs' = fs.setTree p n := by
    split at h
    next => cases h
    next =>
      obtain ⟨n, hn, h⟩ := bind_eq_ok.1 h
      exact ⟨n, hn, (Except.ok.inj h).symm⟩
  obtain ⟨n, hn, rfl⟩ := hput
  refine ⟨hplace, dirsStay_setTree (dirsIn_put hn fun c hc => ?_), bytesAt?_setTree_of_one (bytesAt?_put_file hn hfile)⟩
  cases c with
  | file held => exact fun _ hdir => absurd hdir (not_dirAt_file held)
  | dir es => exact absurd hc (hfile es)

/-- Where a file was taken away there is none, and no other file changed. -/
theorem of_remove (h : fs.remove p = .ok fs') (hfile : fs.bytesAt? p.place = some bytes) :
    fs.DirsStay fs' ∧ ∀ q, fs'.bytesAt? q = if q = p.place then none else fs.bytesAt? q := by
  obtain ⟨place, hplace, h⟩ := bind_eq_ok.1 h
  obtain ⟨n, hn, h⟩ := bind_eq_ok.1 h
  cases h
  cases names_of_locate? hplace
  rw [bytesAt?_place, bytesAt?_eq_some] at hfile
  obtain ⟨hdirs, hbytes⟩ := Node.of_remove hn hfile
  exact ⟨dirsStay_setTree hdirs, bytesAt?_setTree_of_one hbytes⟩

/-- A file to which a path of some names leads can be taken away. -/
theorem exists_remove (hplace : fs.locate? p = .ok p.place.names) (hfile : fs.bytesAt? p.place = some bytes)
    (hne : p.names ≠ []) : ∃ fs', fs.remove p = .ok fs' := by
  rw [bytesAt?_place, bytesAt?_eq_some] at hfile
  rcases List.eq_nil_or_concat p.place.names with htop | ⟨top, x, hnames⟩
  · -- What has a name in it is a directory, and so is no file.
    obtain ⟨name, rest, hcons⟩ := List.exists_cons_of_ne_nil hne
    rw [Files.locate?, hcons] at hplace
    obtain ⟨es, hdir⟩ := (walk_cons_eq_ok.1 hplace).1
    rw [htop, hdir] at hfile
    cases hfile
  · rw [List.concat_eq_append] at hnames
    rw [hnames] at hplace hfile
    obtain ⟨n, hn⟩ := Node.exists_remove hfile
    exact ⟨_, bind_eq_ok.2 ⟨_, hplace, bind_eq_ok.2 ⟨n, hn, rfl⟩⟩⟩

/-- Where a file was moved its bytes are at the place of the other path and not at its own, and no other file
changed. -/
theorem of_move (h : fs.move p p' = .ok fs') (hne : p.place ≠ p'.place) : fs'.locate? p' = .ok p'.place.names ∧
    fs.DirsStay fs' ∧
    ∀ q, fs'.bytesAt? q =
      if q = p.place then none else if q = p'.place then fs.bytesAt? p.place else fs.bytesAt? q := by
  obtain ⟨held, hread, hrest⟩ := bind_eq_ok.1 h
  obtain ⟨fs₁, hwrite, hremove⟩ := bind_eq_ok.1 hrest
  obtain ⟨-, hheld⟩ := read_eq_ok.1 hread
  obtain ⟨hplace, hdirs, hbytes⟩ := of_write hwrite
  have hthere : fs₁.bytesAt? p.place = some held := by rw [hbytes, if_neg hne, hheld]
  obtain ⟨hdirs', hbytes'⟩ := of_remove hremove hthere
  refine ⟨(hdirs.trans hdirs').locate? hplace, hdirs.trans hdirs', fun q => ?_⟩
  rw [hbytes', hbytes, hheld]

end Files

end ApiDiscovery
