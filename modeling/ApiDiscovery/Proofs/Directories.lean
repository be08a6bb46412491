import ApiDiscovery.Proofs.FileTree

/-!
# Changing what a directory has

What is written or taken away in a directory changes the entries of that directory, and no other one's: all places
that are directories stay so (`Node.DirsIn`). Hence a path leads on where it led before, and a directory that was
made once is there when it is to be made again (`Files.makeDirs_self`).

    writing a file      sets its name among the entries       (`Files.write_below`)
    taking it away      leaves out its name                   (`Files.remove_below`)

Files can be written where no directory has their name among the entries (`Files.NoDir`), and only there.
-/

namespace ApiDiscovery

open Text

theorem lookupEntry_filter_ne {x y : String} (h : x ≠ y) (es : List (String × α)) :
    lookupEntry y (es.filter fun e => e.1 != x) = lookupEntry y es := by
  induction es with
  | nil => rfl
  | cons e es ih =>
      by_cases hx : e.1 = x
      · rw [List.filter_cons_of_neg (by simpa using hx), ih, lookupEntry, if_neg (hx ▸ h)]
      · rw [List.filter_cons_of_pos (by simpa using hx), lookupEntry, lookupEntry, ih]

/-! ## Changing a tree -/

namespace Node

def DirAt (n : Node) (place : List String) : Prop := ∃ es, n.find? place = some (.dir es)

/-- Whatever place is a directory in the one tree is a directory in the other. -/
def DirsIn (n n' : Node) : Prop := ∀ place, n.DirAt place → n'.DirAt place

variable {n n' new : Node} {place : List String} {es : List (String × Node)} {x : String}

theorem not_dirAt_file (bytes : List UInt8) : ¬ (file bytes).DirAt place := by
  rintro ⟨es, h⟩
  cases place <;> cases h

theorem find?_cons (n : Node) (x : String) (rest : List String) :
    n.find? (x :: rest) = (lookupEntry x n.entries).bind (·.find? rest) := by
  rw [← List.singleton_append, find?_append, find?_singleton]

theorem dirAt_cons {y : String} : (dir es).DirAt (y :: place) ↔ ∃ c, lookupEntry y es = some c ∧ c.DirAt place := by
  simp only [DirAt, find?_cons, Option.bind_eq_some_iff]
  exact exists_comm.trans (exists_congr fun c => exists_and_left)

/-- Entries can be changed as long as directories stay what they are. -/
theorem dirsIn_dir {es' : List (String × Node)}
    (h : ∀ y c, lookupEntry y es = some c → ∀ place, c.DirAt place →
      ∃ c', lookupEntry y es' = some c' ∧ c'.DirAt place) :
    (dir es).DirsIn (dir es') := by
  intro place hplace
  cases place with
  | nil => exact ⟨es', rfl⟩
  | cons y place =>
      obtain ⟨c, hc, hplace⟩ := dirAt_cons.1 hplace
      exact dirAt_cons.2 (h y c hc place hplace)

/-- One entry can be set as long as what it had is kept. -/
theorem dirsIn_setEntry (h : ∀ c, lookupEntry x es = some c → c.DirsIn new) :
    (dir es).DirsIn (dir (setEntry x new es)) := by
  refine dirsIn_dir fun y c hc place hplace => ?_
  rw [lookupEntry_setEntry]
  split
  next hx =>
    rw [← hx] at hc
    exact ⟨new, rfl, h c hc place hplace⟩
  next => exact ⟨c, hc, hplace⟩

theorem put_eq_ok {rest : List String} : n.put new (x :: rest) = .ok n' ↔ ∃ es, n = dir es ∧
    ((∃ c c', lookupEntry x es = some c ∧ c.put new rest = .ok c' ∧ n' = dir (setEntry x c' es)) ∨
      lookupEntry x es = none ∧ rest = [] ∧ n' = dir (setEntry x new es)) := by
  cases n with
  | file bytes =>
      constructor
      · intro h
        cases h
      · rintro ⟨es, h, -⟩
        cases h
  | dir es =>
      rw [put]
      cases hx : lookupEntry x es with
      | some c =>
          refine bind_eq_ok.trans ⟨?_, ?_⟩
          · rintro ⟨c', hc', h⟩
            cases h
            exact ⟨es, rfl, .inl ⟨c, c', hx, hc', rfl⟩⟩
          · rintro ⟨_, ⟨⟩, ⟨d, c', hd, hc', rfl⟩ | ⟨hnone, -⟩⟩
            · rw [hx] at hd
              cases hd
              exact ⟨c', hc', rfl⟩
            · rw [hx] at hnone
              cases hnone
      | none =>
          dsimp only
          split
          next hrest =>
            rw [List.isEmpty_iff] at hrest
            constructor
            · intro h
              cases h
              exact ⟨es, rfl, .inr ⟨hx, hrest, rfl⟩⟩
            · rintro ⟨_, ⟨⟩, ⟨d, _, hd, -⟩ | ⟨-, -, rfl⟩⟩
              · rw [hx] at hd
                cases hd
              · rfl
          next hrest =>
            constructor
            · intro h
              cases h
            · rintro ⟨_, ⟨⟩, ⟨d, _, hd, -⟩ | ⟨-, hnil, -⟩⟩
              · rw [hx] at hd
                cases hd
              · exact absurd (List.isEmpty_iff.2 hnil) hrest

/-- What is put at a place is found there. -/
theorem find?_put (h : n.put new place = .ok n') : n'.find? place = some new := by
  induction place generalizing n n' with
  | nil =>
      cases h
      rfl
  | cons x rest ih =>
      obtain ⟨es, rfl, ⟨c, c', -, hc', rfl⟩ | ⟨-, rfl, rfl⟩⟩ := put_eq_ok.1 h
      · rw [find?, entries, lookupEntry_setEntry, if_pos rfl]
        exact ih hc'
      · rw [find?_singleton, entries, lookupEntry_setEntry, if_pos rfl]

/-- Directories stay where what is put at a place has those of what was there. -/
theorem dirsIn_put (h : n.put new place = .ok n') (hkeep : ∀ c, n.find? place = some c → c.DirsIn new) :
    n.DirsIn n' := by
  induction place generalizing n n' with
  | nil =>
      cases h
      exact hkeep n rfl
  | cons x rest ih =>
      obtain ⟨es, rfl, ⟨c, c', hc, hc', rfl⟩ | ⟨hnone, rfl, rfl⟩⟩ := put_eq_ok.1 h
      · have hdirs := ih hc' fun d hd => hkeep d (by rw [find?, entries, hc]; exact hd)
        refine dirsIn_setEntry fun d hd => ?_
        rw [hc] at hd
        cases hd
        exact hdirs
      · refine dirsIn_setEntry fun d hd => ?_
        rw [hnone] at hd
        cases hd

/-- Something can be put wherever something is. -/
theorem exists_put {c : Node} (h : n.find? place = some c) (new : Node) : ∃ n', n.put new place = .ok n' := by
  induction place generalizing n with
  | nil => exact ⟨new, rfl⟩
  | cons x rest ih =>
      rw [find?_cons, Option.bind_eq_some_iff] at h
      obtain ⟨d, hd, hc⟩ := h
      obtain ⟨d', hd'⟩ := ih hc
      cases n with
      | file bytes => cases hd
      | dir es => exact ⟨_, put_eq_ok.2 ⟨es, rfl, .inl ⟨d, d', hd, hd', rfl⟩⟩⟩

/-- To put something into a directory is to change the directory. -/
theorem put_child (h : n.find? place = some (dir es)) (new : Node) (x : String) :
    n.put new (place ++ [x]) = n.put (dir (setEntry x new es)) place := by
  induction place generalizing n with
  | nil =>
      cases h
      rw [List.nil_append, put, put]
      cases lookupEntry x es <;> rfl
  | cons y rest ih =>
      rw [find?_cons, Option.bind_eq_some_iff] at h
      obtain ⟨c, hc, hdir⟩ := h
      cases n with
      | file bytes => cases hc
      | dir top =>
          have hc : lookupEntry y top = some c := hc
          rw [List.cons_append, put, put, hc]
          dsimp only
          rw [ih hdir]

/-- To take something out of a directory is to change the directory. -/
theorem remove_child (h : n.find? place = some (dir es)) {c : Node} (hx : lookupEntry x es = some c) :
    n.remove (place ++ [x]) = n.put (dir (es.filter fun e => e.1 != x)) place := by
  induction place generalizing n with
  | nil =>
      cases h
      rw [List.nil_append, remove, put, hx]
      rfl
  | cons y rest ih =>
      rw [find?_cons, Option.bind_eq_some_iff] at h
      obtain ⟨d, hd, hdir⟩ := h
      cases n with
      | file bytes => cases hd
      | dir top =>
          have hd : lookupEntry y top = some d := hd
          have hrest : (rest ++ [x]).isEmpty = false :=
            List.isEmpty_eq_false_iff.2 (List.append_ne_nil_of_right_ne_nil _ (List.cons_ne_nil _ _))
          rw [List.cons_append, remove, put, hd, hrest]
          dsimp only
          rw [if_neg Bool.false_ne_true, ih hdir]

end Node

/-! ## Making directories -/

namespace Files

open Node

variable {n n' : Node} {place reached : List String}

/-- The place that one name leads to. -/
def placeAfter (place : List String) (name : String) : List String :=
  if name == ".." then place.dropLast else place ++ [name]

/-- One step of a walk. It leads on from a directory, by a name that is not too long. -/
theorem walk_cons_cases (n : Node) (place : List String) (name : String) (rest : List String) :
    (¬ n.DirAt place ∧ (walk n place (name :: rest) = .error .notFound ∨
      walk n place (name :: rest) = .error .notDirectory)) ∨
    (n.DirAt place ∧ ¬ Fits name ∧ walk n place (name :: rest) = .error .nameTooLong) ∨
    n.DirAt place ∧ Fits name ∧ walk n place (name :: rest) = walk n (placeAfter place name) rest := by
  rw [walk, placeAfter, DirAt, Fits, ← not_lt, not_not]
  cases n.find? place with
  | none =>
      refine .inl ⟨?_, .inl rfl⟩
      rintro ⟨es, h⟩
      cases h
  | some c =>
      cases c with
      | file bytes =>
          refine .inl ⟨?_, .inr rfl⟩
          rintro ⟨es, h⟩
          cases h
      | dir es =>
          dsimp only
          split
          next hlong => exact .inr (.inl ⟨⟨es, rfl⟩, hlong, rfl⟩)
          next hshort =>
            refine .inr (.inr ⟨⟨es, rfl⟩, hshort, ?_⟩)
            split <;> rfl

theorem walk_cons_eq_ok {name : String} {rest : List String} :
    walk n place (name :: rest) = .ok reached ↔
      n.DirAt place ∧ Fits name ∧ walk n (placeAfter place name) rest = .ok reached := by
  rcases walk_cons_cases n place name rest with ⟨hno, hwalk⟩ | ⟨-, hlong, hwalk⟩ | ⟨hdir, hfits, hwalk⟩
  · constructor
    · intro h
      rcases hwalk with hwalk | hwalk
      · rw [hwalk] at h
        cases h
      · rw [hwalk] at h
        cases h
    · exact fun h => absurd h.1 hno
  · constructor
    · intro h
      rw [hwalk] at h
      cases h
    · exact fun h => absurd h.2.1 hlong
  · rw [hwalk]
    exact ⟨fun h => ⟨hdir, hfits, h⟩, fun h => h.2.2⟩

/-- Where directories stay, a path leads on where it led. -/
theorem walk_of_dirsIn (h : n.DirsIn n') {names : List String} (hwalk : walk n place names = .ok reached) :
    walk n' place names = .ok reached := by
  induction names generalizing place with
  | nil => exact hwalk
  | cons name rest ih =>
      obtain ⟨hdir, hfits, hrest⟩ := walk_cons_eq_ok.1 hwalk
      exact walk_cons_eq_ok.2 ⟨h place hdir, hfits, ih hrest⟩

theorem makeDirsFrom_cons_eq_ok {name : String} {rest : List String} :
    makeDirsFrom n place (name :: rest) = .ok n' ↔ Fits name ∧
      (n.DirAt (placeAfter place name) ∧ makeDirsFrom n (placeAfter place name) rest = .ok n' ∨
        n.find? (placeAfter place name) = none ∧ ∃ made, n.put (.dir []) (placeAfter place name) = .ok made ∧
          makeDirsFrom made (placeAfter place name) rest = .ok n') := by
  rw [makeDirsFrom, DirAt, Fits, ← not_lt]
  split
  next hlong =>
    constructor
    · intro h
      cases h
    · intro h
      exact absurd hlong h.1
  next hshort =>
    have hafter : (if name == ".." then place.dropLast else place ++ [name]) = placeAfter place name := rfl
    dsimp only
    rw [hafter]
    cases n.find? (placeAfter place name) with
    | none =>
        refine bind_eq_ok.trans ⟨fun h => ⟨hshort, .inr ⟨rfl, h⟩⟩, ?_⟩
        rintro ⟨-, ⟨⟨_, h⟩, -⟩ | ⟨-, h⟩⟩
        · cases h
        · exact h
    | some c =>
        cases c with
        | file bytes =>
            constructor
            · intro h
              cases h
            · rintro ⟨-, ⟨⟨es, h⟩, -⟩ | ⟨h, -⟩⟩
              · cases h
              · cases h
        | dir es =>
            constructor
            · intro h
              exact ⟨hshort, .inl ⟨⟨es, rfl⟩, h⟩⟩
            · rintro ⟨-, ⟨-, h⟩ | ⟨h, -⟩⟩
              · exact h
              · cases h

/-- What was made is a way of directories, and all directories stay. -/
theorem makeDirsFrom_eq_ok {names : List String} (h : makeDirsFrom n place names = .ok n') :
    n.DirsIn n' ∧ (n'.DirAt place → ∃ reached, walk n' place names = .ok reached ∧ n'.DirAt reached) := by
  induction names generalizing n place with
  | nil =>
      cases h
      exact ⟨fun _ hdir => hdir, fun hdir => ⟨place, rfl, hdir⟩⟩
  | cons name rest ih =>
      obtain ⟨hfits, ⟨hthere, hrest⟩ | ⟨hnone, made, hmade, hrest⟩⟩ := makeDirsFrom_cons_eq_ok.1 h
      · obtain ⟨hdirs, hway⟩ := ih hrest
        obtain ⟨reached, hwalk, hdir⟩ := hway (hdirs _ hthere)
        exact ⟨hdirs, fun hplace => ⟨reached, walk_cons_eq_ok.2 ⟨hplace, hfits, hwalk⟩, hdir⟩⟩
      · obtain ⟨hdirs, hway⟩ := ih hrest
        obtain ⟨reached, hwalk, hdir⟩ := hway (hdirs _ ⟨[], find?_put hmade⟩)
        have hstay : n.DirsIn made := dirsIn_put hmade fun c hc => by
          rw [hnone] at hc
          cases hc
        exact ⟨fun q hq => hdirs q (hstay q hq),
          fun hplace => ⟨reached, walk_cons_eq_ok.2 ⟨hplace, hfits, hwalk⟩, hdir⟩⟩

theorem dirAt_of_walk {names : List String} (hwalk : walk n place names = .ok reached) (hdir : n.DirAt reached) :
    n.DirAt place := by
  cases names with
  | nil =>
      cases hwalk
      exact hdir
  | cons name rest => exact (walk_cons_eq_ok.1 hwalk).1

/-- Nothing is made where the way is there. -/
theorem makeDirsFrom_self {names : List String} (hwalk : walk n place names = .ok reached)
    (hdir : n.DirAt reached) : makeDirsFrom n place names = .ok n := by
  induction names generalizing place with
  | nil => rfl
  | cons name rest ih =>
      obtain ⟨-, hfits, hrest⟩ := walk_cons_eq_ok.1 hwalk
      exact makeDirsFrom_cons_eq_ok.2 ⟨hfits, .inl ⟨dirAt_of_walk hrest hdir, ih hrest⟩⟩

/-! ## One directory -/

variable {fs fs' : Files} {p : Path} {es es' : List (String × Node)} {x : String}

theorem tree_setTree (fs : Files) (p : Path) (n : Node) : (fs.setTree p n).tree p = n := by
  rw [tree, setTree]
  split <;> rfl

theorem setTree_tree (fs : Files) (p : Path) : fs.setTree p (fs.tree p) = fs := by
  rw [tree, setTree]
  split <;> rfl

theorem makeDirs_self (h : fs.node? p = .ok (.dir es)) : fs.makeDirs p = .ok fs := by
  obtain ⟨place, hplace, hdir⟩ := node?_eq_ok.1 h
  refine bind_eq_ok.2 ⟨fs.tree p, makeDirsFrom_self hplace ⟨es, hdir⟩, ?_⟩
  exact congrArg Except.ok (setTree_tree fs p)

theorem dirAt_root (h : n.DirAt place) : n.DirAt [] := by
  cases n with
  | file bytes => exact absurd h (not_dirAt_file bytes)
  | dir es => exact ⟨es, rfl⟩

/-- A directory that was made is there. -/
theorem node?_of_makeDirs (hne : p.names ≠ []) (h : fs.makeDirs p = .ok fs') :
    ∃ es, fs'.node? p = .ok (.dir es) := by
  obtain ⟨made, hmade, h⟩ := bind_eq_ok.1 h
  cases h
  have hroot : made.DirAt [] := by
    obtain ⟨name, rest, hnames⟩ := List.exists_cons_of_ne_nil hne
    rw [hnames] at hmade
    obtain ⟨-, ⟨hthere, hrest⟩ | ⟨-, first, hfirst, hrest⟩⟩ := makeDirsFrom_cons_eq_ok.1 hmade
    · exact dirAt_root ((makeDirsFrom_eq_ok hrest).1 _ hthere)
    · exact dirAt_root ((makeDirsFrom_eq_ok hrest).1 _ ⟨[], find?_put hfirst⟩)
  obtain ⟨reached, hwalk, es, hdir⟩ := (makeDirsFrom_eq_ok hmade).2 hroot
  refine ⟨es, node?_eq_ok.2 ⟨reached, ?_, ?_⟩⟩
  · rw [locate?, tree_setTree]
    exact hwalk
  · rw [tree_setTree]
    exact hdir

/-- The entries of a directory can be changed where directories stay. -/
theorem exists_setTree (h : fs.node? p = .ok (.dir es)) (hstay : (Node.dir es).DirsIn (.dir es')) :
    ∃ place n, fs.locate? p = .ok place ∧ (fs.tree p).find? place = some (.dir es) ∧
      (fs.tree p).put (.dir es') place = .ok n ∧ (fs.setTree p n).node? p = .ok (.dir es') := by
  obtain ⟨place, hplace, hdir⟩ := node?_eq_ok.1 h
  obtain ⟨n, hn⟩ := exists_put hdir (.dir es')
  have hdirs : (fs.tree p).DirsIn n := dirsIn_put hn fun c hc => by
    rw [hdir] at hc
    cases hc
    exact hstay
  refine ⟨place, n, hplace, hdir, hn, node?_eq_ok.2 ⟨place, ?_, ?_⟩⟩
  · rw [locate?, tree_setTree]
    exact walk_of_dirsIn hdirs hplace
  · rw [tree_setTree]
    exact find?_put hn

theorem locate?_child {place : List String} (hx : x ≠ "..") (hfits : Fits x) (hplace : fs.locate? p = .ok place)
    (hdir : (fs.tree p).find? place = some (.dir es)) : fs.locate? (p.below [x]) = .ok (place ++ [x]) := by
  rw [locate?_below, hplace]
  exact (walk_singleton hx).2 ⟨es, hdir, hfits, rfl⟩

theorem find?_child {place : List String} (hdir : n.find? place = some (.dir es)) (x : String) :
    n.find? (place ++ [x]) = lookupEntry x es := by
  rw [Node.find?_append, hdir]
  exact Node.find?_singleton (.dir es) x

/-- No directory has a name among these entries. -/
def NoDir (x : String) (es : List (String × Node)) : Prop := ∀ es', lookupEntry x es ≠ some (.dir es')

theorem NoDir.setEntry {y : String} {bytes : List UInt8} (h : NoDir x es) :
    NoDir x (ApiDiscovery.setEntry y (.file bytes) es) := by
  intro es' hes'
  rw [lookupEntry_setEntry] at hes'
  split at hes'
  · cases hes'
  · exact h es' hes'

theorem NoDir.dirsIn (hfile : NoDir x es) {c : Node} (hc : lookupEntry x es = some c) (new : Node) : c.DirsIn new := by
  intro place hplace
  cases c with
  | file bytes => exact absurd hplace (not_dirAt_file bytes)
  | dir es' => exact absurd hc (hfile es')

theorem noDir_of_file {bytes : List UInt8} (h : lookupEntry x es = some (.file bytes)) : NoDir x es := by
  intro es' hes'
  rw [h] at hes'
  cases hes'

/-- A file can be written in a directory that has no directory of its name. -/
theorem write_below (h : fs.node? p = .ok (.dir es)) (hx : x ≠ "..") (hfits : Fits x) (hfile : NoDir x es)
    (bytes : List UInt8) :
    ∃ fs', fs.write (p.below [x]) bytes = .ok fs' ∧ fs'.node? p = .ok (.dir (setEntry x (.file bytes) es)) := by
  obtain ⟨place, n, hplace, hdir, hn, hnode⟩ :=
    exists_setTree h (dirsIn_setEntry fun c hc => hfile.dirsIn hc (.file bytes))
  refine ⟨fs.setTree p n, ?_, hnode⟩
  have hput : (fs.tree p).put (.file bytes) (place ++ [x]) = .ok n := (put_child hdir _ x).trans hn
  rw [write, locate?_child hx hfits hplace hdir, ok_bind]
  split
  next hes => exact absurd ((find?_child hdir x).symm.trans hes) (hfile _)
  next => exact bind_eq_ok.2 ⟨n, hput, rfl⟩

/-- Where a file was written nothing stood in the way, and it is among the entries. -/
theorem of_write_below (h : fs.node? p = .ok (.dir es)) (hx : x ≠ "..") {bytes : List UInt8}
    (hwrite : fs.write (p.below [x]) bytes = .ok fs') :
    Fits x ∧ NoDir x es ∧ fs'.node? p = .ok (.dir (setEntry x (.file bytes) es)) := by
  obtain ⟨place, hplace, hdir⟩ := node?_eq_ok.1 h
  obtain ⟨reached, hreached, hput⟩ := bind_eq_ok.1 hwrite
  rw [locate?_below, hplace] at hreached
  obtain ⟨_, _, hfits, rfl⟩ := (walk_singleton hx).1 hreached
  have hfile : NoDir x es := fun es' hes' => by
    have hfound : (fs.tree (p.below [x])).find? (place ++ [x]) = some (.dir es') := (find?_child hdir x).trans hes'
    rw [hfound] at hput
    cases hput
  obtain ⟨after, hafter, hnode⟩ := write_below h hx hfits hfile bytes
  rw [hwrite] at hafter
  cases hafter
  exact ⟨hfits, hfile, hnode⟩

theorem dirsIn_filter (hfile : NoDir x es) : (Node.dir es).DirsIn (.dir (es.filter fun e => e.1 != x)) := by
  refine dirsIn_dir fun y c hc place hplace => ?_
  by_cases hx : x = y
  · subst hx
    exact absurd (hfile.dirsIn hc (.file []) place hplace) (not_dirAt_file [])
  · exact ⟨c, (lookupEntry_filter_ne hx es).trans hc, hplace⟩

/-- A file can be taken away. -/
theorem remove_below (h : fs.node? p = .ok (.dir es)) (hx : x ≠ "..") (hfits : Fits x) {bytes : List UInt8}
    (hfile : lookupEntry x es = some (.file bytes)) :
    ∃ fs', fs.remove (p.below [x]) = .ok fs' ∧ fs'.node? p = .ok (.dir (es.filter fun e => e.1 != x)) := by
  obtain ⟨place, n, hplace, hdir, hn, hnode⟩ := exists_setTree h (dirsIn_filter (noDir_of_file hfile))
  have hremove : (fs.tree p).remove (place ++ [x]) = .ok n := (remove_child hdir hfile).trans hn
  refine ⟨fs.setTree p n, ?_, hnode⟩
  rw [remove, locate?_child hx hfits hplace hdir, ok_bind]
  exact bind_eq_ok.2 ⟨n, hremove, rfl⟩

end Files

end ApiDiscovery
