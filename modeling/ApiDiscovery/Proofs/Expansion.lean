import ApiDiscovery.Template

/-!
# What a template expands to

Filling goes through the pieces of a template and stops at the first hole without a value, or with one that cannot
be written. What comes of it is said here at a glance: the first flaw of a name (`flaw?`), if there is one
(`fill_eq`), and else the texts of the pieces one behind the other (`Piece.filled`), with the names of all holes in
order.

Taking a template apart loses nothing: `render_pieces`.
-/

namespace ApiDiscovery.Template

variable {lookup : String → Option Value} {method : Option String}

/-! ## Filling -/

/-- What stands in the place of a piece. -/
def Piece.filled (lookup : String → Option Value) : Piece → List Char
  | .literal t => t
  | .hole reserved name => ((lookup (String.ofList name)).map (filling reserved)).getD []

/-- What keeps a hole from being filled: it has no value, or one that cannot be written. -/
def flaw? (lookup : String → Option Value) (method : Option String) (name : String) : Option FillFault :=
  if isMissing (lookup name) then some (.missing ⟨name, method⟩)
  else if (lookup name).all (·.isWritable) then none
  else some .unwritable

theorem flaw?_eq_none {name : String} :
    flaw? lookup method name = none ↔
      isMissing (lookup name) = false ∧ (lookup name).all (·.isWritable) = true := by
  rw [flaw?]
  cases isMissing (lookup name) with
  | true => exact iff_of_false nofun fun h => nomatch h.1
  | false => cases (lookup name).all (·.isWritable) <;> simp

theorem flaw?_eq_missing {name : String} {m : MissingParameter} :
    flaw? lookup method name = some (.missing m) ↔ isMissing (lookup name) = true ∧ m = ⟨name, method⟩ := by
  rw [flaw?]
  cases isMissing (lookup name) with
  | true => simp [eq_comm]
  | false => cases (lookup name).all (·.isWritable) <;> simp

/-- The first hole with a flaw is the only thing that keeps pieces from being filled. -/
theorem fill_eq (lookup : String → Option Value) (method : Option String) (ps : List Piece) :
    fill lookup method ps =
      match (ps.filterMap Piece.name?).findSome? (flaw? lookup method) with
      | some f => .error f
      | none => .ok (ps.flatMap (Piece.filled lookup), ps.filterMap Piece.name?) := by
  induction ps with
  | nil => rfl
  | cons p rest ih =>
      cases p with
      | literal t =>
          rw [fill, ih, List.filterMap_cons_none rfl]
          cases (rest.filterMap Piece.name?).findSome? (flaw? lookup method) <;> rfl
      | hole reserved name =>
          have hnames : (Piece.hole reserved name :: rest).filterMap Piece.name? =
              String.ofList name :: rest.filterMap Piece.name? := List.filterMap_cons_some rfl
          rw [fill, ih, hnames, List.findSome?_cons, List.flatMap_cons, Piece.filled, flaw?]
          cases hv : lookup (String.ofList name) with
          | none => rfl
          | some v =>
              cases hm : isMissing (some v) with
              | true => simp only [hm, if_true]
              | false =>
                  cases hw : v.isWritable with
                  | false => simp only [hm, hw, Bool.not_false, Option.all_some, Bool.false_eq_true, if_true, if_false]
                  | true =>
                      simp only [hm, hw, Bool.not_true, Option.all_some, Bool.false_eq_true, if_true, if_false]
                      cases (rest.filterMap Piece.name?).findSome? (flaw? lookup method) <;> rfl

theorem expand_eq (template : String) (lookup : String → Option Value) (method : Option String) :
    expand template lookup method =
      match (names template).findSome? (flaw? lookup method) with
      | some f => .error f
      | none =>
          .ok (String.ofList ((pieces template.toList).flatMap (Piece.filled lookup)),
            names template) := by
  rw [expand, fill_eq, names]
  cases ((pieces template.toList).filterMap Piece.name?).findSome? (flaw? lookup method) <;> rfl

/-- A template expands if every hole has a value that can be written. The names that it uses are those of its
holes, in order and as often as they stand there. -/
theorem expand_eq_ok {template : String} (h : ∀ name ∈ names template, flaw? lookup method name = none) :
    expand template lookup method =
      .ok (String.ofList ((pieces template.toList).flatMap (Piece.filled lookup)), names template) := by
  rw [expand_eq, List.findSome?_eq_none_iff.2 h]

/-- The first hole with a flaw is reported. -/
theorem expand_eq_error {template : String} {before after : List String} {name : String} {f : FillFault}
    (hnames : names template = before ++ name :: after)
    (hbefore : ∀ n ∈ before, flaw? lookup method n = none) (hname : flaw? lookup method name = some f) :
    expand template lookup method = .error f := by
  have hfirst : (names template).findSome? (flaw? lookup method) = some f := by
    rw [hnames, List.findSome?_append, List.findSome?_eq_none_iff.2 hbefore, Option.none_or,
      List.findSome?_cons, hname]
  rw [expand_eq, hfirst]

/-- Where no hole is without a value, none is reported to be. -/
theorem expand_ne_missing {template : String} (h : ∀ name ∈ names template, isMissing (lookup name) = false)
    (m : MissingParameter) : expand template lookup method ≠ .error (.missing m) := by
  rw [expand_eq]
  cases hf : (names template).findSome? (flaw? lookup method) with
  | none => nofun
  | some f =>
      obtain ⟨name, hn, hname⟩ := List.exists_of_findSome?_eq_some hf
      intro hmissing
      cases hmissing
      have hfalse := (flaw?_eq_missing.1 hname).1
      rw [h name hn] at hfalse
      cases hfalse

theorem expand_ok {template path : String} {used : List String}
    (h : expand template lookup method = .ok (path, used)) :
    path.toList = (pieces template.toList).flatMap (Piece.filled lookup) ∧ used = names template ∧
      ∀ name ∈ names template, flaw? lookup method name = none := by
  rw [expand_eq] at h
  cases hf : (names template).findSome? (flaw? lookup method) with
  | some f => rw [hf] at h; cases h
  | none =>
      rw [hf] at h
      cases h
      exact ⟨String.toList_ofList, rfl, List.findSome?_eq_none_iff.1 hf⟩

/-- What is not missing is there. -/
theorem exists_of_isMissing_eq_false {v : Option Value} (h : isMissing v = false) : ∃ w, v = some w := by
  cases v with
  | none => cases h
  | some w => exact ⟨w, rfl⟩

/-! ## Pieces -/

theorem render_prepend (c : Char) (ps : List Piece) : render (prepend c ps) = c :: render ps := by
  cases ps with
  | nil => rfl
  | cons p rest => cases p <;> rfl

/-- A hole and what is behind it are what stands behind its opening brace. -/
theorem hole?_text {s : List Char} {p : Piece} {rest : List Char} (h : hole? s = some (p, rest)) :
    '{' :: s = p.text ++ rest := by
  have hs : s = s.takeWhile (!isBrace ·) ++ s.dropWhile (!isBrace ·) :=
    List.takeWhile_append_dropWhile.symm
  unfold hole? at h
  dsimp only at h
  split at h
  · next r hd =>
    rw [hd] at hs
    generalize s.takeWhile (!isBrace ·) = inner at h hs
    split at h
    · cases h
    · cases h
      rw [hs]
      simp [Piece.text]
    · cases h
      rw [hs]
      simp [Piece.text]
  · cases h

/-- The pieces of a template, put together, are the template. -/
theorem render_pieces (s : List Char) : render (pieces s) = s := by
  fun_induction pieces s with
  | case1 => rfl
  | case2 c rest hc p after h hlt ih =>
      obtain rfl : c = '{' := by simpa using hc
      rw [hole?_text h, render, List.flatMap_cons]
      exact congrArg (p.text ++ ·) ih
  | case3 c rest hc h ih => rw [render_prepend, ih]
  | case4 c rest hc ih => rw [render_prepend, ih]

end ApiDiscovery.Template
