import ApiDiscovery.Proofs.Segments
import ApiDiscovery.Source.Bundle

/-!
# Paths are read back

A path that was read from a text, or is below such a path, is in normal form (`Path.IsNormal`), and reading its
written form gives it back. So nothing is lost where a path is handed on as a text. The last name of a path is
what was asked for below its directory, and the suffix of that name what was put at its end.

Main statements: `Path.ofText_render`, `formatOfName_json`.
-/

namespace ApiDiscovery

open Text

namespace Path

/-- A path as it is read from a text. -/
structure IsNormal (p : Path) : Prop where
  anchor : p.anchor = "" ∨ p.anchor = "/" ∨ p.anchor = "//"
  ne_empty : ∀ n ∈ p.names, n ≠ ""
  ne_dot : ∀ n ∈ p.names, n ≠ "."
  no_slash : ∀ n ∈ p.names, '/' ∉ n.toList

theorem mem_namesOf {s : List Char} {n : String} (h : n ∈ namesOf s) :
    n ≠ "" ∧ n ≠ "." ∧ '/' ∉ n.toList := by
  obtain ⟨part, hpart, rfl⟩ := List.mem_map.1 h
  obtain ⟨hpart, hkept⟩ := List.mem_filter.1 hpart
  rw [Query.splitAt_eq_splitOn] at hpart
  rw [Bool.and_eq_true, Bool.not_eq_true', List.isEmpty_eq_false_iff, bne_iff_ne] at hkept
  refine ⟨?_, ?_, ?_⟩
  · intro he
    exact hkept.1 (String.ofList_eq_empty_iff.1 he)
  · intro hd
    exact hkept.2 (by rw [← String.toList_ofList (l := part), hd]; rfl)
  · rw [String.toList_ofList]
    exact sep_not_mem_of_mem_splitOn hpart

theorem isNormal_ofText (s : String) : (ofText s).IsNormal where
  anchor := by
    rw [ofText]
    dsimp only
    split
    · exact .inl rfl
    · split
      · exact .inr (.inr rfl)
      · exact .inr (.inl rfl)
  ne_empty _ h := (mem_namesOf h).1
  ne_dot _ h := (mem_namesOf h).2.1
  no_slash _ h := (mem_namesOf h).2.2

theorem IsNormal.join {base p : Path} (hbase : base.IsNormal) (hp : p.IsNormal) : (base.join p).IsNormal := by
  rw [Path.join]
  split
  · refine ⟨hbase.anchor, fun n hn => ?_, fun n hn => ?_, fun n hn => ?_⟩ <;>
      rcases List.mem_append.1 hn with hn | hn
    · exact hbase.ne_empty n hn
    · exact hp.ne_empty n hn
    · exact hbase.ne_dot n hn
    · exact hp.ne_dot n hn
    · exact hbase.no_slash n hn
    · exact hp.no_slash n hn
  · exact hp

theorem IsNormal.child {base : Path} (h : base.IsNormal) (s : String) : (base.child s).IsNormal :=
  h.join (isNormal_ofText s)

/-! ## Reading a written path -/

/-- Slashes at the front are no part of a name. -/
theorem namesOf_slashes (n : Nat) (s : List Char) : namesOf (List.replicate n '/' ++ s) = namesOf s := by
  induction n with
  | zero => rfl
  | succ n ih =>
      rw [← ih, List.replicate_succ, List.cons_append, namesOf, Query.splitAt_sep]
      rfl

/-- Where slashes come first, they are the anchor. -/
theorem ofText_slashes {s : String} {n : Nat} {rest : List Char} (hs : s.toList = List.replicate n '/' ++ rest)
    (hrest : rest.takeWhile (· == '/') = []) :
    ofText s = ⟨if n = 0 then "" else if n = 2 then "//" else "/", namesOf rest⟩ := by
  rw [ofText, hs, namesOf_slashes, List.takeWhile_append_of_pos fun c hc => by simp [List.eq_of_mem_replicate hc],
    hrest, List.append_nil, List.length_replicate]

theorem namesOf_intercalate {names : List String} (hempty : ∀ n ∈ names, n ≠ "") (hdot : ∀ n ∈ names, n ≠ ".")
    (hslash : ∀ n ∈ names, '/' ∉ n.toList) : namesOf ("/".intercalate names).toList = names := by
  by_cases hnone : names = []
  · subst hnone
    rfl
  have hkept : ∀ n ∈ names.map String.toList, (!n.isEmpty && n != ['.']) = true := by
    intro n hn
    obtain ⟨name, hname, rfl⟩ := List.mem_map.1 hn
    rw [Bool.and_eq_true, Bool.not_eq_true', List.isEmpty_eq_false_iff, bne_iff_ne]
    refine ⟨fun h => hempty name hname (String.toList_eq_nil_iff.1 h), fun h => hdot name hname ?_⟩
    rw [← String.ofList_toList (s := name), h]
  have hparts : ∀ n ∈ names.map String.toList, '/' ∉ n := by
    intro n hn
    obtain ⟨name, hname, rfl⟩ := List.mem_map.1 hn
    exact hslash name hname
  rw [namesOf, Query.splitAt_eq_splitOn, String.toList_intercalate]
  show (((['/'].intercalate (names.map String.toList)).splitOn '/').filter _).map _ = names
  rw [List.splitOn_intercalate '/' hparts (by simpa using hnone), List.filter_eq_self.2 hkept, List.map_map]
  exact (List.map_congr_left fun n _ => String.ofList_toList).trans (List.map_id names)

/-- What comes behind the anchor does not begin with a slash. -/
theorem takeWhile_intercalate {names : List String} (hempty : ∀ n ∈ names, n ≠ "")
    (hslash : ∀ n ∈ names, '/' ∉ n.toList) : ("/".intercalate names).toList.takeWhile (· == '/') = [] := by
  cases names with
  | nil => rfl
  | cons n names =>
      obtain ⟨c, cs, hn⟩ := List.exists_cons_of_ne_nil (mt String.toList_eq_nil_iff.1 (hempty n List.mem_cons_self))
      have hc : c ≠ '/' := by
        rintro rfl
        exact hslash n List.mem_cons_self (by rw [hn]; exact List.mem_cons_self)
      obtain ⟨rest, hrest⟩ : ∃ rest, ("/".intercalate (n :: names)).toList = n.toList ++ rest := by
        cases names with
        | nil => exact ⟨[], by simp⟩
        | cons _ _ =>
            rw [String.intercalate_cons_of_ne_nil (List.cons_ne_nil _ _), String.toList_append, String.toList_append,
              List.append_assoc]
            exact ⟨_, rfl⟩
      rw [hrest, hn]
      exact List.takeWhile_cons_of_neg (by simpa using hc)

theorem ofText_render {p : Path} (h : p.IsNormal) : ofText p.render = p := by
  obtain ⟨anchor, names⟩ := p
  have hnames : namesOf ("/".intercalate names).toList = names := namesOf_intercalate h.ne_empty h.ne_dot h.no_slash
  have hslashes : ("/".intercalate names).toList.takeWhile (· == '/') = [] :=
    takeWhile_intercalate h.ne_empty h.no_slash
  by_cases hhere : (anchor.isEmpty && names.isEmpty) = true
  · rw [Bool.and_eq_true, String.isEmpty_iff, List.isEmpty_iff] at hhere
    obtain ⟨rfl, rfl⟩ := hhere
    rfl
  have hread (n : Nat) (hn : anchor.toList = List.replicate n '/') :
      ofText (anchor ++ "/".intercalate names) = ⟨if n = 0 then "" else if n = 2 then "//" else "/", names⟩ := by
    rw [ofText_slashes (by rw [String.toList_append, hn]) hslashes, hnames]
  rw [render, if_neg hhere]
  rcases h.anchor with rfl | rfl | rfl
  · exact hread 0 rfl
  · exact hread 1 rfl
  · exact hread 2 rfl

/-! ## Names of files -/

/-- A path with further names. -/
def below (p : Path) (names : List String) : Path := ⟨p.anchor, p.names ++ names⟩

theorem below_nil (p : Path) : p.below [] = p :=
  congrArg (mk p.anchor) (List.append_nil p.names)

theorem below_below (p : Path) (xs ys : List String) : (p.below xs).below ys = p.below (xs ++ ys) :=
  congrArg (mk p.anchor) (List.append_assoc p.names xs ys)

/-- A text without slashes is one name, unless it is empty or a dot. -/
theorem child_eq_below (base : Path) {s : String} (hslash : '/' ∉ s.toList) :
    base.child s = base.below (if s = "" ∨ s = "." then [] else [s]) := by
  by_cases hs : s = "" ∨ s = "."
  · rw [if_pos hs]
    rcases hs with rfl | rfl <;> rfl
  · obtain ⟨hempty, hdot⟩ := not_or.1 hs
    have hread := ofText_render (p := ⟨"", [s]⟩)
      ⟨.inl rfl, by simpa using hempty, by simpa using hdot, by simpa using hslash⟩
    have hrender : render ⟨"", [s]⟩ = s := by simp [render]
    rw [hrender] at hread
    rw [if_neg hs, child, hread]
    rfl

/-- What is asked for below a directory is the last name there. -/
theorem child_name {base : Path} {s : String} (hempty : s ≠ "") (hdot : s ≠ ".") (hslash : '/' ∉ s.toList) :
    (base.child s).name = s := by
  have hlast : (base.names ++ [s]).getLast? = some s := List.getLast?_concat
  rw [child_eq_below base hslash, if_neg (not_or.2 ⟨hempty, hdot⟩)]
  show (base.names ++ [s]).getLast?.getD "" = s
  rw [hlast]
  rfl

theorem child_name_json {base : Path} {stem : String} (hslash : '/' ∉ stem.toList) :
    (base.child (stem ++ ".json")).name = stem ++ ".json" := by
  have hlength : (stem ++ ".json").length = stem.length + 5 := String.length_append _ _
  refine child_name ?_ ?_ ?_
  · intro h
    rw [h] at hlength
    cases hlength
  · intro h
    have hdot : ".".length = 1 := rfl
    rw [h] at hlength
    omega
  · rw [String.toList_append, List.mem_append, not_or]
    exact ⟨hslash, by decide⟩

end Path

/-- A suffix that is put behind a name parts from it again. -/
theorem splitName_append {stem suffix : List Char} (hstem : stem ≠ []) (hsuffix : suffix ≠ []) (hdot : '.' ∉ suffix) :
    splitName (String.ofList (stem ++ '.' :: suffix)) = (String.ofList stem, String.ofList ('.' :: suffix)) := by
  have hafter : ((stem ++ '.' :: suffix).reverse.takeWhile (· != '.')).reverse = suffix := by
    have hrev : (stem ++ '.' :: suffix).reverse = suffix.reverse ++ '.' :: stem.reverse := by simp
    have hkept : ∀ c ∈ suffix.reverse, (c != '.') = true := by
      intro c hc
      exact bne_iff_ne.2 fun h => hdot (h ▸ List.mem_reverse.1 hc)
    rw [hrev, List.takeWhile_append_of_pos hkept, List.takeWhile_cons_of_neg (by simp), List.append_nil,
      List.reverse_reverse]
  have hbefore : (stem ++ '.' :: suffix).take ((stem ++ '.' :: suffix).length - suffix.length - 1) = stem := by
    have hlength : (stem ++ '.' :: suffix).length - suffix.length - 1 = stem.length := by
      rw [List.length_append, List.length_cons]
      omega
    rw [hlength, List.take_left]
  rw [splitName, String.toList_ofList]
  rw [hafter, hbefore, if_pos]
  rw [Bool.and_eq_true, Bool.and_eq_true, Bool.not_eq_true', Bool.not_eq_true', List.isEmpty_eq_false_iff,
    List.isEmpty_eq_false_iff, List.contains_iff_mem]
  exact ⟨⟨List.mem_append_right _ List.mem_cons_self, hstem⟩, hsuffix⟩

theorem Bundle.mem_suffixes {s : String} : s ∈ suffixes ↔ s = ".json" ∨ s = ".yaml" ∨ s = ".yml" := by
  rw [suffixes, List.mem_cons, List.mem_cons, List.mem_singleton]

/-- A suffix that is put behind a version parts from it again, so none is the end of another. -/
theorem Bundle.splitName_suffix {version s : String} (hversion : version ≠ "") (hs : s ∈ Bundle.suffixes) :
    splitName (version ++ s) = (version, s) := by
  obtain ⟨letters, hletters, hsome, hdot⟩ :
      ∃ letters, s.toList = '.' :: letters ∧ letters ≠ [] ∧ '.' ∉ letters := by
    rcases Bundle.mem_suffixes.1 hs with rfl | rfl | rfl <;> exact ⟨_, rfl, by decide, by decide⟩
  have hs : s = String.ofList ('.' :: letters) := by rw [← hletters, String.ofList_toList]
  have hname : version ++ s = String.ofList (version.toList ++ '.' :: letters) := by
    rw [String.ofList_append, String.ofList_toList, ← hs]
  rw [hname, splitName_append (mt String.toList_eq_nil_iff.1 hversion) hsome hdot, String.ofList_toList, ← hs]

theorem formatOfName_json {stem : String} (h : stem ≠ "") : formatOfName (stem ++ ".json") = .json := by
  have hlower : lowerAscii ".json" = ".json" := by
    rw [← String.toList_inj, lowerAscii, String.toList_map]
    rfl
  have hsuffix : suffixOf (stem ++ ".json") = ".json" := by
    rw [suffixOf, Bundle.splitName_suffix h (by decide)]
    exact hlower
  rw [formatOfName, hsuffix]
  rfl

end ApiDiscovery
