import ApiDiscovery.Proofs.Encoding
import ApiDiscovery.Proofs.Expansion
import ApiDiscovery.Table
import Mathlib

/-!
# Values stay in their places

A template whose holes are all plain expands to its own characters and, in the place of each hole, an encoded
text. The place of a hole is a `Mark` among the characters of the template, its `skeleton`:

    notes / ⟨id⟩ / v ⟨version⟩

What is put into a place has no character that parts a URL (`Percent.Encoded.not_mem`). So all slashes, question
marks and number signs of the path are the template's own, and as long as no text is empty, so is its first
character. Where slashes keep the places apart, at most one to a segment, the path tells what was put into each
(`filled_eq_of_flatMap_eq`), and so the text of each value.

Main statement: `expand_simple`.
-/

namespace ApiDiscovery.Template

open Text

/-! ## Skeletons -/

/-- A character of a template, or the place of a hole. -/
inductive Mark where
  | char (c : Char)
  | slot (name : String)
deriving DecidableEq

namespace Mark

def char? : Mark → Option Char
  | char c => some c
  | slot _ => none

def slot? : Mark → Option String
  | char _ => none
  | slot name => some name

/-- What stands in the place of a mark. -/
def filled (lookup : String → Option Value) : Mark → List Char
  | char c => [c]
  | slot name => ((lookup name).map (filling false)).getD []

@[simp] theorem filterMap_char?_char (c : Char) (rest : List Mark) :
    (char c :: rest).filterMap char? = c :: rest.filterMap char? := rfl

@[simp] theorem filterMap_char?_slot (name : String) (rest : List Mark) :
    (slot name :: rest).filterMap char? = rest.filterMap char? := rfl

@[simp] theorem filterMap_slot?_char (c : Char) (rest : List Mark) :
    (char c :: rest).filterMap slot? = rest.filterMap slot? := rfl

@[simp] theorem filterMap_slot?_slot (name : String) (rest : List Mark) :
    (slot name :: rest).filterMap slot? = name :: rest.filterMap slot? := rfl

end Mark

def Piece.marks : Piece → List Mark
  | .literal t => t.map .char
  | .hole _ name => [.slot (String.ofList name)]

/-- The characters of a template and the places of its holes. -/
def skeleton (template : String) : List Mark := (pieces template.toList).flatMap Piece.marks

def Piece.isSimple : Piece → Bool
  | .literal _ => true
  | .hole reserved _ => !reserved

/-- Whether no hole of a template keeps the characters that part a URL. -/
def isSimple (template : String) : Bool := (pieces template.toList).all Piece.isSimple

/-- The characters that part the path of a URL from what follows it, and the segments of the path. -/
def isDelimiter (c : Char) : Bool := c == '/' || c == '?' || c == '#'

theorem filterMap_slot?_marks (p : Piece) : p.marks.filterMap Mark.slot? = p.name?.toList := by
  cases p with
  | literal t =>
      rw [Piece.marks, List.filterMap_map]
      exact List.filterMap_eq_nil_iff.2 fun _ _ => rfl
  | hole reserved name => rfl

theorem names_eq_slots (template : String) :
    names template = (skeleton template).filterMap Mark.slot? := by
  unfold names skeleton
  rw [List.filterMap_flatMap]
  simp only [filterMap_slot?_marks]
  exact List.filterMap_eq_flatMap_toList ..

theorem slot_mem_skeleton {template name : String} :
    .slot name ∈ skeleton template ↔ name ∈ names template := by
  rw [names_eq_slots, List.mem_filterMap]
  constructor
  · intro h
    exact ⟨_, h, rfl⟩
  · rintro ⟨mark, hmark, hname⟩
    cases mark with
    | char c => cases hname
    | slot n => cases hname; exact hmark

/-- Pieces without reserved holes are filled mark by mark. -/
theorem flatMap_filled_marks (lookup : String → Option Value) {ps : List Piece}
    (h : ps.all Piece.isSimple = true) :
    ps.flatMap (Piece.filled lookup) = (ps.flatMap Piece.marks).flatMap (Mark.filled lookup) := by
  induction ps with
  | nil => rfl
  | cons p rest ih =>
      obtain ⟨hp, hrest⟩ := Bool.and_eq_true_iff.1 h
      rw [List.flatMap_cons, List.flatMap_cons, List.flatMap_append, ih hrest]
      congr 1
      cases p with
      | literal t => simp [Piece.filled, Piece.marks, Mark.filled, List.flatMap_map]
      | hole reserved name =>
          obtain rfl : reserved = false := by simpa [Piece.isSimple] using hp
          simp [Piece.filled, Piece.marks, Mark.filled]

/-! ## The first character -/

theorem prepend_ne_nil (c : Char) {ps : List Piece} (h : .literal [] ∉ ps) :
    .literal [] ∉ prepend c ps := by
  cases ps with
  | nil => simp [prepend]
  | cons p rest =>
      cases p with
      | literal t => simpa [prepend] using fun hm => h (List.mem_cons_of_mem _ hm)
      | hole reserved name => simpa [prepend] using h

/-- No piece is empty. -/
theorem literal_nil_not_mem_pieces (s : List Char) : .literal [] ∉ pieces s := by
  fun_induction pieces s with
  | case1 => exact List.not_mem_nil
  | case2 c rest hc p after h hlt ih =>
      rw [List.mem_cons, not_or]
      refine ⟨?_, ih⟩
      rintro rfl
      unfold hole? at h
      dsimp only at h
      split at h
      · split at h <;> cases h
      · cases h
  | case3 c rest hc h ih => exact prepend_ne_nil c ih
  | case4 c rest hc ih => exact prepend_ne_nil c ih

/-- A template begins with a slash exactly if its skeleton does: a hole begins with a brace. -/
theorem head?_skeleton (template : String) :
    (skeleton template).head? = some (.char '/') ↔ template.toList.head? = some '/' := by
  have hrender := render_pieces template.toList
  have hne := literal_nil_not_mem_pieces template.toList
  rw [← hrender]
  unfold skeleton
  cases hp : pieces template.toList with
  | nil => simp [render]
  | cons p rest =>
      rw [hp] at hne
      cases p with
      | literal t =>
          cases t with
          | nil => exact absurd List.mem_cons_self hne
          | cons c t => simp [render, Piece.text, Piece.marks]
      | hole reserved name => cases reserved <;> simp [render, Piece.text, Piece.marks]

theorem startsWith_slash {s : String} : s.startsWith "/" = true ↔ s.toList.head? = some '/' := by
  rw [String.startsWith_string_iff]
  show ['/'] <+: s.toList ↔ _
  cases s.toList with
  | nil => simp
  | cons c rest => simp [List.cons_prefix_cons, eq_comm]

/-! ## What is put into a place -/

section

variable {lookup lookup' : String → Option Value}

theorem encoded_filling (v : Value) : Percent.Encoded (filling false v) :=
  Percent.encoded_encodeSimple _

theorem decode?_filling (v : Value) :
    Utf8.decode? (Percent.decodeBytes (filling false v)) = .ok (valueText v).toList := by
  show Utf8.decode? (Percent.decodeBytes (Percent.encodeSimple _)) = _
  rw [Percent.decodeBytes_encodeSimple, Utf8.decode?_encode]

theorem encoded_filled_slot (lookup : String → Option Value) (name : String) :
    Percent.Encoded (Mark.filled lookup (.slot name)) := by
  show Percent.Encoded (((lookup name).map (filling false)).getD [])
  cases lookup name with
  | none => exact .nil
  | some v => exact encoded_filling v

/-- Delimiters are neither unreserved nor the percent sign. -/
theorem delimiter_not_mem_filled (lookup : String → Option Value) (name : String) {c : Char}
    (h : isDelimiter c = true) : c ∉ Mark.filled lookup (.slot name) := by
  have hc : isDelimiter c = true → Percent.isUnreserved c = false ∧ c ≠ '%' := by
    unfold isDelimiter
    simp only [Bool.or_eq_true, beq_iff_eq]
    rintro ((rfl | rfl) | rfl)
    · decide
    · decide
    · decide
  obtain ⟨hu, hp⟩ := hc h
  exact (encoded_filled_slot lookup name).not_mem hu hp

/-- The delimiters of what a skeleton is filled to are its own. -/
theorem filter_isDelimiter_filled (lookup : String → Option Value) (marks : List Mark) :
    (marks.flatMap (Mark.filled lookup)).filter isDelimiter =
      (marks.filterMap Mark.char?).filter isDelimiter := by
  induction marks with
  | nil => rfl
  | cons mark rest ih =>
      rw [List.flatMap_cons, List.filter_append, ih]
      cases mark with
      | char c =>
          rw [Mark.filterMap_char?_char]
          cases hc : isDelimiter c <;> simp [Mark.filled, hc]
      | slot name =>
          rw [Mark.filterMap_char?_slot]
          have hnone : (Mark.filled lookup (.slot name)).filter isDelimiter = [] :=
            List.filter_eq_nil_iff.2 fun c hc hd => delimiter_not_mem_filled lookup name hd hc
          rw [hnone, List.nil_append]

/-- Unless an empty text is put in, what a skeleton is filled to begins with a slash exactly if the skeleton
does. -/
theorem head?_filled {marks : List Mark}
    (h : ∀ name, .slot name ∈ marks → Mark.filled lookup (.slot name) ≠ []) :
    (marks.flatMap (Mark.filled lookup)).head? = some '/' ↔ marks.head? = some (.char '/') := by
  cases marks with
  | nil => simp
  | cons mark rest =>
      rw [List.flatMap_cons]
      cases mark with
      | char c => simp [Mark.filled]
      | slot name =>
          have hslash := delimiter_not_mem_filled lookup name (c := '/') (by decide)
          cases hf : Mark.filled lookup (.slot name) with
          | nil => exact absurd hf (h name List.mem_cons_self)
          | cons c t =>
              rw [hf] at hslash
              have hne : c ≠ '/' := fun hc => hslash (hc ▸ List.mem_cons_self)
              simp [hne]

/-! ## Places that slashes keep apart -/

/-- Whether no segment of a skeleton has two places. -/
def Apart (marks : List Mark) : Prop :=
  ∀ segment ∈ marks.splitOn (.char '/'), (segment.filterMap Mark.slot?).length ≤ 1

instance (marks : List Mark) : Decidable (Apart marks) :=
  inferInstanceAs (Decidable (∀ segment ∈ marks.splitOn (.char '/'),
    (segment.filterMap Mark.slot?).length ≤ 1))

theorem splitOn_cons (mark : Mark) (rest : List Mark) :
    (mark :: rest).splitOn (.char '/') =
      if mark = .char '/' then [] :: rest.splitOn (.char '/')
      else (rest.splitOn (.char '/')).modifyHead (mark :: ·) := by
  rw [List.splitOn_eq_splitOnP, List.splitOn_eq_splitOnP, List.splitOnP_cons_eq_if_modifyHead]
  simp only [beq_iff_eq]

/-- The first segment reaches up to the first slash. -/
theorem splitOn_eq_cons (marks : List Mark) :
    ∃ segments, marks.splitOn (.char '/') = marks.takeWhile (· ≠ .char '/') :: segments := by
  induction marks with
  | nil => exact ⟨[], rfl⟩
  | cons mark rest ih =>
      obtain ⟨segments, hrest⟩ := ih
      rw [splitOn_cons, hrest]
      by_cases h : mark = .char '/'
      · exact ⟨_, by rw [if_pos h, List.takeWhile_cons, if_neg (by simpa using h)]⟩
      · exact ⟨segments, by rw [if_neg h, List.takeWhile_cons, if_pos (by simpa using h)]; rfl⟩

/-- Behind its first mark, a skeleton has its places apart as well. -/
theorem Apart.tail {mark : Mark} {rest : List Mark} (h : Apart (mark :: rest)) : Apart rest := by
  obtain ⟨segments, hrest⟩ := splitOn_eq_cons rest
  unfold Apart at h ⊢
  rw [splitOn_cons] at h
  by_cases hs : mark = .char '/'
  · rw [if_pos hs] at h
    exact fun segment hm => h segment (List.mem_cons_of_mem _ hm)
  · rw [if_neg hs, hrest, List.modifyHead_cons] at h
    rw [hrest]
    intro segment hm
    rcases List.mem_cons.1 hm with rfl | hm
    · refine Nat.le_trans ?_ (h _ List.mem_cons_self)
      cases mark <;> simp
    · exact h segment (List.mem_cons_of_mem _ hm)

/-- Between a place and the next slash there is no other place. -/
theorem Apart.takeWhile {name : String} {rest : List Mark} (h : Apart (.slot name :: rest)) :
    (rest.takeWhile (· ≠ .char '/')).filterMap Mark.slot? = [] := by
  obtain ⟨segments, hrest⟩ := splitOn_eq_cons rest
  unfold Apart at h
  rw [splitOn_cons, if_neg nofun, hrest, List.modifyHead_cons] at h
  have hfirst := h _ List.mem_cons_self
  rw [Mark.filterMap_slot?_slot, List.length_cons] at hfirst
  exact List.length_eq_zero_iff.1 (by omega)

/-- Up to the first slash a skeleton without places there is filled to its own characters. -/
theorem takeWhile_filled (lookup : String → Option Value) {marks : List Mark}
    (h : (marks.takeWhile (· ≠ .char '/')).filterMap Mark.slot? = []) :
    (marks.flatMap (Mark.filled lookup)).takeWhile (· ≠ '/') =
      (marks.takeWhile (· ≠ .char '/')).filterMap Mark.char? := by
  induction marks with
  | nil => rfl
  | cons mark rest ih =>
      cases mark with
      | slot name => simp at h
      | char c =>
          by_cases hc : c = '/'
          · subst hc
            simp [Mark.filled]
          · have hne : Mark.char c ≠ .char '/' := fun he => hc (Mark.char.inj he)
            rw [List.takeWhile_cons_of_pos (by simpa using hne), Mark.filterMap_slot?_char] at h
            rw [List.flatMap_cons, List.takeWhile_cons_of_pos (by simpa using hne),
              Mark.filterMap_char?_char, ← ih h]
            simp [Mark.filled, hc]

theorem takeWhile_append {a x : List Char} (h : '/' ∉ a) :
    (a ++ x).takeWhile (· ≠ '/') = a ++ x.takeWhile (· ≠ '/') := by
  rw [List.takeWhile_append_of_pos]
  intro c hc
  have hne : c ≠ '/' := fun he => h (he ▸ hc)
  simpa using hne

/-- Where places are kept apart, what a skeleton is filled to tells what is in each of them. -/
theorem filled_eq_of_flatMap_eq {marks : List Mark} (hapart : Apart marks)
    (h : marks.flatMap (Mark.filled lookup) = marks.flatMap (Mark.filled lookup')) :
    ∀ name, .slot name ∈ marks →
      Mark.filled lookup (.slot name) = Mark.filled lookup' (.slot name) := by
  induction marks with
  | nil => exact fun name hn => absurd hn List.not_mem_nil
  | cons mark rest ih =>
      rw [List.flatMap_cons, List.flatMap_cons] at h
      cases mark with
      | char c =>
          intro name hn
          have hrest := List.append_cancel_left h
          exact ih hapart.tail hrest name (by simpa using hn)
      | slot place =>
          -- Up to the next slash, the same characters follow what is put in, so these texts end together.
          have hslash : ∀ lookup, '/' ∉ Mark.filled lookup (.slot place) := fun lookup =>
            delimiter_not_mem_filled lookup place (by decide)
          have hfirst := congrArg (List.takeWhile (· ≠ '/')) h
          rw [takeWhile_append (hslash lookup), takeWhile_append (hslash lookup'),
            takeWhile_filled lookup hapart.takeWhile, takeWhile_filled lookup' hapart.takeWhile] at hfirst
          have hplace := List.append_cancel_right hfirst
          rw [hplace] at h
          have hrest := List.append_cancel_left h
          intro name hn
          rcases List.mem_cons.1 hn with hn | hn
          · cases hn
            exact hplace
          · exact ih hapart.tail hrest name hn

/-! ## Main statement -/

theorem filled_slot {name : String} {v : Value} (h : lookup name = some v) :
    Mark.filled lookup (.slot name) = filling false v := by
  rw [Mark.filled, h]
  rfl

/-- A template without reserved holes expands to its own characters with, in each place, the encoded text of
the value: unreserved characters and percent triplets, which stand for that text in UTF-8. So the delimiters of
the path are those of the template in their order, and if no text is empty, the path begins with a slash
exactly if the template does. Where no segment has two places, templates that expand to one path have been
given values with the same texts. -/
theorem expand_simple {template : String} (hsimple : isSimple template = true) :
    (∀ (lookup : String → Option Value) (method : Option String) (path : String) (used : List String),
      expand template lookup method = .ok (path, used) →
      path.toList = (skeleton template).flatMap (Mark.filled lookup) ∧
      (∀ name ∈ names template, ∃ v, lookup name = some v ∧
        Mark.filled lookup (.slot name) = filling false v ∧
        Percent.Encoded (filling false v) ∧
        Utf8.decode? (Percent.decodeBytes (filling false v)) = .ok (valueText v).toList) ∧
      path.toList.filter isDelimiter = ((skeleton template).filterMap Mark.char?).filter isDelimiter ∧
      ((∀ name ∈ names template, Mark.filled lookup (.slot name) ≠ []) →
        path.startsWith "/" = template.startsWith "/")) ∧
    (Apart (skeleton template) →
      ∀ (lookup lookup' : String → Option Value) (method method' : Option String) (path : String)
        (used used' : List String),
        expand template lookup method = .ok (path, used) →
        expand template lookup' method' = .ok (path, used') →
        ∀ name ∈ names template, (lookup name).map valueText = (lookup' name).map valueText) := by
  have hmarks : ∀ {lookup : String → Option Value} {method : Option String} {path : String}
      {used : List String}, expand template lookup method = .ok (path, used) →
      path.toList = (skeleton template).flatMap (Mark.filled lookup) ∧
        ∀ name ∈ names template, ∃ v, lookup name = some v := by
    intro lookup method path used h
    obtain ⟨hpath, -, hvalues⟩ := expand_ok h
    exact ⟨hpath.trans (flatMap_filled_marks lookup hsimple),
      fun name hn => exists_of_isMissing_eq_false (flaw?_eq_none.1 (hvalues name hn)).1⟩
  constructor
  · intro lookup method path used h
    obtain ⟨hpath, hvalues⟩ := hmarks h
    refine ⟨hpath, fun name hn => ?_, ?_, fun hne => ?_⟩
    · obtain ⟨v, hv⟩ := hvalues name hn
      exact ⟨v, hv, filled_slot hv, encoded_filling v, decode?_filling v⟩
    · rw [hpath, filter_isDelimiter_filled]
    · rw [Bool.eq_iff_iff, startsWith_slash, startsWith_slash, hpath,
        head?_filled fun name hn => hne name (slot_mem_skeleton.1 hn), head?_skeleton]
  · intro hapart lookup lookup' method method' path used used' h h' name hn
    obtain ⟨hpath, hvalues⟩ := hmarks h
    obtain ⟨hpath', hvalues'⟩ := hmarks h'
    obtain ⟨v, hv⟩ := hvalues name hn
    obtain ⟨v', hv'⟩ := hvalues' name hn
    have hfilled := filled_eq_of_flatMap_eq hapart (hpath.symm.trans hpath') name
      (slot_mem_skeleton.2 hn)
    rw [filled_slot hv, filled_slot hv'] at hfilled
    have htext : (valueText v).toList = (valueText v').toList := Percent.encodeSimple_injective hfilled
    rw [hv, hv', Option.map_some, Option.map_some, String.toList_injective htext]

end

/-- Two places in two segments. -/
def versionTemplate : String := "notes/\x7bid\x7d/v\x7bversion\x7d"

def versionNumber : Table Value := Table.ofList [("id", .str "a/b"), ("version", .int 2)]

def versionText : Table Value := Table.ofList [("version", .str "2"), ("id", .str "a/b")]

/-- A slash in a value does not part the path; a number and a text that expand to one path have one text. -/
theorem expand_simple_version :
    isSimple versionTemplate = true ∧ Apart (skeleton versionTemplate) ∧
      ∃ path used,
        expand versionTemplate versionNumber.get? none = .ok (path, used) ∧
        expand versionTemplate versionText.get? none = .ok (path, used) ∧
        path.toList.filter isDelimiter = ['/', '/'] ∧
        (versionNumber.get? "version").map valueText = (versionText.get? "version").map valueText := by
  have hsimple : isSimple versionTemplate = true := by decide +kernel
  have hapart : Apart (skeleton versionTemplate) := by decide +kernel
  have hnumber : expand versionTemplate versionNumber.get? none =
      .ok ("notes/a%2Fb/v2", ["id", "version"]) := by cbv
  have htext : expand versionTemplate versionText.get? none =
      .ok ("notes/a%2Fb/v2", ["id", "version"]) := by cbv
  obtain ⟨hplaces, hinjective⟩ := expand_simple hsimple
  obtain ⟨-, -, hdelimiters, -⟩ := hplaces _ _ _ _ hnumber
  exact ⟨hsimple, hapart, _, _, hnumber, htext, hdelimiters.trans (by decide +kernel),
    hinjective hapart _ _ _ _ _ _ _ hnumber htext "version" (by decide +kernel)⟩

end ApiDiscovery.Template
