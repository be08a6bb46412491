import ApiDiscovery.Proofs.Parameters
import ApiDiscovery.Proofs.SimpleExpansion

/-!
# A template falls into pieces in one way

A hole is a name between braces, and the name has no braces. So two holes of a text never overlap, and between them
is what they leave:

    {{a}}      a brace, the hole of a, and a brace
    {+}        the hole of a plus sign
    {++a}      the hole of a plus sign and a, marked
    {} {a      text

A text has one `Decomposition` into holes and texts without holes, and these are the pieces that it is taken apart into.
Expansion puts one text in the place of each piece. Which characters these texts have does not matter any more, so a
hole that comes about by them is text: the first line of the table expands to {x} where a is x.

Every hole has to have a value, and not even that is enough: a whole number of too many digits is a value, but it is
not written.

Main statement: `expand_decomposition`.
-/

namespace ApiDiscovery

namespace Template

/-! ## Decompositions -/

/-- A text of the form of a hole: braces around some characters that are none. -/
def IsHole (u : List Char) : Prop :=
  ∃ inner, inner ≠ [] ∧ (∀ c ∈ inner, isBrace c = false) ∧ u = '{' :: inner ++ ['}']

def Piece.isLiteral : Piece → Bool
  | .literal _ => true
  | .hole .. => false

/-- A piece that stands for its text only. A hole is marked wherever a plus sign has something behind it. -/
inductive Piece.Proper : Piece → Prop
  | literal {t : List Char} (hne : t ≠ []) (hfree : ∀ u, IsHole u → ¬ u <:+: t) : Proper (.literal t)
  | marked {name : List Char} (hne : name ≠ []) (hname : ∀ c ∈ name, isBrace c = false) : Proper (.hole true name)
  | unmarked {name : List Char} (hne : name ≠ []) (hname : ∀ c ∈ name, isBrace c = false)
      (hplus : ∀ rest, name = '+' :: rest → rest = []) : Proper (.hole false name)

/-- A text taken apart into holes and what is between them. -/
structure Decomposition (s : List Char) (ps : List Piece) : Prop where
  rendered : render ps = s
  proper : ∀ p ∈ ps, p.Proper
  apart : ps.IsChain fun p q => p.isLiteral = false ∨ q.isLiteral = false

/-! ## Holes -/

section

variable {s rest u inner : List Char} {p : Piece}

/-- The piece that a hole makes by what stands in its braces. -/
def ofInner : List Char → Piece
  | '+' :: c :: name => .hole true (c :: name)
  | name => .hole false name

theorem ofInner_of_unmarked (h : ∀ c name, inner ≠ '+' :: c :: name) : ofInner inner = .hole false inner := by
  rw [ofInner.eq_def]
  split
  next c name => exact absurd rfl (h c name)
  next => rfl

theorem text_ofInner (inner : List Char) : (ofInner inner).text = '{' :: inner ++ ['}'] := by
  rw [ofInner.eq_def]
  split <;> rfl

theorem isLiteral_ofInner (inner : List Char) : (ofInner inner).isLiteral = false := by
  rw [ofInner.eq_def]
  split <;> rfl

theorem proper_ofInner (hne : inner ≠ []) (hinner : ∀ c ∈ inner, isBrace c = false) : (ofInner inner).Proper := by
  rw [ofInner.eq_def]
  split
  next c name =>
    exact .marked (List.cons_ne_nil c name) fun d hd => hinner d (List.mem_cons_of_mem _ hd)
  next hmark =>
    refine .unmarked hne hinner fun rest hplus => ?_
    cases rest with
    | nil => rfl
    | cons c rest => exact absurd hplus (hmark c rest)

/-- A proper hole is what the inside of its braces makes. -/
theorem Piece.Proper.exists_inner (h : p.Proper) (hp : p.isLiteral = false) :
    ∃ inner, inner ≠ [] ∧ (∀ c ∈ inner, isBrace c = false) ∧ p = ofInner inner := by
  cases h with
  | literal hne hfree => cases hp
  | @marked name hne hname =>
      cases name with
      | nil => exact absurd rfl hne
      | cons c name => exact ⟨'+' :: c :: name, List.cons_ne_nil _ _, List.forall_mem_cons.2 ⟨rfl, hname⟩, rfl⟩
  | @unmarked name hne hname hplus =>
      refine ⟨name, hne, hname, (ofInner_of_unmarked fun c rest hmark => ?_).symm⟩
      cases hplus _ hmark

theorem span_inner (hinner : ∀ c ∈ inner, isBrace c = false) {b : Char} (hb : isBrace b = true) (rest : List Char) :
    (inner ++ b :: rest).takeWhile (!isBrace ·) = inner ∧ (inner ++ b :: rest).dropWhile (!isBrace ·) = b :: rest := by
  have hkept : ∀ c ∈ inner, (!isBrace c) = true := fun c hc => by rw [hinner c hc]; rfl
  rw [List.takeWhile_append_of_pos hkept, List.dropWhile_append_of_pos hkept]
  simp [hb]

/-- Behind an opening brace is a hole where the next brace closes it and something stands in between. -/
theorem hole?_eq_some : hole? s = some (p, rest) ↔
    ∃ inner, inner ≠ [] ∧ (∀ c ∈ inner, isBrace c = false) ∧ s = inner ++ '}' :: rest ∧ p = ofInner inner := by
  constructor
  · intro h
    have hs : s.takeWhile (!isBrace ·) ++ s.dropWhile (!isBrace ·) = s := List.takeWhile_append_dropWhile
    have hinner : ∀ c ∈ s.takeWhile (!isBrace ·), isBrace c = false := fun c hc => by
      simpa using List.mem_takeWhile_imp hc
    unfold hole? at h
    dsimp only at h
    generalize s.takeWhile (!isBrace ·) = inner at h hs hinner
    split at h
    next after hafter =>
      rw [hafter] at hs
      split at h
      next => cases h
      next c name =>
        cases h
        exact ⟨_, List.cons_ne_nil _ _, hinner, hs.symm, rfl⟩
      next hne hmark =>
        cases h
        exact ⟨inner, hne, hinner, hs.symm, (ofInner_of_unmarked hmark).symm⟩
    next => cases h
  · rintro ⟨inner, hne, hinner, rfl, rfl⟩
    obtain ⟨htake, hdrop⟩ := span_inner hinner (b := '}') rfl rest
    rw [hole?, htake, hdrop]
    split
    next after hafter =>
      cases hafter
      split
      next => exact absurd rfl hne
      next => rfl
      next hmark =>
        exact congrArg (fun p => some (p, rest)) (ofInner_of_unmarked hmark).symm
    next hno => exact absurd rfl (hno rest)

/-- What stands behind a brace begins with no hole exactly if no text of the form of a hole begins with the brace. -/
theorem hole?_eq_none : hole? s = none ↔ ∀ u, IsHole u → ¬ u <+: '{' :: s := by
  constructor
  · rintro hnone u ⟨inner, hne, hinner, rfl⟩ ⟨rest, hs⟩
    have hsome : hole? s = some (ofInner inner, rest) :=
      hole?_eq_some.2 ⟨inner, hne, hinner, by simpa using (List.cons.inj hs).2.symm, rfl⟩
    rw [hnone] at hsome
    cases hsome
  · intro hfree
    cases h : hole? s with
    | none => rfl
    | some found =>
        obtain ⟨inner, hne, hinner, rfl, -⟩ := hole?_eq_some.1 (h : hole? s = some (found.1, found.2))
        exact absurd ⟨found.2, by simp⟩ (hfree ('{' :: inner ++ ['}']) ⟨inner, hne, hinner, rfl⟩)

end

/-! ## Taking apart -/

section

variable {s t rest : List Char} {p : Piece} {ps : List Piece}

theorem pieces_of_hole (h : p.Proper) (hp : p.isLiteral = false) (rest : List Char) :
    pieces (p.text ++ rest) = p :: pieces rest := by
  obtain ⟨inner, hne, hinner, rfl⟩ := h.exists_inner hp
  have hfound : hole? (inner ++ '}' :: rest) = some (ofInner inner, rest) :=
    hole?_eq_some.2 ⟨inner, hne, hinner, rfl, rfl⟩
  have htext : (ofInner inner).text ++ rest = '{' :: (inner ++ '}' :: rest) := by
    rw [text_ofInner]
    simp
  rw [htext, pieces]
  simp only [beq_self_eq_true, if_true]
  split
  next found after hsome =>
    rw [hfound] at hsome
    cases hsome
    rfl
  next hnone =>
    rw [hfound] at hnone
    cases hnone

/-- A text that does not begin with a hole gives its first character to the first text among the pieces. -/
theorem pieces_of_free {c : Char} (h : ∀ u, IsHole u → ¬ u <+: c :: rest) :
    pieces (c :: rest) = prepend c (pieces rest) := by
  rw [pieces]
  split
  next hc =>
    obtain rfl : c = '{' := by simpa using hc
    have hnone := hole?_eq_none.2 h
    split
    next found after hsome =>
      rw [hnone] at hsome
      cases hsome
    next => rfl
  next => rfl

/-! ## There is a decomposition -/

theorem Decomposition.cons_hole (h : Decomposition rest ps) (hp : p.Proper) (hhole : p.isLiteral = false) :
    Decomposition (p.text ++ rest) (p :: ps) where
  rendered := by rw [render, List.flatMap_cons, ← render, h.rendered]
  proper := List.forall_mem_cons.2 ⟨hp, h.proper⟩
  apart := by
    cases ps with
    | nil => exact .singleton p
    | cons q ps => exact .cons_cons (.inl hhole) h.apart

/-- A text that does not begin with a hole is taken apart as what is behind its first character is. -/
theorem Decomposition.prepend {c : Char} (h : Decomposition rest ps) (hfree : ∀ u, IsHole u → ¬ u <+: c :: rest) :
    Decomposition (c :: rest) (prepend c ps) := by
  have hone : (Piece.literal [c]).Proper := by
    refine .literal (List.cons_ne_nil c []) ?_
    rintro u ⟨inner, hne, hinner, rfl⟩ hpart
    have hlength := hpart.length_le
    simp at hlength
  have hrendered : render (Template.prepend c ps) = c :: rest := by rw [render_prepend, h.rendered]
  cases ps with
  | nil => exact ⟨hrendered, List.forall_mem_singleton.2 hone, .singleton _⟩
  | cons p ps =>
      obtain ⟨hp, hps⟩ := List.forall_mem_cons.1 h.proper
      cases p with
      | hole reserved name => exact ⟨hrendered, List.forall_mem_cons.2 ⟨hone, h.proper⟩, .cons_cons (.inr rfl) h.apart⟩
      | literal t =>
          refine ⟨hrendered, List.forall_mem_cons.2 ⟨?_, hps⟩, ?_⟩
          · cases hp with
            | literal hne hinner =>
                refine .literal (List.cons_ne_nil c t) fun u hu hpart => ?_
                rcases List.infix_cons_iff.1 hpart with hfront | hpart
                · refine hfree u hu (hfront.trans ?_)
                  rw [← h.rendered, render, List.flatMap_cons]
                  exact ⟨_, rfl⟩
                · exact hinner u hu hpart
          · cases ps with
            | nil => exact .singleton _
            | cons q ps =>
                have hapart := h.apart
                cases hapart with
                | cons_cons hpq hrest => exact .cons_cons hpq hrest

theorem decomposition_pieces (s : List Char) : Decomposition s (pieces s) := by
  fun_induction pieces s with
  | case1 => exact ⟨rfl, fun _ hp => absurd hp List.not_mem_nil, .nil⟩
  | case2 c rest hc p after h hlt ih =>
      obtain rfl : c = '{' := by simpa using hc
      obtain ⟨inner, hne, hinner, -, rfl⟩ := hole?_eq_some.1 h
      rw [hole?_text h]
      exact ih.cons_hole (proper_ofInner hne hinner) (isLiteral_ofInner inner)
  | case3 c rest hc h ih =>
      obtain rfl : c = '{' := by simpa using hc
      exact ih.prepend (hole?_eq_none.1 h)
  | case4 c rest hc ih =>
      refine ih.prepend ?_
      rintro u ⟨inner, -, -, rfl⟩ hfront
      obtain ⟨hbrace, -⟩ := List.cons_prefix_cons.1 hfront
      exact hc (by rw [← hbrace]; rfl)

/-! ## There is no other -/

/-- A text without holes does not begin with one, nor does it where a hole follows: the inside of a hole has no
brace. -/
theorem not_prefix_append (hne : t ≠ []) (hfree : ∀ u, IsHole u → ¬ u <:+: t) (hrest : ∀ c ∈ rest.head?, c = '{') :
    ∀ u, IsHole u → ¬ u <+: t ++ rest := by
  rintro u hu hfront
  rcases List.prefix_or_prefix_of_prefix hfront (List.prefix_append t rest) with hshort | ⟨v, rfl⟩
  · exact hfree u hu hshort.isInfix
  · obtain ⟨w, rfl⟩ := (List.prefix_append_right_inj t).1 hfront
    cases v with
    | nil => exact hfree _ hu (by simp)
    | cons c v =>
        obtain rfl := hrest c (by simp)
        obtain ⟨inner, -, hinner, heq⟩ := hu
        cases t with
        | nil => exact hne rfl
        | cons d t =>
            have hinside : t ++ '{' :: v = inner ++ ['}'] := (List.cons.inj heq).2
            have hmem : '{' ∈ inner ++ ['}'] := by
              rw [← hinside]
              simp
            rcases List.mem_append.1 hmem with hmem | hmem
            · exact absurd (hinner _ hmem) (by decide)
            · exact absurd (List.mem_singleton.1 hmem) (by decide)

/-- A text without holes that ends where a hole begins, or at the end, is a piece. -/
theorem pieces_of_literal (hne : t ≠ []) (hfree : ∀ u, IsHole u → ¬ u <:+: t) (hrest : ∀ c ∈ rest.head?, c = '{')
    (hhole : ∀ q ∈ (pieces rest).head?, q.isLiteral = false) : pieces (t ++ rest) = .literal t :: pieces rest := by
  induction t with
  | nil => exact absurd rfl hne
  | cons c t ih =>
      have hfirst : pieces (c :: t ++ rest) = prepend c (pieces (t ++ rest)) :=
        pieces_of_free (not_prefix_append hne hfree hrest)
      rw [hfirst]
      cases t with
      | nil =>
          rw [List.nil_append]
          cases hps : pieces rest with
          | nil => rfl
          | cons q qs =>
              rw [hps] at hhole
              cases q with
              | hole reserved name => rfl
              | literal t => exact absurd (hhole _ rfl) nofun
      | cons d t =>
          rw [ih (List.cons_ne_nil d t) fun u hu hpart => hfree u hu (hpart.trans (List.suffix_cons c _).isInfix)]
          rfl

/-- What begins with a hole begins with its brace. -/
theorem head?_render (h : ∀ q ∈ ps.head?, q.isLiteral = false) : ∀ c ∈ (render ps).head?, c = '{' := by
  intro c hc
  cases ps with
  | nil => cases hc
  | cons q ps =>
      cases q with
      | literal t => exact absurd (h _ rfl) nofun
      | hole reserved name => cases reserved <;> exact (Option.some.inj hc).symm

/-- A decomposition is what the text is taken apart into. -/
theorem Decomposition.eq_pieces (h : Decomposition s ps) : ps = pieces s := by
  obtain ⟨rfl, hproper, hapart⟩ := h
  induction ps with
  | nil => rw [render, List.flatMap_nil, pieces]
  | cons p ps ih =>
      obtain ⟨hp, hps⟩ := List.forall_mem_cons.1 hproper
      have hrest : ps = pieces (render ps) := ih hps hapart.tail
      have hrender : render (p :: ps) = p.text ++ render ps := List.flatMap_cons
      rw [hrender]
      cases p with
      | hole reserved name => rw [pieces_of_hole hp rfl, ← hrest]
      | literal t =>
          have hhole : ∀ q ∈ ps.head?, q.isLiteral = false := fun q hq =>
            (hapart.rel_head? hq).resolve_left Bool.noConfusion
          cases hp with
          | literal hne hfree =>
              have hparts := pieces_of_literal hne hfree (head?_render hhole) (by rwa [← hrest])
              rw [← hrest] at hparts
              exact hparts.symm

/-- So there is one decomposition of a text, and it is what the text is taken apart into. -/
theorem decomposition_iff : Decomposition s ps ↔ ps = pieces s := by
  constructor
  · exact Decomposition.eq_pieces
  · rintro rfl
    exact decomposition_pieces s

end

/-! ## What is put in -/

/-- A name has a value, and that is neither null nor empty. -/
def HasValue (lookup : String → Option Value) (name : String) : Prop :=
  ∃ v, lookup name = some v ∧ v ≠ .null ∧ v ≠ .str ""

/-- The value of a name, if it has one, can be written. -/
def Writes (lookup : String → Option Value) (name : String) : Prop :=
  ∀ v, lookup name = some v → v.isWritable = true

/-- The text that stands for a piece: itself, or the value of its name in percent encoding. -/
inductive Stands (lookup : String → Option Value) : Piece → List Char → Prop
  | literal (t : List Char) : Stands lookup (.literal t) t
  | unmarked {name : List Char} {v : Value} (h : lookup (String.ofList name) = some v) :
      Stands lookup (.hole false name) (Percent.encodeSimple (valueText v).toList)
  | marked {name : List Char} {v : Value} (h : lookup (String.ofList name) = some v) :
      Stands lookup (.hole true name) (Percent.encodeReserved (valueText v).toList)

section

variable {lookup : String → Option Value} {method : Option String}

theorem hasValue_iff {name : String} : HasValue lookup name ↔ isMissing (lookup name) = false := by
  rw [HasValue, ← Bool.not_eq_true, isMissing_iff, Vacant]
  cases lookup name with
  | none => simp
  | some v => simp [and_comm]

theorem writes_iff {name : String} : Writes lookup name ↔ (lookup name).all (·.isWritable) = true := by
  rw [Writes]
  cases lookup name with
  | none => exact iff_of_true nofun rfl
  | some v => exact ⟨fun h => h v rfl, fun h w hw => by cases hw; exact h⟩

/-- A hole is filled exactly if its name has a value that can be written. -/
theorem flaw?_eq_none_iff {name : String} :
    flaw? lookup method name = none ↔ HasValue lookup name ∧ Writes lookup name := by
  rw [flaw?_eq_none, hasValue_iff, writes_iff]

theorem flaw?_of_not_hasValue {name : String} (h : ¬ HasValue lookup name) :
    flaw? lookup method name = some (.missing ⟨name, method⟩) := by
  rw [hasValue_iff, Bool.not_eq_false] at h
  exact flaw?_eq_missing.2 ⟨h, rfl⟩

theorem flaw?_of_not_writes {name : String} (h : HasValue lookup name) (hw : ¬ Writes lookup name) :
    flaw? lookup method name = some .unwritable := by
  rw [writes_iff] at hw
  rw [flaw?, if_neg (by rw [hasValue_iff.1 h]; exact Bool.false_ne_true), if_neg hw]

theorem forall₂_stands {ps : List Piece} (h : ∀ name ∈ ps.filterMap Piece.name?, HasValue lookup name) :
    List.Forall₂ (Stands lookup) ps (ps.map (Piece.filled lookup)) := by
  rw [List.forall₂_map_right_iff, List.forall₂_same]
  intro p hp
  cases p with
  | literal t => exact .literal t
  | hole reserved name =>
      obtain ⟨v, hv, -⟩ := h (String.ofList name) (List.mem_filterMap.2 ⟨_, hp, rfl⟩)
      rw [Piece.filled, hv]
      cases reserved with
      | false => exact .unmarked hv
      | true => exact .marked hv

/-- Braces are written by number wherever they come from, so what is put into a hole has none. -/
theorem Stands.not_isBrace {reserved : Bool} {name text : List Char} (h : Stands lookup (.hole reserved name) text) :
    ∀ c ∈ text, isBrace c = false := by
  intro c hc
  rw [← Bool.not_eq_true]
  intro hbrace
  have hcases : c = '{' ∨ c = '}' := by simpa [isBrace] using hbrace
  cases h with
  | unmarked hv => rcases hcases with rfl | rfl <;> exact Percent.not_mem_encode rfl rfl (by decide) _ hc
  | marked hv => rcases hcases with rfl | rfl <;> exact Percent.not_mem_encode (by decide) rfl (by decide) _ hc

/-! ## Main statement -/

/-- A template falls into holes and texts without holes in exactly one way, and the names that it has are those of the
holes. It expands exactly if each of these names has a value and this can be written, and then to one text after the
other: that of a piece between holes is itself, and that of a hole is the encoded value of its name, in which there is
no brace. The names that are used are all names in their order, as often as they stand there. Otherwise the first name
of which that is not true is reported: if it has no value, it is missing, with the method that was named, and else there
is a fault that names nothing. -/
theorem expand_decomposition (template : String) :
    ∃ ps, (∀ qs, Decomposition template.toList qs ↔ qs = ps) ∧ names template = ps.filterMap Piece.name? ∧
      ∀ (lookup : String → Option Value) (method : Option String),
        ((∃ result, expand template lookup method = .ok result) ↔
          ∀ name ∈ names template, HasValue lookup name ∧ Writes lookup name) ∧
        (∀ path used, expand template lookup method = .ok (path, used) →
          (∃ texts, List.Forall₂ (Stands lookup) ps texts ∧ path.toList = texts.flatten) ∧ used = names template) ∧
        (∀ reserved name text, Stands lookup (.hole reserved name) text → ∀ c ∈ text, isBrace c = false) ∧
        ∀ before name after, names template = before ++ name :: after →
          (∀ n ∈ before, HasValue lookup n ∧ Writes lookup n) →
          (¬ HasValue lookup name → expand template lookup method = .error (.missing ⟨name, method⟩)) ∧
          (HasValue lookup name → ¬ Writes lookup name → expand template lookup method = .error .unwritable) := by
  refine ⟨pieces template.toList, fun qs => decomposition_iff, rfl, fun lookup method => ⟨?_, ?_, ?_, ?_⟩⟩
  · constructor
    · rintro ⟨⟨path, used⟩, hpath⟩ name hname
      obtain ⟨-, -, hvalues⟩ := expand_ok hpath
      exact flaw?_eq_none_iff.1 (hvalues name hname)
    · intro hvalues
      exact ⟨_, expand_eq_ok fun name hname => flaw?_eq_none_iff.2 (hvalues name hname)⟩
  · intro path used hpath
    obtain ⟨hfilled, hused, hvalues⟩ := expand_ok hpath
    refine ⟨⟨_, forall₂_stands fun name hname => (flaw?_eq_none_iff.1 (hvalues name hname)).1, ?_⟩, hused⟩
    rw [hfilled, List.flatMap_def]
  · exact fun reserved name text hstands => hstands.not_isBrace
  · intro before name after hnames hbefore
    have hfilled : ∀ n ∈ before, flaw? lookup method n = none := fun n hn => flaw?_eq_none_iff.2 (hbefore n hn)
    exact ⟨fun hname => expand_eq_error hnames hfilled (flaw?_of_not_hasValue hname),
      fun hname hwrites => expand_eq_error hnames hfilled (flaw?_of_not_writes hname hwrites)⟩

/-- A number of 3600 hexadecimal digits has more than 4300 decimal ones. So its hole has a value, but the template does
not expand. -/
theorem expand_longNumber :
    let lookup : String → Option Value := fun _ => some (.int (16 ^ 3600 - 1))
    names "notes/\x7bid\x7d" = ["id"] ∧ HasValue lookup "id" ∧
      expand "notes/\x7bid\x7d" lookup (some "notes.read") = .error .unwritable := by
  refine ⟨by decide +kernel, ⟨_, rfl, nofun, nofun⟩, ?_⟩
  have hlong : Value.isWritable (.int (16 ^ 3600 - 1)) = false := by decide +kernel
  have hnames : names "notes/\x7bid\x7d" = [] ++ "id" :: [] := by decide +kernel
  refine expand_eq_error hnames nofun ?_
  refine flaw?_of_not_writes ⟨_, rfl, nofun, nofun⟩ fun hwrites => ?_
  have hwritten := hwrites _ rfl
  rw [hlong] at hwritten
  cases hwritten

/-- The hole of the inner braces is filled, and what the outer ones then enclose is not looked at. -/
example : (expand "\x7b\x7ba\x7d\x7d" (fun _ => some (.str "x")) none).toOption = some ("\x7bx\x7d", ["a"]) := by
  decide +kernel

end

end Template

end ApiDiscovery
