import ApiDiscovery.Proofs.Parameters
import Mathlib.Data.List.Induction
import Mathlib.Data.List.Nodup

/-!
# The order of required parameters

A call without a value for several required parameters is refused for the first of them, so their order is seen by
whoever calls. It is made by three loops that append to one list what is not there yet:

    the loop runs over          and adds                                   in the order of
    the order of the method     what is declared and required              that order
    the declarations            what is declared and required, if new      the declarations
    the holes of the path       what is new                                the path

A name may stand in any of the three, and several times. Only its first place counts (`ByFirst`), and one lemma about
the loop says so for all three (`appendNew_filter`). What is new for a loop is told without the list that it appends
to: the first loop has added all that is required and in the order, the first two all that is required.

Main statement: `Method.requiredParameters_order`.
-/

namespace ApiDiscovery

/-! ## First places -/

/-- The part lists the names that belong, each once, in the order of the places where they stand first. -/
structure ByFirst (names : List String) (Belongs : String → Prop) (part : List String) : Prop where
  mem_iff : ∀ k, k ∈ part ↔ k ∈ names ∧ Belongs k
  order : part.Pairwise fun a b => names.idxOf a < names.idxOf b

namespace ByFirst

variable {names part : List String} {Belongs : String → Prop}

theorem nodup (h : ByFirst names Belongs part) : part.Nodup :=
  h.order.imp fun hlt => fun heq => Nat.lt_irrefl _ (heq ▸ hlt)

/-- There is one such part at most. -/
theorem unique {part' : List String} (h : ByFirst names Belongs part) (h' : ByFirst names Belongs part') :
    part = part' := by
  have hperm : part.Perm part' :=
    (List.perm_ext_iff_of_nodup h.nodup h'.nodup).2 fun k => (h.mem_iff k).trans (h'.mem_iff k).symm
  exact hperm.eq_of_pairwise (fun _ _ _ _ hab hba => absurd hab (Nat.lt_asymm hba)) h.order h'.order

theorem congr {Belongs' : String → Prop} (h : ByFirst names Belongs part)
    (hsame : ∀ k ∈ names, Belongs k ↔ Belongs' k) : ByFirst names Belongs' part where
  mem_iff k := (h.mem_iff k).trans (and_congr_right (hsame k))
  order := h.order

/-- The first places stay where they are when the list grows behind them. -/
theorem order_append (h : ByFirst names Belongs part) (more : List String) :
    part.Pairwise fun a b => (names ++ more).idxOf a < (names ++ more).idxOf b := by
  refine h.order.imp_of_mem fun ha hb hlt => ?_
  rw [List.idxOf_append_of_mem ((h.mem_iff _).1 ha).1, List.idxOf_append_of_mem ((h.mem_iff _).1 hb).1]
  exact hlt

/-- One more name that does not belong, or that stands before. -/
theorem skip {n : String} (h : ByFirst names Belongs part) (hold : Belongs n → n ∈ names) :
    ByFirst (names ++ [n]) Belongs part where
  mem_iff k := by
    rw [h.mem_iff, List.mem_append, List.mem_singleton]
    constructor
    · rintro ⟨hk, hbelongs⟩
      exact ⟨.inl hk, hbelongs⟩
    · rintro ⟨hk | rfl, hbelongs⟩
      · exact ⟨hk, hbelongs⟩
      · exact ⟨hold hbelongs, hbelongs⟩
  order := h.order_append [n]

/-- One more name that belongs and does not stand before. -/
theorem add {n : String} (h : ByFirst names Belongs part) (hbelongs : Belongs n) (hnew : n ∉ names) :
    ByFirst (names ++ [n]) Belongs (part ++ [n]) where
  mem_iff k := by
    rw [List.mem_append, h.mem_iff, List.mem_append, List.mem_singleton]
    constructor
    · rintro (⟨hk, hk'⟩ | rfl)
      · exact ⟨.inl hk, hk'⟩
      · exact ⟨.inr rfl, hbelongs⟩
    · rintro ⟨hk | rfl, hk'⟩
      · exact .inl ⟨hk, hk'⟩
      · exact .inr rfl
  order := by
    refine List.pairwise_append.2 ⟨h.order_append [n], List.pairwise_singleton _ n, fun a ha b hb => ?_⟩
    obtain rfl := List.mem_singleton.1 hb
    have hmem := ((h.mem_iff a).1 ha).1
    rw [List.idxOf_append_of_mem hmem, List.idxOf_append_of_notMem hnew]
    exact Nat.lt_add_right _ (List.idxOf_lt_length_of_mem hmem)

end ByFirst

/-! ## One loop -/

theorem appendNew_concat (names more : List String) (n : String) :
    appendNew names (more ++ [n]) =
      if n ∈ appendNew names more then appendNew names more else appendNew names more ++ [n] := by
  unfold appendNew
  rw [List.foldl_concat]
  simp only [List.contains_iff_mem]

/-- The loop leaves what it starts from in front, and puts behind it what it adds: the names that are chosen and new,
by their first places in the list that it runs over. -/
theorem appendNew_filter (names more : List String) (p : String → Bool) :
    ∃ part, appendNew names (more.filter p) = names ++ part ∧
      ByFirst more (fun k => p k = true ∧ k ∉ names) part := by
  -- The loop runs from the left, so the induction takes its last name off.
  induction more using List.reverseRecOn with
  | nil => exact ⟨[], (List.append_nil names).symm, ⟨fun k => by simp, .nil⟩⟩
  | append_singleton more n ih =>
      obtain ⟨part, heq, hpart⟩ := ih
      rw [List.filter_append, List.filter_singleton]
      cases hp : p n with
      | false =>
          have hskip : p n = true ∧ n ∉ names → n ∈ more := by
            rintro ⟨hpos, -⟩
            rw [hp] at hpos
            cases hpos
          rw [Bool.cond_false, List.append_nil]
          exact ⟨part, heq, hpart.skip hskip⟩
      | true =>
          rw [Bool.cond_true, appendNew_concat, heq]
          split
          next hold =>
            refine ⟨part, rfl, hpart.skip fun h => ?_⟩
            exact ((hpart.mem_iff n).1 ((List.mem_append.1 hold).resolve_left h.2)).1
          next hnew =>
            rw [List.mem_append, not_or] at hnew
            refine ⟨part ++ [n], List.append_assoc .., hpart.add ⟨hp, hnew.1⟩ fun hmem => ?_⟩
            exact hnew.2 ((hpart.mem_iff n).2 ⟨hmem, hp, hnew.1⟩)

/-! ## Three loops -/

namespace Method

/-- Declared by the method, and required. -/
def Demands (m : Method) (k : String) : Prop := ∃ p, m.parameters.get? k = some p ∧ p.required = true

theorem requires_iff {m : Method} {k : String} : m.requires k = true ↔ m.Demands k := by
  unfold requires Demands
  cases m.parameters.get? k with
  | none => simp
  | some p => simp

theorem Demands.mem_keys {m : Method} {k : String} (h : m.Demands k) : k ∈ m.parameters.keys :=
  mem_keys_of_requires (requires_iff.2 h)

/-- Names in three parts: what the order of the method demands, what else the declarations demand, and what else the
path has holes for. -/
def Lists (m : Method) (names : List String) : Prop :=
  ∃ ordered declared placed,
    ByFirst m.parameterOrder m.Demands ordered ∧
    ByFirst m.parameters.keys (fun k => m.Demands k ∧ k ∉ m.parameterOrder) declared ∧
    ByFirst (Template.names (m.path.getD "")) (fun k => ¬ m.Demands k) placed ∧
    names = ordered ++ declared ++ placed

theorem lists_requiredParameters (m : Method) : m.Lists m.requiredParameters := by
  obtain ⟨ordered, heq, hordered⟩ := appendNew_filter [] m.parameterOrder m.requires
  obtain ⟨declared, heq', hdeclared⟩ := appendNew_filter ordered m.parameters.keys m.requires
  obtain ⟨placed, heq'', hplaced⟩ := appendNew_filter (ordered ++ declared) m.holes fun _ => true
  have hfirst (k : String) : k ∈ ordered ↔ k ∈ m.parameterOrder ∧ m.Demands k := by
    rw [hordered.mem_iff, requires_iff]
    simp
  have hboth (k : String) : k ∈ ordered ++ declared ↔ m.Demands k := by
    rw [List.mem_append, hdeclared.mem_iff, requires_iff]
    constructor
    · rintro (hk | ⟨-, hk, -⟩)
      · exact ((hfirst k).1 hk).2
      · exact hk
    · intro hk
      by_cases hmem : k ∈ ordered
      · exact .inl hmem
      · exact .inr ⟨hk.mem_keys, hk, hmem⟩
  refine ⟨ordered, declared, placed, hordered.congr fun k _ => ?_, hdeclared.congr fun k _ => ?_,
    hplaced.congr fun k _ => ?_, ?_⟩
  · rw [requires_iff]
    exact and_iff_left List.not_mem_nil
  · rw [requires_iff, hfirst]
    exact and_congr_right fun hk => not_congr (and_iff_left hk)
  · rw [hboth]
    exact and_iff_right rfl
  · rw [List.nil_append] at heq
    rw [requiredParameters, heq, heq', ← heq'', List.filter_true]

variable {m : Method} {names : List String}

/-- The three parts leave no choice. -/
theorem Lists.unique {names' : List String} (h : m.Lists names) (h' : m.Lists names') : names = names' := by
  obtain ⟨ordered, declared, placed, hordered, hdeclared, hplaced, rfl⟩ := h
  obtain ⟨ordered', declared', placed', hordered', hdeclared', hplaced', rfl⟩ := h'
  rw [hordered.unique hordered', hdeclared.unique hdeclared', hplaced.unique hplaced']

theorem Lists.nodup (h : m.Lists names) : names.Nodup := by
  obtain ⟨ordered, declared, placed, hordered, hdeclared, hplaced, rfl⟩ := h
  refine (hordered.nodup.append hdeclared.nodup fun k hk hk' => ?_).append hplaced.nodup fun k hk hk' => ?_
  · exact ((hdeclared.mem_iff k).1 hk').2.2 ((hordered.mem_iff k).1 hk).1
  · refine ((hplaced.mem_iff k).1 hk').2 ?_
    rcases List.mem_append.1 hk with hk | hk
    · exact ((hordered.mem_iff k).1 hk).2
    · exact ((hdeclared.mem_iff k).1 hk).2.1

/-- What the order of the method has without demanding it might as well not be there. -/
theorem requiredParameters_reordered (m : Method) {k : String} (h : ¬ m.Demands k) (front rest : List String) :
    { m with parameterOrder := front ++ k :: rest }.requiredParameters =
      { m with parameterOrder := front ++ rest }.requiredParameters := by
  have hfilter : (front ++ k :: rest).filter m.requires = (front ++ rest).filter m.requires := by
    rw [List.filter_append, List.filter_cons_of_neg (mt requires_iff.1 h), List.filter_append]
  show appendNew (appendNew (appendNew [] ((front ++ k :: rest).filter m.requires)) _) _ = _
  rw [hfilter]
  rfl

/-! ## Main statement -/

/-- What is declared and required is listed, and every hole of the path, each once, and nothing else. First comes
what the order of the method has, then what else is declared and required, then the other holes, each of the three by
first places; there is no other such list. A name that is not declared or not required adds nothing by standing in the
order, wherever it stands there. -/
theorem requiredParameters_order (m : Method) :
    m.requiredParameters.Nodup ∧
    (∀ k, k ∈ m.requiredParameters ↔ m.Demands k ∨ k ∈ Template.names (m.path.getD "")) ∧
    (∀ names, m.requiredParameters = names ↔ m.Lists names) ∧
    ∀ front k rest, ¬ m.Demands k →
      { m with parameterOrder := front ++ k :: rest }.requiredParameters =
        { m with parameterOrder := front ++ rest }.requiredParameters := by
  have hlists := m.lists_requiredParameters
  refine ⟨hlists.nodup, fun k => ?_, fun names => ⟨?_, hlists.unique⟩, ?_⟩
  · rw [mem_requiredParameters, requires_iff]
    rfl
  · rintro rfl
    exact hlists
  · intro front k rest h
    exact m.requiredParameters_reordered h front rest

/-- The order names a parameter that is not declared, one that is not required, and one twice. The second is a hole of
the path, and so it is required after all, but last. -/
example :
    ({ id := none, verb := none, path := some "\x7bb\x7d/\x7bc\x7d", flatPath := none, description := none,
       parameters := Table.ofList [
        ("a", ⟨"string", .query, true, .null, false, none, none, none, none, ∅⟩),
        ("b", ⟨"string", .path, true, .null, false, none, none, none, none, ∅⟩),
        ("c", ⟨"string", .path, false, .null, false, none, none, none, none, ∅⟩)],
       parameterOrder := ["x", "c", "b", "b"], request := none, response := none, scopes := [],
       unknown := ∅ } : Method).requiredParameters = ["b", "a", "c"] := by
  decide +kernel

end Method

end ApiDiscovery
