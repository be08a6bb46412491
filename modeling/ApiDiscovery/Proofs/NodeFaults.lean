import ApiDiscovery.Proofs.Outcome
import ApiDiscovery.Yaml.Value

/-!
# What the nodes of a YAML text can fail for

From the tokens on, a text is refused for three reasons: for the fault behind its tokens, for the order of its tokens,
or for a node that does not denote what its tag says. `Compose.Passes` says of one computation of the composer that it
brings up nothing else than the first two.

What the nodes denote is found while mappings are merged, so the nodes that are looked at are not quite those of the
text. `Graph.Follows` says what is left of them: each has its kind, its text and its items, and its tag unless that is
the one of texts. Every step of a merge, and every step of `Building`, keeps to this (`Ends`), so a fault that is not
one of form is the fault of one node of such a graph. Main statement: `Graph.fault_of_load`.
-/

namespace ApiDiscovery.Yaml

/-- The fault is one of form. -/
def Fault.IsMalformed (f : Fault) : Prop := ∃ what, f = .malformed what

theorem Fault.isMalformed (what : Malformed) : (Fault.malformed what).IsMalformed := ⟨what, rfl⟩

/-! ## Composing -/

namespace Compose

/-- The computation leaves the fault behind the tokens as it is, and ends with a result, with that fault or with one
of form. -/
def Passes (x : Compose α) : Prop :=
  ∀ s, match x s with
    | .ok (_, s') => s'.fault = s.fault
    | .error f => f.IsMalformed ∨ s.fault = some f

theorem passes_pure (a : α) : Passes (pure a : Compose α) := fun _ => rfl

theorem passes_fail (what : Malformed) : Passes (fail what : Compose α) := fun _ => .inl (Fault.isMalformed what)

theorem passes_get : Passes (get : Compose ComposeState) := fun _ => rfl

theorem passes_modify {g : ComposeState → ComposeState} (hg : ∀ s, (g s).fault = s.fault) :
    Passes (modify g : Compose Unit) := hg

theorem Passes.bind {x : Compose α} {f : α → Compose β} (hx : Passes x) (hf : ∀ a, Passes (f a)) :
    Passes (x >>= f) := by
  intro s
  have hfirst := hx s
  show match (x s >>= fun r => f r.1 r.2) with
    | .ok (_, s') => s'.fault = s.fault
    | .error f => f.IsMalformed ∨ s.fault = some f
  cases hr : x s with
  | error e =>
      rw [hr] at hfirst
      exact hfirst
  | ok r =>
      rw [hr] at hfirst
      rw [ok_bind, ← hfirst]
      exact hf r.1 r.2

theorem Passes.ite {c : Prop} [Decidable c] {x y : Compose α} (hx : Passes x) (hy : Passes y) :
    Passes (if c then x else y) := by
  split
  · exact hx
  · exact hy

theorem passes_peek : Passes peek := by
  rintro ⟨tokens, fault, anchors, handles⟩
  cases tokens with
  | cons t ts => rfl
  | nil =>
      cases fault with
      | none => exact .inl (Fault.isMalformed _)
      | some f => exact .inr rfl

theorem passes_advance : Passes advance := passes_modify fun _ => rfl

theorem passes_accept (t : Token) : Passes (accept t) :=
  passes_peek.bind fun _ => .ite (passes_advance.bind fun _ => passes_pure true) (passes_pure false)

theorem passes_sees (ts : List Token) : Passes (sees ts) := passes_peek.bind fun _ => passes_pure _

theorem passes_anchor : Passes anchor? := by
  refine passes_peek.bind fun t => ?_
  split
  · exact passes_advance.bind fun _ => passes_pure _
  · exact passes_pure _

theorem passes_tag : Passes tag? := by
  refine passes_peek.bind fun t => ?_
  split
  · exact passes_advance.bind fun _ => passes_pure _
  · exact passes_pure _

theorem passes_expandTag (tag : Option (Option String × String)) : Passes (expandTag tag) := by
  rw [expandTag.eq_def]
  split
  · exact passes_pure _
  · exact passes_pure _
  · refine passes_get.bind fun s => ?_
    split
    · exact passes_pure _
    · exact passes_fail _

theorem passes_properties : Passes properties := by
  refine passes_anchor.bind fun name => ?_
  split
  · refine passes_tag.bind fun tag => ?_
    exact (passes_expandTag tag).bind fun _ => passes_pure _
  · refine passes_tag.bind fun tag => ?_
    refine Passes.ite (passes_anchor.bind fun name => ?_) ?_
    · exact (passes_expandTag tag).bind fun _ => passes_pure _
    · exact (passes_expandTag tag).bind fun _ => passes_pure _

theorem passes_add (n : Node) : Passes (add n) := fun _ => rfl

theorem passes_settle (i : NodeId) (n : Node) : Passes (settle i n) := passes_modify fun _ => rfl

theorem passes_declare (name : Option String) (i : NodeId) : Passes (declare name i) := by
  cases name with
  | none => exact passes_pure ()
  | some name => exact passes_modify fun _ => rfl

theorem passes_checkFresh (name : Option String) : Passes (checkFresh name) := by
  cases name with
  | none => exact passes_pure ()
  | some name => exact passes_get.bind fun s => .ite (passes_fail _) (passes_pure ())

theorem passes_resolveAlias (name : String) : Passes (resolveAlias name) := by
  refine passes_get.bind fun s => ?_
  split
  · exact passes_pure _
  · exact passes_fail _

theorem passes_orEmpty (stops : List Token) {x : Compose NodeId} (hx : Passes x) : Passes (orEmpty stops x) :=
  (passes_sees stops).bind fun _ => .ite (passes_add _) hx

theorem passes_leaf (name : Option String) (n : Node) : Passes (leaf name n) := by
  refine (passes_checkFresh name).bind fun _ => ?_
  refine (passes_add n).bind fun i => ?_
  exact (passes_declare name i).bind fun _ => passes_pure i

theorem passes_collection (name : Option String) {x : Compose Node} (hx : Passes x) : Passes (collection name x) := by
  refine (passes_checkFresh name).bind fun _ => ?_
  refine (passes_add _).bind fun i => ?_
  refine (passes_declare name i).bind fun _ => ?_
  exact hx.bind fun n => (passes_settle i n).bind fun _ => passes_pure i

/-- All computations that read nodes pass, with so much fuel. -/
structure PassAt (fuel : Nat) : Prop where
  node : ∀ block indentless, Passes (node fuel block indentless)
  blockItems : Passes (blockItems fuel)
  indentlessItems : Passes (indentlessItems fuel)
  blockEntries : Passes (blockEntries fuel)
  flowItems : ∀ first, Passes (flowItems fuel first)
  flowEntries : ∀ first, Passes (flowEntries fuel first)

section

variable {fuel : Nat} (h : PassAt fuel)
include h

theorem passes_node (block indentless : Bool) : Passes (node (fuel + 1) block indentless) := by
  have hnothing (name tag : Option String) : Passes
      (if name.isSome || tag.isSome then leaf name (.scalar (scalarTag tag true "") "") else fail .order) :=
    .ite (passes_leaf name _) (passes_fail _)
  rw [node]
  refine passes_peek.bind fun t => ?_
  split
  · exact passes_advance.bind fun _ => passes_resolveAlias _
  refine passes_properties.bind fun props => ?_
  refine passes_peek.bind fun t => ?_
  split
  · exact passes_advance.bind fun _ => passes_leaf _ _
  · refine passes_advance.bind fun _ => passes_collection _ ?_
    exact (h.flowItems true).bind fun _ => passes_pure _
  · refine passes_advance.bind fun _ => passes_collection _ ?_
    exact (h.flowEntries true).bind fun _ => passes_pure _
  · refine .ite (passes_collection _ ?_) (hnothing _ _)
    exact h.indentlessItems.bind fun _ => passes_pure _
  · refine .ite (passes_advance.bind fun _ => passes_collection _ ?_) (hnothing _ _)
    exact h.blockItems.bind fun _ => passes_pure _
  · refine .ite (passes_advance.bind fun _ => passes_collection _ ?_) (hnothing _ _)
    exact h.blockEntries.bind fun _ => passes_pure _
  · exact hnothing _ _

theorem passes_blockItems : Passes (blockItems (fuel + 1)) := by
  rw [blockItems]
  refine (passes_accept _).bind fun _ => .ite ?_ ?_
  · refine (passes_orEmpty _ (h.node true false)).bind fun n => ?_
    exact h.blockItems.bind fun _ => passes_pure _
  · exact (passes_accept _).bind fun _ => .ite (passes_pure _) (passes_fail _)

theorem passes_indentlessItems : Passes (indentlessItems (fuel + 1)) := by
  rw [indentlessItems]
  refine (passes_accept _).bind fun _ => .ite ?_ (passes_pure _)
  refine (passes_orEmpty _ (h.node true false)).bind fun n => ?_
  exact h.indentlessItems.bind fun _ => passes_pure _

theorem passes_blockEntries : Passes (blockEntries (fuel + 1)) := by
  rw [blockEntries]
  refine (passes_accept _).bind fun _ => .ite ?_ ?_
  · refine (passes_orEmpty _ (h.node true true)).bind fun k => ?_
    refine Passes.bind ((passes_accept _).bind fun _ => .ite ?_ (passes_add _)) fun v => ?_
    · exact passes_orEmpty _ (h.node true true)
    · exact h.blockEntries.bind fun _ => passes_pure _
  · exact (passes_accept _).bind fun _ => .ite (passes_pure _) (passes_fail _)

/-- The value behind a key in brackets, or nothing. -/
theorem passes_flowValue (stops : List Token) : Passes (do
    if ← accept .value then orEmpty stops (node fuel false false) else add Node.empty) :=
  (passes_accept _).bind fun _ => .ite (passes_orEmpty _ (h.node false false)) (passes_add _)

theorem passes_flowItems (first : Bool) : Passes (flowItems (fuel + 1) first) := by
  have hitem : Passes (do
      if ← accept .key then
        let k ← orEmpty [.value, .flowEntry, .flowSequenceEnd] (node fuel false false)
        let v ← (do
          if ← accept .value then orEmpty [.flowEntry, .flowSequenceEnd] (node fuel false false)
          else add Node.empty)
        let i ← add (.mapping .map [(k, v)])
        return i :: (← flowItems fuel false)
      else if ← accept .flowSequenceEnd then return []
      else
        let n ← node fuel false false
        return n :: (← flowItems fuel false)) := by
    refine (passes_accept _).bind fun _ => .ite ?_ ?_
    · refine (passes_orEmpty _ (h.node false false)).bind fun k => ?_
      refine (passes_flowValue h _).bind fun v => ?_
      refine (passes_add _).bind fun i => ?_
      exact (h.flowItems false).bind fun _ => passes_pure _
    · refine (passes_accept _).bind fun _ => .ite (passes_pure _) ?_
      refine (h.node false false).bind fun n => ?_
      exact (h.flowItems false).bind fun _ => passes_pure _
  rw [flowItems]
  refine (passes_accept _).bind fun _ => .ite (passes_pure _) (.ite ?_ hitem)
  exact (passes_accept _).bind fun _ => .ite ((passes_fail _).bind fun _ => hitem) hitem

theorem passes_flowEntries (first : Bool) : Passes (flowEntries (fuel + 1) first) := by
  have hentry : Passes (do
      if ← accept .key then
        let k ← orEmpty [.value, .flowEntry, .flowMappingEnd] (node fuel false false)
        let v ← (do
          if ← accept .value then orEmpty [.flowEntry, .flowMappingEnd] (node fuel false false)
          else add Node.empty)
        return (k, v) :: (← flowEntries fuel false)
      else if ← accept .flowMappingEnd then return []
      else
        let k ← node fuel false false
        let v ← add Node.empty
        return (k, v) :: (← flowEntries fuel false)) := by
    refine (passes_accept _).bind fun _ => .ite ?_ ?_
    · refine (passes_orEmpty _ (h.node false false)).bind fun k => ?_
      refine (passes_flowValue h _).bind fun v => ?_
      exact (h.flowEntries false).bind fun _ => passes_pure _
    · refine (passes_accept _).bind fun _ => .ite (passes_pure _) ?_
      refine (h.node false false).bind fun k => ?_
      refine (passes_add _).bind fun v => ?_
      exact (h.flowEntries false).bind fun _ => passes_pure _
  rw [flowEntries]
  refine (passes_accept _).bind fun _ => .ite (passes_pure _) (.ite ?_ hentry)
  exact (passes_accept _).bind fun _ => .ite ((passes_fail _).bind fun _ => hentry) hentry

end

/-- One call passes if those inside it do, and so all calls pass, with any fuel. -/
theorem passAt (fuel : Nat) : PassAt fuel := by
  induction fuel with
  | zero =>
      exact ⟨fun _ _ => passes_fail _, passes_fail _, passes_fail _, passes_fail _, fun _ => passes_fail _,
        fun _ => passes_fail _⟩
  | succ fuel ih =>
      exact ⟨passes_node ih, passes_blockItems ih, passes_indentlessItems ih, passes_blockEntries ih,
        passes_flowItems ih, passes_flowEntries ih⟩

theorem passes_directives (fuel : Nat) (versioned : Bool) (handles : List (String × String)) :
    Passes (directives fuel versioned handles) := by
  induction fuel generalizing versioned handles with
  | zero => exact passes_fail _
  | succ fuel ih =>
      rw [directives]
      refine passes_peek.bind fun t => ?_
      split
      · refine passes_advance.bind fun _ => ?_
        split
        · exact .ite (passes_fail _) (ih _ _)
        · exact .ite (passes_fail _) (ih _ _)
        · exact ih _ _
      · exact passes_pure _

theorem passes_documentEnds (fuel : Nat) : Passes (documentEnds fuel) := by
  induction fuel with
  | zero => exact passes_pure _
  | succ fuel ih =>
      rw [documentEnds]
      exact (passes_accept _).bind fun _ => .ite ih (passes_pure _)

theorem passes_finish (fuel : Nat) (i : NodeId) : Passes (document.finish fuel i) := by
  refine (passes_documentEnds fuel).bind fun _ => ?_
  exact passes_peek.bind fun _ => .ite (passes_pure _) (passes_fail _)

/-- Whether the document of a text with directives or marks is empty. -/
theorem passes_stops : Passes (do
    match ← peek with
    | .directive _ | .documentStart | .documentEnd | .streamEnd => return true
    | _ => return false) := by
  refine passes_peek.bind fun t => ?_
  split
  · exact passes_pure true
  · exact passes_pure true
  · exact passes_pure true
  · exact passes_pure true
  · exact passes_pure false

theorem passes_document (fuel : Nat) : Passes (document fuel) := by
  have hnode : Passes (node fuel true false >>= document.finish fuel) :=
    ((passAt fuel).node true false).bind fun i => passes_finish fuel i
  have hempty : Passes (add Node.empty >>= document.finish fuel) :=
    (passes_add _).bind fun i => passes_finish fuel i
  have hmarked (stops : Bool) : Passes (if stops then add Node.empty >>= document.finish fuel
      else node fuel true false >>= document.finish fuel) := .ite hempty hnode
  have hstarts (own : List (String × String)) : Passes (modify fun s => { s with handles := own ++ commonHandles }) :=
    passes_modify fun _ => rfl
  rw [document]
  refine passes_peek.bind fun t => ?_
  split
  · exact passes_pure _
  · refine (passes_directives fuel _ _).bind fun own => (hstarts own).bind fun _ => (passes_accept _).bind fun _ => ?_
    exact .ite ((passes_fail _).bind fun _ => passes_stops.bind hmarked) (passes_stops.bind hmarked)
  · refine (passes_directives fuel _ _).bind fun own => (hstarts own).bind fun _ => (passes_accept _).bind fun _ => ?_
    exact .ite ((passes_fail _).bind fun _ => passes_stops.bind hmarked) (passes_stops.bind hmarked)
  · exact hnode

end Compose

/-- A text without nodes is refused for its form or for the fault behind its tokens. -/
theorem Graph.fault_of_ofText {text : String} {f : Fault} (h : Graph.ofText? text = .error f) :
    f.IsMalformed ∨ (Token.scan text.toList).2 = some f := by
  rw [Graph.ofText?] at h
  dsimp only at h
  have hpass := Compose.passes_document (4 * (Token.scan text.toList).1.length + 8)
    ⟨(Token.scan text.toList).1, (Token.scan text.toList).2, [], [], Compose.commonHandles⟩
  split at hpass
  next hr =>
    rw [hr] at h
    cases h
  next hr =>
    rw [hr] at h
    cases h
    exact hpass

/-! ## Merging -/

/-- The mark of a default value may be taken for a text; every other tag stays. -/
def Tag.Follows (t₀ t : Tag) : Prop := t = t₀ ∨ t₀ = .default ∧ t = .str

/-- `n₀.Follows n`: in the course of merges, `n` has come to stand where `n₀` stood. -/
inductive Node.Follows : Node → Node → Prop
  | scalar {t₀ t : Tag} {text : String} (h : t₀.Follows t) : Follows (.scalar t₀ text) (.scalar t text)
  | sequence {t₀ t : Tag} {items : List NodeId} (h : t₀.Follows t) :
      Follows (.sequence t₀ items) (.sequence t items)
  | mapping {t₀ t : Tag} {es₀ es : List NodeEntry} (h : t₀.Follows t) : Follows (.mapping t₀ es₀) (.mapping t es)

theorem Node.Follows.refl (n : Node) : n.Follows n := by
  cases n with
  | scalar t text => exact .scalar (.inl rfl)
  | sequence t items => exact .sequence (.inl rfl)
  | mapping t es => exact .mapping (.inl rfl)

theorem Node.Follows.tag {n₀ n : Node} (h : n₀.Follows n) : n₀.tag.Follows n.tag := by
  cases h with
  | scalar ht => exact ht
  | sequence ht => exact ht
  | mapping ht => exact ht

/-- Where the mark of a default value stands, it stood from the beginning. -/
theorem Tag.Follows.default {t₀ : Tag} (h : t₀.Follows .default) : t₀.Follows .str := by
  rcases h with h | ⟨-, h⟩
  · exact .inr ⟨h.symm, rfl⟩
  · cases h

theorem Node.Follows.plain {n₀ n : Node} (h : n₀.Follows n) (htag : n.tag = .default) :
    n₀.Follows (n.withTag .str) := by
  have hstr : n₀.tag.Follows .str := (htag ▸ h.tag).default
  cases h with
  | scalar => exact .scalar hstr
  | sequence => exact .sequence hstr
  | mapping => exact .mapping hstr

theorem Node.Follows.entries {n₀ : Node} {t : Tag} {es : List NodeEntry} (h : n₀.Follows (.mapping t es))
    (es' : List NodeEntry) : n₀.Follows (.mapping t es') := by
  cases h with
  | mapping ht => exact .mapping ht

/-- `g₀.Follows g`: each node of `g` has come to stand where `g₀` had one. -/
def Graph.Follows (g₀ g : Graph) : Prop := ∀ i n, g.node? i = some n → ∃ n₀, g₀.node? i = some n₀ ∧ n₀.Follows n

namespace Graph

variable {g₀ g : Graph}

theorem Follows.refl (g : Graph) : g.Follows g := fun _ n hn => ⟨n, hn, .refl n⟩

/-- A node may be put where one stands that it can follow on. -/
theorem Follows.put {i : NodeId} {n : Node} (h : g₀.Follows g)
    (hn : ∀ n₀ m : Node, g.node? i = some m → n₀.Follows m → n₀.Follows n) : g₀.Follows (g.put i n) := by
  intro j m hj
  rw [node?, Graph.put, List.getElem?_set] at hj
  split at hj
  next hij =>
    subst hij
    split at hj
    next hlt =>
      cases hj
      have hm : g.node? i = some g.nodes[i] := List.getElem?_eq_getElem hlt
      obtain ⟨n₀, hn₀, hfollows⟩ := h i _ hm
      exact ⟨n₀, hn₀, hn n₀ _ hm hfollows⟩
    next => cases hj
  next => exact h j m hj

theorem Follows.setEntries (h : g₀.Follows g) (i : NodeId) (es : List NodeEntry) :
    g₀.Follows (g.setEntries i es) := by
  rw [Graph.setEntries]
  split
  next hi =>
    refine h.put fun n₀ m hm hfollows => ?_
    rw [hi] at hm
    cases hm
    exact hfollows.entries es
  next => exact h

theorem Follows.plainKey (h : g₀.Follows g) (i : NodeId) : g₀.Follows (g.plainKey i) := by
  rw [Graph.plainKey]
  split
  next n hi =>
    split
    next htag =>
      refine h.put fun n₀ m hm hfollows => ?_
      rw [hi] at hm
      cases hm
      exact hfollows.plain htag
    next => exact h
  next => exact h

theorem Follows.takeOver (h : g₀.Follows g) (i : NodeId) (merged : List NodeEntry) :
    g₀.Follows (g.takeOver i merged) := by
  have hkeys (es : List NodeEntry) {g : Graph} (h : g₀.Follows g) :
      g₀.Follows (es.foldl (fun g e => g.plainKey e.1) g) := by
    induction es generalizing g with
    | nil => exact h
    | cons e es ih => exact ih (h.plainKey e.1)
  exact (hkeys _ h).setEntries i _

theorem Follows.nextMerge {i source : NodeId} {g' : Graph} (h : g₀.Follows g)
    (hnext : g.nextMerge? i = some (source, g')) : g₀.Follows g' := by
  obtain ⟨e, -, he⟩ := Option.map_eq_some_iff.1 hnext
  cases he
  exact h.setEntries i _

end Graph

namespace Graph

variable {g₀ : Graph}

/-- The computation leads on from `g₀`, or fails for the form. -/
abbrev Merges (g₀ : Graph) (x : Except Fault Graph) : Prop := Ends Fault.IsMalformed g₀.Follows x

/-- The same for computations that give entries, too. -/
abbrev MergesTo (g₀ : Graph) (x : Except Fault (Graph × List NodeEntry)) : Prop :=
  Ends Fault.IsMalformed (fun r => g₀.Follows r.1) x

theorem merges_items {merge : Graph → NodeId → Except Fault Graph}
    (hmerge : ∀ g i, g₀.Follows g → g₀.Merges (merge g i)) (items : List NodeId) {g : Graph} (h : g₀.Follows g) :
    g₀.MergesTo (mergeItems merge g items) := by
  induction items generalizing g with
  | nil => exact h
  | cons i rest ih =>
      rw [mergeItems]
      split
      · refine (hmerge g i h).bind fun g' hg' => ?_
        exact (ih hg').bind fun r hr => hr
      · exact Fault.isMalformed .merge

theorem merges_source {merge : Graph → NodeId → Except Fault Graph}
    (hmerge : ∀ g i, g₀.Follows g → g₀.Merges (merge g i)) (source : NodeId) {g : Graph} (h : g₀.Follows g) :
    g₀.MergesTo (mergeSource merge g source) := by
  rw [mergeSource]
  split
  · exact (hmerge g source h).bind fun g' hg' => hg'
  · exact merges_items hmerge _ h
  · exact Fault.isMalformed .merge

theorem merges_from (fuel : Nat) (merged : List NodeEntry) (g : Graph) (i : NodeId) (h : g₀.Follows g) :
    g₀.Merges (mergeFrom fuel merged g i) := by
  induction fuel generalizing merged g i with
  | zero => exact Fault.isMalformed .merge
  | succ fuel ih =>
      rw [mergeFrom]
      split
      next => exact h.takeOver i merged
      next source g' hnext =>
        have hsource := merges_source (fun g i hg => ih [] g i hg) source (h.nextMerge hnext)
        exact hsource.bind fun r hr => ih _ r.1 i hr

theorem merges_merge {g : Graph} (i : NodeId) (h : g₀.Follows g) : g₀.Merges (g.merge i) := merges_from _ [] g i h

/-- A fault of form, or of one node of a graph that follows `g₀`. -/
def HasFault (g₀ : Graph) (f : Fault) : Prop :=
  f.IsMalformed ∨ ∃ g i n, g₀.Follows g ∧ g.node? i = some n ∧ n.tag.isCollection = false ∧ g.leaf i n = .error f

end Graph

/-! ## Building -/

namespace Building

variable {g₀ : Graph} {b : Building}

/-- The computation leads on from the nodes `g₀`, or fails for one of them or for the form. -/
abbrev Builds (g₀ : Graph) (x : Except Fault Building) : Prop := Ends g₀.HasFault (fun b => g₀.Follows b.graph) x

theorem builds_refuse (what : Malformed) : Builds g₀ (refuse what) := .inl (Fault.isMalformed what)

theorem builds_make (h : g₀.Follows b.graph) (i : NodeId) : Builds g₀ (b.make i) := by
  rw [make]
  split
  next n _ hn =>
    split
    · exact h
    next htag =>
      cases hleaf : b.graph.leaf i n with
      | ok v => exact h
      | error f => exact .inr ⟨b.graph, i, n, h, hn, Bool.eq_false_iff.2 htag, hleaf⟩
  next => exact h

theorem builds_makeEntry (h : g₀.Follows b.graph) (e : NodeEntry) : Builds g₀ (b.makeEntry e) := by
  refine (builds_make h e.1).bind fun b' hb' => ?_
  split
  · exact builds_refuse .unhashableKey
  · exact builds_make hb' e.2

theorem builds_makePair (h : g₀.Follows b.graph) (i : NodeId) : Builds g₀ (b.makePair i) := by
  rw [makePair]
  split
  · exact (builds_make h _).bind fun b' hb' => builds_make hb' _
  · exact builds_refuse .singleEntryExpected
  · exact builds_refuse .mappingExpected

theorem builds_merged (h : g₀.Follows b.graph) (i : NodeId) : Builds g₀ (do
    let g ← b.graph.merge i
    (g.entries i).foldlM makeEntry { b with graph := g }) := by
  have hmerge : Ends g₀.HasFault g₀.Follows (b.graph.merge i) := (Graph.merges_merge i h).mono fun f hf => .inl hf
  exact hmerge.bind fun g hg => .foldlM (fun _ e hb => builds_makeEntry hb e) hg _

theorem builds_fill (h : g₀.Follows b.graph) (i : NodeId) : Builds g₀ (b.fill i) := by
  rw [fill]
  split
  · exact h
  split
  · exact .foldlM (fun _ i hb => builds_make hb i) h _
  · exact .foldlM (fun _ i hb => builds_makePair hb i) h _
  · exact .foldlM (fun _ i hb => builds_makePair hb i) h _
  · exact builds_merged h i
  · exact builds_merged h i
  · exact builds_refuse .mappingExpected
  · exact builds_refuse .mappingExpected
  · exact builds_refuse .sequenceExpected

theorem builds_run (fuel : Nat) (h : g₀.Follows b.graph) : Builds g₀ (run fuel b) := by
  induction fuel generalizing b with
  | zero => exact h
  | succ fuel ih =>
      rw [run]
      split
      · exact h
      next i rest _ => exact (builds_fill (b := { b with queue := rest }) h i).bind fun b' hb' => ih hb'

end Building

/-- What keeps a document from a value is a fault of its form or of one of its nodes. -/
theorem Graph.fault_of_load {g : Graph} {f : Fault} (h : g.load = .error f) : g.HasFault f := by
  have hstart : Building.Builds g (Building.make { graph := g } g.root) := Building.builds_make (.refl g) g.root
  have hload : Ends g.HasFault (fun _ => True) g.load := by
    rw [load]
    refine hstart.bind fun b hb => (Building.builds_run _ hb).bind fun b' _ => ?_
    split
    · trivial
    · trivial
  rw [h] at hload
  exact hload

end ApiDiscovery.Yaml
