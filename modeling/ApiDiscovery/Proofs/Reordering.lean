import ApiDiscovery.Proofs.Presence
import ApiDiscovery.Proofs.Sorted

/-!
# The order in which parameters are given

A table keeps its entries in the order in which they were set, and so does a mapping. A request shows nothing of
that order. What a parameter is resolved to, and what the body has under it, is looked up by name; the fields of
the body come in the order of the declarations; the query is sorted by name, and a mapping in it is written with
its keys sorted. So

    tables with the same entries in another order                        make the same request, or the same fault
    values of the query with mappings in another order, at any depth    are written the same

The first is the second with nothing reordered within the values: both are `Table.AlikeAt`, and a step of the way
from parameters to request is shown to keep it, or to come to the same thing.

Main statement: `resolveRequest_reordered`.
-/

namespace ApiDiscovery

open Json

/-! ## Values in another order -/

/-- `Reordered v w`: the values are the same but for the order of entries in mappings with text keys, wherever
these stand in lists and in other mappings. -/
inductive Reordered : Value → Value → Prop
  | refl (v : Value) : Reordered v v
  | trans {u v w : Value} : Reordered u v → Reordered v w → Reordered u w
  | entries {t t' : Table Value} : t.entries.Perm t'.entries →
      Reordered (.ofFields t.entries) (.ofFields t'.entries)
  | entry {k v w : Value} (before after : List (Value × Value)) : Reordered v w →
      Reordered (.map (before ++ (k, v) :: after)) (.map (before ++ (k, w) :: after))
  | item {v w : Value} (before after : List Value) : Reordered v w →
      Reordered (.list (before ++ v :: after)) (.list (before ++ w :: after))
  | part {v w : Value} (before after : List Value) : Reordered v w →
      Reordered (.tuple (before ++ v :: after)) (.tuple (before ++ w :: after))

/-! ## Sorting by name -/

def sortedByName (es : List (String × α)) : List (String × α) := es.mergeSort fun a b => a.1 ≤ b.1

theorem pairwise_sortedByName (es : List (String × α)) :
    (sortedByName es).Pairwise fun a b => a.1 ≤ b.1 :=
  pairwise_sortedBy (·.1) es

/-- Entries with different names have one order only. -/
theorem sortedByName_eq_of_perm {es es' : List (String × α)} (hnodup : (es.map (·.1)).Nodup)
    (h : es.Perm es') : sortedByName es = sortedByName es' := by
  have hsort : ∀ l : List (String × α), (sortedByName l).Perm l := fun l => List.mergeSort_perm l _
  refine List.Perm.eq_of_pairwise (fun a b ha hb hab hba => ?_) (pairwise_sortedByName es)
    (pairwise_sortedByName es') ((hsort es).trans (h.trans (hsort es').symm))
  have hname : a.1 = b.1 := String.le_antisymm hab hba
  have ha : lookupEntry a.1 es = some a.2 := (lookupEntry_eq_some hnodup).2 ((hsort es).mem_iff.1 ha)
  have hb : lookupEntry b.1 es = some b.2 :=
    (lookupEntry_eq_some hnodup).2 (h.mem_iff.2 ((hsort es').mem_iff.1 hb))
  rw [hname, hb] at ha
  exact Prod.ext hname (Option.some.inj ha).symm

/-- Changing the values under the names keeps the order. -/
theorem sortedByName_map (f : α → β) (es : List (String × α)) :
    sortedByName (es.map fun e => (e.1, f e.2)) = (sortedByName es).map fun e => (e.1, f e.2) := by
  refine (List.map_mergeSort ?_).symm
  exact fun _ _ _ _ => rfl

/-! ## Mappings in the query -/

section Writing

variable {style : Style}

/-- The entries of an object with text keys, each written under its key. -/
def writtenFields (style : Style) (es : List (String × Value)) : List (String × Except WriteFault String) :=
  es.map fun e => (e.1, do
    let s ← write style e.2
    return writeString style.ascii e.1 ++ ":" ++ s)

theorem writeEntries_fields (es : List (String × Value)) :
    writeEntries style (es.map fun e => (.str e.1, e.2)) =
      (writtenFields style es).map fun e => (.str e.1, e.2) := by
  induction es with
  | nil => rfl
  | cons e rest ih =>
      rw [List.map_cons, writeEntries, ih]
      rfl

theorem incomparable?_texts (names : List String) : incomparable? (names.map Value.str) = none := by
  induction names with
  | nil => rfl
  | cons a rest ih =>
      cases rest with
      | nil => rfl
      | cons b rest =>
          have hcomparable : comparable (.str b) (.str a) = true := rfl
          rw [List.map_cons, List.map_cons, incomparable?, if_pos hcomparable]
          exact ih

/-- Text keys are sorted as names are. -/
theorem sortEntries_fields (es : List (String × α)) :
    sortEntries (es.map fun e => (.str e.1, e.2)) =
      .ok ((sortedByName es).map fun e => (Value.str e.1, e.2)) := by
  have hcomparable : incomparable? ((es.map fun e => (Value.str e.1, e.2)).map (·.1)) = none := by
    rw [List.map_map]
    have hnames := incomparable?_texts (es.map (·.1))
    rwa [List.map_map] at hnames
  have hsort : (es.map fun e => (Value.str e.1, e.2)).mergeSort (fun a b => !keyLt b.1 a.1) =
      (sortedByName es).map fun e => (Value.str e.1, e.2) := by
    refine (List.map_mergeSort fun a _ b _ => ?_).symm
    show decide (a.1 ≤ b.1) = !decide (b.1 < a.1)
    rw [Bool.eq_iff_iff, decide_eq_true_iff, Bool.not_eq_true', decide_eq_false_iff_not]
    exact String.not_lt.symm
  rw [sortEntries, hcomparable]
  exact congrArg Except.ok hsort

/-- With its keys sorted, a mapping is written the same in any order. -/
theorem write_ofFields {t t' : Table Value} (hsorted : style.sorted = true) (h : t.entries.Perm t'.entries) :
    write style (.ofFields t.entries) = write style (.ofFields t'.entries) := by
  have hnodup : ((writtenFields style t.entries).map (·.1)).Nodup := by
    have hkeys : (writtenFields style t.entries).map (·.1) = t.entries.map (·.1) := by
      simp [writtenFields, Function.comp_def]
    rw [hkeys]
    exact t.distinct
  have hperm : (writtenFields style t.entries).Perm (writtenFields style t'.entries) := h.map _
  rw [Value.ofFields, Value.ofFields, write, write, writeEntries_fields, writeEntries_fields, if_pos hsorted,
    if_pos hsorted, sortEntries_fields, sortEntries_fields, sortedByName_eq_of_perm hnodup hperm]

/-- A mapping is written from what is written for its values. -/
theorem writeEntries_congr {k v w : Value} {before after : List (Value × Value)}
    (h : write style v = write style w) :
    writeEntries style (before ++ (k, v) :: after) = writeEntries style (before ++ (k, w) :: after) := by
  induction before with
  | nil => simp only [List.nil_append, writeEntries, h]
  | cons e rest ih => simp only [List.cons_append, writeEntries, ih]

theorem writeItems_congr {v w : Value} {before after : List Value} (h : write style v = write style w) :
    writeItems style (before ++ v :: after) = writeItems style (before ++ w :: after) := by
  induction before with
  | nil => simp only [List.nil_append, writeItems, h]
  | cons u rest ih => simp only [List.cons_append, writeItems, ih]

/-- With keys sorted, values in another order are written the same. -/
theorem write_reordered (hsorted : style.sorted = true) {v w : Value} (h : Reordered v w) :
    write style v = write style w := by
  induction h with
  | refl v => rfl
  | trans _ _ ih ih' => exact ih.trans ih'
  | entries h => exact write_ofFields hsorted h
  | entry before after _ ih => rw [write, write, writeEntries_congr ih]
  | item before after _ ih => rw [write, write, writeItems_congr ih]
  | part before after _ ih => rw [write, write, writeItems_congr ih]

end Writing

theorem queryValues_congr {v w : Value} {before after : List Value} (h : queryValue v = queryValue w) :
    queryValues (before ++ v :: after) = queryValues (before ++ w :: after) := by
  induction before with
  | nil => simp only [List.nil_append, queryValues, h]
  | cons u rest ih => simp only [List.cons_append, queryValues, ih]

/-- Values in another order go to the query as the same value. -/
theorem queryValue_reordered {v w : Value} (h : Reordered v w) : queryValue v = queryValue w := by
  have hwrite : ∀ {es es'}, Reordered (.map es) (.map es') →
      queryValue (.map es) = queryValue (.map es') := by
    intro es es' h
    rw [queryValue, queryValue, write_reordered rfl h]
  induction h with
  | refl v => rfl
  | trans _ _ ih ih' => exact ih.trans ih'
  | entries h => exact hwrite (.entries h)
  | entry before after h _ => exact hwrite (.entry before after h)
  | item before after _ ih => rw [queryValue, queryValue, queryValues_congr ih]
  | part before after _ ih => rw [queryValue, queryValue, queryValues_congr ih]

/-! ## Values that may be in another order -/

/-- The same value or none, or where that may be, the value in another order. -/
def AlikeIf (p : Prop) : Option Value → Option Value → Prop := Option.Rel fun v w => v = w ∨ p ∧ Reordered v w

/-- Tables that have the same values in any order; at some names the values may be in another order
themselves. -/
def Table.AlikeAt (free : String → Prop) (t t' : Table Value) : Prop :=
  ∀ k, AlikeIf (free k) (t.get? k) (t'.get? k)

/-- Only lists and mappings have another order, and these do not count as missing. -/
theorem Reordered.eq_or_held {v w : Value} (h : Reordered v w) :
    v = w ∨ (Template.isMissing (some v) = false ∧ Template.isMissing (some w) = false) := by
  induction h with
  | refl v => exact .inl rfl
  | trans _ _ ih ih' =>
      rcases ih with rfl | ⟨hu, hv⟩
      · exact ih'
      · rcases ih' with rfl | ⟨-, hw⟩
        · exact .inr ⟨hu, hv⟩
        · exact .inr ⟨hu, hw⟩
  | _ => exact .inr ⟨rfl, rfl⟩

theorem filter_of_held {v : Value} (h : Template.isMissing (some v) = false) :
    (some v).filter (· != .null) = some v := by
  cases v with
  | null => cases h
  | _ => rfl

namespace AlikeIf

variable {p : Prop} {a a' b b' : Option Value}

theorem refl (a : Option Value) : AlikeIf p a a := by
  cases a with
  | none => exact .none
  | some v => exact .some (.inl rfl)

theorem eq_of_not (hp : ¬ p) (h : AlikeIf p a a') : a = a' := by
  cases h with
  | none => rfl
  | some hvw => rw [hvw.resolve_right fun h => hp h.1]

/-- Null in one is null in the other. -/
theorem filter (h : AlikeIf p a a') : AlikeIf p (a.filter (· != .null)) (a'.filter (· != .null)) := by
  cases h with
  | none => exact .none
  | some hvw =>
      rcases hvw with rfl | ⟨hp, hr⟩
      · exact refl _
      · rcases hr.eq_or_held with rfl | ⟨hv, hw⟩
        · exact refl _
        · rw [filter_of_held hv, filter_of_held hw]
          exact .some (.inr ⟨hp, hr⟩)

theorem or (h : AlikeIf p a a') (h' : AlikeIf p b b') : AlikeIf p (a.or b) (a'.or b') := by
  cases h with
  | none => exact h'
  | some hvw => exact .some hvw

theorem vacant_iff (h : AlikeIf p a a') : Vacant a ↔ Vacant a' := by
  have hheld : ∀ {v : Value}, Template.isMissing (some v) = false → ¬ Vacant (some v) := fun hv hvacant => by
    rw [isMissing_iff.2 (.inl hvacant)] at hv
    cases hv
  cases h with
  | none => exact Iff.rfl
  | some hvw =>
      rcases hvw with rfl | ⟨-, hr⟩
      · exact Iff.rfl
      · rcases hr.eq_or_held with rfl | ⟨hv, hw⟩
        · exact Iff.rfl
        · exact iff_of_false (hheld hv) (hheld hw)

theorem queryValue_eq (h : AlikeIf p a a') : a.map queryValue = a'.map queryValue := by
  cases h with
  | none => rfl
  | some hvw =>
      rcases hvw with rfl | ⟨-, hr⟩
      · rfl
      · exact congrArg some (queryValue_reordered hr)

end AlikeIf

/-- Tables have the same entries in some order exactly if they have the same values. -/
theorem Table.perm_iff {t t' : Table α} : t.entries.Perm t'.entries ↔ ∀ k, t.get? k = t'.get? k := by
  constructor
  · intro h k
    refine Option.ext fun v => ?_
    rw [Table.get?_eq_some, Table.get?_eq_some]
    exact h.mem_iff
  · intro h
    have hnodup : ∀ t : Table α, t.entries.Nodup := fun t =>
      List.Pairwise.of_map (·.1) (fun a b hab he => hab (he ▸ rfl)) t.distinct
    refine (List.perm_ext_iff_of_nodup (hnodup t) (hnodup t')).2 fun e => ?_
    rw [← Table.get?_eq_some, ← Table.get?_eq_some, h]

theorem Table.AlikeAt.of_perm {free : String → Prop} {t t' : Table Value}
    (h : t.entries.Perm t'.entries) : Table.AlikeAt free t t' := by
  intro k
  rw [Table.perm_iff.1 h k]
  exact .refl _

/-! ## Resolving -/

section Resolving

variable {free : String → Prop} {defaults defaults' given given' : Table Value} {m : Method}
  {shared : Table Parameter}

theorem mergedValue_alike (hd : Table.AlikeAt free defaults defaults') (hg : Table.AlikeAt free given given')
    (k : String) : AlikeIf (free k) (mergedValue defaults given k) (mergedValue defaults' given' k) :=
  (hg k).filter.or (hd k).filter

theorem unfilled_alike (hd : Table.AlikeAt free defaults defaults') (hg : Table.AlikeAt free given given')
    (k : String) : Unfilled defaults given m shared k ↔ Unfilled defaults' given' m shared k :=
  and_congr (mergedValue_alike hd hg k).vacant_iff Iff.rfl

/-- What is missing does not depend on the order. -/
theorem resolveParameters_error_alike (hd : Table.AlikeAt free defaults defaults')
    (hg : Table.AlikeAt free given given') {e : MissingParameter} :
    resolveParameters defaults given m shared = .error e ↔
      resolveParameters defaults' given' m shared = .error e := by
  rw [resolveParameters_error, resolveParameters_error]
  simp only [unfilled_alike hd hg]

/-- Tables in another order are resolved to tables in another order. -/
theorem resolveParameters_ok_alike (hd : Table.AlikeAt free defaults defaults')
    (hg : Table.AlikeAt free given given') {t : Table Value}
    (h : resolveParameters defaults given m shared = .ok t) :
    ∃ t', resolveParameters defaults' given' m shared = .ok t' ∧ Table.AlikeAt free t t' := by
  have hfilled : ∀ r ∈ m.requiredParameters, ¬ Unfilled defaults given m shared r := by
    intro r hr hu
    obtain ⟨e, he⟩ := (resolveParameters_refuses defaults given m shared).2 ⟨r, hr, hu⟩
    rw [h] at he
    cases he
  obtain ⟨t₁, ht, hget⟩ := resolveParameters_ok defaults given m shared hfilled
  obtain ⟨t', ht', hget'⟩ := resolveParameters_ok defaults' given' m shared
    fun r hr hu => hfilled r hr ((unfilled_alike hd hg r).2 hu)
  rw [h] at ht
  cases ht
  refine ⟨t', ht', fun k => ?_⟩
  have hmerged := mergedValue_alike hd hg k
  rw [hget, hget']
  simp only [hmerged.vacant_iff]
  by_cases hk : k ∈ m.requiredParameters ∧ Vacant (mergedValue defaults' given' k)
  · rw [if_pos hk, if_pos hk]
    exact .refl _
  · rw [if_neg hk, if_neg hk]
    exact hmerged

end Resolving

/-! ## Building -/

section Building

variable {free : String → Prop} {m : Method} {p p' t t' : Table Value}

theorem carried_alike (h : Table.AlikeAt free t t') :
    Table.AlikeAt free (m.carried t) (m.carried t') := by
  intro k
  have hget : ∀ t : Table Value, (m.carried t).get? k =
      if k ∈ m.holes then none else (t.get? k).filter (· != .null) := by
    intro t
    rw [Method.carried, Table.get?_filter]
    by_cases hk : k ∈ m.holes
    · cases t.get? k <;> simp [hk, Option.filter]
    · simp [hk]
  rw [hget, hget]
  by_cases hk : k ∈ m.holes
  · rw [if_pos hk, if_pos hk]
    exact .none
  · rw [if_neg hk, if_neg hk]
    exact (h k).filter

/-- Nothing that is or goes to the body may be in another order. -/
theorem wholeBody_alike (h : Table.AlikeAt free p p')
    (hfree : ∀ k, free k → m.destination p k = .query) : m.wholeBody p = m.wholeBody p' := by
  have hunder : ∀ name, name ∈ bodyNames → m.wholeUnder p name = m.wholeUnder p' name := by
    intro name hname
    unfold Method.wholeUnder
    cases hc : m.parameters.contains name with
    | true => rfl
    | false =>
        refine (h name).eq_of_not fun hk => ?_
        have hwhole : m.namesWhole name = true := by
          rw [Method.namesWhole, hc, List.contains_iff_mem.2 hname]
          rfl
        have hquery := hfree name hk
        rw [destination_eq_whole.2 hwhole] at hquery
        cases hquery
  rw [Method.wholeBody, Method.wholeBody, hunder "requestBody" (by decide), hunder "resource" (by decide)]

theorem destination_alike (h : m.wholeBody p = m.wholeBody p') (k : String) :
    m.destination p k = m.destination p' k := by
  rw [Method.destination, Method.destination, h]

theorem bodyFields_alike (h : Table.AlikeAt free p p')
    (hfree : ∀ k, free k → m.destination p k = .query) : m.bodyFields p = m.bodyFields p' := by
  unfold Method.bodyFields
  simp only [← destination_alike (wholeBody_alike h hfree)]
  refine List.filterMap_congr fun k _ => ?_
  by_cases hd : m.destination p k = .field
  · have hk : ¬ free k := fun hk => by
      rw [hfree k hk] at hd
      cases hd
    rw [if_pos hd, if_pos hd, (h k).eq_of_not hk]
  · rw [if_neg hd, if_neg hd]

/-- The query is made of what is written for the values. -/
theorem queryEntries_eq (t : Table Value) :
    queryEntries t = (sortedByName (t.mapValues queryValue).entries).mapM
      fun e => do return (e.1, ← e.2) := by
  show (sortedByName t.entries).mapM _ = (sortedByName (t.entries.map fun e => (e.1, queryValue e.2))).mapM _
  rw [sortedByName_map, List.mapM_map]
  rfl

theorem queryEntries_congr (h : ∀ k, (p.get? k).map queryValue = (p'.get? k).map queryValue) :
    queryEntries p = queryEntries p' := by
  have hperm : (p.mapValues queryValue).entries.Perm (p'.mapValues queryValue).entries := by
    refine Table.perm_iff.2 fun k => ?_
    rw [Table.get?_mapValues, Table.get?_mapValues, h]
  rw [queryEntries_eq, queryEntries_eq, sortedByName_eq_of_perm (p.mapValues queryValue).distinct hperm]

theorem writeQuery_congr (h : ∀ k, (p.get? k).map queryValue = (p'.get? k).map queryValue) :
    writeQuery p = writeQuery p' := by
  rw [writeQuery, writeQuery, queryEntries_congr h]

/-- The body and the query do not depend on the order. -/
theorem handedOut_alike (h : Table.AlikeAt free p p') (hfree : ∀ k, free k → m.destination p k = .query) :
    (handedOut m p).1 = (handedOut m p').1 ∧
      writeQuery (handedOut m p).2 = writeQuery (handedOut m p').2 := by
  have hwhole := wholeBody_alike h hfree
  constructor
  · rw [handedOut_fst, handedOut_fst, hwhole, bodyFields_alike h hfree]
  · refine writeQuery_congr fun k => ?_
    rw [get?_handedOut, get?_handedOut, ← destination_alike hwhole k]
    by_cases hd : m.destination p k = .query
    · rw [if_pos hd, if_pos hd]
      exact (h k).queryValue_eq
    · rw [if_neg hd, if_neg hd]

/-- Filling looks up the names of the holes and no others. -/
theorem Template.fill_congr {lookup lookup' : String → Option Value} {ps : List Piece}
    (h : ∀ name ∈ ps.filterMap Piece.name?, lookup name = lookup' name) (method : Option String) :
    fill lookup method ps = fill lookup' method ps := by
  induction ps with
  | nil => rfl
  | cons piece rest ih =>
      cases piece with
      | literal t => simp only [fill, ih h]
      | hole reserved name =>
          have hname := h (String.ofList name) List.mem_cons_self
          have hrest := ih fun n hn => h n (List.mem_cons_of_mem _ hn)
          simp only [fill, hname, hrest]

theorem Template.expand_congr {template : String} {lookup lookup' : String → Option Value}
    (h : ∀ name ∈ names template, lookup name = lookup' name) (method : Option String) :
    expand template lookup method = expand template lookup' method := by
  rw [expand, expand, fill_congr h]

/-- A request by its parts, or why there is none. -/
theorem buildRequest_eq (m : Method) (d : Document) (t : Table Value) (o : Option Options) :
    buildRequest m d t o =
      match Template.expand (m.path.getD "") t.get? m.id with
      | .error f => .error (.ofFill f)
      | .ok (path, _) =>
          match writeQuery (handedOut m (m.carried t)).2 with
          | .error w => .error (.unwritable w)
          | .ok (es, query) => .ok {
              verb := m.requestVerb
              url := requestUrl d path (o.bind (·.rootUrl))
              query
              queryParameters := Table.ofList es
              body := (handedOut m (m.carried t)).1
              headers := (o.map (·.headers)).getD ∅ } := by
  unfold buildRequest
  cases hx : Template.expand (m.path.getD "") t.get? m.id with
  | error f => rfl
  | ok filled =>
      obtain ⟨path, used⟩ := filled
      obtain rfl : used = m.holes := (Template.expand_ok hx).2.1
      simp only [Except.mapError, ok_bind]
      rw [show t.filter (fun k v => !m.holes.contains k && v != .null) = m.carried t from rfl,
        takeBody_fst, takenFields_eq]
      cases hes : writeQuery (handedOut m (m.carried t)).2 with
      | error w =>
          unfold handedOut at hes
          rw [hes]
          rfl
      | ok written =>
          unfold handedOut at hes
          rw [hes]
          rfl

/-- Whether a parameter of a resolved call goes to the query. -/
def Method.SendsInQuery (m : Method) (t : Table Value) (k : String) : Prop :=
  k ∉ m.holes ∧ m.destination (m.carried t) k = .query

theorem buildRequest_alike (h : Table.AlikeAt free t t') (hfree : ∀ k, free k → m.SendsInQuery t k)
    (d : Document) (o : Option Options) : buildRequest m d t o = buildRequest m d t' o := by
  have hpath : Template.expand (m.path.getD "") t.get? m.id = Template.expand (m.path.getD "") t'.get? m.id :=
    Template.expand_congr (fun k hk => (h k).eq_of_not fun hf => (hfree k hf).1 hk) m.id
  obtain ⟨hbody, hquery⟩ := handedOut_alike (carried_alike h) fun k hk => (hfree k hk).2
  rw [buildRequest_eq, buildRequest_eq, hpath, hbody, hquery]

end Building

/-! ## Main statement -/

theorem resolveRequest_alike {free : String → Prop} {defaults defaults' given given' : Table Value} {m : Method}
    {d : Document} (o : Option Options) (hd : Table.AlikeAt free defaults defaults')
    (hg : Table.AlikeAt free given given')
    (hfree : ∀ t, resolveParameters defaults given m d.parameters = .ok t → ∀ k, free k → m.SendsInQuery t k) :
    resolveRequest defaults given m d o = resolveRequest defaults' given' m d o := by
  unfold resolveRequest
  cases h : resolveParameters defaults given m d.parameters with
  | error e => rw [(resolveParameters_error_alike hd hg).1 h]
  | ok t =>
      obtain ⟨t', ht', halike⟩ := resolveParameters_ok_alike hd hg h
      rw [ht']
      exact buildRequest_alike halike (hfree t h) d o

/-- The request of a call, or the fault that keeps it from being made, does not depend on the order in which the
defaults and the parameters are given. Nor does it depend on the order of entries in mappings with text keys,
however deep they lie in a value that goes to the query. -/
theorem resolveRequest_reordered (m : Method) (d : Document) (o : Option Options)
    (defaults given defaults' given' : Table Value) :
    (defaults.entries.Perm defaults'.entries → given.entries.Perm given'.entries →
      resolveRequest defaults given m d o = resolveRequest defaults' given' m d o) ∧
    (∀ free : String → Prop,
      (∀ t, resolveParameters defaults given m d.parameters = .ok t → ∀ k, free k → m.SendsInQuery t k) →
      Table.AlikeAt free defaults defaults' → Table.AlikeAt free given given' →
      resolveRequest defaults given m d o = resolveRequest defaults' given' m d o) :=
  ⟨fun hd hg => resolveRequest_alike o (.of_perm hd) (.of_perm hg) fun _ _ _ => False.elim,
    fun _ hfree hd hg => resolveRequest_alike o hd hg hfree⟩

/-- An author, by name and year. -/
def noteAuthor : Table Value := Table.ofList [("name", .str "a"), ("year", .int 1901)]

def noteAuthor' : Table Value := Table.ofList [("year", .int 1901), ("name", .str "a")]

/-- A list for the query with a mapping in it. -/
def notesBy (author : Table Value) : Table Value :=
  Table.ofList [("ids", .list [.int 7, .ofFields author.entries])]

/-- A mapping in a list that goes to the query may have its entries in any order. -/
theorem resolveRequest_reordered_listNotes :
    noteAuthor.entries ≠ noteAuthor'.entries ∧
      ∃ r, resolveRequest ∅ (notesBy noteAuthor) listNotes notesDocument none = .ok r ∧
        resolveRequest ∅ (notesBy noteAuthor') listNotes notesDocument none = .ok r := by
  have hresolved : resolveParameters ∅ (notesBy noteAuthor) listNotes notesDocument.parameters =
      .ok (notesBy noteAuthor) := by cbv
  have hsent : ∀ t, resolveParameters ∅ (notesBy noteAuthor) listNotes notesDocument.parameters = .ok t →
      ∀ k, k = "ids" → listNotes.SendsInQuery t k := by
    rintro t ht k rfl
    rw [hresolved] at ht
    cases ht
    exact ⟨by decide +kernel, by decide +kernel⟩
  have hauthor : Reordered (.list [.int 7, .ofFields noteAuthor.entries])
      (.list [.int 7, .ofFields noteAuthor'.entries]) :=
    .item [.int 7] [] (.entries (List.Perm.swap _ _ _))
  have hgiven : Table.AlikeAt (· = "ids") (notesBy noteAuthor) (notesBy noteAuthor') := by
    intro k
    rw [notesBy, notesBy, Table.get?_ofList (by decide), Table.get?_ofList (by decide)]
    by_cases hk : "ids" = k
    · simp only [lookupEntry, if_pos hk]
      exact .some (.inr ⟨hk.symm, hauthor⟩)
    · simp only [lookupEntry, if_neg hk]
      exact .none
  obtain ⟨r, hr, -⟩ := exists_of_toOption_map (f := Request.url) (b := "notes")
    (x := resolveRequest ∅ (notesBy noteAuthor) listNotes notesDocument none) (by cbv)
  obtain ⟨-, hsame⟩ := resolveRequest_reordered listNotes notesDocument none ∅ (notesBy noteAuthor) ∅
    (notesBy noteAuthor')
  refine ⟨by decide, r, hr, ?_⟩
  rw [← hsame (· = "ids") hsent (.of_perm (List.Perm.refl _)) hgiven, hr]

end ApiDiscovery
