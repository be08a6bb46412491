import ApiDiscovery.Parameters

/-!
# Which value a parameter gets

`resolveParameters` writes into the table that it reads from, name after name. What comes out is said
here without that table: four layers, looked at one name at a time.

    `mergedValue`     what the call gives, else what the client's defaults give
    `declaredValue`   what the method's declarations name, else what the document's name

Null is as good as nothing in every layer. The empty text is a value for the layers, so it hides what is
below it; only then, on what the layers come to, does it count as no value (`Vacant`).

Main statement: `resolveParameters_layers`. A call is refused exactly if a required parameter is vacant in
both, for the first such parameter; else required parameters that are vacant in the first take the second,
all others keep the first; and no declared default of any other parameter is ever read.
-/

namespace ApiDiscovery

/-! ## The layers -/

/-- The value that a table gives a name; null gives none. -/
def givenValue (t : Table Value) (k : String) : Option Value :=
  (t.get? k).filter (· != .null)

/-- What the call and the client's defaults come to. -/
def mergedValue (defaults given : Table Value) (k : String) : Option Value :=
  (givenValue given k).or (givenValue defaults k)

/-- The default that declarations name for a parameter; null names none. -/
def namedDefault (declarations : Table Parameter) (k : String) : Option Value :=
  ((declarations.get? k).map (·.default)).filter (· != .null)

/-- What the declarations of a method and those of its document come to. -/
def declaredValue (m : Method) (shared : Table Parameter) (k : String) : Option Value :=
  (namedDefault m.parameters k).or (namedDefault shared k)

/-- Nothing, or the empty text. -/
def Vacant (v : Option Value) : Prop := v = none ∨ v = some (.str "")

instance (v : Option Value) : Decidable (Vacant v) :=
  inferInstanceAs (Decidable (v = none ∨ v = some (.str "")))

/-- A parameter for which no layer has a value. -/
def Unfilled (defaults given : Table Value) (m : Method) (shared : Table Parameter) (k : String) :
    Prop :=
  Vacant (mergedValue defaults given k) ∧ Vacant (declaredValue m shared k)

instance (defaults given : Table Value) (m : Method) (shared : Table Parameter) (k : String) :
    Decidable (Unfilled defaults given m shared k) :=
  inferInstanceAs (Decidable (_ ∧ _))

theorem isMissing_iff {v : Option Value} :
    Template.isMissing v = true ↔ Vacant v ∨ v = some .null := by
  rcases v with _ | v
  · simp [Template.isMissing, Vacant]
  · cases v <;> simp [Template.isMissing, Vacant]

/-- Null is not left in any layer, so all that is missing there is vacant. -/
theorem isMissing_iff_vacant {v : Option Value} (h : v ≠ some .null) :
    Template.isMissing v = true ↔ Vacant v := by
  rw [isMissing_iff]
  exact or_iff_left h

theorem filter_ne_null (v : Option Value) : v.filter (· != .null) ≠ some .null := by
  intro h
  obtain ⟨-, hv⟩ := Option.filter_eq_some_iff.1 h
  exact absurd hv (by decide)

theorem or_ne_some {a b : Option Value} {v : Value} (ha : a ≠ some v) (hb : b ≠ some v) :
    a.or b ≠ some v := by
  cases a with
  | none => exact hb
  | some w => exact ha

theorem mergedValue_ne_null (defaults given : Table Value) (k : String) :
    mergedValue defaults given k ≠ some .null :=
  or_ne_some (filter_ne_null _) (filter_ne_null _)

theorem declaredValue_ne_null (m : Method) (shared : Table Parameter) (k : String) :
    declaredValue m shared k ≠ some .null :=
  or_ne_some (filter_ne_null _) (filter_ne_null _)

/-! ## The tables that hold the layers -/

theorem get?_dropNulls (t : Table Value) (k : String) : (dropNulls t).get? k = givenValue t k :=
  Table.get?_filter _ t k

/-- The table that filling starts from. -/
theorem get?_merged (defaults given : Table Value) (k : String) :
    ((dropNulls given).onto (dropNulls defaults)).get? k = mergedValue defaults given k := by
  rw [Table.get?_onto, get?_dropNulls, get?_dropNulls, mergedValue]

theorem get?_namedDefaults (declarations : Table Parameter) (k : String) :
    (namedDefaults declarations).get? k = namedDefault declarations k := by
  rw [namedDefaults, get?_dropNulls, givenValue, Table.get?_mapValues, namedDefault]

/-- The table that filling takes from. -/
theorem get?_declaredDefaults (m : Method) (shared : Table Parameter) (k : String) :
    (declaredDefaults m shared).get? k = declaredValue m shared k := by
  rw [declaredDefaults, Table.get?_onto, get?_namedDefaults, get?_namedDefaults, declaredValue]

/-! ## The required parameters -/

theorem mem_appendNew {names more : List String} {k : String} :
    k ∈ appendNew names more ↔ k ∈ names ∨ k ∈ more := by
  unfold appendNew
  induction more generalizing names with
  | nil => simp
  | cons n rest ih =>
      rw [List.foldl_cons, ih]
      by_cases h : names.contains n = true
      · have hn : n ∈ names := List.contains_iff_mem.1 h
        rw [if_pos h, List.mem_cons]
        constructor
        · rintro (hk | hk)
          · exact .inl hk
          · exact .inr (.inr hk)
        · rintro (hk | rfl | hk)
          · exact .inl hk
          · exact .inl hn
          · exact .inr hk
      · rw [if_neg h, List.mem_append, List.mem_singleton, List.mem_cons, or_assoc]

/-- What is required is declared. -/
theorem Method.mem_keys_of_requires {m : Method} {k : String} (h : m.requires k = true) :
    k ∈ m.parameters.keys := by
  rw [← Table.contains_iff, Table.contains]
  unfold Method.requires at h
  cases hp : m.parameters.get? k with
  | none => rw [hp] at h; cases h
  | some p => rfl

theorem Method.mem_requiredParameters {m : Method} {k : String} :
    k ∈ m.requiredParameters ↔ m.requires k = true ∨ k ∈ m.holes := by
  unfold Method.requiredParameters
  simp only [mem_appendNew, List.mem_filter, List.not_mem_nil, false_or]
  constructor
  · rintro ((⟨-, h⟩ | ⟨-, h⟩) | h)
    · exact .inl h
    · exact .inl h
    · exact .inr h
  · rintro (h | h)
    · exact .inl (.inr ⟨mem_keys_of_requires h, h⟩)
    · exact .inr h

/-! ## Filling -/

section Filling

variable (declared : Table Value) (method : Option String)

/-- A name that filling cannot give a value. -/
def Stuck (declared t : Table Value) (k : String) : Prop :=
  Template.isMissing (t.get? k) = true ∧ Template.isMissing (declared.get? k) = true

/-- Filling a name that can be filled leaves every name as stuck as it was. -/
theorem stuck_set {declared t : Table Value} {name : String} {v : Value} (hd : declared.get? name = some v)
    (hv : Template.isMissing (some v) = false) (k : String) :
    Stuck declared (t.set name v) k ↔ Stuck declared t k := by
  unfold Stuck
  rw [Table.get?_set]
  by_cases hk : name = k
  · subst hk
    simp [hd, hv]
  · rw [if_neg hk]

/-- One step of filling, for a name that is not stuck. -/
theorem fillRequired_cons {t : Table Value} {name : String} (rest : List String)
    (h : ¬ Stuck declared t name) :
    ∃ t', fillRequired declared method (name :: rest) t = fillRequired declared method rest t' ∧
      (∀ k, Stuck declared t' k ↔ Stuck declared t k) ∧
      ∀ k, t'.get? k =
        if k = name ∧ Template.isMissing (t.get? k) = true then declared.get? k else t.get? k := by
  -- The name keeps the value that it has, or takes the declared one. That one is not missing itself, since
  -- the name would be stuck.
  cases hm : Template.isMissing (t.get? name) with
  | false =>
      refine ⟨t, by simp [fillRequired, hm], fun k => Iff.rfl, fun k => ?_⟩
      rw [if_neg]
      rintro ⟨rfl, hk⟩
      exact absurd hk (by simp [hm])
  | true =>
      cases hd : declared.get? name with
      | none => exact absurd ⟨hm, by rw [hd]; rfl⟩ h
      | some v =>
          have hv : Template.isMissing (some v) = false := by
            cases hv : Template.isMissing (some v) with
            | false => rfl
            | true => exact absurd ⟨hm, by rw [hd]; exact hv⟩ h
          refine ⟨t.set name v, by simp [fillRequired, hm, hd, hv], stuck_set hd hv, fun k => ?_⟩
          rw [Table.get?_set]
          by_cases hk : name = k
          · subst hk
            simp [hm, hd]
          · rw [if_neg hk, if_neg (fun h' => hk h'.1.symm)]

/-- The first stuck name is reported. -/
theorem fillRequired_error {names : List String} {t : Table Value} {e : MissingParameter} :
    fillRequired declared method names t = .error e ↔
      ∃ before after, names = before ++ e.parameter :: after ∧
        (∀ r ∈ before, ¬ Stuck declared t r) ∧ Stuck declared t e.parameter ∧ e.method = method := by
  -- The table changes from name to name, but not who is stuck in it: that carries the induction.
  induction names generalizing t with
  | nil => simp [fillRequired]
  | cons name rest ih =>
      by_cases hs : Stuck declared t name
      · have hfill : fillRequired declared method (name :: rest) t = .error ⟨name, method⟩ := by
          obtain ⟨ht, hd⟩ := hs
          cases hg : declared.get? name with
          | none => simp [fillRequired, ht, hg]
          | some v => rw [hg] at hd; simp [fillRequired, ht, hg, hd]
        rw [hfill]
        constructor
        · intro h
          cases h
          exact ⟨[], rest, rfl, fun r hr => absurd hr List.not_mem_nil, hs, rfl⟩
        · rintro ⟨before, after, hnames, hbefore, -, hmethod⟩
          cases before with
          | nil =>
              obtain ⟨rfl, -⟩ := List.cons.inj hnames
              rw [← hmethod]
          | cons b bs =>
              obtain ⟨rfl, -⟩ := List.cons.inj hnames
              exact absurd hs (hbefore name List.mem_cons_self)
      · obtain ⟨t', hstep, hstuck, -⟩ := fillRequired_cons declared method rest hs
        rw [hstep, ih]
        simp only [hstuck]
        constructor
        · rintro ⟨before, after, rfl, hbefore, he, hmethod⟩
          refine ⟨name :: before, after, rfl, fun r hr => ?_, he, hmethod⟩
          rcases List.mem_cons.1 hr with rfl | hr
          · exact hs
          · exact hbefore r hr
        · rintro ⟨before, after, hnames, hbefore, he, hmethod⟩
          cases before with
          | nil =>
              obtain ⟨rfl, -⟩ := List.cons.inj hnames
              exact absurd he hs
          | cons b bs =>
              obtain ⟨-, rfl⟩ := List.cons.inj hnames
              exact ⟨bs, after, rfl, fun r hr => hbefore r (List.mem_cons_of_mem _ hr), he, hmethod⟩

/-- Without a stuck name, filling ends with every missing one of its names filled. -/
theorem fillRequired_ok {names : List String} {t : Table Value}
    (h : ∀ r ∈ names, ¬ Stuck declared t r) :
    ∃ t', fillRequired declared method names t = .ok t' ∧ ∀ k, t'.get? k =
      if k ∈ names ∧ Template.isMissing (t.get? k) = true then declared.get? k else t.get? k := by
  induction names generalizing t with
  | nil => exact ⟨t, rfl, fun k => by simp⟩
  | cons name rest ih =>
      have hname : ¬ Stuck declared t name := h name List.mem_cons_self
      obtain ⟨t₁, hstep, hstuck, hget⟩ := fillRequired_cons declared method rest hname
      have hrest : ∀ r ∈ rest, ¬ Stuck declared t₁ r := fun r hr hs =>
        h r (List.mem_cons_of_mem _ hr) ((hstuck r).1 hs)
      obtain ⟨t', hfill, hget'⟩ := ih hrest
      refine ⟨t', hstep.trans hfill, fun k => ?_⟩
      rw [hget', hget]
      by_cases hm : Template.isMissing (t.get? k) = true
      · by_cases hk : k = name
        · subst hk
          simp [hm]
        · simp [hm, hk]
      · simp [hm]

/-- Filling reads the declared values of its names only. -/
theorem fillRequired_congr {declared declared' : Table Value} {names : List String} {t : Table Value}
    (h : ∀ r ∈ names, declared.get? r = declared'.get? r) :
    fillRequired declared method names t = fillRequired declared' method names t := by
  induction names generalizing t with
  | nil => rfl
  | cons name rest ih =>
      have hrest := fun t => ih (t := t) fun r hr => h r (List.mem_cons_of_mem _ hr)
      simp only [fillRequired, h name List.mem_cons_self, hrest]

end Filling

/-! ## Declared defaults that nobody reads -/

def Parameter.withDefault (p : Parameter) (v : Value) : Parameter := { p with default := v }

/-- Declarations with other defaults, each chosen by its name and the default it had. -/
def Table.redefault (f : String → Value → Value) (t : Table Parameter) : Table Parameter where
  entries := t.entries.map fun e => (e.1, e.2.withDefault (f e.1 e.2.default))
  distinct := by
    have h := t.distinct
    simpa [List.map_map, Function.comp_def] using h

/-- A method with other defaults in its declarations. -/
def Method.redefault (f : String → Value → Value) (m : Method) : Method :=
  { m with parameters := m.parameters.redefault f }

theorem lookupEntry_mapNamed (f : String → α → β) (es : List (String × α)) (k : String) :
    lookupEntry k (es.map fun e => (e.1, f e.1 e.2)) = (lookupEntry k es).map (f k) := by
  induction es with
  | nil => rfl
  | cons e rest ih =>
      obtain ⟨l, a⟩ := e
      by_cases h : l = k
      · subst h
        simp [lookupEntry]
      · simp only [List.map_cons, lookupEntry, if_neg h]
        exact ih

theorem Table.get?_redefault (f : String → Value → Value) (t : Table Parameter) (k : String) :
    (t.redefault f).get? k = (t.get? k).map fun p => p.withDefault (f k p.default) :=
  lookupEntry_mapNamed (fun k (p : Parameter) => p.withDefault (f k p.default)) t.entries k

theorem Table.keys_redefault (f : String → Value → Value) (t : Table Parameter) :
    (t.redefault f).keys = t.keys := by
  simp [Table.keys, Table.redefault, List.map_map, Function.comp_def]

theorem namedDefault_redefault {f : String → Value → Value} {k : String} (hf : ∀ v, f k v = v)
    (t : Table Parameter) : namedDefault (t.redefault f) k = namedDefault t k := by
  unfold namedDefault
  rw [Table.get?_redefault, Option.map_map]
  simp only [Function.comp_def, Parameter.withDefault, hf]

/-- A default has no part in what is required. -/
theorem Method.requiredParameters_redefault (f : String → Value → Value) (m : Method) :
    (m.redefault f).requiredParameters = m.requiredParameters := by
  have hrequires : (m.redefault f).requires = m.requires := by
    funext k
    show ((Table.get? (m.parameters.redefault f) k).map (·.required)).getD false = _
    rw [Table.get?_redefault, Option.map_map]
    rfl
  have hkeys : (m.redefault f).parameters.keys = m.parameters.keys :=
    Table.keys_redefault f m.parameters
  unfold requiredParameters
  rw [hrequires, hkeys]
  rfl

/-- What nobody requires may have any default. -/
theorem resolveParameters_redefault (defaults given : Table Value) (m : Method)
    (shared : Table Parameter) {f g : String → Value → Value}
    (h : ∀ k, m.requires k = true ∨ k ∈ m.holes → ∀ v, f k v = v ∧ g k v = v) :
    resolveParameters defaults given (m.redefault f) (shared.redefault g) =
      resolveParameters defaults given m shared := by
  unfold resolveParameters
  rw [Method.requiredParameters_redefault]
  refine fillRequired_congr m.id fun r hr => ?_
  have hr' := h r (Method.mem_requiredParameters.1 hr)
  rw [get?_declaredDefaults, get?_declaredDefaults, declaredValue, declaredValue]
  rw [namedDefault_redefault (fun v => (hr' v).2)]
  exact congrArg (fun v => v.or (namedDefault shared r))
    (namedDefault_redefault (fun v => (hr' v).1) m.parameters)

/-! ## Resolving -/

/-- Where a list has members with a property, it has a first one. -/
theorem exists_first {p : String → Prop} [DecidablePred p] {l : List String} {r : String}
    (hr : r ∈ l) (hp : p r) :
    ∃ before q after, l = before ++ q :: after ∧ (∀ b ∈ before, ¬ p b) ∧ p q := by
  have hfound : (l.find? fun q => decide (p q)).isSome = true :=
    List.find?_isSome.2 ⟨r, hr, decide_eq_true hp⟩
  obtain ⟨q, hq⟩ := Option.isSome_iff_exists.1 hfound
  obtain ⟨hpq, before, after, hl, hbefore⟩ := List.find?_eq_some_iff_append.1 hq
  exact ⟨before, q, after, hl, fun b hb => by simpa using hbefore b hb, of_decide_eq_true hpq⟩

theorem isMissing_merged (defaults given : Table Value) (k : String) :
    Template.isMissing (((dropNulls given).onto (dropNulls defaults)).get? k) = true ↔
      Vacant (mergedValue defaults given k) := by
  rw [get?_merged]
  exact isMissing_iff_vacant (mergedValue_ne_null defaults given k)

/-- The names that filling gets stuck at are those that no layer fills. -/
theorem stuck_iff_unfilled (defaults given : Table Value) (m : Method) (shared : Table Parameter)
    (k : String) :
    Stuck (declaredDefaults m shared) ((dropNulls given).onto (dropNulls defaults)) k ↔
      Unfilled defaults given m shared k := by
  refine and_congr (isMissing_merged defaults given k) ?_
  rw [get?_declaredDefaults]
  exact isMissing_iff_vacant (declaredValue_ne_null m shared k)

theorem resolveParameters_error (defaults given : Table Value) (m : Method)
    (shared : Table Parameter) (e : MissingParameter) :
    resolveParameters defaults given m shared = .error e ↔
      ∃ before after, m.requiredParameters = before ++ e.parameter :: after ∧
        (∀ r ∈ before, ¬ Unfilled defaults given m shared r) ∧
        Unfilled defaults given m shared e.parameter ∧ e.method = m.id := by
  rw [resolveParameters, fillRequired_error]
  simp only [stuck_iff_unfilled]

theorem resolveParameters_ok (defaults given : Table Value) (m : Method) (shared : Table Parameter)
    (h : ∀ r ∈ m.requiredParameters, ¬ Unfilled defaults given m shared r) :
    ∃ t, resolveParameters defaults given m shared = .ok t ∧ ∀ k, t.get? k =
      if k ∈ m.requiredParameters ∧ Vacant (mergedValue defaults given k) then
        declaredValue m shared k
      else mergedValue defaults given k := by
  obtain ⟨t, ht, hget⟩ := fillRequired_ok (declaredDefaults m shared) m.id
    fun r hr hs => h r hr ((stuck_iff_unfilled defaults given m shared r).1 hs)
  refine ⟨t, ht, fun k => (hget k).trans ?_⟩
  rw [get?_declaredDefaults, get?_merged]
  simp only [isMissing_iff_vacant (mergedValue_ne_null defaults given k)]

/-- A call is refused exactly if a required parameter is left unfilled. -/
theorem resolveParameters_refuses (defaults given : Table Value) (m : Method)
    (shared : Table Parameter) :
    (∃ e, resolveParameters defaults given m shared = .error e) ↔
      ∃ r ∈ m.requiredParameters, Unfilled defaults given m shared r := by
  constructor
  · rintro ⟨e, he⟩
    obtain ⟨before, after, hnames, -, hu, -⟩ := (resolveParameters_error _ _ _ _ e).1 he
    exact ⟨e.parameter, hnames ▸ List.mem_append_right before List.mem_cons_self, hu⟩
  · rintro ⟨r, hr, hu⟩
    obtain ⟨before, q, after, hnames, hbefore, hq⟩ := exists_first hr hu
    exact ⟨⟨q, m.id⟩, (resolveParameters_error _ _ _ _ _).2
      ⟨before, after, hnames, hbefore, hq, rfl⟩⟩

/-- What a call is resolved to has a value for everything that is required. -/
theorem resolveParameters_filled {defaults given t : Table Value} {m : Method} {shared : Table Parameter}
    (h : resolveParameters defaults given m shared = .ok t) {r : String}
    (hr : r ∈ m.requiredParameters) : Template.isMissing (t.get? r) = false := by
  have hfilled : ∀ r ∈ m.requiredParameters, ¬ Unfilled defaults given m shared r := by
    intro r hr hu
    obtain ⟨e, he⟩ := (resolveParameters_refuses defaults given m shared).2 ⟨r, hr, hu⟩
    rw [h] at he
    cases he
  obtain ⟨t', ht', hget⟩ := resolveParameters_ok defaults given m shared hfilled
  rw [h] at ht'
  cases ht'
  refine Bool.eq_false_iff.2 fun hm => ?_
  rw [hget r] at hm
  by_cases hv : Vacant (mergedValue defaults given r)
  · rw [if_pos ⟨hr, hv⟩] at hm
    exact hfilled r hr ⟨hv, (isMissing_iff_vacant (declaredValue_ne_null m shared r)).1 hm⟩
  · rw [if_neg fun h => hv h.2] at hm
    exact hv ((isMissing_iff_vacant (mergedValue_ne_null defaults given r)).1 hm)

/-! ## Main statement -/

/-- A call is refused exactly if a required parameter is unfilled, and the error names the first of them and
the method. Else every name has the value that the layers give it, and no other. Defaults of parameters that
are neither required nor holes of the path change nothing, whichever they are. -/
theorem resolveParameters_layers (defaults given : Table Value) (m : Method)
    (shared : Table Parameter) :
    ((∃ e, resolveParameters defaults given m shared = .error e) ↔
      ∃ r ∈ m.requiredParameters, Unfilled defaults given m shared r) ∧
    (∀ e, resolveParameters defaults given m shared = .error e ↔
      ∃ before after, m.requiredParameters = before ++ e.parameter :: after ∧
        (∀ r ∈ before, ¬ Unfilled defaults given m shared r) ∧
        Unfilled defaults given m shared e.parameter ∧ e.method = m.id) ∧
    (∀ t, resolveParameters defaults given m shared = .ok t → ∀ k, t.get? k =
      if k ∈ m.requiredParameters ∧ Vacant (mergedValue defaults given k) then
        declaredValue m shared k
      else mergedValue defaults given k) ∧
    (∀ f g : String → Value → Value,
      (∀ k, m.requires k = true ∨ k ∈ m.holes → ∀ v, f k v = v ∧ g k v = v) →
      resolveParameters defaults given (m.redefault f) (shared.redefault g) =
        resolveParameters defaults given m shared) := by
  refine ⟨resolveParameters_refuses defaults given m shared,
    resolveParameters_error defaults given m shared, fun t ht k => ?_,
    fun f g h => resolveParameters_redefault defaults given m shared h⟩
  have hfilled : ∀ r ∈ m.requiredParameters, ¬ Unfilled defaults given m shared r := by
    intro r hr hu
    obtain ⟨e, he⟩ := (resolveParameters_refuses defaults given m shared).2 ⟨r, hr, hu⟩
    rw [ht] at he
    cases he
  obtain ⟨t', ht', hget⟩ := resolveParameters_ok defaults given m shared hfilled
  rw [ht] at ht'
  cases ht'
  exact hget k

end ApiDiscovery
