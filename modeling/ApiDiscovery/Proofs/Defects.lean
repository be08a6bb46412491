import ApiDiscovery.Client.Tree
import ApiDiscovery.Proofs.Destination

/-!
# What keeps a client from being built

Building a client goes through the tree of its document and stops at the first defect. Here all defects are
listed, in the order in which building comes upon them:

    a resource   the defects of the resources below it, each as a whole, then those of its methods
    a method     a name that is a resource's too, then a verb that is missing, then a path that is

The first of the list is what building reports. Where the list is empty there is a client, and its members are
all that the tree has (`ofResource_eq`). The list holds the defects of every method of the tree and no others,
however deep the method stands (`Resource.mem_defects`).

Main statement: `Client.build_defects`.
-/

namespace ApiDiscovery

/-! ## The defects of a tree -/

namespace Method

/-- The name of a method in a report: its id, or another name where it has none. -/
def reportedAs (m : Method) (other : String) : String := (present m.id).getD other

/-- Whether something is amiss with a method of a name, among resources of some names. -/
def IsDefective (taken : List String) (name : String) (m : Method) : Prop :=
  name ∈ taken ∨ (m.verb = none ∨ m.verb = some "") ∨ m.path = none

/-- All that is amiss with a method at a place, among resources of some names. -/
def defects (place : String) (taken : List String) (name : String) (m : Method) : List Document.Fault :=
  let dotted := place ++ "." ++ name
  (if name ∈ taken then [.clash dotted (m.reportedAs dotted)] else []) ++
    (if m.verb = none ∨ m.verb = some "" then [.noVerb (m.reportedAs name)] else []) ++
    (if m.path = none then [.noPath (m.reportedAs name)] else [])

theorem defects_ne_nil {place name : String} {taken : List String} {m : Method} :
    m.defects place taken name ≠ [] ↔ m.IsDefective taken name := by
  unfold defects IsDefective
  by_cases hname : name ∈ taken
  · simp [hname]
  · by_cases hverb : m.verb = none ∨ m.verb = some ""
    · simp [hname, hverb]
    · simp [hname, hverb]

/-- What is reported of a defective method: the clash of its name before its verb, and its verb before its
path. -/
theorem head?_defects {place name : String} {taken : List String} {m : Method} {f : Document.Fault}
    (h : (m.defects place taken name).head? = some f) :
    (name ∈ taken ∧ f = .clash (place ++ "." ++ name) (m.reportedAs (place ++ "." ++ name))) ∨
    (name ∉ taken ∧ (m.verb = none ∨ m.verb = some "") ∧ f = .noVerb (m.reportedAs name)) ∨
    (name ∉ taken ∧ ¬ (m.verb = none ∨ m.verb = some "") ∧ m.path = none ∧
      f = .noPath (m.reportedAs name)) := by
  unfold defects at h
  by_cases hname : name ∈ taken
  · exact .inl ⟨hname, by simpa [hname, eq_comm] using h⟩
  · by_cases hverb : m.verb = none ∨ m.verb = some ""
    · exact .inr (.inl ⟨hname, hverb, by simpa [hname, hverb, eq_comm] using h⟩)
    · by_cases hpath : m.path = none
      · exact .inr (.inr ⟨hname, hverb, hpath, by simpa [hname, hverb, hpath, eq_comm] using h⟩)
      · simp [hname, hverb, hpath] at h

end Method

namespace Resource

/-- The names of the resources below a resource. -/
def names (r : Resource) : List String := r.resources.map (·.1)

mutual

/-- The defects of a resource at a place, in the order in which they are come upon. -/
def defects (place : String) : Resource → List Document.Fault
  | mk methods resources _ =>
      defectsBelow place resources ++
        methods.entries.flatMap fun e => e.2.defects place (resources.map (·.1)) e.1

def defectsBelow (place : String) : List (String × Resource) → List Document.Fault
  | [] => []
  | (name, r) :: rest => r.defects (place ++ "." ++ name) ++ defectsBelow place rest

end

mutual

/-- The members that a client has for a resource: its resources, then its methods. -/
def members : Resource → Members
  | mk methods resources _ =>
      groups resources ++ methods.entries.map fun e => (e.1, .method e.1 e.2)

def groups : List (String × Resource) → Members
  | [] => []
  | (name, r) :: rest => (name, .group name r.members) :: groups rest

end

/-- `At r place s p`: in the tree of a resource `r` that stands at a place, the resource `s` stands at `p`. -/
inductive At : Resource → String → Resource → String → Prop
  | here (r : Resource) (place : String) : At r place r place
  | inside {r child s : Resource} {name place p : String} :
      (name, child) ∈ r.resources → At child (place ++ "." ++ name) s p → At r place s p

theorem map_groups (rs : List (String × Resource)) : (groups rs).map (·.1) = rs.map (·.1) := by
  induction rs with
  | nil => rfl
  | cons e rest ih => simp [groups, ih]

end Resource

/-! ## Building -/

/-- A result, unless there is a fault: the first one is reported. -/
def reporting (faults : List ε) (a : α) : Except ε α :=
  match faults with
  | [] => .ok a
  | f :: _ => .error f

/-- Two steps report the first fault of both. -/
theorem reporting_bind {faults faults' : List ε} {a : α} {b : β} (next : α → Except ε β)
    (h : next a = reporting faults' b) : (reporting faults a >>= next) = reporting (faults ++ faults') b := by
  cases faults with
  | nil => exact h
  | cons f rest => rfl

theorem reporting_map {faults : List ε} {a : α} (f : α → β) :
    (reporting faults a >>= fun x => pure (f x)) = reporting faults (f a) := by
  cases faults <;> rfl

theorem reporting_eq_error {faults : List ε} {a : α} {f : ε} :
    reporting faults a = .error f ↔ faults.head? = some f := by
  cases faults <;> simp [reporting]

theorem reporting_eq_ok {faults : List ε} {a b : α} :
    reporting faults a = .ok b ↔ faults = [] ∧ b = a := by
  cases faults <;> simp [reporting, eq_comm]

theorem present_isNone {s : Option String} : (present s).isNone = true ↔ s = none ∨ s = some "" := by
  cases s <;> simp [present, Option.filter]

/-- A method becomes a member unless it is defective. What stands before it counts only as far as it has its
name. -/
theorem ofMethod_eq (place : String) {before : Members} {name : String} {taken : List String}
    (h : name ∈ before.map (·.1) ↔ name ∈ taken) (m : Method) :
    Member.ofMethod place before name m = reporting (m.defects place taken name) (.method name m) := by
  have hany : (before.any fun e => e.1 == name) = true ↔ name ∈ taken := by
    rw [← h]
    simp [List.any_eq_true, List.mem_map]
  unfold Member.ofMethod Method.defects
  dsimp only
  by_cases hname : name ∈ taken
  · rw [if_pos (hany.2 hname), if_pos hname]
    rfl
  rw [if_neg fun ha => hname (hany.1 ha), if_neg hname, List.nil_append]
  by_cases hverb : m.verb = none ∨ m.verb = some ""
  · rw [if_pos (present_isNone.2 hverb), if_pos hverb]
    rfl
  rw [if_neg fun hv => hverb (present_isNone.1 hv), if_neg hverb, List.nil_append]
  by_cases hpath : m.path = none
  · rw [if_pos (by rw [hpath]; rfl), if_pos hpath]
    rfl
  · rw [if_neg (by simpa using hpath), if_neg hpath]
    rfl

/-- The methods of a level are added to its resources. No method has the name of another, so of what stands
before a method only the resources count. -/
theorem addMethods_eq (place : String) {taken : List String} (ms : List (String × Method))
    {before : Members} (hnodup : (ms.map (·.1)).Nodup)
    (h : ∀ name ∈ ms.map (·.1), name ∈ before.map (·.1) ↔ name ∈ taken) :
    Member.addMethods place before ms =
      reporting (ms.flatMap fun e => e.2.defects place taken e.1)
        (before ++ ms.map fun e => (e.1, .method e.1 e.2)) := by
  induction ms generalizing before with
  | nil => simp [Member.addMethods, reporting]
  | cons e rest ih =>
      obtain ⟨name, m⟩ := e
      rw [List.map_cons, List.nodup_cons] at hnodup
      have hrest : ∀ n ∈ rest.map (·.1),
          n ∈ (before ++ [(name, Member.method name m)]).map (·.1) ↔ n ∈ taken := by
        intro n hn
        have hne : n ≠ name := fun he => hnodup.1 (he ▸ hn)
        rw [← h n (List.mem_cons_of_mem _ hn)]
        simp [hne]
      have hnext := ih hnodup.2 hrest
      rw [Member.addMethods, ofMethod_eq place (h name List.mem_cons_self) m, List.flatMap_cons]
      rw [List.append_assoc, List.singleton_append] at hnext
      exact reporting_bind (fun member => Member.addMethods place (before ++ [(name, member)]) rest) hnext

mutual

/-- A resource becomes its members unless there is a defect in it. -/
theorem ofResource_eq (place : String) :
    (r : Resource) → Member.ofResource place r = reporting (r.defects place) r.members
  | .mk methods resources unknown => by
      have hnames : ∀ name ∈ methods.entries.map (·.1),
          name ∈ (Resource.groups resources).map (·.1) ↔ name ∈ resources.map (·.1) :=
        fun name _ => by rw [Resource.map_groups]
      have hmethods := addMethods_eq place methods.entries methods.distinct hnames
      rw [Member.ofResource, ofResources_eq place resources, Resource.defects, Resource.members]
      exact reporting_bind (fun before => Member.addMethods place before methods.entries) hmethods

theorem ofResources_eq (place : String) :
    (rs : List (String × Resource)) →
      Member.ofResources place rs = reporting (Resource.defectsBelow place rs) (Resource.groups rs)
  | [] => rfl
  | (name, r) :: rest => by
      have hrest : (Member.ofResources place rest >>= fun others =>
          pure ((name, Member.group name r.members) :: others)) =
            reporting (Resource.defectsBelow place rest)
              ((name, Member.group name r.members) :: Resource.groups rest) := by
        rw [ofResources_eq place rest]
        exact reporting_map fun others => (name, Member.group name r.members) :: others
      rw [Member.ofResources, ofResource_eq (place ++ "." ++ name) r, Resource.defectsBelow,
        Resource.groups]
      exact reporting_bind _ hrest

end

/-! ## Defects and methods -/

namespace Resource

theorem defectsBelow_eq (place : String) (rs : List (String × Resource)) :
    defectsBelow place rs = rs.flatMap fun e => e.2.defects (place ++ "." ++ e.1) := by
  induction rs with
  | nil => rfl
  | cons e rest ih => rw [defectsBelow, ih, List.flatMap_cons]

/-- The defects of a resource are those of the resources below it, and those of its own methods. -/
theorem defects_eq (place : String) (r : Resource) :
    r.defects place = (r.resources.flatMap fun e => e.2.defects (place ++ "." ++ e.1)) ++
      r.methods.entries.flatMap fun e => e.2.defects place r.names e.1 := by
  obtain ⟨methods, resources, unknown⟩ := r
  rw [defects, defectsBelow_eq]
  rfl

/-- What is below a resource is smaller. -/
theorem sizeOf_lt_of_mem {r child : Resource} {name : String} (h : (name, child) ∈ r.resources) :
    sizeOf child < sizeOf r := by
  obtain ⟨methods, resources, unknown⟩ := r
  have hmem : sizeOf (name, child) < sizeOf resources := List.sizeOf_lt_of_mem h
  rw [Prod.mk.sizeOf_spec] at hmem
  rw [mk.sizeOf_spec]
  omega

/-- The defects of every method that stands somewhere in a tree are among those of the tree. -/
theorem mem_defects {place p name : String} {r s : Resource} {m : Method} {f : Document.Fault}
    (hat : At r place s p) (hm : (name, m) ∈ s.methods.entries) (hf : f ∈ m.defects p s.names name) :
    f ∈ r.defects place := by
  induction hat with
  | here r place =>
      rw [defects_eq]
      exact List.mem_append_right _ (List.mem_flatMap.2 ⟨_, hm, hf⟩)
  | inside hmem _ ih =>
      rw [defects_eq]
      exact List.mem_append_left _ (List.mem_flatMap.2 ⟨_, hmem, ih hm hf⟩)

/-- The first defect of a tree is the first of some method in it. -/
theorem exists_of_head? {place : String} {r : Resource} {f : Document.Fault}
    (h : (r.defects place).head? = some f) :
    ∃ s p name m, At r place s p ∧ (name, m) ∈ s.methods.entries ∧
      (m.defects p s.names name).head? = some f := by
  rw [defects_eq, List.head?_append, List.head?_flatMap, List.head?_flatMap] at h
  rcases Option.or_eq_some_iff.1 h with h | ⟨-, h⟩
  · obtain ⟨⟨name, child⟩, hmem, hchild⟩ := List.exists_of_findSome?_eq_some h
    have hlt : sizeOf child < sizeOf r := sizeOf_lt_of_mem hmem
    obtain ⟨s, p, n, m, hat, hm, hf⟩ := exists_of_head? hchild
    exact ⟨s, p, n, m, .inside hmem hat, hm, hf⟩
  · obtain ⟨⟨name, m⟩, hmem, hf⟩ := List.exists_of_findSome?_eq_some h
    exact ⟨r, place, name, m, .here r place, hmem, hf⟩
termination_by sizeOf r

/-- A tree has a defect exactly if something is amiss with a method that stands somewhere in it. -/
theorem defects_ne_nil {place : String} {r : Resource} :
    r.defects place ≠ [] ↔ ∃ s p name m, At r place s p ∧ (name, m) ∈ s.methods.entries ∧
      m.IsDefective s.names name := by
  constructor
  · intro h
    obtain ⟨f, hf⟩ : ∃ f, (r.defects place).head? = some f := by
      cases hd : r.defects place with
      | nil => exact absurd hd h
      | cons f rest => exact ⟨f, rfl⟩
    obtain ⟨s, p, name, m, hat, hm, hf⟩ := exists_of_head? hf
    have hne : m.defects p s.names name ≠ [] := fun hnil => by
      rw [hnil] at hf
      cases hf
    exact ⟨s, p, name, m, hat, hm, Method.defects_ne_nil.1 hne⟩
  · rintro ⟨s, p, name, m, hat, hm, hdefective⟩
    have hne : m.defects p s.names name ≠ [] := Method.defects_ne_nil.2 hdefective
    obtain ⟨f, hf⟩ := List.exists_mem_of_ne_nil _ hne
    exact List.ne_nil_of_mem (mem_defects hat hm hf)

end Resource

/-! ## The methods of a client -/

/-- A method that stands somewhere among members. -/
inductive Members.Has : Members → Method → Prop
  | method {ms : Members} {key name : String} {m : Method} : (key, .method name m) ∈ ms → Has ms m
  | group {ms inner : Members} {key name : String} {m : Method} :
      (key, .group name inner) ∈ ms → Has inner m → Has ms m

namespace Resource

theorem mem_groups {rs : List (String × Resource)} {key : String} {member : Member} :
    (key, member) ∈ groups rs ↔ ∃ child, (key, child) ∈ rs ∧ member = .group key child.members := by
  induction rs with
  | nil => simp [groups]
  | cons e rest ih =>
      obtain ⟨name, r⟩ := e
      rw [groups, List.mem_cons, ih]
      constructor
      · rintro (he | ⟨child, hmem, rfl⟩)
        · cases he
          exact ⟨r, List.mem_cons_self, rfl⟩
        · exact ⟨child, List.mem_cons_of_mem _ hmem, rfl⟩
      · rintro ⟨child, hmem, rfl⟩
        rcases List.mem_cons.1 hmem with he | hmem
        · cases he
          exact .inl rfl
        · exact .inr ⟨child, hmem, rfl⟩

theorem mem_members {r : Resource} {key : String} {member : Member} :
    (key, member) ∈ r.members ↔
      (∃ child, (key, child) ∈ r.resources ∧ member = .group key child.members) ∨
        ∃ m, (key, m) ∈ r.methods.entries ∧ member = .method key m := by
  obtain ⟨methods, resources, unknown⟩ := r
  rw [members, List.mem_append, mem_groups, List.mem_map]
  refine or_congr Iff.rfl ⟨?_, ?_⟩
  · rintro ⟨⟨name, m⟩, hm, he⟩
    cases he
    exact ⟨m, hm, rfl⟩
  · rintro ⟨m, hm, rfl⟩
    exact ⟨(key, m), hm, rfl⟩

/-- The methods among the members of a resource are those that stand in its tree. -/
theorem has_members (place : String) {r : Resource} {m : Method} :
    Members.Has r.members m ↔ ∃ s p name, At r place s p ∧ (name, m) ∈ s.methods.entries := by
  constructor
  · intro h
    generalize hms : r.members = ms at h
    induction h generalizing r place with
    | method hmem =>
        rw [← hms] at hmem
        rcases mem_members.1 hmem with ⟨child, -, he⟩ | ⟨m, hm, he⟩
        · cases he
        · cases he
          exact ⟨r, place, _, .here r place, hm⟩
    | group hmem _ ih =>
        rw [← hms] at hmem
        rcases mem_members.1 hmem with ⟨child, hchild, he⟩ | ⟨m, -, he⟩
        · cases he
          obtain ⟨s, p, name, hat, hm⟩ := ih (place ++ "." ++ _) rfl
          exact ⟨s, p, name, .inside hchild hat, hm⟩
        · cases he
  · rintro ⟨s, p, name, hat, hm⟩
    induction hat with
    | here r place => exact .method (mem_members.2 (.inr ⟨m, hm, rfl⟩))
    | inside hmem _ ih => exact .group (mem_members.2 (.inl ⟨_, hmem, rfl⟩)) (ih hm)

end Resource

/-! ## Main statement -/

theorem Client.build_eq (d : Document) (o : Options) :
    Client.build d o = reporting (d.tree.defects d.name) ⟨d, o, d.tree.members⟩ := by
  rw [Client.build, ofResource_eq]
  exact reporting_map (Client.mk d o)

/-- Building reports the first of the defects of a document, in the order in which `Resource.defects` lists them,
and there is one exactly if something is amiss with a method somewhere in the tree: its name is that of a resource
beside it, it has no verb, or it has no path. Of one method these are reported in that order, each under the id of
the method; a method without one goes by its name, or at a clash by the path of names that leads to it. Where
nothing is amiss, there is a client with all that the tree has, and every method in it has a verb and a path. -/
theorem Client.build_defects (d : Document) (o : Options) :
    (∀ f, Client.build d o = .error f ↔ (d.tree.defects d.name).head? = some f) ∧
    ((∃ f, Client.build d o = .error f) ↔ ∃ s p name m, d.tree.At d.name s p ∧
      (name, m) ∈ s.methods.entries ∧
      (name ∈ s.names ∨ (m.verb = none ∨ m.verb = some "") ∨ m.path = none)) ∧
    (∀ f, Client.build d o = .error f → ∃ s p name m, d.tree.At d.name s p ∧
      (name, m) ∈ s.methods.entries ∧
      ((name ∈ s.names ∧ f = .clash (p ++ "." ++ name) (m.reportedAs (p ++ "." ++ name))) ∨
        (name ∉ s.names ∧ (m.verb = none ∨ m.verb = some "") ∧ f = .noVerb (m.reportedAs name)) ∨
        (name ∉ s.names ∧ ¬ (m.verb = none ∨ m.verb = some "") ∧ m.path = none ∧
          f = .noPath (m.reportedAs name)))) ∧
    ((∀ f, Client.build d o ≠ .error f) → Client.build d o = .ok ⟨d, o, d.tree.members⟩) ∧
    (∀ c, Client.build d o = .ok c → ∀ m, Members.Has c.members m →
      ∃ verb path, m.verb = some verb ∧ verb ≠ "" ∧ m.path = some path) := by
  rw [Client.build_eq]
  refine ⟨fun f => reporting_eq_error, ?_, fun f hf => ?_, fun h => ?_, fun c hc m hm => ?_⟩
  · refine Iff.trans ?_ Resource.defects_ne_nil
    simp only [reporting_eq_error]
    cases d.tree.defects d.name <;> simp
  · obtain ⟨s, p, name, m, hat, hm, hf⟩ := Resource.exists_of_head? (reporting_eq_error.1 hf)
    exact ⟨s, p, name, m, hat, hm, Method.head?_defects hf⟩
  · refine reporting_eq_ok.2 ⟨?_, rfl⟩
    cases hd : d.tree.defects d.name with
    | nil => rfl
    | cons f rest => exact absurd (reporting_eq_error.2 (by rw [hd]; rfl)) (h f)
  · obtain ⟨hnone, rfl⟩ := reporting_eq_ok.1 hc
    obtain ⟨s, p, name, hat, hmem⟩ := (Resource.has_members d.name).1 hm
    have hsound : ¬ m.IsDefective s.names name := fun hdefective =>
      Resource.defects_ne_nil.2 ⟨s, p, name, m, hat, hmem, hdefective⟩ hnone
    unfold Method.IsDefective at hsound
    cases hverb : m.verb with
    | none => exact absurd (.inr (.inl (.inl hverb))) hsound
    | some verb =>
        cases hpath : m.path with
        | none => exact absurd (.inr (.inr hpath)) hsound
        | some path =>
            refine ⟨verb, path, rfl, fun he => ?_, rfl⟩
            exact hsound (.inr (.inl (.inr (by rw [hverb, he]))))

/-- A name that is both a resource and a method, and in that resource a method without a path. -/
def untidyDocument : Document :=
  { notesDocument with
    tree := .mk (Table.ofList [("shared", updateNote)])
      [("shared", .mk (Table.ofList [("read", { updateNote with id := none, path := none })]) [] ∅)] ∅ }

/-- The deeper defect is come upon first. -/
example : Client.build untidyDocument {} = .error (.noPath "read") := rfl

end ApiDiscovery
