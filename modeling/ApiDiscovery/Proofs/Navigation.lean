import ApiDiscovery.Client.Access
import ApiDiscovery.Document.Reader
import ApiDiscovery.Proofs.Defects
import ApiDiscovery.Proofs.Sorted
import Mathlib.Data.List.Nodup

/-!
# Finding the methods of a client

A method of a document stands at the end of a list of names: those of the resources around it, and its own. There
are three ways to it,

    the tree of the document   names lead from resource to resource (`Resource.Holds`)
    the listing of a client    each method with a dotted path, going through the tree in order
    accesses, one by one       by item, or by attribute

and they come to the same. A path is a list of names joined by dots, and is split into these names again as long
as no name is empty or has a dot. The names of one level are all different: those of its resources and those of its
methods are keys (`Document.isKeyed_of_ofValue?`), and a client is not built where one of each is the same. Accesses
never leave the tree, except to what a node has of its own; all of that begins with an underscore.

Main statement: `Client.methods_navigable`.
-/

namespace ApiDiscovery

namespace Resource

/-! ## Places in a tree -/

/-- `Sub r way s`: names lead from a resource to another one below it. -/
inductive Sub : Resource → List String → Resource → Prop
  | here (r : Resource) : Sub r [] r
  | inside {r child s : Resource} {name : String} {way : List String} :
      (name, child) ∈ r.resources → Sub child way s → Sub r (name :: way) s

/-- `Holds r way m`: names lead from a resource to a method in it or below. -/
inductive Holds : Resource → List String → Method → Prop
  | method {r : Resource} {name : String} {m : Method} : (name, m) ∈ r.methods.entries → Holds r [name] m
  | inside {r child : Resource} {name : String} {way : List String} {m : Method} :
      (name, child) ∈ r.resources → Holds child way m → Holds r (name :: way) m

/-- A name of a resource or of a method on a level. -/
def HasChild (r : Resource) (name : String) : Prop := name ∈ r.names ∨ name ∈ r.methods.keys

/-- On no level have two resources the same name. -/
def IsKeyed (r : Resource) : Prop := ∀ way s, r.Sub way s → s.names.Nodup

/-- No name is empty or has a dot. -/
def IsDenotable (r : Resource) : Prop :=
  ∀ way s, r.Sub way s → ∀ name, s.HasChild name → name ≠ "" ∧ '.' ∉ name.toList

/-- On no level have two members the same name. -/
def IsClear (r : Resource) : Prop := ∀ way s, r.Sub way s → (s.members.map (·.1)).Nodup

/-- What holds on all levels holds on the first one and on all levels of every resource there. -/
theorem forall_sub {P : Resource → Prop} {r : Resource} :
    (∀ way s, r.Sub way s → P s) ↔ P r ∧ ∀ e ∈ r.resources, ∀ way s, e.2.Sub way s → P s := by
  constructor
  · intro h
    exact ⟨h [] r (.here r), fun e he way s hs => h (e.1 :: way) s (.inside he hs)⟩
  · rintro ⟨hr, hbelow⟩ way s hs
    cases hs with
    | here => exact hr
    | inside hmem hs => exact hbelow _ hmem _ _ hs

theorem IsKeyed.below {r child : Resource} {name : String} (h : r.IsKeyed) (hmem : (name, child) ∈ r.resources) :
    child.IsKeyed := (forall_sub.1 h).2 _ hmem

theorem IsDenotable.below {r child : Resource} {name : String} (h : r.IsDenotable)
    (hmem : (name, child) ∈ r.resources) : child.IsDenotable := (forall_sub.1 h).2 _ hmem

theorem IsClear.below {r child : Resource} {name : String} (h : r.IsClear) (hmem : (name, child) ∈ r.resources) :
    child.IsClear := (forall_sub.1 h).2 _ hmem

theorem keys_members (r : Resource) : r.members.map (·.1) = r.names ++ r.methods.keys := by
  obtain ⟨methods, resources, unknown⟩ := r
  rw [members, List.map_append, map_groups, List.map_map]
  rfl

theorem mem_keys_members {r : Resource} {name : String} : name ∈ r.members.map (·.1) ↔ r.HasChild name := by
  rw [keys_members, List.mem_append]
  rfl

theorem Sub.step {r s child : Resource} {way : List String} (h : r.Sub way s) {name : String}
    (hmem : (name, child) ∈ s.resources) : r.Sub (way ++ [name]) child := by
  induction h with
  | here r => exact .inside hmem (.here child)
  | inside hinner _ ih => exact .inside hinner (ih hmem)

/-- Where names lead to a method, each of them is the name of a resource or a method. -/
theorem Holds.hasChild {r : Resource} {way : List String} {m : Method} (h : r.Holds way m) {name : String}
    (hname : name ∈ way) : ∃ pre s, r.Sub pre s ∧ s.HasChild name := by
  induction h with
  | @method r own m hm =>
      rw [List.mem_singleton] at hname
      subst hname
      exact ⟨[], r, .here r, .inr (List.mem_map_of_mem hm)⟩
  | @inside r child own way m hmem _ ih =>
      rcases List.mem_cons.1 hname with rfl | hname
      · exact ⟨[], r, .here r, .inl (List.mem_map_of_mem hmem)⟩
      · obtain ⟨pre, s, hs, hchild⟩ := ih hname
        exact ⟨own :: pre, s, .inside hmem hs, hchild⟩

theorem Holds.ne_nil {r : Resource} {way : List String} {m : Method} (h : r.Holds way m) : way ≠ [] := by
  cases h <;> exact List.cons_ne_nil _ _

theorem Holds.head {r : Resource} {name : String} {rest : List String} {m : Method}
    (h : r.Holds (name :: rest) m) : r.HasChild name := by
  cases h with
  | method hm => exact .inr (List.mem_map_of_mem hm)
  | inside hmem _ => exact .inl (List.mem_map_of_mem hmem)

theorem eq_of_mem_members {r : Resource} (h : r.IsClear) {name : String} {a b : Member}
    (ha : (name, a) ∈ r.members) (hb : (name, b) ∈ r.members) : a = b := by
  have hnodup : (r.members.map (·.1)).Nodup := h [] r (.here r)
  have hlookup := (lookupEntry_eq_some hnodup).2 ha
  rw [(lookupEntry_eq_some hnodup).2 hb] at hlookup
  exact (Option.some.inj hlookup).symm

/-- The name of a resource leads on to what that resource holds. -/
theorem holds_cons_resource {r child : Resource} (h : r.IsClear) {name : String}
    (hchild : (name, child) ∈ r.resources) {rest : List String} {m : Method} :
    r.Holds (name :: rest) m ↔ child.Holds rest m := by
  have hgroup : (name, .group name child.members) ∈ r.members := mem_members.2 (.inl ⟨child, hchild, rfl⟩)
  have hnames : r.names.Nodup := by
    have hnodup : (r.members.map (·.1)).Nodup := h [] r (.here r)
    rw [keys_members] at hnodup
    exact (List.nodup_append.1 hnodup).1
  constructor
  · intro hholds
    cases hholds with
    | method hm =>
        have hmethod := mem_members.2 (.inr ⟨m, hm, rfl⟩)
        cases eq_of_mem_members h hgroup hmethod
    | inside hmem hinner =>
        have hlookup := (lookupEntry_eq_some hnames).2 hmem
        rw [(lookupEntry_eq_some hnames).2 hchild] at hlookup
        cases hlookup
        exact hinner
  · exact .inside hchild

/-- The name of a method leads to it, and no further. -/
theorem holds_cons_method {r : Resource} (h : r.IsClear) {name : String} {m' : Method}
    (hm' : (name, m') ∈ r.methods.entries) {rest : List String} {m : Method} :
    r.Holds (name :: rest) m ↔ rest = [] ∧ m = m' := by
  have hmethod : (name, .method name m') ∈ r.members := mem_members.2 (.inr ⟨m', hm', rfl⟩)
  constructor
  · intro hholds
    cases hholds with
    | method hm =>
        cases eq_of_mem_members h hmethod (mem_members.2 (.inr ⟨m, hm, rfl⟩))
        exact ⟨rfl, rfl⟩
    | inside hmem _ => cases eq_of_mem_members h hmethod (mem_members.2 (.inl ⟨_, hmem, rfl⟩))
  · rintro ⟨rfl, rfl⟩
    exact .method hm'

/-! ## The methods of a tree in order -/

mutual

/-- The methods of a resource with the names that lead to them: those of one resource after the other, and then its
own. -/
def listing : Resource → List (List String × Method)
  | mk methods resources _ => listingBelow resources ++ methods.entries.map fun e => ([e.1], e.2)

def listingBelow : List (String × Resource) → List (List String × Method)
  | [] => []
  | (name, r) :: rest => (r.listing.map fun e => (name :: e.1, e.2)) ++ listingBelow rest

end

theorem mem_listingBelow {rs : List (String × Resource)} {way : List String} {m : Method} :
    (way, m) ∈ listingBelow rs ↔ ∃ name r inner, (name, r) ∈ rs ∧ (inner, m) ∈ r.listing ∧ way = name :: inner := by
  induction rs with
  | nil => simp [listingBelow]
  | cons e rest ih =>
      obtain ⟨own, r⟩ := e
      rw [listingBelow, List.mem_append, ih, List.mem_map]
      constructor
      · rintro (⟨⟨inner, m'⟩, hmem, he⟩ | ⟨name, r', inner, hmem, hinner, rfl⟩)
        · cases he
          exact ⟨own, r, inner, List.mem_cons_self, hmem, rfl⟩
        · exact ⟨name, r', inner, List.mem_cons_of_mem _ hmem, hinner, rfl⟩
      · rintro ⟨name, r', inner, hmem, hinner, rfl⟩
        rcases List.mem_cons.1 hmem with he | hmem
        · cases he
          exact .inl ⟨(inner, m), hinner, rfl⟩
        · exact .inr ⟨name, r', inner, hmem, hinner, rfl⟩

theorem listing_eq (r : Resource) :
    r.listing = listingBelow r.resources ++ r.methods.entries.map fun e => ([e.1], e.2) := by
  obtain ⟨methods, resources, unknown⟩ := r
  rw [listing]
  rfl

theorem mem_listing_iff {r : Resource} {way : List String} {m : Method} :
    (way, m) ∈ r.listing ↔ (∃ name child inner, (name, child) ∈ r.resources ∧ (inner, m) ∈ child.listing ∧
      way = name :: inner) ∨ ∃ name, (name, m) ∈ r.methods.entries ∧ way = [name] := by
  rw [listing_eq, List.mem_append, mem_listingBelow, List.mem_map]
  refine or_congr Iff.rfl ⟨?_, ?_⟩
  · rintro ⟨⟨name, m'⟩, hm, he⟩
    cases he
    exact ⟨name, hm, rfl⟩
  · rintro ⟨name, hm, rfl⟩
    exact ⟨(name, m), hm, rfl⟩

/-- The listing has just the methods of the tree. -/
theorem mem_listing {r : Resource} {way : List String} {m : Method} : (way, m) ∈ r.listing ↔ r.Holds way m := by
  constructor
  · intro h
    rcases mem_listing_iff.1 h with ⟨name, child, inner, hmem, hinner, rfl⟩ | ⟨name, hm, rfl⟩
    · have hlt : sizeOf child < sizeOf r := sizeOf_lt_of_mem hmem
      exact .inside hmem (mem_listing.1 hinner)
    · exact .method hm
  · intro h
    induction h with
    | method hm => exact mem_listing_iff.2 (.inr ⟨_, hm, rfl⟩)
    | inside hmem _ ih => exact mem_listing_iff.2 (.inl ⟨_, _, _, hmem, ih, rfl⟩)
termination_by sizeOf r

theorem nodup_ways_below {rs : List (String × Resource)} (hnodup : (rs.map (·.1)).Nodup)
    (hchild : ∀ e ∈ rs, (e.2.listing.map (·.1)).Nodup) : ((listingBelow rs).map (·.1)).Nodup := by
  induction rs with
  | nil => exact List.nodup_nil
  | cons e rest ih =>
      obtain ⟨name, r⟩ := e
      rw [List.map_cons, List.nodup_cons] at hnodup
      rw [listingBelow, List.map_append, List.map_map, List.nodup_append]
      refine ⟨?_, ih hnodup.2 fun e he => hchild e (List.mem_cons_of_mem _ he), ?_⟩
      · have hcons : r.listing.map ((·.1) ∘ fun e => (name :: e.1, e.2)) =
            (r.listing.map (·.1)).map (name :: ·) := by
          rw [List.map_map]
          rfl
        rw [hcons]
        exact List.Nodup.map (fun _ _ heq => List.tail_eq_of_cons_eq heq) (hchild _ List.mem_cons_self)
      · -- What leads into a resource begins with its name.
        rintro way hleft _ hright rfl
        obtain ⟨⟨inner, m⟩, -, he⟩ := List.mem_map.1 hleft
        obtain ⟨⟨way, m'⟩, hway, rfl⟩ := List.mem_map.1 hright
        obtain ⟨name', r', inner', hmem, -, hway'⟩ := mem_listingBelow.1 hway
        have hname : name' = name := List.head_eq_of_cons_eq (hway'.symm.trans he.symm)
        have hold : name' ∈ rest.map (·.1) := List.mem_map_of_mem hmem
        rw [hname] at hold
        exact hnodup.1 hold

/-- No two methods of a tree are at the end of the same names. -/
theorem nodup_ways {r : Resource} (h : r.IsKeyed) : (r.listing.map (·.1)).Nodup := by
  have hbelow : ((listingBelow r.resources).map (·.1)).Nodup := by
    refine nodup_ways_below (h [] r (.here r)) fun e he => ?_
    have hmem : (e.1, e.2) ∈ r.resources := he
    have hlt : sizeOf e.2 < sizeOf r := sizeOf_lt_of_mem hmem
    exact nodup_ways (h.below hmem)
  have hown : (r.methods.entries.map fun e => [e.1]).Nodup := by
    have hsingle : (r.methods.entries.map fun e => [e.1]) = (r.methods.entries.map (·.1)).map ([·]) := by
      rw [List.map_map]
      rfl
    rw [hsingle]
    exact List.Nodup.map (fun _ _ heq => List.head_eq_of_cons_eq heq) r.methods.distinct
  rw [listing_eq, List.map_append, List.map_map, List.nodup_append]
  refine ⟨hbelow, hown, ?_⟩
  rintro way hleft _ hright rfl
  obtain ⟨⟨way, m⟩, hway, rfl⟩ := List.mem_map.1 hleft
  obtain ⟨⟨name, m'⟩, -, he⟩ := List.mem_map.1 hright
  obtain ⟨name', r', inner, -, hinner, hway'⟩ := mem_listingBelow.1 hway
  have hnil : inner = [] := List.tail_eq_of_cons_eq (hway'.symm.trans he.symm)
  exact (mem_listing.1 hinner).ne_nil hnil
termination_by sizeOf r

end Resource

/-! ## Dotted paths -/

/-- The names of a dotted path. -/
def namesOf (path : String) : List String := (path.toList.splitOn '.').map String.ofList

theorem intercalate_namesOf (path : String) : ".".intercalate (namesOf path) = path := by
  refine String.toList_inj.1 ?_
  have hparts : (namesOf path).map String.toList = path.toList.splitOn '.' := by
    rw [namesOf, List.map_map]
    exact (List.map_congr_left fun _ _ => String.toList_ofList).trans (List.map_id _)
  rw [String.toList_intercalate, hparts]
  exact List.intercalate_splitOn '.'

/-- Names without dots are those of the path that they make. -/
theorem namesOf_intercalate {way : List String} (hway : way ≠ []) (hdots : ∀ name ∈ way, '.' ∉ name.toList) :
    namesOf (".".intercalate way) = way := by
  have hsplit : ((".".intercalate way).toList).splitOn '.' = way.map String.toList := by
    rw [String.toList_intercalate]
    refine List.splitOn_intercalate '.' ?_ (by simpa using hway)
    intro l hl
    obtain ⟨name, hname, rfl⟩ := List.mem_map.1 hl
    exact hdots name hname
  rw [namesOf, hsplit, List.map_map]
  exact (List.map_congr_left fun _ _ => String.ofList_toList).trans (List.map_id _)

namespace Member

theorem dotted_of_ne_empty {path : String} (h : path ≠ "") (name : String) :
    dotted path name = path ++ "." ++ name := by
  have hne : ¬ path.isEmpty = true := fun he => h (String.isEmpty_iff.1 he)
  rw [dotted, if_neg hne]

/-- Going on from a path, name by name, joins the names to it. -/
theorem foldl_dotted {path : String} (h : path ≠ "") (way : List String) :
    way.foldl dotted path = ".".intercalate (path :: way) := by
  induction way generalizing path with
  | nil => exact String.intercalate_singleton.symm
  | cons name rest ih =>
      have hne : path ++ "." ++ name ≠ "" := by simp
      rw [List.foldl_cons, dotted_of_ne_empty h, ih hne, String.intercalate_cons_of_ne_nil (List.cons_ne_nil _ _)]
      cases rest with
      | nil => rw [String.intercalate_singleton, String.intercalate_singleton]
      | cons next rest =>
          rw [String.intercalate_cons_of_ne_nil (List.cons_ne_nil _ _),
            String.intercalate_cons_of_ne_nil (List.cons_ne_nil _ _)]
          simp only [String.append_assoc]

theorem foldl_dotted_empty {way : List String} (h : ∀ name ∈ way, name ≠ "") :
    way.foldl dotted "" = ".".intercalate way := by
  cases way with
  | nil => rfl
  | cons name rest => exact foldl_dotted (h name List.mem_cons_self) rest

theorem methodsBelow_append (path : String) (ms ns : Members) :
    methodsBelow path (ms ++ ns) = methodsBelow path ms ++ methodsBelow path ns := by
  induction ms with
  | nil => rfl
  | cons e rest ih => rw [List.cons_append, methodsBelow, methodsBelow, ih, List.append_assoc]

theorem methodsBelow_methods (path : String) (es : List (String × Method)) :
    methodsBelow path (es.map fun e => (e.1, .method e.1 e.2)) = es.map fun e => (dotted path e.1, e.1, e.2) := by
  induction es with
  | nil => rfl
  | cons e rest ih =>
      rw [List.map_cons, methodsBelow, ih]
      rfl

mutual

/-- The members of a resource are listed as its methods are, each under the names that lead to it. -/
theorem methodsBelow_members (path : String) :
    (r : Resource) → methodsBelow path r.members =
      r.listing.map fun e => (e.1.foldl dotted path, e.1.getLastD "", e.2)
  | .mk methods resources unknown => by
      rw [Resource.members, methodsBelow_append, methodsBelow_groups path resources, methodsBelow_methods,
        Resource.listing, List.map_append, List.map_map]
      rfl

theorem methodsBelow_groups (path : String) :
    (rs : List (String × Resource)) → methodsBelow path (Resource.groups rs) =
      (Resource.listingBelow rs).map fun e => (e.1.foldl dotted path, e.1.getLastD "", e.2)
  | [] => rfl
  | (name, r) :: rest => by
      have hlast : ∀ e ∈ r.listing, e.1.getLastD "" = (name :: e.1).getLastD "" := by
        intro e he
        have hne : e.1 ≠ [] := (Resource.mem_listing.1 he).ne_nil
        obtain ⟨own, more, hmore⟩ := List.exists_cons_of_ne_nil hne
        rw [hmore]
        rfl
      rw [Resource.groups, methodsBelow, methodsAt, methodsBelow_members (dotted path name) r,
        methodsBelow_groups path rest, Resource.listingBelow, List.map_append, List.map_map]
      refine congrArg (· ++ _) (List.map_congr_left fun e he => ?_)
      rw [hlast e he]
      rfl

end

end Member

/-! ## Single accesses -/

namespace Branch

/-- What a node has of its own begins with an underscore. -/
theorem own?_eq_none (n : Branch) {name : String} (h : name.startsWith "_" = false) : n.own? name = none := by
  have hown : ∀ e ∈ commonAttributes ++ nodeAttributes ++ clientAttributes, e.1.startsWith "_" = true := by
    decide +kernel
  have hnot : ∀ own : String, own.startsWith "_" = true → name ≠ own := by
    rintro own hstarts rfl
    rw [h] at hstarts
    cases hstarts
  have hlookup : n.ownAttributes.lookup name = none := by
    rw [List.lookup_eq_none_iff]
    intro e he
    have hmem : e ∈ commonAttributes ++ nodeAttributes ++ clientAttributes := by
      rw [ownAttributes] at he
      rcases List.mem_append.1 he with he | he
      · exact List.mem_append_left _ he
      · cases hc : n.isClient with
        | true => 
            rw [hc] at he
            exact List.mem_append_right _ he
        | false =>
            rw [hc] at he
            cases he
    exact bne_iff_ne.2 (hnot e.1 (hown e hmem))
  have hname : ¬ (name == "_name") = true := fun he => hnot "_name" (by decide +kernel) (eq_of_beq he)
  have hchildren : ¬ (name == "_children") = true := fun he => hnot "_children" (by decide +kernel) (eq_of_beq he)
  have hweak : ¬ (name == "__weakref__") = true := fun he => hnot "__weakref__" (by decide +kernel) (eq_of_beq he)
  rw [own?, if_neg hname, if_neg hchildren, if_neg hweak, hlookup]
  rfl

theorem reservedWord?_eq_some {name word : String} :
    reservedWord? name = some word ↔ word ∈ reservedWords ∧ name = word ++ "_" := by
  have hends : name.endsWith "_" = true ↔ ['_'] <:+ name.toList := by
    rw [String.endsWith_eq_endsWith_toSlice, String.Slice.endsWith_string_iff]
    simp
  rw [reservedWord?]
  constructor
  · intro h
    split at h
    next hboth =>
      rw [Bool.and_eq_true, hends, List.contains_iff_mem] at hboth
      cases h
      obtain ⟨⟨front, hfront⟩, hword⟩ := hboth
      refine ⟨hword, String.toList_inj.1 ?_⟩
      rw [← hfront]
      simp
    next => cases h
  · rintro ⟨hword, rfl⟩
    have hdrop : String.ofList (word ++ "_").toList.dropLast = word := by simp
    rw [hdrop, if_pos]
    rw [Bool.and_eq_true, hends, List.contains_iff_mem]
    exact ⟨⟨word.toList, by simp⟩, hword⟩

variable {n : Branch} {s : Resource}

theorem child?_eq_none (hn : n.members = s.members) {name : String} : n.child? name = none ↔ ¬ s.HasChild name := by
  rw [child?, Option.map_eq_none_iff, hn, lookupEntry_eq_none, Resource.mem_keys_members]

/-- `Opens n s`: a node gives access to what a resource has, by item and by attribute. -/
structure Opens (n : Branch) (s : Resource) : Prop where
  child : ∀ name, s.HasChild name → name.startsWith "_" = false → ∃ m, (name, m) ∈ s.members ∧
    n.item name = .ok (.member (n.way ++ [name]) m) ∧ n.attr name = n.item name
  /-- A reserved word has an underscore behind it, unless there is such a name. -/
  reserved : ∀ word ∈ reservedWords, s.HasChild word → ¬ s.HasChild (word ++ "_") →
    n.attr (word ++ "_") = n.item word
  other : ∀ name, name.startsWith "_" = false → ¬ s.HasChild name →
    n.item name = .error (.member (.noItem name)) ∧
    ((∀ word ∈ reservedWords, s.HasChild word → name ≠ word ++ "_") →
      n.attr name = .error (.member (.noMember n.described name)))

theorem opens_of_members (hn : n.members = s.members) (hnodup : (s.members.map (·.1)).Nodup) : n.Opens s where
  child := by
    intro name hchild hstarts
    cases hp : n.child? name with
    | none => exact absurd hchild ((child?_eq_none hn).1 hp)
    | some p =>
        have hlookup := hp
        rw [child?, hn] at hlookup
        obtain ⟨m, hm, rfl⟩ := Option.map_eq_some_iff.1 hlookup
        refine ⟨m, (lookupEntry_eq_some hnodup).1 hm, ?_, ?_⟩
        · rw [item, hp]
        · rw [attr, item, n.own?_eq_none hstarts, hp]
          rfl
  reserved := by
    intro word hword hchild hfree
    have hstarts : ∀ word ∈ reservedWords, (word ++ "_").startsWith "_" = false := by decide +kernel
    have hspelled : reservedWord? (word ++ "_") = some word := reservedWord?_eq_some.2 ⟨hword, rfl⟩
    rw [attr, item, n.own?_eq_none (hstarts word hword), (child?_eq_none hn).2 hfree, hspelled]
    cases hp : n.child? word with
    | none => exact absurd hchild ((child?_eq_none hn).1 hp)
    | some p =>
        rw [Option.bind_some, hp]
        rfl
  other := by
    intro name hstarts hnone
    have hchild := (child?_eq_none hn).2 hnone
    refine ⟨by rw [item, hchild], fun hwords => ?_⟩
    have hreserved : (reservedWord? name).bind n.child? = none := by
      cases hword : reservedWord? name with
      | none => rfl
      | some word =>
          obtain ⟨hmem, hname⟩ := reservedWord?_eq_some.1 hword
          exact (child?_eq_none hn).2 fun hchild => hwords word hmem hchild hname
    rw [attr, n.own?_eq_none hstarts, hchild, hreserved]
    rfl

end Branch

/-! ## Accesses in a row -/

namespace Place

variable {c : Client}

theorem access_item {p : Place} {n : Branch} (h : p.node? c = some n) (name : String) :
    p.access c (.item name) = n.item name := by
  simp only [access, h]

theorem access_attr {p : Place} {n : Branch} (h : p.node? c = some n) (name : String) :
    p.access c (.attr name) = n.attr name := by
  simp only [access, h]

/-- Items in turn lead from a node to a method exactly if their names lead from its resource to that method. -/
theorem items_eq_ok {r : Resource} (hclear : r.IsClear) {p : Place} {n : Branch} (hp : p.node? c = some n)
    (hn : n.members = r.members) {names way : List String} {name : String} {m : Method} :
    (names.map Access.item).foldlM (access c) p = .ok (.member way (.method name m)) ↔
      r.Holds names m ∧ way = n.way ++ names ∧ name = names.getLastD "" := by
  induction names generalizing p n r with
  | nil =>
      constructor
      · intro h
        cases h
        cases hp
      · rintro ⟨hholds, -⟩
        exact absurd rfl hholds.ne_nil
  | cons own rest ih =>
      have hnodup : (r.members.map (·.1)).Nodup := hclear [] r (.here r)
      rw [List.map_cons, List.foldlM_cons, access_item hp, Branch.item, Branch.child?, hn]
      cases hlookup : lookupEntry own r.members with
      | none =>
          have hnone : own ∉ r.members.map (·.1) := lookupEntry_eq_none.1 hlookup
          constructor
          · intro h
            cases h
          · rintro ⟨hholds, -⟩
            exact absurd (Resource.mem_keys_members.2 hholds.head) hnone
      | some member =>
          have hmem : (own, member) ∈ r.members := (lookupEntry_eq_some hnodup).1 hlookup
          rcases Resource.mem_members.1 hmem with ⟨child, hchild, rfl⟩ | ⟨m', hm', rfl⟩
          · have hrest := ih (hclear.below hchild) (p := .member (n.way ++ [own]) (.group own child.members)) rfl rfl
            refine hrest.trans ?_
            rw [Resource.holds_cons_resource hclear hchild, List.append_assoc, List.singleton_append]
            refine and_congr_right fun hholds => and_congr_right fun _ => ?_
            obtain ⟨next, more, hmore⟩ := List.exists_cons_of_ne_nil hholds.ne_nil
            rw [hmore]
            rfl
          · rw [Resource.holds_cons_method hclear hm']
            cases rest with
            | nil =>
                constructor
                · intro h
                  cases h
                  exact ⟨⟨rfl, rfl⟩, rfl, rfl⟩
                · rintro ⟨⟨-, rfl⟩, rfl, rfl⟩
                  rfl
            | cons next more =>
                constructor
                · intro h
                  cases h
                · rintro ⟨⟨hnil, -⟩, -⟩
                  cases hnil

/-- A place is a node only where the tree has a resource. -/
def StandsIn (c : Client) (t : Resource) (p : Place) : Prop :=
  ∀ n, p.node? c = some n → ∃ s, t.Sub n.way s ∧ n.members = s.members

theorem standsIn_of_not_node {t : Resource} {p : Place} (h : p.node? c = none) : p.StandsIn c t := by
  intro n hn
  rw [h] at hn
  cases hn

theorem not_node_own {n : Branch} {name : String} {q : Place} (h : n.own? name = some q) : q.node? c = none := by
  rw [Branch.own?] at h
  split at h
  · cases h
    rfl
  split at h
  · cases h
    rfl
  split at h
  · cases h
    rfl
  · obtain ⟨kind, -, rfl⟩ := Option.map_eq_some_iff.1 h
    rfl

theorem not_node_methodAttr {own : String} {m : Method} {name : String} {q : Place}
    (h : Client.methodAttr own m name = .ok q) : q.node? c = none := by
  have htext : ∀ t : Option String, node? c ((t.map Place.text).getD .nothing) = none := by
    intro t
    cases t <;> rfl
  rw [Client.methodAttr] at h
  dsimp only at h
  split at h
  · cases h
    rfl
  split at h
  · cases h
    exact htext m.id
  split at h
  · cases h
    exact htext m.description
  split at h
  · cases h
    rfl
  split at h
  · cases h
    rfl
  · cases h

theorem standsIn_child {t s : Resource} {n : Branch} (hs : t.Sub n.way s) (hn : n.members = s.members)
    {name : String} {q : Place} (h : n.child? name = some q) : q.StandsIn c t := by
  rw [Branch.child?, hn] at h
  obtain ⟨member, hlookup, rfl⟩ := Option.map_eq_some_iff.1 h
  rcases Resource.mem_members.1 (mem_of_lookupEntry hlookup) with ⟨child, hchild, rfl⟩ | ⟨m, hm, rfl⟩
  · intro n' hn'
    cases hn'
    exact ⟨child, hs.step hchild, rfl⟩
  · exact standsIn_of_not_node rfl

/-- No access leaves the tree. -/
theorem standsIn_access {t : Resource} {p q : Place} (hp : p.StandsIn c t) {a : Access}
    (h : p.access c a = .ok q) : q.StandsIn c t := by
  cases hnode : p.node? c with
  | none =>
      -- What is no node has attributes only if it is a method, and these are no nodes either.
      cases a with
      | item name =>
          simp only [access, hnode] at h
          cases h
      | attr name =>
          cases p with
          | client => cases hnode
          | member way member =>
              cases member with
              | group own ms => cases hnode
              | method own m => exact standsIn_of_not_node (not_node_methodAttr h)
          | _ => cases h
  | some n =>
      obtain ⟨s, hs, hn⟩ := hp n hnode
      cases a with
      | item name =>
          rw [access_item hnode, Branch.item] at h
          cases hchild : n.child? name with
          | none =>
              rw [hchild] at h
              cases h
          | some q' =>
              rw [hchild] at h
              cases h
              exact standsIn_child hs hn hchild
      | attr name =>
          rw [access_attr hnode, Branch.attr] at h
          cases hfound : (n.own? name).or ((n.child? name).or ((Branch.reservedWord? name).bind n.child?)) with
          | none =>
              rw [hfound] at h
              cases h
          | some q' =>
              rw [hfound] at h
              cases h
              rcases Option.or_eq_some_iff.1 hfound with hown | ⟨-, hfound⟩
              · exact standsIn_of_not_node (not_node_own hown)
              rcases Option.or_eq_some_iff.1 hfound with hchild | ⟨-, hfound⟩
              · exact standsIn_child hs hn hchild
              · obtain ⟨word, -, hchild⟩ := Option.bind_eq_some_iff.1 hfound
                exact standsIn_child hs hn hchild

theorem standsIn_follow {t : Resource} {accesses : List Access} {p q : Place} (hp : p.StandsIn c t)
    (h : accesses.foldlM (access c) p = .ok q) : q.StandsIn c t := by
  induction accesses generalizing p with
  | nil =>
      cases h
      exact hp
  | cons a rest ih =>
      rw [List.foldlM_cons] at h
      cases ha : p.access c a with
      | error e =>
          rw [ha] at h
          cases h
      | ok p' =>
          rw [ha] at h
          exact ih (standsIn_access hp ha) h

end Place

/-! ## Trees that are read -/

namespace Resource

theorem isKeyed_parts {inner : Value → Validation.Checked Resource} {es : List (Value × Value)}
    {parts : Table Method × List (String × Resource)} (h : readParts inner es = .ok parts)
    (hinner : ∀ v r, inner v = .ok r → r.IsKeyed) (unknown : Table Value) :
    (mk parts.1 parts.2 unknown).IsKeyed := by
  obtain ⟨f, rs, hf, hrs, rfl⟩ := Validation.Checked.seq_eq_ok.1 h
  obtain ⟨ms, -, rfl⟩ := Validation.Checked.map_eq_ok.1 hf
  refine forall_sub.2 ?_
  rcases Validation.Field.read_eq_ok hrs with rfl | ⟨v, hv⟩
  · exact ⟨List.nodup_nil, nofun⟩
  · obtain ⟨t, ht, rfl⟩ := Validation.Checked.map_eq_ok.1 hv
    refine ⟨t.distinct, fun e he => ?_⟩
    obtain ⟨w, hw⟩ := Validation.exists_of_mem_table ht he
    exact hinner w e.2 hw

theorem isKeyed_of_readWithin {depth : Nat} {v : Value} {r : Resource} (h : readWithin depth v = .ok r) :
    r.IsKeyed := by
  induction depth generalizing v r with
  | zero => cases h
  | succ depth ih =>
      cases v with
      | map es =>
          obtain ⟨f, unknown, hf, -, rfl⟩ := Validation.Checked.seq_eq_ok.1 h
          obtain ⟨parts, hparts, rfl⟩ := Validation.Checked.map_eq_ok.1 hf
          exact isKeyed_parts hparts (fun v r hr => ih hr) unknown
      | _ => cases h

end Resource

/-- In a document that is read from data no two resources of a level have the same name: they are the keys of a
mapping. -/
theorem Document.isKeyed_of_ofValue? {v : Value} {d : Document} (h : Document.ofValue? v = .ok d) :
    d.tree.IsKeyed := by
  have hread := Validation.Checked.toExcept_eq_ok.1 h
  cases v with
  | map es =>
      simp only [read, Validation.Shape.read, Validation.Checked.seq_eq_ok, Validation.Checked.map_eq_ok] at hread
      obtain ⟨_, unknown, ⟨_, _, ⟨_, _, ⟨_, _, ⟨_, _, ⟨_, _, ⟨_, _, ⟨_, _, ⟨_, _, ⟨_, _, ⟨_, _, ⟨parts, hparts,
        rfl⟩, -, rfl⟩, -, rfl⟩, -, rfl⟩, -, rfl⟩, -, rfl⟩, -, rfl⟩, -, rfl⟩, -, rfl⟩, -, rfl⟩, -, rfl⟩, -, rfl⟩ := hread
      exact Resource.isKeyed_parts hparts (fun _ _ => Resource.isKeyed_of_readWithin) unknown
  | _ => cases hread

/-! ## Trees of which a client is built -/

namespace Resource

theorem Sub.at {r s : Resource} {way : List String} (h : r.Sub way s) (place : String) : ∃ p, r.At place s p := by
  induction h generalizing place with
  | here r => exact ⟨place, .here r place⟩
  | @inside r child s name way hmem _ ih =>
      obtain ⟨p, hp⟩ := ih (place ++ "." ++ name)
      exact ⟨p, .inside hmem hp⟩

/-- Where nothing is amiss with a tree, no method has the name of a resource beside it. -/
theorem isClear_of_defects {place : String} {r : Resource} (hkeyed : r.IsKeyed) (h : r.defects place = []) :
    r.IsClear := by
  intro way s hs
  obtain ⟨p, hat⟩ := hs.at place
  rw [keys_members, List.nodup_append]
  refine ⟨hkeyed way s hs, s.methods.distinct, ?_⟩
  rintro name hname _ hmethod rfl
  obtain ⟨⟨_, m⟩, hm, rfl⟩ := List.mem_map.1 hmethod
  exact defects_ne_nil.2 ⟨s, p, _, m, hat, hm, .inl hname⟩ h

end Resource

/-! ## The listing of a client -/

namespace Resource

variable {t : Resource}

theorem IsDenotable.of_mem_listing (h : t.IsDenotable) {e : List String × Method} (he : e ∈ t.listing) :
    e.1 ≠ [] ∧ ∀ name ∈ e.1, name ≠ "" ∧ '.' ∉ name.toList := by
  have hholds := mem_listing.1 he
  refine ⟨hholds.ne_nil, fun name hname => ?_⟩
  obtain ⟨pre, s, hs, hchild⟩ := hholds.hasChild hname
  exact h pre s hs name hchild

theorem IsDenotable.namesOf_path (h : t.IsDenotable) {e : List String × Method} (he : e ∈ t.listing) :
    namesOf (".".intercalate e.1) = e.1 := by
  obtain ⟨hne, hall⟩ := h.of_mem_listing he
  exact namesOf_intercalate hne fun name hname => (hall name hname).2

theorem IsDenotable.methodsBelow_eq (h : t.IsDenotable) : Member.methodsBelow "" t.members =
    t.listing.map fun e => (".".intercalate e.1, e.1.getLastD "", e.2) := by
  rw [Member.methodsBelow_members]
  refine List.map_congr_left fun e he => ?_
  rw [Member.foldl_dotted_empty fun name hname => ((h.of_mem_listing he).2 name hname).1]

/-- What is listed with a path is what its names lead to. -/
theorem IsDenotable.mem_methodsBelow (h : t.IsDenotable) {path name : String} {m : Method} :
    (path, name, m) ∈ Member.methodsBelow "" t.members ↔
      t.Holds (namesOf path) m ∧ name = (namesOf path).getLastD "" := by
  rw [h.methodsBelow_eq, List.mem_map]
  constructor
  · rintro ⟨⟨way, m'⟩, he, heq⟩
    cases heq
    rw [h.namesOf_path he]
    exact ⟨mem_listing.1 he, rfl⟩
  · rintro ⟨hholds, rfl⟩
    exact ⟨(namesOf path, m), mem_listing.2 hholds, by rw [intercalate_namesOf]⟩

/-- Joining names with dots keeps different ways apart. -/
theorem IsDenotable.nodup_paths (h : t.IsDenotable) (hkeyed : t.IsKeyed) :
    ((Member.methodsBelow "" t.members).map (·.1)).Nodup := by
  have hpaths : (Member.methodsBelow "" t.members).map (·.1) = (t.listing.map (·.1)).map (".".intercalate ·) := by
    rw [h.methodsBelow_eq, List.map_map, List.map_map]
    rfl
  rw [hpaths]
  refine List.Nodup.map_on ?_ (nodup_ways hkeyed)
  rintro _ hx _ hy heq
  obtain ⟨e, he, rfl⟩ := List.mem_map.1 hx
  obtain ⟨e', he', rfl⟩ := List.mem_map.1 hy
  rw [← h.namesOf_path he, heq, h.namesOf_path he']

end Resource

theorem Client.sortedPaths_pairwise {ms : List (String × String × Method)} (h : (ms.map (·.1)).Nodup) :
    (Client.sortedPaths ms).Pairwise (· < ·) := by
  have hsorted : (Client.sortedPaths ms).Pairwise (· ≤ ·) := pairwise_sortedBy (α := String) id _
  have hnodup : (Client.sortedPaths ms).Nodup := (List.mergeSort_perm _ _).nodup_iff.2 h
  exact (hsorted.and hnodup).imp lt_of_le_and_ne

/-! ## Main statement -/

/-- How the methods of a tree are found in a client. -/
structure Client.Navigable (t : Resource) (c : Client) : Prop where
  /-- The listing goes through the tree in its order, at each level through the resources first. -/
  listed : c.methods = t.listing.map fun e => (".".intercalate e.1, e.1.getLastD "", e.2)
  complete : ∀ way m, (way, m) ∈ t.listing ↔ t.Holds way m
  distinct : (c.methods.map (·.1)).Nodup
  /-- Item by item, the names of a path lead to a method exactly if the method is listed with that path. -/
  reached : ∀ path way name m, c.follow ((namesOf path).map .item) = .ok (.member way (.method name m)) ↔
    way = namesOf path ∧ (path, name, m) ∈ c.methods
  /-- A listed method is what the document has at its place. -/
  entry : ∀ path name m, (path, name, m) ∈ c.methods → t.Holds (namesOf path) m
  /-- Wherever accesses lead, a node opens the resource that stands there. -/
  nodes : ∀ accesses p n, c.follow accesses = .ok p → p.node? c = some n → ∃ s, t.Sub n.way s ∧ n.Opens s
  sorted : (Client.sortedPaths c.methods).Perm (c.methods.map (·.1)) ∧
    (Client.sortedPaths c.methods).Pairwise (· < ·)

/-- Where a client is built of a document whose names are not empty and have no dots, its listing has each method of
the document once, with paths that are all different, in the order of the document. Following such a path item by
item comes to that very method, and no other path comes to one. At every node on any way, attributes and items agree
on the members of the resource that stands there; what no member has the name of is an error. -/
theorem Client.methods_navigable {d : Document} {o : Options} {c : Client} (hkeyed : d.tree.IsKeyed)
    (hnames : d.tree.IsDenotable) (hc : Client.build d o = .ok c) : Client.Navigable d.tree c := by
  rw [Client.build_eq] at hc
  obtain ⟨hdefects, rfl⟩ := reporting_eq_ok.1 hc
  have hclear : d.tree.IsClear := Resource.isClear_of_defects hkeyed hdefects
  have hmem : ∀ path name m, (path, name, m) ∈ Client.methods ⟨d, o, d.tree.members⟩ ↔
      d.tree.Holds (namesOf path) m ∧ name = (namesOf path).getLastD "" := fun _ _ _ => hnames.mem_methodsBelow
  have hdistinct : ((Client.methods ⟨d, o, d.tree.members⟩).map (·.1)).Nodup := hnames.nodup_paths hkeyed
  refine ⟨hnames.methodsBelow_eq, fun _ _ => Resource.mem_listing, hdistinct, ?reached, ?entry, ?nodes, ?sorted⟩
  case reached =>
    intro path way name m
    rw [Client.follow, Place.items_eq_ok (c := ⟨d, o, d.tree.members⟩) (p := .client) hclear rfl rfl, hmem]
    constructor
    · rintro ⟨hholds, rfl, hname⟩
      exact ⟨List.nil_append _, hholds, hname⟩
    · rintro ⟨rfl, hholds, hname⟩
      exact ⟨hholds, (List.nil_append _).symm, hname⟩
  case entry =>
    intro path name m h
    exact ((hmem path name m).1 h).1
  case nodes =>
    intro accesses p n hp hn
    have hroot : Place.StandsIn ⟨d, o, d.tree.members⟩ d.tree .client := by
      intro n hn
      cases hn
      exact ⟨d.tree, .here _, rfl⟩
    obtain ⟨s, hs, hmembers⟩ := Place.standsIn_follow hroot hp n hn
    exact ⟨s, hs, Branch.opens_of_members hmembers (hclear n.way s hs)⟩
  case sorted => exact ⟨List.mergeSort_perm _ _, Client.sortedPaths_pairwise hdistinct⟩

/-- Two reserved words, one of them beside a resource that is spelled as it is with an underscore behind it. -/
def importsDocument : Document :=
  { notesDocument with
    tree := .mk (Table.ofList [("import", updateNote)])
      [("class", .mk (Table.ofList [("get", updateNote)]) [] ∅),
        ("import_", .mk (Table.ofList [("start", updateNote)]) [] ∅)] ∅ }

/-- With an underscore behind it, the word alone leads to its resource, and the other one to the resource beside
it. -/
theorem Client.methods_navigable_imports : importsDocument.tree.IsKeyed ∧ importsDocument.tree.IsDenotable ∧
    ∃ c, Client.build importsDocument {} = .ok c ∧ Client.Navigable importsDocument.tree c ∧
      c.methods.map (·.1) = ["class.get", "import_.start", "import"] ∧
      c.follow [.attr "class_"] = c.follow [.item "class"] ∧
      c.follow [.attr "import_"] = c.follow [.item "import_"] := by
  have hkeyed : importsDocument.tree.IsKeyed := by
    refine Resource.forall_sub.2 ⟨by decide, fun e he => ?_⟩
    rcases List.mem_cons.1 he with rfl | he
    · exact Resource.forall_sub.2 ⟨List.nodup_nil, nofun⟩
    · rw [List.mem_singleton.1 he]
      exact Resource.forall_sub.2 ⟨List.nodup_nil, nofun⟩
  have hlevel : ∀ s : Resource, (∀ name ∈ s.names ++ s.methods.keys, name ≠ "" ∧ '.' ∉ name.toList) →
      ∀ name, s.HasChild name → name ≠ "" ∧ '.' ∉ name.toList := fun s h name hchild =>
    h name (List.mem_append.2 hchild)
  have hnames : importsDocument.tree.IsDenotable := by
    refine Resource.forall_sub.2 ⟨hlevel _ (by decide), fun e he => ?_⟩
    rcases List.mem_cons.1 he with rfl | he
    · exact Resource.forall_sub.2 ⟨hlevel _ (by decide), nofun⟩
    · rw [List.mem_singleton.1 he]
      exact Resource.forall_sub.2 ⟨hlevel _ (by decide), nofun⟩
  have hbuild : Client.build importsDocument {} = .ok ⟨importsDocument, {}, importsDocument.tree.members⟩ := rfl
  have hnavigable := Client.methods_navigable hkeyed hnames hbuild
  obtain ⟨s, hs, hopens⟩ := hnavigable.nodes [] .client _ rfl rfl
  cases hs
  refine ⟨hkeyed, hnames, _, hbuild, hnavigable, by decide +kernel, ?_, ?_⟩
  · have hfree : "class_" ∉ importsDocument.tree.names ++ importsDocument.tree.methods.keys := by decide
    have hclass := hopens.reserved "class" (by decide) (.inl (by decide)) fun h => hfree (List.mem_append.2 h)
    exact congrArg (· >>= pure) hclass
  · obtain ⟨m, -, -, himport⟩ := hopens.child "import_" (.inl (by decide)) (by decide +kernel)
    exact congrArg (· >>= pure) himport

end ApiDiscovery
