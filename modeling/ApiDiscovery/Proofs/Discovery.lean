import ApiDiscovery.Proofs.Layering
import ApiDiscovery.Proofs.Lookup
import ApiDiscovery.Proofs.Sorted

/-!
# What a factory has discovered

A factory is used for a while: the directory of the service is fetched, and clients are made in all the ways there
are (`Factory.Operation`). Meanwhile files change, and the network answers or does not. What a single operation can do
to the factory is little (`Operation.perform_cases`):

    the directory is fetched        its rows are remembered, the last one of each name
    a bundled document is asked for  the bundle may have read it
    anything else, or a failure     nothing

So what is remembered of a name comes from the last directory that had the name, whatever else was done
(`get?_discovered_run`), and the options of the factory stay as they are.

The names of the factory are told by its bundle and by what it remembers. They are the names that make clients: those
of bundled documents at once, even if they were discovered as well, and all others through the service.

Main statement: `Factory.run_discovered`.
-/

namespace ApiDiscovery

open Http

namespace Factory

/-! ## Remembering -/

/-- The last row with a name. -/
def lastNamed (name : String) (rows : List Listing) : Option Listing := rows.reverse.find? fun r => r.name == name

theorem lastNamed_cons (name : String) (r : Listing) (rows : List Listing) :
    lastNamed name (r :: rows) = (lastNamed name rows).or (if r.name = name then some r else none) := by
  rw [lastNamed, List.reverse_cons, List.find?_append, lastNamed, List.find?_singleton]
  simp only [beq_iff_eq]

theorem get?_remember (f : Factory) (rows : List Listing) (name : String) :
    (f.remember rows).discovered.get? name = (lastNamed name rows).or (f.discovered.get? name) := by
  rw [remember]
  dsimp only
  generalize f.discovered = t
  induction rows generalizing t with
  | nil => rfl
  | cons r rows ih =>
      show ((t.set r.name r).setAll (rows.map fun r => (r.name, r))).get? name = _
      rw [ih, Table.get?_set, lastNamed_cons, Option.or_assoc]
      split <;> rfl

/-! ## Operations -/

/-- What is asked of a factory, with the files as they are at that time. -/
inductive Operation where
  | discover (preferredOnly : Bool)
  | create (fs : Files) (name version : String) (c : Choices)
  | createForAll (fs : Files) (name version : String) (c : Choices)
  | load (name version : String) (c : Choices)
  | loadForAll (name version : String) (c : Choices)
  | loadFrom (fs : Files) (place : String) (c : Choices)
  | fromDocument (d : Document) (c : Choices)
  | fromData (v : Value) (c : Choices)
  | access (fs : Files) (name : String)
  | make (fs : Files) (name : String) (version : Option String) (c : Choices)

namespace Operation

/-- The factory and the network after an operation. -/
def perform : Operation → Factory × Network → Factory × Network
  | discover preferredOnly, (f, n) => (f.discover preferredOnly n).2
  | create fs name version c, (f, n) => ((f.create fs name version c).2, n)
  | createForAll fs name version c, (f, n) => ((f.createForAll fs name version c).2, n)
  | load name version c, (f, n) => (f, (f.load name version c n).2)
  | loadForAll name version c, (f, n) => (f, (f.loadForAll name version c n).2)
  | loadFrom fs place c, (f, n) => (f, (f.loadFrom fs place c n).2)
  | make fs name version c, (f, n) => (f.make fs name version c n).2
  | _, s => s

/-- The rows that the service answers with, if an operation fetches the directory and that succeeds. -/
def answered : Operation → Factory × Network → Option (List Listing)
  | discover preferredOnly, (f, n) => (f.remote.list preferredOnly n).1.toOption
  | _, _ => none

end Operation

theorem discover_fst (f : Factory) (preferredOnly : Bool) (n : Network) :
    (f.discover preferredOnly n).1 = (f.remote.list preferredOnly n).1 := by
  rw [discover]
  split
  next h => rw [h]
  next h => rw [h]

/-- A factory in which nothing but its bundle has changed, by a document that was asked for. -/
def HasAsked (f g : Factory) : Prop :=
  ∃ b fs name version, f.bundle = some b ∧ g = { f with bundle := some (b.get fs name version).2 }

theorem create_cases (f : Factory) (fs : Files) (name version : String) (c : Choices) :
    (f.create fs name version c).2 = f ∨ f.HasAsked (f.create fs name version c).2 := by
  rw [create]
  split
  · exact .inl rfl
  · exact .inl rfl
  next b _ hb => exact .inr ⟨b, fs, name, version, hb, rfl⟩

theorem createForAll_cases (f : Factory) (fs : Files) (name version : String) (c : Choices) :
    (f.createForAll fs name version c).2 = f ∨ f.HasAsked (f.createForAll fs name version c).2 := by
  rw [createForAll]
  split
  · exact .inl rfl
  · exact f.create_cases fs name version c

theorem make_cases (f : Factory) (fs : Files) (name : String) (version : Option String) (c : Choices) (n : Network) :
    (f.make fs name version c n).2.1 = f ∨ f.HasAsked (f.make fs name version c n).2.1 := by
  rw [make]
  split
  · exact .inl rfl
  · exact .inl rfl
  · dsimp only
    split
    · exact .inl rfl
    · exact .inl rfl
    next v _ => exact f.create_cases fs name v c
  · split <;> exact .inl rfl

/-- All that an operation can do to a factory. -/
theorem Operation.perform_cases (op : Operation) (s : Factory × Network) :
    (∃ rows, op.answered s = some rows ∧ (op.perform s).1 = s.1.remember rows) ∨
      op.answered s = none ∧ ((op.perform s).1 = s.1 ∨ s.1.HasAsked (op.perform s).1) := by
  obtain ⟨f, n⟩ := s
  cases op with
  | discover preferredOnly =>
      rw [answered, perform, Factory.discover]
      cases hlist : f.remote.list preferredOnly n with
      | mk answer n =>
          cases answer with
          | ok rows => exact .inl ⟨rows, rfl, rfl⟩
          | error e => exact .inr ⟨rfl, .inl rfl⟩
  | create fs name version c => exact .inr ⟨rfl, f.create_cases fs name version c⟩
  | createForAll fs name version c => exact .inr ⟨rfl, f.createForAll_cases fs name version c⟩
  | make fs name version c => exact .inr ⟨rfl, f.make_cases fs name version c n⟩
  | _ => exact .inr ⟨rfl, .inl rfl⟩

/-- What a factory is set up with, which no operation changes. -/
structure SameSetup (f g : Factory) : Prop where
  options : g.options = f.options
  remote : g.remote = f.remote
  shared : g.shared = f.shared
  directory : g.bundle.map (·.directory) = f.bundle.map (·.directory)

theorem HasAsked.discovered_eq {f g : Factory} (h : f.HasAsked g) : g.discovered = f.discovered := by
  obtain ⟨_, _, _, _, _, rfl⟩ := h
  rfl

theorem HasAsked.sameSetup {f g : Factory} (h : f.HasAsked g) : f.SameSetup g := by
  obtain ⟨b, fs, name, version, hb, rfl⟩ := h
  have hdirectory : (b.get fs name version).2.directory = b.directory := by
    rcases b.get_cases fs name version with ⟨d, -, hget⟩ | ⟨p, d, -, -, hget⟩ | ⟨e, hget⟩ <;> rw [hget]
  exact ⟨rfl, rfl, rfl, by rw [hb, Option.map_some, Option.map_some, hdirectory]⟩

namespace Operation

variable (op : Operation) (s : Factory × Network)

theorem perform_sameSetup : s.1.SameSetup (op.perform s).1 := by
  rcases op.perform_cases s with ⟨rows, -, h⟩ | ⟨-, h | h⟩
  · rw [h]
    exact ⟨rfl, rfl, rfl, rfl⟩
  · rw [h]
    exact ⟨rfl, rfl, rfl, rfl⟩
  · exact h.sameSetup

/-- Only a directory that was fetched changes what is remembered. -/
theorem perform_discovered (h : op.answered s = none) : (op.perform s).1.discovered = s.1.discovered := by
  rcases op.perform_cases s with ⟨rows, hrows, -⟩ | ⟨-, h | h⟩
  · cases h.symm.trans hrows
  · rw [h]
  · exact h.discovered_eq

theorem get?_perform (name : String) :
    (op.perform s).1.discovered.get? name =
      ((op.answered s).bind (lastNamed name)).or (s.1.discovered.get? name) := by
  cases hrows : op.answered s with
  | none =>
      rw [op.perform_discovered s hrows]
      rfl
  | some rows =>
      rcases op.perform_cases s with ⟨rows', hrows', h⟩ | ⟨hnone, -⟩
      · cases hrows.symm.trans hrows'
        rw [h]
        exact get?_remember s.1 rows name
      · cases hrows.symm.trans hnone

end Operation

/-! ## Runs -/

/-- The factory and the network after some operations. -/
def run (s : Factory × Network) (ops : List Operation) : Factory × Network := ops.foldl (fun s op => op.perform s) s

/-- The directories that operations fetch, the last one first. -/
def directories (s : Factory × Network) : List Operation → List (List Listing)
  | [] => []
  | op :: ops => directories (op.perform s) ops ++ (op.answered s).toList

theorem run_sameSetup (s : Factory × Network) (ops : List Operation) : s.1.SameSetup (run s ops).1 := by
  induction ops generalizing s with
  | nil => exact ⟨rfl, rfl, rfl, rfl⟩
  | cons op ops ih =>
      have hstep := op.perform_sameSetup s
      have hrest := ih (op.perform s)
      exact ⟨hrest.options.trans hstep.options, hrest.remote.trans hstep.remote, hrest.shared.trans hstep.shared,
        hrest.directory.trans hstep.directory⟩

/-- What is remembered of a name is what the last directory with the name had last of it. -/
theorem get?_discovered_run (s : Factory × Network) (ops : List Operation) (name : String) :
    (run s ops).1.discovered.get? name =
      ((directories s ops).findSome? (lastNamed name)).or (s.1.discovered.get? name) := by
  induction ops generalizing s with
  | nil => rfl
  | cons op ops ih =>
      show (run (op.perform s) ops).1.discovered.get? name = _
      rw [ih, op.get?_perform, directories, List.findSome?_append, Option.or_assoc]
      cases op.answered s <;> simp

/-! ## Names -/

/-- An API has documents in the bundle of a factory. -/
def Bundles (f : Factory) (fs : Files) (name : String) : Prop :=
  ∃ b, f.bundle = some b ∧ b.hasApi fs name none = .ok true

/-- A name that a factory does not take for itself. -/
def IsFree (name : String) : Prop := name.startsWith "_" = false ∧ name ∉ ownAttributes

/-- What the names of a factory are, and what each of them makes clients with. -/
structure Knows (f : Factory) (fs : Files) (names : List String) : Prop where
  ordered : names.Pairwise (· < ·)
  known : ∀ name, name ∈ names ↔ f.Bundles fs name ∨ ∃ row, f.discovered.get? name = some row
  making : ∀ name, IsFree name → ((∃ m, f.maker fs name = .ok m) ↔ name ∈ names)
  bundled : ∀ name, IsFree name → f.Bundles fs name → f.maker fs name = .ok .bundled
  remote : ∀ name row, IsFree name → ¬ f.Bundles fs name → f.discovered.get? name = some row →
    f.maker fs name = .ok (.remote row)

section

variable {f : Factory} {fs : Files} {bundled : List String}

theorem bundledNames_error {e : Error} :
    f.bundledNames fs = .error e ↔ ∃ b fault, f.bundle = some b ∧ b.available fs = .error fault ∧ e = .file fault := by
  rw [bundledNames]
  cases f.bundle with
  | none => simp
  | some b => cases hlisted : b.available fs <;> simp [hlisted, eq_comm]

theorem bundles_iff {b : Bundle} {pairs : List (String × String)} (hb : f.bundle = some b)
    (hlisted : b.available fs = .ok pairs) (name : String) :
    f.Bundles fs name ↔ ∃ version, (name, version) ∈ pairs := by
  have hhas : b.hasApi fs name none = .ok (pairs.any fun p => p.1 == name) := by
    rw [Bundle.hasApi, hlisted]
    rfl
  have hany : (pairs.any fun p => p.1 == name) = true ↔ ∃ version, (name, version) ∈ pairs := by
    rw [List.any_eq_true]
    constructor
    · rintro ⟨⟨name', version⟩, hmem, hname⟩
      exact ⟨version, beq_iff_eq.1 hname ▸ hmem⟩
    · rintro ⟨version, hmem⟩
      exact ⟨(name, version), hmem, BEq.rfl⟩
  rw [← hany]
  constructor
  · rintro ⟨b', hb', h⟩
    cases hb.symm.trans hb'
    exact Except.ok.inj (hhas.symm.trans h)
  · intro h
    exact ⟨b, hb, hhas.trans (congrArg Except.ok h)⟩

theorem mem_bundledNames (h : f.bundledNames fs = .ok bundled) (name : String) :
    name ∈ bundled ↔ f.Bundles fs name := by
  rw [bundledNames] at h
  cases hb : f.bundle with
  | none =>
      rw [hb] at h
      cases h
      simp [Bundles, hb]
  | some b =>
      rw [hb] at h
      dsimp only at h
      cases hlisted : b.available fs with
      | error fault =>
          rw [hlisted] at h
          cases h
      | ok pairs =>
          rw [hlisted] at h
          cases h
          rw [bundles_iff hb hlisted]
          simp

theorem apis_eq (f : Factory) (fs : Files) :
    f.apis fs = (f.bundledNames fs).map fun bundled =>
      ((f.discovered.keys ++ bundled).mergeSort fun a b => a ≤ b).eraseReps := by
  rw [apis]
  cases f.bundledNames fs <;> rfl

/-- A name that a factory does not have itself makes a client as what it is bundled or discovered. -/
theorem maker_eq {name : String} (hname : IsFree name) :
    f.maker fs name = f.bundledNames fs >>= fun bundled =>
      if name ∈ bundled then .ok .bundled
      else (f.discovered.get? name).elim (.error (.member (.noApi name))) fun row => .ok (.remote row) := by
  rw [maker, if_neg (mt List.contains_iff_mem.1 hname.2), hname.1, if_neg Bool.false_ne_true]
  refine congrArg _ (funext fun bundled => ?_)
  by_cases hmem : name ∈ bundled
  · rw [if_pos (List.contains_iff_mem.2 hmem), if_pos hmem]
    rfl
  · rw [if_neg (mt List.contains_iff_mem.1 hmem), if_neg hmem]
    cases f.discovered.get? name <;> rfl

theorem knows_apis {names : List String} (h : f.apis fs = .ok names) : f.Knows fs names := by
  rw [apis_eq] at h
  cases hbundled : f.bundledNames fs with
  | error e =>
      rw [hbundled] at h
      cases h
  | ok bundled =>
      rw [hbundled] at h
      cases h
      have hmem := mem_bundledNames hbundled
      have hknown (name : String) : name ∈ ((f.discovered.keys ++ bundled).mergeSort fun a b => a ≤ b).eraseReps ↔
          f.Bundles fs name ∨ ∃ row, f.discovered.get? name = some row := by
        rw [mem_inOrder, List.mem_append, ← Table.contains_iff, Table.contains, Option.isSome_iff_exists, hmem,
          or_comm]
      refine ⟨pairwise_textsInOrder _, hknown, fun name hname => ?_, fun name hname hin => ?_,
        fun name row hname hnot hrow => ?_⟩
      · rw [hknown, ← hmem, maker_eq hname, hbundled, ok_bind]
        by_cases hin : name ∈ bundled
        · simp [hin]
        · cases f.discovered.get? name <;> simp [hin]
      · rw [maker_eq hname, hbundled, ok_bind, if_pos ((hmem name).2 hin)]
      · rw [maker_eq hname, hbundled, ok_bind, if_neg (mt (hmem name).1 hnot), hrow]
        rfl

/-- A bundled name makes a client at once, as asking for the bundled document does. -/
theorem make_bundled {name : String} (h : f.maker fs name = .ok .bundled) {c : Choices}
    (hc : ∀ taken ∈ ["version", "options"], taken ∉ c.settings.map (·.1)) (version : String) (n : Network) :
    f.make fs name (some version) c n =
      ((f.create fs name version c).1, (f.create fs name version c).2, n) := by
  rw [make, h]
  dsimp only
  rw [Choices.check_eq_ok hc]

/-- Any other name makes a client through the service, of the version that was discovered if none is given. -/
theorem make_remote {name : String} {row : Listing} (h : f.maker fs name = .ok (.remote row)) {c : Choices}
    (hc : ∀ taken ∈ ["version", "options"], taken ∉ c.settings.map (·.1)) (version : Option String) (n : Network) :
    f.make fs name version c n =
      ((f.load name ((present version).getD row.version) c n).1, f,
        (f.load name ((present version).getD row.version) c n).2) := by
  rw [make, h]
  dsimp only
  rw [Choices.check_eq_ok hc]

end

/-- A new factory after any operations on it, in whatever way they end: what is remembered of a name is the last row of
the name in the last directory that had one, and no operation but one that fetches a directory changes it. What such
an operation gives is what the service lists. The options are those that the factory was made with. The names of the
factory are those that are bundled and those that are remembered, in order and each once, and they are the names that
make clients (`Knows`); where its bundle cannot be listed, both fail in the same way. A bundled name is as good as
asking for the bundled document, without the network, and any other is as good as asking the service, for the version
that is remembered if none is given. -/
theorem run_discovered {f g : Factory} {n m : Network} {ops : List Operation} (hnew : f.discovered = ∅)
    (hrun : run (f, n) ops = (g, m)) :
    (∀ name, g.discovered.get? name = (directories (f, n) ops).findSome? (lastNamed name)) ∧
    (∀ op : Operation, op.answered (g, m) = none → (op.perform (g, m)).1.discovered = g.discovered) ∧
    (∀ preferredOnly n', (g.discover preferredOnly n').1 = (f.remote.list preferredOnly n').1) ∧
    g.options = f.options ∧
    ∀ fs, (∀ names, g.apis fs = .ok names → g.Knows fs names) ∧
      (∀ e, g.apis fs = .error e →
        (∃ b fault, g.bundle = some b ∧ b.available fs = .error fault ∧ e = .file fault) ∧
          ∀ name, IsFree name → g.maker fs name = .error e) ∧
      ∀ name c, (∀ taken ∈ ["version", "options"], taken ∉ c.settings.map (·.1)) →
        (g.maker fs name = .ok .bundled → ∀ version n', g.make fs name (some version) c n' =
          ((g.create fs name version c).1, (g.create fs name version c).2, n')) ∧
        ∀ row, g.maker fs name = .ok (.remote row) → ∀ version n', g.make fs name version c n' =
          ((g.load name ((present version).getD row.version) c n').1, g,
            (g.load name ((present version).getD row.version) c n').2) := by
  have hreached : (run (f, n) ops).1 = g := by rw [hrun]
  have hsetup : f.SameSetup g := hreached ▸ run_sameSetup (f, n) ops
  refine ⟨fun name => ?_, fun op h => op.perform_discovered _ h, fun preferredOnly n' => ?_, hsetup.options,
    fun fs => ⟨fun names h => knows_apis h, fun e h => ?_, fun name c hc =>
      ⟨fun h version n' => make_bundled h hc version n', fun row h version n' => make_remote h hc version n'⟩⟩⟩
  · have hnone : f.discovered.get? name = none := by
      rw [hnew]
      rfl
    rw [← hreached, get?_discovered_run, hnone, Option.or_none]
  · rw [discover_fst, hsetup.remote]
  · rw [apis_eq] at h
    cases hbundled : g.bundledNames fs with
    | ok bundled =>
        rw [hbundled] at h
        cases h
    | error e' =>
        rw [hbundled] at h
        cases h
        refine ⟨bundledNames_error.1 hbundled, fun name hname => ?_⟩
        rw [maker_eq hname, hbundled]
        rfl

/-- Files with one document. -/
def notesFiles : Files := { here := .dir [("apis", .dir [("notes", .dir [("v1.json", .file [])])])] }

def notesFactory : Factory where
  options := {}
  bundle := some { directory := Path.ofText "apis" }
  remote := Remote.ofUrl "https://discovery.example/"

/-- A directory with an API that is bundled, and two versions of one that is not. -/
def plusDirectory : Response :=
  { status := 200
    headers := []
    body := Text.Utf8.encode ("\x7b\"items\": [\x7b\"name\": \"notes\", \"version\": \"v9\"\x7d, " ++
      "\x7b\"name\": \"plus\", \"version\": \"v1\"\x7d, \x7b\"name\": \"plus\", \"version\": \"v2\"\x7d]\x7d").toList }

/-- The directory is fetched, and then cannot be fetched again. Both names are known; one is bundled, although it was
discovered as well, and the other is served, in the version that came last. -/
theorem run_discovered_plus :
    let n := Network.ofList [.response plusDirectory, .response (.bare 500)]
    let ops : List Operation := [.discover false, .discover true]
    ∃ g m names, notesFactory.discovered = ∅ ∧ run (notesFactory, n) ops = (g, m) ∧ g.apis notesFiles = .ok names ∧
      "notes" ∈ names ∧ "plus" ∈ names ∧ g.maker notesFiles "notes" = .ok .bundled ∧
        ∃ row, g.maker notesFiles "plus" = .ok (.remote row) ∧ row.version = "v2" ∧
          ∀ n', (g.make notesFiles "plus" none {} n').1 = (g.load "plus" "v2" {} n').1 := by
  intro n ops
  obtain ⟨row, hrow, hversion⟩ : ∃ row, (directories (notesFactory, n) ops).findSome? (lastNamed "plus") = some row ∧
      row.version = "v2" := Option.map_eq_some_iff.1 (by decide +kernel)
  have hsetup := run_sameSetup (notesFactory, n) ops
  have hrun : run (notesFactory, n) ops = ((run (notesFactory, n) ops).1, (run (notesFactory, n) ops).2) :=
    Prod.mk.eta.symm
  generalize (run (notesFactory, n) ops).1 = g at *
  generalize (run (notesFactory, n) ops).2 = m at *
  obtain ⟨hremembered, -, -, -, hnames⟩ := run_discovered rfl hrun
  obtain ⟨hknown, hfail, hmade⟩ := hnames notesFiles
  have hlisted (b : Bundle) (hb : g.bundle = some b) : b.available notesFiles = .ok [("notes", "v1")] := by
    have hsame := hsetup.directory
    rw [hb] at hsame
    have hdirectory : b.directory = Path.ofText "apis" := Option.some.inj hsame
    rw [Bundle.available, hdirectory]
    decide +kernel
  have hbundles (name : String) : g.Bundles notesFiles name ↔ name = "notes" := by
    obtain ⟨b, hb, -⟩ := Option.map_eq_some_iff.1 hsetup.directory
    rw [bundles_iff hb (hlisted b hb)]
    simp
  cases hapis : g.apis notesFiles with
  | error e =>
      obtain ⟨⟨b, fault, hb, hfault, -⟩, -⟩ := hfail e hapis
      cases (hlisted b hb).symm.trans hfault
  | ok names =>
      have h := hknown names hapis
      have hremote := (hremembered "plus").trans hrow
      have hnotes := h.bundled "notes" ⟨by decide +kernel, by decide +kernel⟩ ((hbundles _).2 rfl)
      have hplus := h.remote "plus" row ⟨by decide +kernel, by decide +kernel⟩ (mt (hbundles _).1 (by decide)) hremote
      refine ⟨g, m, names, rfl, hrun, hapis, (h.known _).2 (.inl ((hbundles _).2 rfl)),
        (h.known _).2 (.inr ⟨row, hremote⟩), hnotes, row, hplus, hversion, fun n' => ?_⟩
      rw [(hmade "plus" {} (by simp)).2 row hplus none n', ← hversion]
      rfl

end Factory

end ApiDiscovery
