import ApiDiscovery.Proofs.Persistence

/-!
# Which settings are in force

A setting is what a variable of the environment says, else what the file says, else the default. All of the file is
checked, also what a variable hides; then the fields of the file, as they were checked, are laid under the texts of
the variables and checked once more. That second check changes nothing that came from the file, so each field is
one choice (`Settings.Layered`).

    the file is no settings                      refused for the file, whatever the variables say
    else a variable's text is not of its field   refused for the environment
    else                                         each field by its own variable, the file or the default

Whether TLS is verified is a field without a variable. An empty variable counts as none.

Main statement: `Environment.resolve_layers`.
-/

namespace ApiDiscovery

open Number Text Validation

open Options (FirstGiven firstGiven_or)

/-! ## One field -/

section Fields

variable {α : Type} {check : Value → Checked α} {default a b : α}

theorem firstGiven_unique {layers : List (Option Value)} (ha : FirstGiven check default a layers)
    (hb : FirstGiven check default b layers) : a = b := by
  induction layers with
  | nil => exact ha.trans hb.symm
  | cons layer rest ih =>
      cases layer with
      | none => exact ih ha hb
      | some v => exact Checked.ok.inj (ha.symm.trans hb)

/-- What the lower layers come to can be put in their place. -/
theorem firstGiven_over {layers : List (Option Value)} (h : FirstGiven check default b layers) (given : Option Value) :
    FirstGiven check b a [given] ↔ FirstGiven check default a (given :: layers) := by
  cases given with
  | some v => exact Iff.rfl
  | none =>
      constructor
      · rintro rfl
        exact h
      · intro ha
        exact firstGiven_unique ha h

/-- A field of a record is read from one layer. -/
theorem read_plain_iff (name : String) (es : List (Value × Value)) :
    (Field.plain name).read es default check = .ok a ↔ FirstGiven check default a [Value.entry? es name] := by
  rw [Field.read_plain]
  cases Value.entry? es name with
  | none => exact ⟨fun h => (Checked.ok.inj h).symm, fun h => congrArg Checked.ok (Eq.symm h)⟩
  | some v => exact Checked.within_eq_ok

/-- There is something to read unless what is given is refused. -/
theorem exists_firstGiven {given : Option Value} :
    (∃ a, FirstGiven check default a [given]) ↔ ∀ v, given = some v → ∃ a, check v = .ok a := by
  cases given with
  | none =>
      constructor
      · intro _ v hv
        cases hv
      · exact fun _ => ⟨default, rfl⟩
  | some v =>
      constructor
      · rintro h _ ⟨⟩
        exact h
      · exact fun h => h v rfl

end Fields

/-! ## Variables as fields -/

theorem lookupEntry_filterMap (f : α → Option β) {es : List (String × α)} (h : (es.map (·.1)).Nodup) (name : String) :
    lookupEntry name (es.filterMap fun e => (f e.2).map fun b => (e.1, b)) = (lookupEntry name es).bind f := by
  induction es with
  | nil => rfl
  | cons e rest ih =>
      rw [List.map_cons, List.nodup_cons] at h
      rw [List.filterMap_cons, lookupEntry]
      by_cases he : e.1 = name
      · have hrest : (lookupEntry name rest).bind f = none := by
          rw [lookupEntry_eq_none.2 (he ▸ h.1)]
          rfl
        rw [if_pos he]
        cases hf : f e.2 with
        | none => exact (ih h.2).trans (hrest.trans hf.symm)
        | some b =>
            show lookupEntry name ((e.1, b) :: _) = f e.2
            rw [lookupEntry, if_pos he, hf]
      · rw [if_neg he]
        cases hf : f e.2 with
        | none => exact ih h.2
        | some b =>
            show lookupEntry name ((e.1, b) :: _) = _
            rw [lookupEntry, if_neg he]
            exact ih h.2

namespace Environment

/-- What a variable says of a field. -/
def given? (e : Environment) (name : String) : Option Value :=
  ((lookupEntry name fieldVariables).bind e.value?).map .str

theorem lookupEntry_updates (e : Environment) (name : String) :
    (lookupEntry name e.updates).map Value.str = e.given? name :=
  congrArg (Option.map Value.str) (lookupEntry_filterMap e.value? (by decide) name)

theorem nodup_updates (e : Environment) : (e.updates.map (·.1)).Nodup := by
  have hsublist : (e.updates.map (·.1)).Sublist (fieldVariables.map (·.1)) := by
    rw [updates]
    generalize fieldVariables = vs
    induction vs with
    | nil => exact List.nil_sublist _
    | cons v rest ih =>
        rw [List.filterMap_cons]
        cases e.value? v.2 with
        | none => exact ih.cons _
        | some t => exact ih.cons_cons _
  exact hsublist.nodup (by decide)

end Environment

namespace Settings

/-! ## Settings from two layers -/

/-- Settings field by field: what is given for a field from above, else what the entries say of it, else its default. -/
structure Layered (above : String → Option Value) (es : List (Value × Value)) (s : Settings) : Prop where
  discoveryUrl : FirstGiven text defaultDiscoveryUrl s.discoveryUrl
    [above "discovery_url", Value.entry? es "discovery_url"]
  bundleDir : FirstGiven (optional text) none s.bundleDir [above "bundle_dir", Value.entry? es "bundle_dir"]
  timeout : FirstGiven jsonNumber Options.defaultTimeout s.timeout [above "timeout", Value.entry? es "timeout"]
  maxRetries : FirstGiven whole Options.defaultRetries s.maxRetries
    [above "max_retries", Value.entry? es "max_retries"]
  verifyTls : FirstGiven bool true s.verifyTls [Value.entry? es "verify_ssl"]

/-- Nothing is given from above. -/
def nothing : String → Option Value := fun _ => none

variable {es : List (Value × Value)} {s s' : Settings}

theorem readFields_eq_ok {timeout : Value → Checked Double} : readFields timeout es = .ok s ↔
    FirstGiven text defaultDiscoveryUrl s.discoveryUrl [Value.entry? es "discovery_url"] ∧
    FirstGiven (optional text) none s.bundleDir [Value.entry? es "bundle_dir"] ∧
    FirstGiven timeout Options.defaultTimeout s.timeout [Value.entry? es "timeout"] ∧
    FirstGiven whole Options.defaultRetries s.maxRetries [Value.entry? es "max_retries"] ∧
    FirstGiven bool true s.verifyTls [Value.entry? es "verify_ssl"] := by
  have hfield (name : String) (h : shape.field name = .plain name) {α : Type} {default a : α}
      {check : Value → Checked α} : (shape.field name).read es default check = .ok a ↔
        FirstGiven check default a [Value.entry? es name] := by
    rw [h]
    exact read_plain_iff name es
  simp only [readFields, Checked.seq_eq_ok, Checked.map_eq_ok, hfield "discovery_url" rfl, hfield "bundle_dir" rfl,
    hfield "timeout" rfl, hfield "max_retries" rfl, hfield "verify_ssl" rfl]
  constructor
  · rintro ⟨_, v, ⟨_, m, ⟨_, t, ⟨_, b, ⟨u, hu, rfl⟩, hb, rfl⟩, ht, rfl⟩, hm, rfl⟩, hv, rfl⟩
    exact ⟨hu, hb, ht, hm, hv⟩
  · rintro ⟨hu, hb, ht, hm, hv⟩
    exact ⟨_, _, ⟨_, _, ⟨_, _, ⟨_, _, ⟨_, hu, rfl⟩, hb, rfl⟩, ht, rfl⟩, hm, rfl⟩, hv, rfl⟩

theorem readJson_eq_ok : readJson (.map es) = .ok s ↔ Layered nothing es s := by
  refine readFields_eq_ok.trans ⟨?_, ?_⟩
  · rintro ⟨hu, hb, ht, hm, hv⟩
    exact ⟨hu, hb, ht, hm, hv⟩
  · rintro ⟨hu, hb, ht, hm, hv⟩
    exact ⟨hu, hb, ht, hm, hv⟩

/-- Fields are checked each by what stands under its name. -/
theorem ofValue?_eq_ok {fs : List (String × Value)} : ofValue? (.ofFields fs) = .ok s ↔
    FirstGiven text defaultDiscoveryUrl s.discoveryUrl [lookupEntry "discovery_url" fs] ∧
    FirstGiven (optional text) none s.bundleDir [lookupEntry "bundle_dir" fs] ∧
    FirstGiven number Options.defaultTimeout s.timeout [lookupEntry "timeout" fs] ∧
    FirstGiven whole Options.defaultRetries s.maxRetries [lookupEntry "max_retries" fs] ∧
    FirstGiven bool true s.verifyTls [lookupEntry "verify_ssl" fs] := by
  have hread : ofValue? (.ofFields fs) = .ok s ↔ readFields number (fieldEntries fs) = .ok s := Checked.toExcept_eq_ok
  rw [hread, readFields_eq_ok]
  simp only [entry?_fieldEntries]

/-- The second check leaves what was checked as it is. -/
theorem ofValue?_fields (s : Settings) : ofValue? (.ofFields s.fields) = .ok s :=
  ofValue?_eq_ok.2 ⟨rfl, Options.optional_text_ofText? s.bundleDir, rfl, rfl, rfl⟩

/-- Fields under the texts of variables. -/
theorem withVariables_eq (s : Settings) (e : Environment) : s.withVariables e =
    ofValue? (.ofFields (e.updates.foldl (fun es u => setEntry u.1 (.str u.2) es) s.fields)) := by
  rw [withVariables]
  split
  next hempty =>
    rw [List.isEmpty_iff.1 hempty]
    exact (ofValue?_fields s).symm
  next => rfl

/-- The number that a field is, or the text of a variable, is the same number in JSON. -/
theorem firstGiven_number {x : Option String} {y a : Double} {default : Double} :
    FirstGiven number default a [x.map .str, some (.float y)] ↔
      FirstGiven jsonNumber default a [x.map .str, some (.float y)] := by
  cases x <;> exact Iff.rfl

/-- What is in force under variables: each field by its own variable, or as it was. -/
theorem withVariables_eq_ok {e : Environment} :
    s.withVariables e = .ok s' ↔
      FirstGiven text s.discoveryUrl s'.discoveryUrl [e.given? "discovery_url"] ∧
      FirstGiven (optional text) s.bundleDir s'.bundleDir [e.given? "bundle_dir"] ∧
      FirstGiven jsonNumber s.timeout s'.timeout [e.given? "timeout"] ∧
      FirstGiven whole s.maxRetries s'.maxRetries [e.given? "max_retries"] ∧
      s'.verifyTls = s.verifyTls := by
  have hlookup (name : String) :
      lookupEntry name (e.updates.foldl (fun es u => setEntry u.1 (.str u.2) es) s.fields) =
        (e.given? name).or (lookupEntry name s.fields) := by
    rw [← e.lookupEntry_updates]
    exact lookupEntry_foldl_setEntry e.nodup_updates (fun _ t _ => Value.str t) s.fields name
  have hu : FirstGiven text defaultDiscoveryUrl s.discoveryUrl [some (.str s.discoveryUrl)] := rfl
  have hb : FirstGiven (optional text) none s.bundleDir [some (.ofText? s.bundleDir)] :=
    Options.optional_text_ofText? s.bundleDir
  have ht : FirstGiven jsonNumber Options.defaultTimeout s.timeout [some (.float s.timeout)] := rfl
  have hm : FirstGiven whole Options.defaultRetries s.maxRetries [some (.int s.maxRetries)] := rfl
  have hnumber : FirstGiven number Options.defaultTimeout s'.timeout [e.given? "timeout", some (.float s.timeout)] ↔
      FirstGiven jsonNumber Options.defaultTimeout s'.timeout [e.given? "timeout", some (.float s.timeout)] :=
    firstGiven_number
  rw [withVariables_eq, ofValue?_eq_ok]
  simp only [hlookup, firstGiven_or]
  rw [firstGiven_over hu, firstGiven_over hb, firstGiven_over ht, firstGiven_over hm, ← hnumber]
  refine and_congr Iff.rfl (and_congr Iff.rfl (and_congr Iff.rfl (and_congr Iff.rfl ?_)))
  exact ⟨fun h => (Checked.ok.inj h).symm, fun h => congrArg Checked.ok h.symm⟩

/-- Settings of the file under variables are each field by its own variable, the file or the default. -/
theorem layered_iff {e : Environment} (h : Layered nothing es s) :
    s.withVariables e = .ok s' ↔ Layered e.given? es s' := by
  -- What is given by nothing is no layer, so the file's own fields stand below the variables.
  have hu : FirstGiven text defaultDiscoveryUrl s.discoveryUrl [Value.entry? es "discovery_url"] := h.discoveryUrl
  have hb : FirstGiven (optional text) none s.bundleDir [Value.entry? es "bundle_dir"] := h.bundleDir
  have ht : FirstGiven jsonNumber Options.defaultTimeout s.timeout [Value.entry? es "timeout"] := h.timeout
  have hm : FirstGiven whole Options.defaultRetries s.maxRetries [Value.entry? es "max_retries"] := h.maxRetries
  rw [withVariables_eq_ok, firstGiven_over hu, firstGiven_over hb, firstGiven_over ht, firstGiven_over hm]
  constructor
  · rintro ⟨hu', hb', ht', hm', hv'⟩
    exact ⟨hu', hb', ht', hm', hv' ▸ h.verifyTls⟩
  · intro h'
    exact ⟨h'.discoveryUrl, h'.bundleDir, h'.timeout, h'.maxRetries, firstGiven_unique h'.verifyTls h.verifyTls⟩

/-- A field for which the same is given is the same. -/
theorem Layered.field_eq {above above' : String → Option Value} (h : Layered above es s) (h' : Layered above' es s')
    {name : String} (hsame : above' name = above name) : lookupEntry name s'.fields = lookupEntry name s.fields := by
  by_cases hu : name = "discovery_url"
  · subst hu
    exact congrArg (fun u => some (Value.str u)) (firstGiven_unique (hsame ▸ h'.discoveryUrl) h.discoveryUrl)
  by_cases hb : name = "bundle_dir"
  · subst hb
    exact congrArg (fun b => some (Value.ofText? b)) (firstGiven_unique (hsame ▸ h'.bundleDir) h.bundleDir)
  by_cases ht : name = "timeout"
  · subst ht
    exact congrArg (fun t => some (Value.float t)) (firstGiven_unique (hsame ▸ h'.timeout) h.timeout)
  by_cases hm : name = "max_retries"
  · subst hm
    exact congrArg (fun m => some (Value.int m)) (firstGiven_unique (hsame ▸ h'.maxRetries) h.maxRetries)
  by_cases hv : name = "verify_ssl"
  · subst hv
    exact congrArg (fun v => some (Value.bool v)) (firstGiven_unique h'.verifyTls h.verifyTls)
  have hother : ∀ s : Settings, lookupEntry name s.fields = none := by
    intro s
    have hnames : s.fields.map (·.1) = ["discovery_url", "bundle_dir", "timeout", "max_retries", "verify_ssl"] := rfl
    rw [lookupEntry_eq_none, hnames]
    simp [hu, hb, ht, hm, hv]
  rw [hother, hother]

/-- Where nothing is given all settings are the defaults. -/
theorem layered_nothing : Layered nothing [] {} := by
  have hdefault {α : Type} (check : Value → Checked α) {default a : α} (h : a = default) :
      FirstGiven check default a [none, none] := h
  have htimeout : ({} : Settings).timeout = Options.defaultTimeout := by dsimp only
  exact ⟨hdefault _ rfl, hdefault _ rfl, hdefault _ htimeout, hdefault _ rfl, rfl⟩

/-! ## What is refused -/

/-- A value is let through for the field of a name, if there is one. -/
structure Admits (name : String) (v : Value) : Prop where
  discoveryUrl : name = "discovery_url" → ∃ a, text v = .ok a
  bundleDir : name = "bundle_dir" → ∃ a, optional text v = .ok a
  timeout : name = "timeout" → ∃ a, jsonNumber v = .ok a
  maxRetries : name = "max_retries" → ∃ a, whole v = .ok a
  verifyTls : name = "verify_ssl" → ∃ a, bool v = .ok a

/-- All that is given is let through. -/
def AdmitsAll (given : String → Option Value) : Prop := ∀ name v, given name = some v → Admits name v

theorem admitsAll_iff {given : String → Option Value} : AdmitsAll given ↔
    (∀ v, given "discovery_url" = some v → ∃ a, text v = .ok a) ∧
    (∀ v, given "bundle_dir" = some v → ∃ a, optional text v = .ok a) ∧
    (∀ v, given "timeout" = some v → ∃ a, jsonNumber v = .ok a) ∧
    (∀ v, given "max_retries" = some v → ∃ a, whole v = .ok a) ∧
    ∀ v, given "verify_ssl" = some v → ∃ a, bool v = .ok a := by
  constructor
  · intro h
    exact ⟨fun v hv => (h _ v hv).discoveryUrl rfl, fun v hv => (h _ v hv).bundleDir rfl,
      fun v hv => (h _ v hv).timeout rfl, fun v hv => (h _ v hv).maxRetries rfl, fun v hv => (h _ v hv).verifyTls rfl⟩
  · rintro ⟨hu, hb, ht, hm, hv⟩ name v hgiven
    exact ⟨fun h => hu v (h ▸ hgiven), fun h => hb v (h ▸ hgiven), fun h => ht v (h ▸ hgiven),
      fun h => hm v (h ▸ hgiven), fun h => hv v (h ▸ hgiven)⟩

theorem exists_layered_iff : (∃ s, Layered nothing es s) ↔ AdmitsAll (Value.entry? es) := by
  rw [admitsAll_iff]
  constructor
  · rintro ⟨s, h⟩
    exact ⟨exists_firstGiven.1 ⟨_, h.discoveryUrl⟩, exists_firstGiven.1 ⟨_, h.bundleDir⟩,
      exists_firstGiven.1 ⟨_, h.timeout⟩, exists_firstGiven.1 ⟨_, h.maxRetries⟩, exists_firstGiven.1 ⟨_, h.verifyTls⟩⟩
  · rintro ⟨hu, hb, ht, hm, hv⟩
    obtain ⟨u, hu⟩ := exists_firstGiven.2 hu
    obtain ⟨b, hb⟩ := exists_firstGiven.2 hb
    obtain ⟨t, ht⟩ := exists_firstGiven.2 ht
    obtain ⟨m, hm⟩ := exists_firstGiven.2 hm
    obtain ⟨v, hv⟩ := exists_firstGiven.2 hv
    exact ⟨⟨u, b, t, m, v⟩, hu, hb, ht, hm, hv⟩

theorem exists_withVariables {e : Environment} : (∃ s', s.withVariables e = .ok s') ↔ AdmitsAll e.given? := by
  have hnone : e.given? "verify_ssl" = none := rfl
  simp only [withVariables_eq_ok, admitsAll_iff]
  constructor
  · rintro ⟨s', hu, hb, ht, hm, -⟩
    refine ⟨exists_firstGiven.1 ⟨_, hu⟩, exists_firstGiven.1 ⟨_, hb⟩, exists_firstGiven.1 ⟨_, ht⟩,
      exists_firstGiven.1 ⟨_, hm⟩, fun v hv => ?_⟩
    rw [hnone] at hv
    cases hv
  · rintro ⟨hu, hb, ht, hm, -⟩
    obtain ⟨u, hu⟩ := exists_firstGiven.2 hu
    obtain ⟨b, hb⟩ := exists_firstGiven.2 hb
    obtain ⟨t, ht⟩ := exists_firstGiven.2 ht
    obtain ⟨m, hm⟩ := exists_firstGiven.2 hm
    exact ⟨⟨u, b, t, m, s.verifyTls⟩, hu, hb, ht, hm, rfl⟩

/-! ## The file -/

/-- Bytes are the text of an object in JSON. -/
def Holds (parse : Parser) (bytes : List UInt8) (es : List (Value × Value)) : Prop := parse bytes = some (.map es)

/-- Bytes are valid settings: an object in JSON whose members are let through, each for its field. -/
def IsValid (parse : Parser) (bytes : List UInt8) : Prop := ∃ es, Holds parse bytes es ∧ AdmitsAll (Value.entry? es)

variable {parse : Parser} {bytes : List UInt8}

theorem ofBytes?_eq_ok : ofBytes? bytes parse = .ok s ↔ ∃ es, Holds parse bytes es ∧ Layered nothing es s := by
  rw [ofBytes?, Checked.toExcept_eq_ok]
  constructor
  · intro h
    split at h
    next v hv =>
      cases v with
      | map es => exact ⟨es, hv, readJson_eq_ok.1 h⟩
      | _ => cases h
    next => cases h
  · rintro ⟨es, hv, h⟩
    rw [Holds] at hv
    rw [hv]
    exact readJson_eq_ok.2 h

theorem exists_ofBytes? : (∃ s, ofBytes? bytes parse = .ok s) ↔ IsValid parse bytes := by
  simp only [ofBytes?_eq_ok, IsValid, ← exists_layered_iff]
  constructor
  · rintro ⟨s, es, hes, hs⟩
    exact ⟨es, hes, s, hs⟩
  · rintro ⟨es, hes, s, hs⟩
    exact ⟨s, es, hes, hs⟩

/-- A file that gives half a character alone holds no settings. -/
example : ¬ IsValid fileValue? (Utf8.encode "\x7b\"bundle_dir\": \"\\ud800\"\x7d".toList) := by
  rintro ⟨es, hes, -⟩
  have hnone : fileValue? (Utf8.encode "\x7b\"bundle_dir\": \"\\ud800\"\x7d".toList) = none := by rfl
  exact nomatch hnone.symm.trans hes

end Settings

/-! ## The store -/

namespace Environment

open Files Settings

variable {parse : Parser} {e e' : Environment} {fs fs' : Files} {p : Path} {es : List (Value × Value)} {s s' : Settings}

/-- What the file of the settings says: nothing where there is no file, else the members of the object in it. -/
inductive FileSays (parse : Parser) (fs : Files) (directory : Path) : List (Value × Value) → Prop
  | nothing : (∀ bytes, fs.node? (fileIn directory) ≠ .ok (.file bytes)) → FileSays parse fs directory []
  | file {bytes : List UInt8} {es : List (Value × Value)} : fs.node? (fileIn directory) = .ok (.file bytes) →
      Holds parse bytes es → FileSays parse fs directory es

/-- The file of the settings is there and is no valid one. -/
def FileMisfits (parse : Parser) (fs : Files) (directory : Path) : Prop :=
  ∃ bytes, fs.node? (fileIn directory) = .ok (.file bytes) ∧ ¬ IsValid parse bytes

theorem readSettings_none {es' : List (String × Node)} (hdir : fs.node? p = .ok (.dir es'))
    (hnone : ∀ bytes, fs.node? (fileIn p) ≠ .ok (.file bytes)) : readSettings fs p parse = .ok {} := by
  have hfits : Fits "config.json" := by
    show (Utf8.encode "config.json".toList).length ≤ nameLimit
    decide
  have hno : fs.isFile (fileIn p) = .ok false := by
    cases hfile : fs.isFile (fileIn p) with
    | ok b =>
        cases b with
        | false => rfl
        | true =>
            obtain ⟨bytes, hbytes⟩ := isFile_eq_true.1 hfile
            exact absurd hbytes (hnone bytes)
    | error f =>
        have hlong := (test_eq_error.1 hfile).1
        rw [fileIn_eq_below, tooLong_below, hdir] at hlong
        rcases hlong with h | ⟨-, h⟩
        · cases h
        · exact absurd hfits h
  simp only [readSettings, hno, pure_bind, Bool.not_false, if_true]
  rfl

/-- What is read of the settings: those of the file, or the fault that the file is no valid one. -/
theorem readSettings_cases {es' : List (String × Node)} (hdir : fs.node? p = .ok (.dir es')) :
    (∃ es s, readSettings fs p parse = .ok s ∧ FileSays parse fs p es ∧ Layered nothing es s ∧
      ¬ FileMisfits parse fs p) ∨
      FileMisfits parse fs p ∧ ∃ r, readSettings fs p parse = .error (.settings (.file (fileIn p).render r)) := by
  by_cases hfile : ∃ bytes, fs.node? (fileIn p) = .ok (.file bytes)
  · obtain ⟨bytes, hbytes⟩ := hfile
    have hread := readSettings_eq hbytes parse
    cases hs : ofBytes? bytes parse with
    | ok s =>
        obtain ⟨es, hes, hlayered⟩ := ofBytes?_eq_ok.1 hs
        refine .inl ⟨es, s, by rw [hread, hs]; rfl, .file hbytes hes, hlayered, ?_⟩
        rintro ⟨bytes', hbytes', hno⟩
        rw [hbytes] at hbytes'
        cases hbytes'
        exact hno (exists_ofBytes?.1 ⟨s, hs⟩)
    | error r =>
        refine .inr ⟨⟨bytes, hbytes, ?_⟩, r, by rw [hread, hs]; rfl⟩
        intro hvalid
        obtain ⟨s, hs'⟩ := exists_ofBytes?.2 hvalid
        rw [hs] at hs'
        cases hs'
  · have hnone : ∀ bytes, fs.node? (fileIn p) ≠ .ok (.file bytes) := fun bytes h => hfile ⟨bytes, h⟩
    refine .inl ⟨[], {}, readSettings_none hdir hnone, .nothing hnone, layered_nothing, ?_⟩
    rintro ⟨bytes, hbytes, -⟩
    exact hnone bytes hbytes

/-- What the file says is one thing. -/
theorem FileSays.eq {es₁ es₂ : List (Value × Value)} (h₁ : FileSays parse fs p es₁) (h₂ : FileSays parse fs p es₂) :
    es₁ = es₂ := by
  cases h₁ with
  | nothing hnone =>
      cases h₂ with
      | nothing _ => rfl
      | file hbytes _ => exact absurd hbytes (hnone _)
  | file hbytes hes =>
      cases h₂ with
      | nothing hnone => exact absurd hbytes (hnone _)
      | file hbytes' hes' =>
          rw [hbytes] at hbytes'
          cases hbytes'
          cases hes.symm.trans hes'
          rfl

theorem resolve_eq (h : e.openDirectory fs = .ok (p, fs')) : e.resolve fs parse =
    (readSettings fs' p parse >>= fun s => (s.withVariables e).mapError fun r => .settings (.environment r), fs') := by
  rw [resolve, load, h]
  dsimp only
  cases readSettings fs' p parse with
  | error f => rfl
  | ok s =>
      rw [ok_bind, ok_bind]
      cases s.withVariables e <;> rfl

/-- How the settings in force are found: they are refused for the file, or for the environment, or each field is what
its first layer says. -/
theorem resolve_cases (parse : Parser) (h : e.openDirectory fs = .ok (p, fs')) :
    FileMisfits parse fs' p ∧ (∃ r, (e.resolve fs parse).1 = .error (.settings (.file (fileIn p).render r))) ∨
    ¬ FileMisfits parse fs' p ∧ ¬ AdmitsAll e.given? ∧
      (∃ r, (e.resolve fs parse).1 = .error (.settings (.environment r))) ∨
    ¬ FileMisfits parse fs' p ∧ AdmitsAll e.given? ∧
      ∃ es s, FileSays parse fs' p es ∧ (e.resolve fs parse).1 = .ok s ∧ Layered e.given? es s := by
  obtain ⟨rfl, hmade⟩ := openDirectory_eq_ok.1 h
  obtain ⟨es', hdir⟩ := node?_of_makeDirs e.names_settingsDirectory hmade
  rw [resolve_eq h]
  rcases readSettings_cases hdir with ⟨es, s, hread, hsays, hlayered, hfits⟩ | ⟨hmisfits, r, hread⟩
  · rw [hread]
    cases hs : s.withVariables e with
    | error r =>
        refine .inr (.inl ⟨hfits, ?_, r, by rw [ok_bind, hs]; rfl⟩)
        intro hall
        obtain ⟨s', hs'⟩ := exists_withVariables.2 hall
        rw [hs] at hs'
        cases hs'
    | ok s' =>
        refine .inr (.inr ⟨hfits, exists_withVariables.1 ⟨s', hs⟩, es, s', hsays, by rw [ok_bind, hs]; rfl, ?_⟩)
        exact (layered_iff hlayered).1 hs
  · refine .inl ⟨hmisfits, r, ?_⟩
    rw [hread]
    rfl

theorem layered_of_resolve (h : e.openDirectory fs = .ok (p, fs')) (hs : (e.resolve fs parse).1 = .ok s) :
    ∃ es, FileSays parse fs' p es ∧ Layered e.given? es s := by
  rcases resolve_cases parse h with ⟨-, r, hr⟩ | ⟨-, -, r, hr⟩ | ⟨-, -, es, s', hsays, hs', hlayered⟩
  · rw [hs] at hr
    cases hr
  · rw [hs] at hr
    cases hr
  · rw [hs] at hs'
    cases hs'
    exact ⟨es, hsays, hlayered⟩

/-! ## One variable -/

/-- Two environments differ in one variable at most. -/
structure DiffersIn (v : String) (e' e : Environment) : Prop where
  system : e'.system = e.system
  values : ∀ name, name ≠ v → e'.values.get? name = e.values.get? name

theorem DiffersIn.value?_eq {v : String} (h : e'.DiffersIn v e) {name : String} (hne : name ≠ v) :
    e'.value? name = e.value? name := by
  rw [value?, value?, h.values name hne]

/-- The variables of fields say nothing of where the settings are. -/
theorem DiffersIn.openDirectory_eq {v : String} (h : e'.DiffersIn v e) (hv : v ∈ fieldVariables.map (·.2))
    (fs : Files) : e'.openDirectory fs = e.openDirectory fs := by
  have hplaces : "HOME" ∉ fieldVariables.map (·.2) ∧ "XDG_CONFIG_HOME" ∉ fieldVariables.map (·.2) := by decide
  have hhome : e'.value? "HOME" = e.value? "HOME" := h.value?_eq fun he => hplaces.1 (he ▸ hv)
  have hbase : e'.value? "XDG_CONFIG_HOME" = e.value? "XDG_CONFIG_HOME" := h.value?_eq fun he => hplaces.2 (he ▸ hv)
  have hdirectory : e'.settingsDirectory = e.settingsDirectory := by
    rw [settingsDirectory, settingsDirectory, hasSettingsPlace, hasSettingsPlace, home, home, h.system, hhome, hbase]
  rw [openDirectory, openDirectory, hdirectory]

/-- A variable says something of its own field only. -/
theorem DiffersIn.given?_eq {v name : String} (h : e'.DiffersIn v e) (hv : (name, v) ∈ fieldVariables) {other : String}
    (hne : other ≠ name) : e'.given? other = e.given? other := by
  have hone : ∀ f ∈ fieldVariables, ∀ g ∈ fieldVariables, f.2 = g.2 → f.1 = g.1 := by decide
  rw [given?, given?]
  cases hother : lookupEntry other fieldVariables with
  | none => rfl
  | some w =>
      have hw : w ≠ v := fun he => hne (hone (other, w) (mem_of_lookupEntry hother) (name, v) hv he)
      exact congrArg (Option.map Value.str) (h.value?_eq hw)

end Environment

end ApiDiscovery
