import ApiDiscovery.Settings.Store
import ApiDiscovery.Proofs.Encoding
import ApiDiscovery.Proofs.Layering
import ApiDiscovery.Proofs.Replacing
import ApiDiscovery.Proofs.WrittenJson

/-!
# Saved settings are loaded again

Settings are written field by field, each by the text of its value, and read as an object whose fields are checked
each on its own. What a field is read as is told by its text alone (`Settings.readBack`), so what is read of the whole
is one choice (`Settings.reread`):

    more retries than digits can be converted for      the text is refused
    a limit of time that is no finite number           it is written as nothing, which is refused as a number
    else                                               the settings, as they were

The store adds nothing to that. Saving replaces a file in the directory of the settings (`Environment.exists_save`),
which is there when they are loaded, and the file holds what was written.

Main statement: `Environment.load_saved`.
-/

namespace ApiDiscovery

open Number Text Validation

/-! ## The text -/

namespace Settings

/-- What the text of a scalar in the file is read as. -/
def readBack : Value → Except Json.Fault Value
  | .str s => .ok (.str s)
  | .int n =>
      if digitLimit < digitCount n.natAbs then .error (.tooLong (digitCount n.natAbs)) else .ok (.int n)
  | .bool b => .ok (.bool b)
  | .float x => .ok (if x.isFinite then .float x else .null)
  | _ => .ok .null

theorem stands_scalarText (v : Value) : Json.Stands (scalarText v).toList (readBack v) := by
  cases v with
  | str s => exact Json.stands_writeString s
  | int n => exact Json.stands_toString n
  | bool b => exact Json.stands_bool b
  | float x =>
      cases x with
      | finite negative m => exact Json.stands_render numberLayout negative m
      | _ => exact Json.stands_null
  | _ => exact Json.stands_null

theorem toList_written (s : Settings) : s.written.toList =
    '{' :: '\n' :: (Json.lines (s.fields.map fun f => (f.1, (scalarText f.2).toList)) ++ ['\n', '}', '\n']) := by
  have hline (f : String × Value) : ("  " ++ Json.writeString false f.1 ++ ": " ++ scalarText f.2).toList =
      ' ' :: ' ' :: Json.memberText f.1 (scalarText f.2).toList := by
    have hspaces : "  ".toList = [' ', ' '] := rfl
    have hcolon : ": ".toList = [':', ' '] := rfl
    simp only [Json.memberText, String.toList_append, List.append_assoc, hspaces, hcolon, List.cons_append,
      List.nil_append]
  rw [written, String.toList_append, String.toList_append, String.toList_intercalate, Json.lines, List.map_map,
    List.map_map, List.append_assoc]
  simp only [Function.comp_def, hline]
  rfl

/-- The value that is read for the limit of time, as infinities and NaN have no text. -/
def keptTimeout (s : Settings) : Value := if s.timeout.isFinite then .float s.timeout else .null

/-- The fields as they are read from the text. -/
def keptFields (s : Settings) : List (String × Value) :=
  [("discovery_url", .str s.discoveryUrl), ("bundle_dir", .ofText? s.bundleDir), ("timeout", s.keptTimeout),
    ("max_retries", .int s.maxRetries), ("verify_ssl", .bool s.verifyTls)]

theorem readBack_fields (s : Settings) : (s.fields.mapM fun f => (readBack f.2).map fun v => (f.1, v)) =
    if digitLimit < digitCount s.maxRetries.natAbs then .error (.tooLong (digitCount s.maxRetries.natAbs))
    else .ok s.keptFields := by
  have hbundle : readBack (.ofText? s.bundleDir) = .ok (.ofText? s.bundleDir) := by
    cases s.bundleDir <;> rfl
  simp only [fields, List.mapM_cons, List.mapM_nil, hbundle]
  by_cases hlimit : digitLimit < digitCount s.maxRetries.natAbs
  · have hretries : readBack (.int s.maxRetries) = .error (.tooLong (digitCount s.maxRetries.natAbs)) := if_pos hlimit
    rw [hretries, if_pos hlimit]
    rfl
  · have hretries : readBack (.int s.maxRetries) = .ok (.int s.maxRetries) := if_neg hlimit
    rw [hretries, if_neg hlimit]
    rfl

theorem parse_written (s : Settings) : Json.parse s.written =
    if digitLimit < digitCount s.maxRetries.natAbs then .error (.tooLong (digitCount s.maxRetries.natAbs))
    else .ok (.map (fieldEntries s.keptFields)) := by
  have hdistinct : s.keptFields.foldl (fun es f => Value.put (.str f.1) f.2 es) [] = fieldEntries s.keptFields := rfl
  have hread := Json.parseChars_lines stands_scalarText (show s.fields ≠ [] from List.cons_ne_nil _ _)
  rw [Json.parse, toList_written, hread, readBack_fields]
  by_cases hlimit : digitLimit < digitCount s.maxRetries.natAbs
  · rw [if_pos hlimit, if_pos hlimit]
    rfl
  · rw [if_neg hlimit, if_neg hlimit, ← hdistinct]
    rfl

/-- The fields are checked each on its own. -/
theorem readJson_kept (s : Settings) : readJson (.map (fieldEntries s.keptFields)) =
    if s.timeout.isFinite then .ok s else .issues [⟨[.key "timeout"], .numberKind⟩] := by
  have hread {α : Type} {name : String} (default : α) (check : Value → Checked α) {v : Value}
      (hname : shape.field name = .plain name) (hv : lookupEntry name s.keptFields = some v) :
      (shape.field name).read (fieldEntries s.keptFields) default check = (check v).within (.key name) := by
    rw [hname, Field.read_plain, entry?_fieldEntries, hv]
  have hbundle := Options.optional_text_ofText? s.bundleDir
  have htimeout : jsonNumber s.keptTimeout = if s.timeout.isFinite then .ok s.timeout else .fail .numberKind := by
    rw [keptTimeout]
    split <;> rfl
  rw [readJson, readFields, hread _ _ rfl rfl, hread _ _ rfl rfl, hread _ _ rfl rfl, hread _ _ rfl rfl,
    hread _ _ rfl rfl, hbundle, htimeout]
  split <;> rfl

/-- What is read from the text: nothing where the number of retries has too many digits, and no limit of time where
that is no finite number. -/
def reread (s : Settings) : Except Rejection Settings :=
  if digitLimit < digitCount s.maxRetries.natAbs then .error ⟨shape.name, [⟨[], .json⟩]⟩
  else if s.timeout.isFinite then .ok s
  else .error ⟨shape.name, [⟨[.key "timeout"], .numberKind⟩]⟩

theorem leavesHalf_written (s : Settings) : Json.leavesHalf false s.written.toList = false := by
  have hopen : Json.Whole ['{', '\n'] := Json.whole_of_plain (by decide)
  have hlines : Json.Whole (Json.lines (s.fields.map fun f => (f.1, (scalarText f.2).toList))) := by
    refine Json.whole_lines fun f hf => ?_
    obtain ⟨g, -, rfl⟩ := List.mem_map.1 hf
    exact (stands_scalarText g.2).whole
  have hwritten := (hopen.append hlines) ['\n', '}', '\n']
  rw [List.append_assoc] at hwritten
  rw [toList_written]
  exact hwritten

theorem fileValue?_written (s : Settings) :
    fileValue? (Utf8.encode s.written.toList) = (Json.parse s.written).toOption := by
  rw [fileValue?, Utf8.decode?_encode]
  dsimp only
  rw [leavesHalf_written, if_neg Bool.false_ne_true, String.ofList_toList]

theorem ofBytes?_written (s : Settings) : ofBytes? (Utf8.encode s.written.toList) = s.reread := by
  rw [ofBytes?, fileValue?_written, parse_written, reread]
  by_cases hlimit : digitLimit < digitCount s.maxRetries.natAbs
  · rw [if_pos hlimit, if_pos hlimit]
    rfl
  · rw [if_neg hlimit, if_neg hlimit]
    show (readJson (.map (fieldEntries s.keptFields))).toExcept _ = _
    rw [readJson_kept]
    split <;> rfl

end Settings

/-! ## The store -/

namespace Environment

open Files

variable {e : Environment} {s : Settings} {fs fs' : Files}

theorem names_settingsDirectory (e : Environment) : e.settingsDirectory.names ≠ [] := by
  have hchild (base : Path) {name : String} (h : name = "discogen" ∨ name = ".discogen") :
      (base.child name).names ≠ [] := by
    have hname : '/' ∉ name.toList ∧ ¬ (name = "" ∨ name = ".") := by
      rcases h with rfl | rfl <;> decide
    rw [Path.child_eq_below base hname.1, if_neg hname.2]
    exact List.append_ne_nil_of_right_ne_nil _ (List.cons_ne_nil _ _)
  rw [settingsDirectory]
  split
  · exact hchild _ (.inl rfl)
  · exact hchild _ (.inr rfl)

theorem fileIn_eq_below (p : Path) : fileIn p = p.below ["config.json"] := by
  rw [fileIn, Path.child_eq_below p (by decide), if_neg (by decide)]

theorem openDirectory_eq_ok {p : Path} :
    e.openDirectory fs = .ok (p, fs') ↔ p = e.settingsDirectory ∧ fs.makeDirs p = .ok fs' := by
  refine bind_eq_ok.trans ⟨?_, ?_⟩
  · rintro ⟨_, hmade, h⟩
    cases h
    exact ⟨rfl, hmade⟩
  · rintro ⟨rfl, hmade⟩
    exact ⟨fs', hmade, rfl⟩

/-- Settings can be saved: their directory is there or can be made, there is no directory in the place of the file,
and there are not so many entries that the name beside would be too long. -/
def HasPlace (e : Environment) (fs : Files) : Prop :=
  ∃ fs' es, e.openDirectory fs = .ok (e.settingsDirectory, fs') ∧ fs'.node? e.settingsDirectory = .ok (.dir es) ∧
    NoDir "config.json" es ∧ es.length < 10 ^ 238

theorem readSettings_eq {p : Path} {bytes : List UInt8} (h : fs.node? (fileIn p) = .ok (.file bytes))
    (parse : Settings.Parser) : readSettings fs p parse =
      (Settings.ofBytes? bytes parse).mapError fun r => .settings (.file (fileIn p).render r) := by
  have hisFile : fs.isFile (fileIn p) = .ok true := isFile_eq_true.2 ⟨bytes, h⟩
  have hread : fs.read (fileIn p) = .ok bytes := bind_eq_ok.2 ⟨.file bytes, h, rfl⟩
  simp only [readSettings, hisFile, hread, pure_bind, Bool.not_true, Bool.false_eq_true, if_false]
  cases Settings.ofBytes? bytes parse <;> rfl

/-- Where settings were saved they are loaded from the text that was written, and nothing is changed. -/
theorem load_of_save (h : e.save s fs = (.ok (), fs')) :
    e.load fs' = (s.reread.mapError fun r => .settings (.file (fileIn e.settingsDirectory).render r), fs') := by
  rw [save] at h
  cases hopen : e.openDirectory fs with
  | error f =>
      rw [hopen] at h
      cases h
  | ok opened =>
      obtain ⟨p, fs₁⟩ := opened
      rw [hopen] at h
      obtain ⟨rfl, hmade⟩ := openDirectory_eq_ok.1 hopen
      obtain ⟨es, hdir⟩ := node?_of_makeDirs e.names_settingsDirectory hmade
      dsimp only at h
      rw [fileIn_eq_below] at h
      have hfile := node?_of_replace hdir (by decide) h
      obtain ⟨es', hdir', -⟩ := (node?_below (by decide)).1 hfile
      have hagain : e.openDirectory fs' = .ok (e.settingsDirectory, fs') :=
        openDirectory_eq_ok.2 ⟨rfl, makeDirs_self hdir'⟩
      rw [← fileIn_eq_below] at hfile
      rw [load, hagain]
      dsimp only
      rw [readSettings_eq hfile, Settings.ofBytes?_written]

theorem exists_save (h : e.HasPlace fs) (s : Settings) : ∃ fs', e.save s fs = (.ok (), fs') := by
  obtain ⟨fs₁, es, hopen, hdir, hfile, hroom⟩ := h
  have hlength : (Utf8.encode "config.json".toList).length = 11 := rfl
  have hfits : Fits "config.json" := by
    rw [Fits, hlength]
    decide
  have hbeside : ∀ k ≤ es.length, Fits (besideName "config.json" k) := by
    intro k hk
    have hdigits : digitCount k ≤ 238 := (digitCount_le_iff (by decide)).2 (Nat.lt_of_le_of_lt hk hroom)
    rw [Fits, length_encode_besideName, hlength, nameLimit]
    omega
  obtain ⟨fs', hreplace⟩ :=
    exists_replace hdir (by decide) hfits hfile hbeside (Utf8.encode s.written.toList)
  refine ⟨fs', ?_⟩
  rw [save, hopen]
  dsimp only
  rw [fileIn_eq_below]
  exact hreplace

/-- Settings are loaded as they were saved, except for a limit of time that is no finite number and a number of
retries of too many digits: these are kept in a text that is refused when it is read. -/
theorem load_saved (e : Environment) (s : Settings) (fs : Files) :
    (e.HasPlace fs → ∃ fs', e.save s fs = (.ok (), fs')) ∧
      ∀ fs', e.save s fs = (.ok (), fs') →
        e.load fs' = (s.reread.mapError fun r => .settings (.file (fileIn e.settingsDirectory).render r), fs') ∧
          ((e.load fs').1 = .ok s ↔
            s.timeout.isFinite = true ∧ digitCount s.maxRetries.natAbs ≤ digitLimit) := by
  refine ⟨fun hplace => exists_save hplace s, fun fs' hsave => ?_⟩
  have hload := load_of_save hsave
  refine ⟨hload, ?_⟩
  rw [hload, Settings.reread]
  by_cases hlimit : digitLimit < digitCount s.maxRetries.natAbs
  · rw [if_pos hlimit]
    constructor
    · intro h
      cases h
    · intro h
      exact absurd hlimit (Nat.not_lt.2 h.2)
  · rw [if_neg hlimit]
    split
    next hfinite => exact ⟨fun _ => ⟨hfinite, Nat.not_lt.1 hlimit⟩, fun _ => rfl⟩
    next hinfinite =>
      constructor
      · intro h
        cases h
      · intro h
        exact absurd h.1 hinfinite

/-- A limit of time that is infinite is saved, and then the settings cannot be loaded. -/
theorem load_saved_infinite : ∃ fs',
    (Environment.mk "Linux" .empty).save { timeout := .infinite false } {} = (.ok (), fs') ∧
      ((Environment.mk "Linux" .empty).load fs').1 =
        .error (.settings (.file "/.config/discogen/config.json"
          ⟨"GlobalConfig", [⟨[.key "timeout"], .numberKind⟩]⟩)) := by
  have hnone : NoDir "config.json" [] := by
    intro es h
    cases h
  have hplace : (Environment.mk "Linux" .empty).HasPlace {} :=
    ⟨{ root := .dir [(".config", .dir [("discogen", .dir [])])] }, [], by rfl, by rfl, hnone, by decide⟩
  obtain ⟨fs', hsave⟩ := exists_save hplace { timeout := .infinite false }
  refine ⟨fs', hsave, ?_⟩
  rw [load_of_save hsave]
  rfl

end Environment

end ApiDiscovery
