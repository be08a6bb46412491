import ApiDiscovery.Content
import ApiDiscovery.Proofs.LongNumbers
import ApiDiscovery.Proofs.ScalarFaults

/-!
# What becomes of the text of a document

A text gives a mapping or a fault of the document, with two kinds of exceptions, each from a format that was tried:

| format | what is given up | where it comes from |
| :-- | :-- | :-- |
| JSON | a whole number that is not converted | everything before it is in order (`Json.Overruns`) |
| YAML | what is not one of the values that its form announces | it stands in the text or in its nodes (`Yaml.Origin`) |

Neither is turned into a fault of the document. A mapping that contains itself is one like any other here. Main
statement: `parse_outcome`.
-/

namespace ApiDiscovery.Content

open Yaml

variable {text : String} {format : Format}

/-- YAML is tried: the text is known to be that, or nothing is known of it and it is not JSON. -/
def TriesYaml (text : String) (format : Format) : Prop :=
  format = .yaml ∨ format = .unknown ∧
    ∃ reason offset line column, Json.parse text = .error (.malformed reason offset line column)

/-- A mapping as it is loaded: a value, or the nodes of one that contains itself. -/
def Mapping.loaded : Mapping → Loaded
  | entries es => .value (.map es)
  | looped g => .looped .map g

/-- What a text denotes: a value as JSON, or anything as YAML where that is tried. -/
def Denotes (text : String) (format : Format) (l : Loaded) : Prop :=
  (format ≠ .yaml ∧ ∃ v, Json.parse text = .ok v ∧ l = .value v) ∨ TriesYaml text format ∧ Yaml.parse text = .ok l

/-! ## One format -/

theorem entriesOf_eq_ok {v : Value} {es : Entries} : entriesOf v = .ok es ↔ v = .map es := by
  rw [entriesOf.eq_def]
  split
  next fs =>
    constructor
    · intro h
      cases h
      rfl
    · intro h
      cases h
      rfl
  next hother => exact ⟨nofun, fun h => absurd h (hother es)⟩

/-- A value is a mapping or a fault of the document. -/
theorem entriesOf_eq_error {v : Value} {e : ContentFault} (h : entriesOf v = .error e) : ∃ f, e = .document f := by
  rw [entriesOf.eq_def] at h
  split at h
  · cases h
  · cases h
    exact ⟨_, rfl⟩

theorem mappingOf_eq_ok {l : Loaded} {m : Mapping} : mappingOf l = .ok m ↔ l = m.loaded := by
  cases l with
  | value v =>
      cases m with
      | entries es =>
          rw [mappingOf, Mapping.loaded, Loaded.value.injEq, ← entriesOf_eq_ok]
          cases entriesOf v with
          | ok fs =>
              constructor
              · intro h
                cases h
                rfl
              · intro h
                cases h
                rfl
          | error e => exact ⟨nofun, nofun⟩
      | looped g =>
          refine ⟨fun h => ?_, nofun⟩
          rw [mappingOf] at h
          cases hes : entriesOf v with
          | ok fs =>
              rw [hes] at h
              cases h
          | error e =>
              rw [hes] at h
              cases h
  | looped tag g =>
      cases m with
      | entries es => cases tag <;> exact ⟨nofun, nofun⟩
      | looped g' =>
          have hmap : mappingOf (.looped .map g) = .ok (.looped g') ↔ Loaded.looped .map g = .looped .map g' := by
            constructor
            · intro h
              cases h
              rfl
            · intro h
              cases h
              rfl
          cases tag with
          | map => exact hmap
          | _ => exact ⟨nofun, nofun⟩

/-- What is loaded is a mapping or a fault of the document. -/
theorem mappingOf_eq_error {l : Loaded} {e : ContentFault} (h : mappingOf l = .error e) : ∃ f, e = .document f := by
  rw [mappingOf.eq_def] at h
  split at h
  next v => exact entriesOf_eq_error (map_eq_error.1 h)
  next => cases h
  next =>
    cases h
    exact ⟨_, rfl⟩

theorem parseYaml_eq_ok {json : Option Json.Error} {m : Mapping} :
    parseYaml text json = .ok m ↔ Yaml.parse text = .ok m.loaded := by
  rw [parseYaml]
  cases Yaml.parse text with
  | ok l => exact mappingOf_eq_ok.trans ⟨congrArg Except.ok, Except.ok.inj⟩
  | error f => cases f <;> exact ⟨nofun, nofun⟩

theorem parseYaml_eq_scalar {json : Option Json.Error} {f : Fault} :
    parseYaml text json = .error (.scalar f) ↔ Yaml.parse text = .error f ∧ ¬ f.IsMalformed := by
  rw [parseYaml]
  cases Yaml.parse text with
  | ok l =>
      refine ⟨fun h => ?_, nofun⟩
      obtain ⟨g, hg⟩ := mappingOf_eq_error h
      cases hg
  | error g =>
      by_cases hform : g.IsMalformed
      · obtain ⟨what, rfl⟩ := hform
        refine ⟨nofun, fun h => ?_⟩
        cases h.1
        exact absurd (Fault.isMalformed what) h.2
      · split
        next => cases ‹Except.error g = _›
        next what heq =>
          cases heq
          exact absurd (Fault.isMalformed what) hform
        next heq =>
          cases heq
          refine ⟨fun h => ?_, fun h => ?_⟩
          · cases h
            exact ⟨rfl, hform⟩
          · cases h.1
            rfl

theorem parseYaml_ne_longNumber {json : Option Json.Error} {e : Json.Error} :
    parseYaml text json ≠ .error (.longNumber e) := by
  intro h
  rw [parseYaml] at h
  split at h
  next =>
    obtain ⟨f, hf⟩ := mappingOf_eq_error h
    cases hf
  next => cases h
  next => cases h

/-! ## Both formats -/

/-- Where YAML is tried, it decides. -/
theorem parse_of_triesYaml (h : TriesYaml text format) : ∃ json, parse text format = parseYaml text json := by
  rcases h with rfl | ⟨rfl, reason, offset, line, column, hjson⟩
  · exact ⟨none, rfl⟩
  · refine ⟨some (.malformed reason offset line column), ?_⟩
    rw [parse, if_neg (by decide), hjson]
    rfl

/-- Where YAML is not tried, the text was read as JSON: it has a value, it overruns, or it was to be JSON and is not. -/
theorem parse_of_not_triesYaml (h : ¬ TriesYaml text format) :
    format ≠ .yaml ∧
      ((∃ v, Json.parse text = .ok v ∧ parse text format = mappingOf (.value v)) ∨
        (∃ n, Json.parse text = .error (.tooLong n) ∧ parse text format = .error (.longNumber (.tooLong n))) ∨
        ∃ reason offset line column, Json.parse text = .error (.malformed reason offset line column) ∧
          parse text format = .error (.document (.notJson (.malformed reason offset line column)))) := by
  have hformat : format ≠ .yaml := fun hyaml => h (.inl hyaml)
  refine ⟨hformat, ?_⟩
  rw [parse, if_neg hformat]
  cases hjson : Json.parse text with
  | ok v => exact .inl ⟨v, rfl, rfl⟩
  | error e =>
      cases e with
      | tooLong n => exact .inr (.inl ⟨n, rfl, rfl⟩)
      | malformed reason offset line column =>
          have hknown : format = .json := by
            cases format with
            | json => rfl
            | yaml => exact absurd rfl hformat
            | unknown => exact absurd (.inr ⟨rfl, reason, offset, line, column, hjson⟩) h
          exact .inr (.inr ⟨reason, offset, line, column, rfl, if_pos hknown⟩)

/-- Where YAML is tried although the text may have been JSON, it is malformed as that. -/
theorem json_of_triesYaml (h : TriesYaml text format) (hformat : format ≠ .yaml) :
    ∃ reason offset line column, Json.parse text = .error (.malformed reason offset line column) := by
  rcases h with hyaml | ⟨-, hjson⟩
  · exact absurd hyaml hformat
  · exact hjson

theorem parse_eq_ok {m : Mapping} : parse text format = .ok m ↔ Denotes text format m.loaded := by
  by_cases hyaml : TriesYaml text format
  · obtain ⟨json, hparse⟩ := parse_of_triesYaml hyaml
    rw [hparse, parseYaml_eq_ok]
    refine ⟨fun h => .inr ⟨hyaml, h⟩, ?_⟩
    rintro (⟨hformat, v, h, -⟩ | ⟨-, h⟩)
    · obtain ⟨reason, offset, line, column, hjson⟩ := json_of_triesYaml hyaml hformat
      rw [hjson] at h
      cases h
    · exact h
  · obtain ⟨hformat, hjson⟩ := parse_of_not_triesYaml hyaml
    have hdenotes : Denotes text format m.loaded ↔ ∃ v, Json.parse text = .ok v ∧ m.loaded = .value v := by
      refine ⟨?_, fun h => .inl ⟨hformat, h⟩⟩
      rintro (⟨-, h⟩ | ⟨h, -⟩)
      · exact h
      · exact absurd h hyaml
    rw [hdenotes]
    rcases hjson with ⟨v, hv, hparse⟩ | ⟨n, hn, hparse⟩ | ⟨reason, offset, line, column, he, hparse⟩
    · rw [hparse, hv, mappingOf_eq_ok]
      constructor
      · intro h
        exact ⟨v, rfl, h.symm⟩
      · rintro ⟨w, hw, h⟩
        cases hw
        exact h.symm
    · rw [hparse, hn]
      exact ⟨nofun, nofun⟩
    · rw [hparse, he]
      exact ⟨nofun, nofun⟩

theorem parse_eq_longNumber {e : Json.Error} :
    parse text format = .error (.longNumber e) ↔
      format ≠ .yaml ∧ ∃ n, Json.Overruns n .value (Json.skipSpace text.toList) ∧ e = .tooLong n := by
  by_cases hyaml : TriesYaml text format
  · obtain ⟨json, hparse⟩ := parse_of_triesYaml hyaml
    rw [hparse]
    refine ⟨fun h => absurd h parseYaml_ne_longNumber, ?_⟩
    rintro ⟨hformat, n, hover, -⟩
    obtain ⟨reason, offset, line, column, hjson⟩ := json_of_triesYaml hyaml hformat
    rw [← Json.parse_eq_tooLong, hjson] at hover
    cases hover
  · obtain ⟨hformat, ⟨v, hv, hparse⟩ | ⟨n, hn, hparse⟩ | ⟨reason, offset, line, column, he, hparse⟩⟩ :=
      parse_of_not_triesYaml hyaml
    · refine ⟨fun h => ?_, ?_⟩
      · rw [hparse] at h
        obtain ⟨f, hf⟩ := mappingOf_eq_error h
        cases hf
      · rintro ⟨-, n, hover, -⟩
        rw [← Json.parse_eq_tooLong, hv] at hover
        cases hover
    · constructor
      · intro h
        rw [hparse] at h
        cases h
        exact ⟨hformat, n, Json.parse_eq_tooLong.1 hn, rfl⟩
      · rintro ⟨-, m, hover, rfl⟩
        rw [← Json.parse_eq_tooLong, hn] at hover
        cases hover
        exact hparse
    · refine ⟨fun h => ?_, ?_⟩
      · rw [hparse] at h
        cases h
      · rintro ⟨-, n, hover, -⟩
        rw [← Json.parse_eq_tooLong, he] at hover
        cases hover

theorem parse_eq_scalar {f : Fault} :
    parse text format = .error (.scalar f) ↔
      TriesYaml text format ∧ Yaml.parse text = .error f ∧ ¬ f.IsMalformed := by
  by_cases hyaml : TriesYaml text format
  · obtain ⟨json, hparse⟩ := parse_of_triesYaml hyaml
    rw [hparse, parseYaml_eq_scalar]
    exact ⟨fun h => ⟨hyaml, h⟩, fun h => h.2⟩
  · refine ⟨fun h => ?_, fun h => absurd h.1 hyaml⟩
    obtain ⟨-, ⟨v, -, hparse⟩ | ⟨n, -, hparse⟩ | ⟨reason, offset, line, column, -, hparse⟩⟩ :=
      parse_of_not_triesYaml hyaml
    · rw [hparse] at h
      obtain ⟨g, hg⟩ := mappingOf_eq_error h
      cases hg
    · rw [hparse] at h
      cases h
    · rw [hparse] at h
      cases h

/-- What contains itself is a mapping, too. -/
theorem parse_ne_looped {g : Graph} : parse text format ≠ .error (.looped g) := by
  intro h
  by_cases hyaml : TriesYaml text format
  · obtain ⟨json, hparse⟩ := parse_of_triesYaml hyaml
    rw [hparse, parseYaml] at h
    split at h
    · obtain ⟨f, hf⟩ := mappingOf_eq_error h
      cases hf
    · cases h
    · cases h
  · obtain ⟨-, ⟨v, -, hparse⟩ | ⟨n, -, hparse⟩ | ⟨reason, offset, line, column, -, hparse⟩⟩ :=
      parse_of_not_triesYaml hyaml
    · rw [hparse] at h
      obtain ⟨f, hf⟩ := mappingOf_eq_error h
      cases hf
    · rw [hparse] at h
      cases h
    · rw [hparse] at h
      cases h

/-- The nodes of a mapping with one date, in a month that no year has. -/
theorem ofText?_thirteenthMonth : Graph.ofText? "released: 2001-13-01\n" = .ok (some
    ⟨[.mapping .map [(1, 2)], .scalar .str "released", .scalar .timestamp "2001-13-01"], 0⟩) := by
  have hscan : Token.scan "released: 2001-13-01\n".toList =
      ([.blockMappingStart, .key, .scalar "released" true, .value, .scalar "2001-13-01" true, .blockEnd, .streamEnd],
        none) := by decide +kernel
  have hkey : impliedTag "released" = .str := by decide +kernel
  have hvalue : impliedTag "2001-13-01" = .timestamp := by decide +kernel
  rw [Graph.ofText?, hscan, ← hkey, ← hvalue]
  rfl

/-- The only fault of them is the month. -/
theorem yaml_thirteenthMonth : Yaml.parse "released: 2001-13-01\n" = .error (.calendar .month) := by
  rw [Yaml.parse, ofText?_thirteenthMonth]
  rfl

end ApiDiscovery.Content
