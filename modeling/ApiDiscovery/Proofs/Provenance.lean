import ApiDiscovery.Factory
import ApiDiscovery.Proofs.LineEnds
import ApiDiscovery.Proofs.Lookup

/-!
# Where a document comes from

A document that is written in JSON is the same whether it is bundled or served, and so is the fault of one that is
malformed. On the way the two are treated differently:

                      bundled                        served
    bytes             have to be UTF-8               may be malformed
    ends of lines     become line feeds              stay
    blank text        is a fault of its own          is not looked for
    format            JSON, by the name of the file  is tried out

None of this shows on a text in JSON. Its bytes are well-formed and have no mark; its ends of lines are space; it is
not blank; and it is read as JSON before anything else is tried.

Main statement: `Factory.create_iff_load`.
-/

namespace ApiDiscovery

open Http Text

/-! ## The document of a value -/

/-- The document that a value describes; it has to be a mapping. -/
def Content.documentOfValue (v : Value) : Except Error Document :=
  match entriesOf v with
  | .ok es => Remote.documentOf es
  | .error f => .error (.ofContent f)

/-- A value describes a document, or is malformed as one. -/
theorem Content.documentOfValue_cases (v : Value) :
    (∃ d, documentOfValue v = .ok d) ∨ ∃ f, documentOfValue v = .error (.document f) := by
  cases v with
  | map es =>
      unfold documentOfValue Remote.documentOf entriesOf
      dsimp only
      cases documentOf (.map es) with
      | ok d => exact .inl ⟨d, rfl⟩
      | error f => exact .inr ⟨f, rfl⟩
  | _ => exact .inr ⟨_, rfl⟩

theorem Content.readEntries_json {text : String} {v : Value} {format : Format} (h : Json.parse text = .ok v)
    (hformat : format ≠ .yaml) : readEntries text format = entriesOf v := by
  rw [readEntries, parse, if_neg hformat, h]
  dsimp only
  cases entriesOf v <;> rfl

theorem Content.document_json {text : String} {v : Value} {format : Format} (h : Json.parse text = .ok v)
    (hformat : format ≠ .yaml) : (document text format).mapError .ofContent = documentOfValue v := by
  rw [document, readEntries_json h hformat, documentOfValue]
  cases entriesOf v with
  | error f => rfl
  | ok es =>
      unfold Remote.documentOf
      rw [ok_bind]
      dsimp only
      cases documentOf (.map es) <;> rfl

/-! ## Bundled documents -/

theorem fileText_encode (cs : List Char) : fileText (Utf8.encode cs) = .ok (String.ofList (normalizeLines cs)) := by
  rw [fileText, Utf8.decode?_encode]
  rfl

theorem Files.node?_of_read {fs : Files} {p : Path} {bytes : List UInt8} (h : fs.read p = .ok bytes) :
    fs.node? p = .ok (.file bytes) := by
  obtain ⟨node, hnode, h⟩ := bind_eq_ok.1 h
  cases node with
  | file _ =>
      cases h
      exact hnode
  | dir _ => cases h

theorem Files.isFile_of_read {fs : Files} {p : Path} {bytes : List UInt8} (h : fs.read p = .ok bytes) :
    fs.isFile p = .ok true := by
  rw [isFile, test, node?_of_read h]
  rfl

/-- What becomes of a file is told by its bytes. -/
theorem FileSystem.load_of_bytes {v : FileSystem} {shown : String} {bytes : List UInt8}
    (hfile : v.isFile (Path.ofText shown) = .ok true) (hread : v.read (Path.ofText shown) = .ok bytes) :
    v.load shown =
      match fileText bytes with
      | .error f => .error (.undecodable f)
      | .ok text =>
          if text.toList.all isBlank then .error (.document (.blank shown))
          else (Content.document text (formatOfName (Path.ofText shown).name)).mapError .ofContent := by
  rw [load, hfile, hread]
  cases htext : fileText bytes with
  | error f =>
      simp only [pure_bind, Bool.not_true, Bool.false_eq_true, if_false, htext]
      rfl
  | ok text =>
      simp only [pure_bind, Bool.not_true, Bool.false_eq_true, if_false, htext]
      split
      · rfl
      · generalize Content.document text (formatOfName (Path.ofText shown).name) = made
        cases made <;> rfl

/-- A file whose text is not blank is read in the format that its name tells. -/
theorem loadDocument_of_read {fs : Files} {p : Path} {bytes : List UInt8} {text : String} (hp : p.IsNormal)
    (hread : fs.read p = .ok bytes) (htext : fileText bytes = .ok text) (hblank : text.toList.all isBlank = false) :
    loadDocument fs p.render = (Content.document text (formatOfName p.name)).mapError .ofContent := by
  have hstatus : fs.system.isFile p = .ok true := by
    have hfile : fs.system.status p = .ok true := by
      show (fs.node? p).map _ = _
      rw [Files.node?_of_read hread]
      rfl
    rw [FileSystem.isFile, hfile]
  rw [← Path.ofText_render hp] at hstatus hread
  rw [loadDocument, FileSystem.load_of_bytes hstatus hread, htext, Path.ofText_render hp]
  dsimp only
  rw [hblank, if_neg Bool.false_ne_true]

/-- The file in which the document of a version is looked for first. -/
def Bundle.jsonFile (b : Bundle) (name version : String) : Path :=
  (b.directory.child name).child (version ++ ".json")

/-- A bundle has a text for a version, in UTF-8, and has not read it yet. -/
structure Bundle.Holds (b : Bundle) (fs : Files) (name version text : String) : Prop where
  directory : ∃ shown, b.directory = Path.ofText shown
  named : name ≠ "" ∧ version ≠ ""
  inside : leadsOut name = false ∧ leadsOut version = false
  unread : b.kept? name version = none
  file : fs.read (b.jsonFile name version) = .ok (Utf8.encode text.toList)

namespace Bundle.Holds

variable {b : Bundle} {fs : Files} {name version text : String}

theorem isNormal_jsonFile (h : b.Holds fs name version text) : (b.jsonFile name version).IsNormal := by
  obtain ⟨shown, hshown⟩ := h.directory
  rw [jsonFile, hshown]
  exact ((Path.isNormal_ofText shown).child name).child (version ++ ".json")

theorem accepts (h : b.Holds fs name version text) : Accepts name version :=
  ⟨h.named.1, h.named.2, h.inside.1, h.inside.2⟩

theorem formatOfName_jsonFile (h : b.Holds fs name version text) :
    formatOfName (b.jsonFile name version).name = .json := by
  rw [jsonFile, Path.child_name_json (slash_not_mem_of_stays h.inside.2), formatOfName_json h.named.2]

theorem find?_eq (h : b.Holds fs name version text) :
    b.find? fs name version = .ok (some (b.jsonFile name version)) := by
  rw [find?_of_accepts h.accepts]
  show firstFile fs (b.jsonFile name version :: _) = _
  rw [firstFile, Files.isFile_of_read h.file]
  rfl

/-- The document of the version is that of the text, which is read with its ends of lines as line feeds. -/
theorem get_json {v : Value} (h : b.Holds fs name version text) (hv : Json.parse text = .ok v) :
    (b.get fs name version).1 = Content.documentOfValue v := by
  have hlines := Json.parse_normalizeLines hv
  have hblank := Json.not_blank_of_parseChars (Json.parse_eq_ok.1 hlines)
  have hload := loadDocument_of_read h.isNormal_jsonFile h.file (fileText_encode text.toList) hblank
  rw [h.formatOfName_jsonFile, Content.document_json hlines (by decide)] at hload
  rw [Bundle.get, h.unread, h.find?_eq]
  dsimp only
  rw [hload]
  cases Content.documentOfValue v <;> rfl

end Bundle.Holds

/-! ## Served documents -/

theorem Remote.occursIn_iff {part s : List Char} : occursIn part s = true ↔ part <:+: s := by
  induction s with
  | nil => rw [occursIn, List.isEmpty_iff, List.infix_nil]
  | cons c s ih => rw [occursIn, Bool.or_eq_true, ih, List.isPrefixOf_iff_prefix, List.infix_cons_iff]

/-- A text that does not begin with the first byte of a mark has none to drop. -/
theorem dropMark8_cons {b : UInt8} (h : b ≠ 0xef) (rest : List UInt8) : Charset.dropMark8 (b :: rest) = b :: rest := by
  rw [Charset.dropMark8.eq_def]
  split
  next heq => exact absurd (List.cons.inj heq).1 h
  next heq => exact absurd (List.cons.inj heq).1 h
  next heq => exact absurd (List.cons.inj heq).1 h
  next => rfl

theorem dropMark8_encode {c : Char} (h : c.toNat < 0x80) (cs : List Char) :
    Charset.dropMark8 (Utf8.encode (c :: cs)) = Utf8.encode (c :: cs) := by
  have hbyte : Utf8.encodeChar c = [UInt8.ofNat c.toNat] := by
    rw [Utf8.encodeChar]
    exact if_pos h
  rw [Utf8.encode_cons, hbyte]
  refine dropMark8_cons (fun heq => ?_) _
  have hnat : c.toNat % 256 = 0xef := by
    rw [← UInt8.toNat_ofNat', heq]
    rfl
  omega

/-- A text comes in a response: in UTF-8, and not as YAML. -/
structure Http.Response.Carries (a : Response) (text : String) : Prop where
  status : a.status = 200
  body : a.body = Utf8.encode text.toList
  decoder : ∃ dropsMark, a.decoder = (Charset.utf8 dropsMark).decode
  not_yaml : ¬ "yaml".toList <:+: ((a.headers.get? "content-type").getD "").toList
  not_yml : ¬ "yml".toList <:+: ((a.headers.get? "content-type").getD "").toList

/-- A response that names no character set is read in UTF-8. -/
theorem Http.Response.decoder_of_unnamed {a : Response}
    (h : (a.headers.get? "content-type").bind ContentType.charset? = none) :
    a.decoder = (Charset.utf8 false).decode := by
  rw [Response.decoder, h]
  rfl

namespace Http.Response.Carries

variable {a : Response} {text : String}

theorem formatOf (h : a.Carries text) : Remote.formatOf a = .unknown := by
  rw [Remote.formatOf]
  refine if_neg ?_
  rw [Bool.or_eq_true, Remote.occursIn_iff, Remote.occursIn_iff, not_or]
  exact ⟨h.not_yaml, h.not_yml⟩

theorem isSuccess (h : a.Carries text) : a.isSuccess = true := by
  rw [Response.isSuccess, h.status]
  rfl

theorem redirection? (h : a.Carries text) : a.redirection? = none := by
  rw [Response.redirection?, h.status]
  rfl

/-- A text in JSON is read as it is: it has a first character, and no mark before that. -/
theorem text_json {v : Value} (h : a.Carries text) (hv : Json.parse text = .ok v) : a.text = .ok text := by
  obtain ⟨c, cs, hcs, hc⟩ := Json.head_of_parseChars (Json.parse_eq_ok.1 hv)
  obtain ⟨dropsMark, hdecoder⟩ := h.decoder
  have hbytes : (if dropsMark then Charset.dropMark8 a.body else a.body) = Utf8.encode text.toList := by
    rw [h.body, hcs]
    split
    · exact dropMark8_encode hc cs
    · rfl
  have hsome : ¬ a.body.isEmpty = true := by
    intro hnone
    have hlength := Utf8.length_encode text.toList
    rw [← h.body, List.isEmpty_iff.1 hnone, hcs] at hlength
    cases hlength
  rw [Response.text, if_neg hsome, hdecoder, Charset.decode, hbytes, Utf8.decodeLossy_encode]
  show Except.ok (String.ofList text.toList) = _
  rw [String.ofList_toList]

theorem entriesOf_json {v : Value} (h : a.Carries text) (hv : Json.parse text = .ok v) :
    Remote.entriesOf a = (Content.entriesOf v).mapError .ofContent := by
  rw [Remote.entriesOf, h.text_json hv, h.formatOf]
  show (match Content.readEntries text .unknown with | .ok es => _ | .error f => _) = _
  rw [Content.readEntries_json hv (by decide)]
  cases Content.entriesOf v <;> rfl

theorem send_eq {wire : Request} {n : Network} (h : a.Carries text) (hurl : wire.url.isAbsolute = true)
    (ha : n.script n.sent.length = .response a) : send wire n = (.ok a, { n with sent := n.sent ++ [wire] }) := by
  have hexchange : n.exchange wire = (.response a, { n with sent := n.sent ++ [wire] }) := by
    rw [Network.exchange, ha]
  rw [send, follow, hexchange]
  dsimp only
  rw [hurl, h.redirection?]
  rfl

end Http.Response.Carries

/-- The service answers the next request, if it is for a version, with a text. -/
structure Remote.Serves (r : Remote) (n : Network) (name version text : String) : Prop where
  url : ∃ wire, Request.make? "GET" (r.documentUrl name version) [] none = .ok wire ∧ wire.url.isAbsolute = true
  answer : ∃ a, n.script n.sent.length = .response a ∧ a.Carries text

theorem Remote.Serves.get_json {r : Remote} {n : Network} {name version text : String} {v : Value}
    (h : r.Serves n name version text) (hv : Json.parse text = .ok v) :
    (r.get name version n).1 = Content.documentOfValue v := by
  obtain ⟨wire, hwire, hurl⟩ := h.url
  obtain ⟨a, ha, htext⟩ := h.answer
  have hfetch : (fetch (r.documentUrl name version) n).1 = (Content.entriesOf v).mapError .ofContent := by
    rw [fetch, hwire]
    dsimp only
    rw [htext.send_eq hurl ha]
    dsimp only
    rw [htext.isSuccess, if_pos rfl, htext.entriesOf_json hv]
  show ((fetch (r.documentUrl name version) n).1.mapError (unknownIfMissing name version)).bind documentOf = _
  rw [hfetch, Content.documentOfValue]
  cases v <;> rfl

/-! ## Clients -/

/-- Whether a setting is refused does not depend on the operation that it is for. -/
theorem Choices.check_cases (c : Choices) (taken : List String) :
    (∀ operation, c.check operation taken = .ok ()) ∨
      ∃ argument, ∀ operation, c.check operation taken = .error (.usage (.twice operation argument)) := by
  cases hfound : c.settings.find? fun s => taken.contains s.1 with
  | none =>
      refine .inl fun operation => ?_
      rw [check, hfound]
  | some s =>
      refine .inr ⟨s.1, fun operation => ?_⟩
      rw [check, hfound]

namespace Factory

theorem create_eq {f : Factory} {b : Bundle} (hb : f.bundle = some b) (fs : Files) (name version : String)
    (c : Choices) : (f.create fs name version c).1 =
      c.check "DiscoGen.create" ["self", "name", "version", "options"] >>= fun _ =>
        (b.get fs name version).1 >>= fun d => f.fromDocument d c := by
  rw [create, hb]
  cases c.check "DiscoGen.create" ["self", "name", "version", "options"] <;> rfl

theorem load_eq (f : Factory) (name version : String) (c : Choices) (n : Network) :
    (f.load name version c n).1 =
      c.check "DiscoGen.load" ["self", "name", "version", "options"] >>= fun _ =>
        (f.remote.get name version n).1 >>= fun d => f.fromDocument d c := by
  rw [load]
  cases c.check "DiscoGen.load" ["self", "name", "version", "options"] <;> rfl

theorem fromDocument_congr {f g : Factory} (h : f.options = g.options) (d : Document) (c : Choices) :
    f.fromDocument d c = g.fromDocument d c := by
  rw [fromDocument, fromDocument, h]

/-- Where a bundle has a text for a version that is JSON, and the service answers with the same text for it, the
documents of both are the same, or the same is wrong with both. So clients of the same options are the same, be they
made of the bundled document or of the served one: they have the same methods, and a request that one of them
prepares is prepared by the other. Nothing else than a setting that is given twice makes a difference, and that only
to the words of the refusal. -/
theorem create_iff_load {b : Bundle} {r : Remote} {fs : Files} {n : Network} {name version text : String} {v : Value}
    (hb : b.Holds fs name version text) (hr : r.Serves n name version text) (hv : Json.parse text = .ok v) :
    ((∃ d, (b.get fs name version).1 = .ok d ∧ (r.get name version n).1 = .ok d) ∨
      ∃ fault, (b.get fs name version).1 = .error (.document fault) ∧
        (r.get name version n).1 = .error (.document fault)) ∧
    ∀ (f g : Factory) (c : Choices), f.bundle = some b → g.remote = r → f.options = g.options →
      (∀ client, (f.create fs name version c).1 = .ok client ↔ (g.load name version c n).1 = .ok client) ∧
      (∀ bundled served, (f.create fs name version c).1 = .ok bundled → (g.load name version c n).1 = .ok served →
        bundled.methods = served.methods ∧
          ∀ m parameters named, bundled.prepare m parameters named = served.prepare m parameters named) ∧
      ((f.create fs name version c).1 = (g.load name version c n).1 ∨
        ∃ argument, (f.create fs name version c).1 = .error (.usage (.twice "DiscoGen.create" argument)) ∧
          (g.load name version c n).1 = .error (.usage (.twice "DiscoGen.load" argument))) := by
  have hbundled := hb.get_json hv
  have hserved := hr.get_json hv
  refine ⟨?_, ?_⟩
  · rw [hbundled, hserved]
    rcases Content.documentOfValue_cases v with ⟨d, hd⟩ | ⟨fault, hfault⟩
    · exact .inl ⟨d, hd, hd⟩
    · exact .inr ⟨fault, hfault, hfault⟩
  · intro f g c hfb hgr hoptions
    have hmade : (fun d => g.fromDocument d c) = fun d => f.fromDocument d c :=
      funext fun d => (fromDocument_congr hoptions d c).symm
    have hsame : (f.create fs name version c).1 = (g.load name version c n).1 ∨
        ∃ argument, (f.create fs name version c).1 = .error (.usage (.twice "DiscoGen.create" argument)) ∧
          (g.load name version c n).1 = .error (.usage (.twice "DiscoGen.load" argument)) := by
      rw [create_eq hfb, load_eq, hgr, hbundled, hserved, hmade]
      rcases c.check_cases ["self", "name", "version", "options"] with hfree | ⟨argument, htwice⟩
      · rw [hfree, hfree]
        exact .inl rfl
      · rw [htwice, htwice]
        exact .inr ⟨argument, rfl, rfl⟩
    have hclient : ∀ client,
        (f.create fs name version c).1 = .ok client ↔ (g.load name version c n).1 = .ok client := by
      intro client
      rcases hsame with hsame | ⟨argument, hcreate, hload⟩
      · rw [hsame]
      · rw [hcreate, hload]
        exact ⟨nofun, nofun⟩
    refine ⟨hclient, ?_, hsame⟩
    intro bundled served hcreate hload
    rw [(hclient bundled).1 hcreate] at hload
    cases hload
    exact ⟨rfl, fun _ _ _ => rfl⟩

/-- A document in which lines end with line feeds, with carriage returns and with both. -/
def linesText : String :=
  "\x7b\"name\": \"notes\",\r\n\"version\": \"v1\",\r\"rootUrl\": \"https://notes.example/\"\x7d\n"

def linesFiles : Files :=
  { here := .dir [("docs", .dir [("notes", .dir [("v1.json", .file (Utf8.encode linesText.toList))])])] }

def linesResponse : Response where
  status := 200
  headers := [("content-type", "application/json")]
  body := Utf8.encode linesText.toList

def linesFactory : Factory where
  options := {}
  bundle := some { directory := Path.ofText "docs" }
  remote := Remote.ofUrl "https://discovery.example/"

/-- The bundled document is read with line feeds for its carriage returns, and the served one with these; it is one
client that is made of both. -/
theorem create_iff_load_lines :
    let b : Bundle := { directory := Path.ofText "docs" }
    let n := Network.ofList [.response linesResponse]
    b.Holds linesFiles "notes" "v1" linesText ∧ linesFactory.remote.Serves n "notes" "v1" linesText ∧
      (∃ v, Json.parse linesText = .ok v) ∧ fileText (Utf8.encode linesText.toList) ≠ .ok linesText ∧
      ∃ client, (linesFactory.create linesFiles "notes" "v1" {}).1 = .ok client ∧
        (linesFactory.load "notes" "v1" {} n).1 = .ok client := by
  intro b n
  have hb : b.Holds linesFiles "notes" "v1" linesText :=
    { directory := ⟨"docs", rfl⟩, named := by decide, inside := by decide, unread := rfl, file := rfl }
  have hcarries : linesResponse.Carries linesText :=
    { status := rfl
      body := rfl
      decoder := ⟨false, Response.decoder_of_unnamed (by decide +kernel)⟩
      not_yaml := by rw [← Remote.occursIn_iff]; decide +kernel
      not_yml := by rw [← Remote.occursIn_iff]; decide +kernel }
  have hurl : ∃ wire, Request.make? "GET" (linesFactory.remote.documentUrl "notes" "v1") [] none = .ok wire ∧
      wire.url.isAbsolute = true :=
    exists_of_toOption_map (f := fun wire : Http.Request => wire.url.isAbsolute) (by decide +kernel)
  have hr : linesFactory.remote.Serves n "notes" "v1" linesText := ⟨hurl, linesResponse, rfl, hcarries⟩
  obtain ⟨v, hv, -⟩ := exists_of_toOption_map (f := fun _ => ()) (b := ()) (x := Json.parse linesText)
    (by decide +kernel)
  obtain ⟨client, hclient, -⟩ := exists_of_toOption_map (f := fun client => client.document.name) (b := "notes")
    (x := (linesFactory.create linesFiles "notes" "v1" {}).1) (by decide +kernel)
  obtain ⟨-, hclients⟩ := create_iff_load hb hr hv
  exact ⟨hb, hr, ⟨v, hv⟩, by decide +kernel, client, hclient,
    ((hclients linesFactory linesFactory {} rfl rfl rfl).1 client).1 hclient⟩

end Factory

end ApiDiscovery
