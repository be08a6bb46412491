import ApiDiscovery.Proofs.Segments
import ApiDiscovery.Proofs.Sending
import ApiDiscovery.Proofs.Site
import ApiDiscovery.Proofs.WrittenQuery

/-!
# Values stay in their segments, dots aside

What fills a plain hole has no slash, but it may be dots. The URL of a request is built by joining texts, and brought
into normal form only when the request is made ready: then a segment of one dot goes, and one of two dots takes the
segment in front of it along. Three steps:

    a template is filled segment by segment                     `segments_filled`
    it is joined behind the segments of the base                `segments_writtenPath`
    the segments are sent as they are, if none is one of dots   `Url.segments_sentPath_eq_iff`

Main statement: `sent_path`; that dots leave their segment is `sent_path_escapes`.
-/

namespace ApiDiscovery

open Template Text

namespace Template

/-! ## Segments of a template -/

/-- Whether a mark belongs to the path, unless a question mark or number sign stands in front of it. -/
def Mark.inPath : Mark → Bool
  | .char c => Url.inPath c
  | .slot _ => true

/-- What goes over the wire for a mark: a value as it was encoded, a character of the template encoded now. -/
def Mark.sent (lookup : String → Option Value) : Mark → List Char
  | .char c => Url.onWire [c]
  | .slot name => ((lookup name).map fun v => Percent.encodeSimple (valueText v).toList).getD []

/-- Whether a mark is filled to slashes or to nothing. -/
def Mark.isLead (lookup : String → Option Value) (mark : Mark) : Bool := (mark.filled lookup).all isSlash

section

variable (lookup : String → Option Value)

theorem takeWhile_inPath_filled (marks : List Mark) :
    (marks.flatMap (Mark.filled lookup)).takeWhile Url.inPath =
      (marks.takeWhile Mark.inPath).flatMap (Mark.filled lookup) := by
  induction marks with
  | nil => rfl
  | cons mark rest ih =>
      rw [List.flatMap_cons]
      cases mark with
      | char c =>
          cases hc : Url.inPath c with
          | true => simp [Mark.filled, Mark.inPath, hc, ih]
          | false => simp [Mark.filled, Mark.inPath, hc]
      | slot name =>
          have hinside : ∀ c ∈ Mark.filled lookup (.slot name), Url.inPath c = true := by
            intro c hc
            have hne : ∀ d, isDelimiter d = true → c ≠ d := fun d hd he =>
              delimiter_not_mem_filled lookup name hd (he ▸ hc)
            simp [Url.inPath, hne '?' rfl, hne '#' rfl]
          rw [List.takeWhile_append_of_pos hinside, ih, List.takeWhile_cons_of_pos rfl, List.flatMap_cons]

/-- The slashes at the front of what a skeleton is filled to come from marks at its own front. -/
theorem dropWhile_filled (marks : List Mark) :
    (marks.flatMap (Mark.filled lookup)).dropWhile isSlash =
      (marks.dropWhile (Mark.isLead lookup)).flatMap (Mark.filled lookup) := by
  induction marks with
  | nil => rfl
  | cons mark rest ih =>
      rw [List.flatMap_cons]
      cases hlead : mark.isLead lookup with
      | true => rw [List.dropWhile_append_of_pos (List.all_eq_true.1 hlead), ih, List.dropWhile_cons_of_pos hlead]
      | false =>
          rw [List.dropWhile_cons_of_neg (by simp [hlead]), List.flatMap_cons]
          unfold Mark.isLead at hlead
          cases mark with
          | char c =>
              have hc : isSlash c = false := by simpa [Mark.filled] using hlead
              simp [Mark.filled, hc]
          | slot name =>
              have hslash := delimiter_not_mem_filled lookup name (c := '/') (by decide)
              cases hfilled : Mark.filled lookup (.slot name) with
              | nil => rw [hfilled] at hlead; cases hlead
              | cons c t =>
                  rw [hfilled] at hslash
                  have hc : c ≠ '/' := fun hc => hslash (hc ▸ List.mem_cons_self)
                  simp [isSlash, hc]

theorem segments_filled (marks : List Mark) :
    Url.segments (marks.flatMap (Mark.filled lookup)) =
      (marks.splitOn (.char '/')).map (·.flatMap (Mark.filled lookup)) := by
  rw [Url.segments, Query.splitAt_eq_splitOn]
  refine splitOn_flatMap (b := Mark.char '/') rfl (fun mark hmark => ?_) marks
  cases mark with
  | char c =>
      have hc : c ≠ '/' := fun hc => hmark (congrArg Mark.char hc)
      simpa [Mark.filled] using Ne.symm hc
  | slot name => exact delimiter_not_mem_filled lookup name (by decide)

/-- The segments of a template that come into the path: up to a question mark or number sign, and without the marks
at its front that are filled to slashes, or to nothing. -/
def pathSegments (template : String) : List (List Mark) :=
  (((skeleton template).takeWhile Mark.inPath).dropWhile (Mark.isLead lookup)).splitOn (.char '/')

theorem segments_expanded (template : String) :
    Url.segments ((((skeleton template).flatMap (Mark.filled lookup)).takeWhile Url.inPath).dropWhile isSlash) =
      (pathSegments lookup template).map (·.flatMap (Mark.filled lookup)) := by
  rw [takeWhile_inPath_filled, dropWhile_filled, segments_filled, pathSegments]

theorem onWire_filled (marks : List Mark) :
    Url.onWire (marks.flatMap (Mark.filled lookup)) = marks.flatMap (Mark.sent lookup) := by
  have hmark : ∀ mark : Mark, Url.onWire (mark.filled lookup) = mark.sent lookup := by
    intro mark
    cases mark with
    | char c => rfl
    | slot name => exact Url.onWire_of_encoded (encoded_filled_slot lookup name)
  unfold Url.onWire Percent.encode at hmark ⊢
  rw [List.flatMap_assoc]
  exact List.flatMap_congr fun mark _ => hmark mark

end

end Template

/-! ## The URL that is built and the URL that is sent -/

/-- The segments of the path of a request, as they are built. -/
def Request.segments (r : Request) : List (List Char) := Url.segments (Url.writtenPath r.url)

/-- The segments of the path that is requested. -/
def Http.Request.segments (w : Http.Request) : List (List Char) := Url.segments w.url.sentPath.toList

theorem Http.Request.make?_url {verb url : String} {layered : Headers} {body : Option Value} {w : Http.Request}
    (h : Http.Request.make? verb url layered body = .ok w) : (Url.parse url).bind Url.rooted = .ok w.url := by
  unfold Http.Request.make? at h
  cases hurl : (Url.parse url).bind Url.rooted with
  | error f => rw [hurl] at h; cases h
  | ok u =>
      rw [hurl] at h
      simp only [pure_bind] at h
      cases hheader : headerFault? layered with
      | some f => rw [hheader] at h; cases h
      | none =>
          rw [hheader] at h
          cases hbody : Body.ofValue? body with
          | error f => rw [hbody] at h; cases h
          | ok b =>
              rw [hbody] at h
              cases h
              rfl

section

variable {d : Document} {r : Request} {root : String} {base : Url} {given : Option String} {path : String}

/-- The URL of a request has the site of its root, and behind it the path that is joined to the base. -/
theorem toList_url (hroot : (present given).or (present d.rootUrl) = some root)
    (hbase : Url.parse root = .ok base) (habsolute : base.isAbsolute = true) (path : String) :
    ∃ (site : Url.Site) (rootRest rest : List Char), root.toList = site.text ++ rootRest ∧ Url.Behind rootRest ∧
      (d.pathBase root path).toList = site.text ++ rest ∧ Url.Behind rest ∧
      (requestUrl d path given).toList = site.text ++ Url.joined rest path.toList := by
  obtain ⟨site, rootRest, hsite, hrootRest⟩ := Url.site_of_isAbsolute hbase habsolute
  obtain ⟨rest, hrest, hbehind⟩ := toList_pathBase hsite hrootRest d path
  refine ⟨site, rootRest, rest, hsite, hrootRest, hrest, hbehind, ?_⟩
  rw [requestUrl_eq hroot, joinUrl, String.toList_ofList, hrest, Url.joinChars_text]

/-- The segments of the base, but for slashes at its end, come before those of the path. -/
theorem segments_writtenPath (hroot : (present given).or (present d.rootUrl) = some root)
    (hbase : Url.parse root = .ok base) (habsolute : base.isAbsolute = true) (hpath : path ≠ "")
    (hclean : ∀ c ∈ (d.pathBase root path).toList, Url.inPath c = true) :
    Url.segments (Url.writtenPath (requestUrl d path given)) =
      Url.segments (trimRight isSlash (Url.writtenPath (d.pathBase root path))) ++
        Url.segments ((path.toList.takeWhile Url.inPath).dropWhile isSlash) := by
  obtain ⟨site, -, rest, -, -, hrest, hbehind, hurl⟩ := toList_url hroot hbase habsolute path
  have hinside : ∀ c ∈ rest, Url.inPath c = true := fun c hc =>
    hclean c (by rw [hrest]; exact List.mem_append_right _ hc)
  obtain ⟨-, -, hbasePath⟩ := site.takeApart_text hbehind
  obtain ⟨-, -, hurlPath⟩ := site.takeApart_text (Url.behind_joined hbehind path.toList)
  rw [Url.writtenPath, Url.writtenPath, hurl, hrest, hbasePath, hurlPath, List.takeWhile_eq_self_iff.2 hinside,
    Url.takeWhile_inPath_joined hinside (fun h => hpath (String.toList_eq_nil_iff.1 h))]
  simp only [Url.segments, Query.splitAt_eq_splitOn]
  exact List.splitOn_append_cons_self _ _

/-- The request that is sent has the path of the URL that was built, in normal form. -/
theorem sent_url {tr : Http.Transport} {n : Http.Network} {w : Http.Request}
    (hroot : (present given).or (present d.rootUrl) = some root)
    (hbase : Url.parse root = .ok base) (habsolute : base.isAbsolute = true)
    (hurl : r.url = requestUrl d path given) (hsent : tr.Sends r n w) :
    w.url.path.toList = Percent.encode Url.keptInPath (Url.normalizePath (Url.writtenPath r.url)) ∧
      ∀ c ∈ (Url.writtenPath r.url).head?, c = '/' := by
  obtain ⟨site, rootRest, rest, hrootText, hrootRest, -, hbehind, htext⟩ := toList_url hroot hbase habsolute path
  obtain ⟨query, hfull, hquery⟩ := toList_fullUrl r
  have hjoined := Url.behind_joined hbehind path.toList
  -- That the path was joined does not matter any more, only that it stands behind the site; so does the query.
  generalize Url.joined rest path.toList = behind at htext hjoined
  rw [← hurl] at htext
  rw [htext, List.append_assoc] at hfull
  have hbehindFull : Url.Behind (behind ++ query) := hjoined.append fun c hc => by rw [hquery c hc]; rfl
  have hwritten : Url.writtenPath r.url = behind.takeWhile Url.inPath := by
    rw [Url.writtenPath, htext]
    exact (site.takeApart_text hjoined).2.2
  have hmake := Http.Request.make?_url hsent.make?
  cases hparse : Url.parse r.fullUrl with
  | error f => rw [hparse] at hmake; cases hmake
  | ok u =>
      rw [hparse] at hmake
      obtain ⟨hscheme, hhost, hpathText⟩ :=
        Url.parse_site hrootText hfull hrootRest hbehindFull hbase hparse
      have hu : u.isAbsolute = true := by
        rw [Url.isAbsolute, hscheme, hhost]
        exact habsolute
      have hrooted : u.rooted = .ok u := by rw [Url.rooted, if_pos hu]
      obtain rfl : u = w.url := Except.ok.inj (hrooted.symm.trans hmake)
      rw [hpathText, hwritten, Url.takeWhile_append_of_head? fun c hc => by rw [hquery c hc]; rfl]
      exact ⟨rfl, hjoined.head?_path⟩

end

/-! ## Main statement -/

/-- The segments that a path is joined behind. -/
def Document.baseSegments (d : Document) (root path : String) : List (List Char) :=
  Url.segments (trimRight isSlash (Url.writtenPath (d.pathBase root path)))

/-- What is sent for a request whose path has plain holes only, under a root that names a host. The path that is
requested has the segments of the URL that was built, each encoded, exactly if that URL has a path and none of the
segments is one of dots. They are those of the base, and behind them those of the template, with the percent-encoded
text of its value in each place. -/
theorem sent_path {defaults given : Table Value} {m : Method} {d : Document} {o : Option Options} {r : Request}
    {root : String} {base : Url} {tr : Http.Transport} {n : Http.Network} {w : Http.Request}
    (h : resolveRequest defaults given m d o = .ok r) (hsimple : isSimple (m.path.getD "") = true)
    (hroot : (present (o.bind (·.rootUrl))).or (present d.rootUrl) = some root)
    (hbase : Url.parse root = .ok base) (habsolute : base.isAbsolute = true) (hsent : tr.Sends r n w) :
    (w.segments = r.segments.map Url.onWire ↔
      Url.writtenPath r.url ≠ [] ∧ ∀ s ∈ r.segments, Url.isDots s = false) ∧
    ∃ t path, resolveParameters defaults given m d.parameters = .ok t ∧
      path.toList = (skeleton (m.path.getD "")).flatMap (Mark.filled t.get?) ∧
      (∀ name ∈ names (m.path.getD ""), ∃ v, t.get? name = some v ∧
        Mark.sent t.get? (.slot name) = Percent.encodeSimple (valueText v).toList) ∧
      (path ≠ "" → (∀ c ∈ (d.pathBase root path).toList, Url.inPath c = true) →
        r.segments = d.baseSegments root path ++
          (pathSegments t.get? (m.path.getD "")).map (·.flatMap (Mark.filled t.get?)) ∧
        ((∀ s ∈ r.segments, Url.isDots s = false) →
          w.segments = (d.baseSegments root path).map Url.onWire ++
            (pathSegments t.get? (m.path.getD "")).map (·.flatMap (Mark.sent t.get?)))) := by
  unfold resolveRequest at h
  cases ht : resolveParameters defaults given m d.parameters with
  | error e => rw [ht] at h; cases h
  | ok t =>
      rw [ht] at h
      obtain ⟨path, es, hpath, -, hr⟩ := buildRequest_ok h
      have hurl : r.url = requestUrl d path (o.bind (·.rootUrl)) := by rw [hr]
      obtain ⟨hwire, hslash⟩ := sent_url hroot hbase habsolute hurl hsent
      have hsame := Url.segments_sentPath_eq_iff hwire hslash
      obtain ⟨htext, -, hvalues⟩ := expand_ok hpath
      rw [flatMap_filled_marks _ hsimple] at htext
      refine ⟨hsame, t, path, rfl, htext, fun name hname => ?_, fun hne hclean => ?_⟩
      · obtain ⟨v, hv⟩ := exists_of_isMissing_eq_false (flaw?_eq_none.1 (hvalues name hname)).1
        exact ⟨v, hv, by rw [Mark.sent, hv]; rfl⟩
      · have hsegments : r.segments = d.baseSegments root path ++
            (pathSegments t.get? (m.path.getD "")).map (·.flatMap (Mark.filled t.get?)) := by
          rw [Request.segments, hurl, segments_writtenPath hroot hbase habsolute hne hclean, htext]
          exact congrArg _ (segments_expanded t.get? (m.path.getD ""))
        refine ⟨hsegments, fun hdots => ?_⟩
        -- There is at least one segment of the base and one of the template.
        have hwritten : Url.writtenPath r.url ≠ [] := by
          intro hnil
          have hone : r.segments = [[]] := by rw [Request.segments, hnil]; rfl
          have hfront : 0 < (d.baseSegments root path).length := List.length_pos_iff.2 (Url.segments_ne_nil _)
          have hback : 0 < (pathSegments t.get? (m.path.getD "")).length :=
            List.length_pos_iff.2 (List.splitOn_ne_nil _ _)
          rw [hone] at hsegments
          have hlength := congrArg List.length hsegments
          rw [List.length_append, List.length_map, List.length_singleton] at hlength
          omega
        rw [show w.segments = r.segments.map Url.onWire from hsame.2 ⟨hwritten, hdots⟩, hsegments, List.map_append,
          List.map_map]
        congr 1
        exact List.map_congr_left fun marks _ => onWire_filled t.get? marks

/-- `SentAs given m d built sent`: a call has a URL with the segments `built`, and where every answer is the empty
response, a request with the segments `sent`. -/
def SentAs (given : Table Value) (m : Method) (d : Document) (built sent : List String) : Prop :=
  ∃ r w, resolveRequest ∅ given m d none = .ok r ∧ Http.Transport.Sends {} r (.ofList []) w ∧
    r.segments = built.map String.toList ∧ w.segments = sent.map String.toList

/-- The segments of the first request for a call, as they are built and as they are sent. -/
def firstSegments? (given : Table Value) (m : Method) (d : Document) :
    Option (List (List Char) × List (List Char)) :=
  (resolveRequest ∅ given m d none).toOption.bind fun r =>
    (({} : Http.Transport).execute r (.ofList [])).state.sent[0]?.map fun w => (r.segments, w.segments)

theorem sentAs_of_firstSegments? {given : Table Value} {m : Method} {d : Document} {built sent : List String}
    (h : firstSegments? given m d = some (built.map String.toList, sent.map String.toList)) :
    SentAs given m d built sent := by
  unfold firstSegments? at h
  obtain ⟨r, hr, h⟩ := Option.bind_eq_some_iff.1 h
  obtain ⟨w, hw, h⟩ := Option.map_eq_some_iff.1 h
  obtain ⟨hbuilt, hsent⟩ := Prod.mk.inj h
  cases hresolve : resolveRequest ∅ given m d none with
  | error e => rw [hresolve] at hr; cases hr
  | ok r' =>
      rw [hresolve] at hr
      cases hr
      exact ⟨r, w, hresolve, ⟨0, Nat.le_refl _, hw, .inl rfl⟩, hbuilt, hsent⟩

/-- Dots with something beside them are no segment of dots, and a slash in a value parts none. -/
theorem sent_path_updateNote :
    ∃ r w, resolveRequest ∅ (Table.ofList [("id", .str "a/b..")]) updateNote rootedDocument none = .ok r ∧
      Http.Transport.Sends {} r (.ofList []) w ∧
      w.segments = [[], "notes".toList, "a%2Fb..".toList] := by
  have hroot : (present none).or (present rootedDocument.rootUrl) = some "https://a.example/" := rfl
  have hbase : Url.parse "https://a.example/" = .ok ⟨"https", "", "a.example", none, "/", none, none⟩ := rfl
  have hfirst : SentAs (Table.ofList [("id", .str "a/b..")]) updateNote rootedDocument ["", "notes", "a%2Fb.."]
      ["", "notes", "a%2Fb.."] := sentAs_of_firstSegments? (by decide +kernel)
  obtain ⟨r, w, h, hsent, hbuilt, -⟩ := hfirst
  have hwritten : Url.writtenPath r.url ≠ [] := by
    intro hnil
    rw [Request.segments, hnil] at hbuilt
    exact absurd hbuilt (by decide)
  have hdots : ∀ s ∈ r.segments, Url.isDots s = false := by
    rw [hbuilt]
    decide
  obtain ⟨hsame, -⟩ := sent_path h (by decide +kernel) hroot hbase rfl hsent
  refine ⟨r, w, h, hsent, ?_⟩
  rw [hsame.2 ⟨hwritten, hdots⟩, hbuilt]
  decide

/-- A value of two dots takes its segment away, and the one in front of it. So do dots of the service path. Behind a
question mark, of the base or of the template, there are no segments; and without any path, that of the root is
requested. -/
theorem sent_path_escapes :
    (isSimple (updateNote.path.getD "") = true ∧
      (∀ s ∈ Url.segments ((skeleton (updateNote.path.getD "")).filterMap Mark.char?), Url.isDots s = false) ∧
      (∀ s ∈ Url.segments (Url.writtenPath "https://a.example/"), Url.isDots s = false) ∧
      SentAs (Table.ofList [("id", .str "..")]) updateNote rootedDocument ["", "notes", ".."] ["", ""]) ∧
    SentAs (Table.ofList [("id", .str "7")]) updateNote { rootedDocument with servicePath := some "v1/../" }
      ["", "v1", "..", "notes", "7"] ["", "notes", "7"] ∧
    SentAs (Table.ofList [("id", .str "7")]) updateNote
      { rootedDocument with rootUrl := some "https://a.example/?of=" } ["", ""] ["", ""] ∧
    SentAs (Table.ofList [("id", .str "7")]) { updateNote with path := some "notes?of={id}" } rootedDocument
      ["", "notes"] ["", "notes"] ∧
    SentAs ∅ { listNotes with path := none, parameters := ∅, parameterOrder := [] }
      { rootedDocument with rootUrl := some "https://a.example" } [""] ["", ""] := by
  refine ⟨⟨by decide +kernel, by decide +kernel, by decide +kernel, ?_⟩, ?_, ?_, ?_, ?_⟩
  all_goals exact sentAs_of_firstSegments? (by decide +kernel)

end ApiDiscovery
