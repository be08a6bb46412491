import ApiDiscovery.Proofs.Reordering
import ApiDiscovery.Proofs.SimpleExpansion

/-!
# The query is what was to be sent

A request keeps the values that its query was written from. Read back, the query has for each of them, by
increasing name, a pair for each item of a list and one pair for any other value. Beyond the signs of the query
itself there are only unreserved characters and percent triplets in it, so neither a question mark nor a number
sign.

Where the URL has no question mark either, the first one of the full URL stands between the two. The URL has
only characters of the base, of the path and slashes; what fills a plain hole of the path has no question mark.

Main statement: `buildRequest_query`.
-/

namespace ApiDiscovery

open Template Text

/-! ## Characters of a query string -/

theorem Query.not_mem_render {c : Char} (hu : Percent.isUnreserved c = false) (h : c ∉ ['%', '+', '&', '='])
    (pairs : List (String × String)) : c ∉ (Query.render pairs).toList := by
  simp only [List.mem_cons, List.not_mem_nil, or_false, not_or] at h
  obtain ⟨hpercent, hplus, hand, hequals⟩ := h
  have hpair : ∀ p, c ∉ Query.pair p := fun p => by
    rw [Query.pair, List.mem_append, List.mem_cons, not_or, not_or]
    exact ⟨Query.not_mem_encode hu hpercent hplus _, hequals, Query.not_mem_encode hu hpercent hplus _⟩
  rw [Query.render, String.toList_ofList]
  induction pairs with
  | nil => simp
  | cons p rest ih =>
      cases rest with
      | nil => simpa using hpair p
      | cons q rest =>
          rw [List.map_cons, List.map_cons, List.intercalate_cons_cons, List.mem_append, List.mem_append,
            not_or, not_or]
          exact ⟨⟨hpair p, by simpa using hand⟩, ih⟩

/-- Only without a pair a query string is empty. -/
theorem Query.render_eq_empty {pairs : List (String × String)} : Query.render pairs = "" ↔ pairs = [] := by
  constructor
  · intro h
    rw [← Query.parse_render pairs, h]
    rfl
  · rintro rfl
    rfl

/-! ## Pairs of the values that were kept -/

/-- What a value has a pair each for in the query. -/
def Value.queryItems : Value → List Value
  | .list items => items
  | .tuple items => items
  | v => [v]

/-- The pairs of a name with its value. -/
def itemPairs (e : String × Value) : List (String × String) :=
  e.2.queryItems.map fun v => (e.1, queryItemText v)

/-- What goes to the query is no tuple any more. -/
theorem queryPairs_queryValue {v w : Value} (h : queryValue v = .ok w) (k : String) :
    queryPairs (k, w) = itemPairs (k, w) := by
  have htuple : ∀ items, w ≠ .tuple items := by
    rintro items rfl
    cases v with
    | list items => obtain ⟨ws, -, hw⟩ := bind_eq_ok.1 h; cases hw
    | tuple items => obtain ⟨ws, -, hw⟩ := bind_eq_ok.1 h; cases hw
    | map entries => obtain ⟨text, -, hw⟩ := bind_eq_ok.1 h; cases hw
    | set items => cases textValue_ok (h : textValue _ = _)
    | _ => cases h
  cases w with
  | tuple items => exact absurd rfl (htuple items)
  | _ => rfl

theorem keys_queryEntries_sorted {t : Table Value} {es : List (String × Value)} (h : queryEntries t = .ok es) :
    (es.map (·.1)).Pairwise (· < ·) := by
  have hnodup := nodup_queryEntries h
  have hsorted : (t.sorted.map (·.1)).Pairwise (· ≤ ·) := List.pairwise_map.2 (pairwise_sortedByName t.entries)
  rw [← (mapM_queryValue h).1] at hsorted
  refine (List.pairwise_and_iff.2 ⟨hsorted, hnodup⟩).imp fun {a b} hab => ?_
  exact String.not_le.1 fun hba => hab.2 (String.le_antisymm hab.1 hba)

/-! ## Characters of the URL -/

/-- The texts that a URL is begun with: the root and the path behind it, or else the base. A given root takes the
place of the document's. -/
def Document.baseParts (d : Document) (root : Option String) : List String :=
  match (present root).or (present d.rootUrl) with
  | some root => [root, d.servicePath.getD ""]
  | none => [(present d.baseUrl).getD (d.basePath.getD "")]

theorem mem_joinUrl {c : Char} {base path : String} (h : c ∈ (joinUrl base path).toList) :
    c = '/' ∨ c ∈ base.toList ∨ c ∈ path.toList := by
  rw [joinUrl, String.toList_ofList, joinChars] at h
  split at h
  · exact .inr (.inl h)
  · split at h
    · exact .inr (.inr h)
    · rcases List.mem_append.1 h with h | h
      · refine .inr (.inl ?_)
        rw [trimRight, List.mem_reverse] at h
        exact List.mem_reverse.1 ((List.dropWhile_sublist _).mem h)
      · rcases List.mem_cons.1 h with h | h
        · exact .inl h
        · exact .inr (.inr ((List.dropWhile_sublist _).mem h))

theorem mem_requestUrl {c : Char} {d : Document} {path : String} {root : Option String}
    (h : c ∈ (requestUrl d path root).toList) :
    c = '/' ∨ c ∈ path.toList ∨ ∃ part ∈ d.baseParts root, c ∈ part.toList := by
  unfold requestUrl at h
  unfold Document.baseParts
  cases hroot : (present root).or (present d.rootUrl) with
  | some base =>
      rw [hroot] at h
      dsimp only at h ⊢
      split at h
      · rcases mem_joinUrl h with h | h | h
        · exact .inl h
        · exact .inr (.inr ⟨base, by simp, h⟩)
        · exact .inr (.inl h)
      · rcases mem_joinUrl h with h | h | h
        · exact .inl h
        · rcases mem_joinUrl h with h | h | h
          · exact .inl h
          · exact .inr (.inr ⟨base, by simp, h⟩)
          · exact .inr (.inr ⟨d.servicePath.getD "", by simp, h⟩)
        · exact .inr (.inl h)
  | none =>
      have hdocument : present d.rootUrl = none := (Option.or_eq_none_iff.1 hroot).2
      rw [hroot] at h
      dsimp only at h ⊢
      rcases mem_joinUrl h with h | h | h
      · exact .inl h
      · refine .inr (.inr ⟨_, List.mem_singleton_self _, ?_⟩)
        rw [Document.apiBase, hdocument] at h
        cases hbase : present d.baseUrl with
        | none => rw [hbase] at h; exact h
        | some base => rw [hbase] at h; exact h
      · exact .inr (.inl h)

/-- A plain hole brings no delimiter into the URL. -/
theorem not_mem_url {c : Char} (hdelimiter : isDelimiter c = true) (hslash : c ≠ '/') {m : Method} {d : Document}
    {t : Table Value} {o : Option Options} {r : Request} (h : buildRequest m d t o = .ok r)
    (hsimple : isSimple (m.path.getD "") = true)
    (hliteral : c ∉ (skeleton (m.path.getD "")).filterMap Mark.char?)
    (hbase : ∀ part ∈ d.baseParts (o.bind (·.rootUrl)), c ∉ part.toList) : c ∉ r.url.toList := by
  obtain ⟨path, es, hpath, -, rfl⟩ := buildRequest_ok h
  intro hc
  rcases mem_requestUrl hc with hc | hc | ⟨part, hpart, hc⟩
  · exact hslash hc
  · rw [(expand_ok hpath).1, flatMap_filled_marks _ hsimple] at hc
    have hfiltered := List.mem_filter.2 ⟨hc, hdelimiter⟩
    rw [filter_isDelimiter_filled] at hfiltered
    exact hliteral (List.mem_filter.1 hfiltered).1
  · exact hbase part hpart hc

/-! ## The full URL -/

/-- The text in front of the first occurrence of a character, and the text behind it if there is one. -/
def splitFirst (sep : Char) (s : String) : String × Option String :=
  (String.ofList (s.toList.takeWhile (· != sep)),
    match s.toList.dropWhile (· != sep) with
    | [] => none
    | _ :: rest => some (String.ofList rest))

theorem forall_bne {sep : Char} {s : List Char} : (∀ c ∈ s, (c != sep) = true) ↔ sep ∉ s := by
  simp only [bne_iff_ne, ne_eq]
  constructor
  · exact fun h hm => h sep hm rfl
  · rintro h c hc rfl
    exact h hc

theorem splitFirst_eq_none {sep : Char} {s : String} : (splitFirst sep s).2 = none ↔ sep ∉ s.toList := by
  rw [← forall_bne, ← List.dropWhile_eq_nil_iff, splitFirst]
  cases s.toList.dropWhile (· != sep) <;> simp

theorem splitFirst_of_not_mem {sep : Char} {s : String} (h : sep ∉ s.toList) :
    splitFirst sep s = (s, none) := by
  have hfront : (splitFirst sep s).1 = s := by
    rw [splitFirst, List.takeWhile_eq_self_iff.2 (forall_bne.2 h), String.ofList_toList]
  exact Prod.ext hfront (splitFirst_eq_none.2 h)

theorem splitFirst_append {s : String} (h : '?' ∉ s.toList) (rest : String) :
    splitFirst '?' (s ++ "?" ++ rest) = (s, some rest) := by
  have htext : (s ++ "?" ++ rest).toList = s.toList ++ '?' :: rest.toList := by simp
  rw [splitFirst, htext, List.takeWhile_append_of_pos (forall_bne.2 h),
    List.dropWhile_append_of_pos (forall_bne.2 h)]
  simp

theorem splitFirst_fullUrl {r : Request} (h : '?' ∉ r.url.toList) :
    splitFirst '?' r.fullUrl = (r.url, if r.query = "" then none else some r.query) := by
  unfold Request.fullUrl
  by_cases hq : r.query = ""
  · rw [if_pos (String.isEmpty_iff.2 hq), if_pos hq]
    exact splitFirst_of_not_mem h
  · rw [if_neg fun he => hq (String.isEmpty_iff.1 he), if_neg hq]
    exact splitFirst_append h r.query

/-! ## Main statement -/

/-- The query of a request is read back as the pairs of the values it was written from, by increasing name. It has
no question mark, number sign or space. If all holes of the path are plain and no question mark is in the
literals of the path or in the base, the full URL falls into URL and query at its first question mark, and it has
none exactly if there is no pair. -/
theorem buildRequest_query {m : Method} {d : Document} {t : Table Value} {o : Option Options} {r : Request}
    (h : buildRequest m d t o = .ok r) :
    r.queryParameters.keys.Pairwise (· < ·) ∧
    Query.parse r.query = r.queryParameters.entries.flatMap itemPairs ∧
    (∀ c ∈ ['?', '#', ' '], c ∉ r.query.toList) ∧
    (isSimple (m.path.getD "") = true →
      '?' ∉ (skeleton (m.path.getD "")).filterMap Mark.char? →
      (∀ part ∈ d.baseParts (o.bind (·.rootUrl)), '?' ∉ part.toList) →
      splitFirst '?' r.fullUrl = (r.url, if Query.parse r.query = [] then none else some r.query) ∧
      ('?' ∈ r.fullUrl.toList ↔ Query.parse r.query ≠ [])) := by
  obtain ⟨path, es, hpath, hes, hr⟩ := buildRequest_ok h
  have hentries : r.queryParameters.entries = es := by
    rw [hr]
    exact Table.entries_ofList (nodup_queryEntries hes)
  have hquery : r.query = Query.render (es.flatMap queryPairs) := by rw [hr]
  have hempty : r.query = "" ↔ Query.parse r.query = [] := by
    rw [hquery, Query.parse_render, Query.render_eq_empty]
  refine ⟨?_, ?_, ?_, fun hsimple hliteral hbase => ?_⟩
  · rw [Table.keys, hentries]
    exact keys_queryEntries_sorted hes
  · rw [hquery, Query.parse_render, hentries]
    refine List.flatMap_congr fun e he => ?_
    obtain ⟨v, -, hv⟩ := (mem_queryEntries hes).1 he
    exact queryPairs_queryValue hv e.1
  · simp only [List.forall_mem_cons, List.not_mem_nil, false_imp_iff, implies_true, and_true, hquery]
    exact ⟨Query.not_mem_render (by decide) (by decide) _, Query.not_mem_render (by decide) (by decide) _,
      Query.not_mem_render (by decide) (by decide) _⟩
  · have hurl := not_mem_url (by decide) (by decide) h hsimple hliteral hbase
    have hsplit := splitFirst_fullUrl hurl
    simp only [hempty] at hsplit
    refine ⟨hsplit, ?_⟩
    rw [← not_iff_not, ← splitFirst_eq_none, hsplit]
    by_cases hpairs : Query.parse r.query = [] <;> simp [hpairs]

def rootedDocument : Document := { notesDocument with rootUrl := some "https://a.example/" }

/-- A value for the path, a list and a mapping for the query, with the signs of the query among their characters. -/
def searchParameters : Table Value :=
  Table.ofList [("id", .str "7?"), ("order", .map [(.str "by", .str "a=b")]),
    ("has", .list [.str "a&b", .bool true, .str "50% c"]), ("none", .list [])]

theorem buildRequest_query_updateNote :
    ∃ r, buildRequest updateNote rootedDocument searchParameters none = .ok r ∧
      Query.parse r.query =
        [("has", "a&b"), ("has", "true"), ("has", "50% c"), ("order", "\x7b\"by\":\"a=b\"\x7d")] ∧
      splitFirst '?' r.fullUrl = ("https://a.example/notes/7%3F", some r.query) := by
  obtain ⟨r, h, hr⟩ := exists_of_toOption_map (f := fun r => (r.url, r.queryParameters.entries))
    (b := ("https://a.example/notes/7%3F",
      [("has", .list [.str "a&b", .str "true", .str "50% c"]), ("none", .list []),
        ("order", .str "\x7b\"by\":\"a=b\"\x7d")]))
    (x := buildRequest updateNote rootedDocument searchParameters none) (by cbv)
  obtain ⟨hurl, hentries⟩ := Prod.mk.inj hr
  obtain ⟨-, hparse, -, hsplit⟩ := buildRequest_query h
  rw [hentries] at hparse
  obtain ⟨hfirst, -⟩ := hsplit (by decide +kernel) (by decide +kernel) (by decide +kernel)
  rw [hurl, hparse] at hfirst
  exact ⟨r, h, hparse, hfirst⟩

end ApiDiscovery
