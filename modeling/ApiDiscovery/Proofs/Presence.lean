import ApiDiscovery.Proofs.Destination
import ApiDiscovery.Proofs.Parameters
import ApiDiscovery.Proofs.QueryString
import Mathlib

/-!
# What is required is in the request

A required parameter counts as given unless it is null or the empty text. That is judged by its value, while a
path is made of texts and a query of pairs, and two kinds of values that are given leave nothing there:

    in the path     a list of nothing, or of one item that has no text itself (`leavesNoText`)
    in the query    a list of nothing (`isEmptyList`)

All other values are to be seen: in the path by at least one character in each place, else by a pair of the query
or a key of the body. The URL ends in the path, but for slashes that the path begins with.

Main statement: `required_present`; that the two kinds leave nothing is `required_hollow`.
-/

namespace ApiDiscovery

/-! ## Values without a text -/

namespace Value

/-- A list without items. -/
def isEmptyList : Value → Bool
  | .list [] => true
  | .tuple [] => true
  | _ => false

/-- The empty text, a list without items, or a list of one such value. -/
def leavesNoText : Value → Bool
  | .str s => s.isEmpty
  | .list [] => true
  | .list [v] => v.leavesNoText
  | .tuple [] => true
  | .tuple [v] => v.leavesNoText
  | _ => false

end Value

open Number Text Template

theorem Date.render_ne_empty (d : Date) : d.render ≠ "" := by
  simp [Date.render, String.append_eq_empty_iff]

theorem Timestamp.render_ne_empty (separator : String) (t : Timestamp) : t.render separator ≠ "" := by
  simp [Timestamp.render, String.append_eq_empty_iff]

theorem Number.Layout.positional_ne_nil (ds : List Char) (point : Int) : Layout.positional ds point ≠ [] := by
  unfold Layout.positional
  split
  · exact List.cons_ne_nil _ _
  · dsimp only
    split <;> simp

theorem Number.Layout.scientific_ne_nil (l : Layout) (ds : List Char) (point : Int) :
    l.scientific ds point ≠ [] := by
  simp [Layout.scientific]

theorem Number.Layout.magnitude_ne_nil (l : Layout) (m : Magnitude) : l.magnitude m ≠ [] := by
  unfold Layout.magnitude
  dsimp only
  generalize (if m.units = 0 then (1 : Int) else (Decimal.shortest m).split.2) = point
  split
  · exact Layout.positional_ne_nil _ _
  · exact Layout.scientific_ne_nil l _ _

theorem numberText_ne_empty (x : Double) : Value.numberLayout.render x ≠ "" := by
  cases x with
  | finite neg m =>
      have hm : String.ofList (Value.numberLayout.magnitude m) ≠ "" := by
        rw [Ne, ← String.toList_eq_nil_iff, String.toList_ofList]
        exact Layout.magnitude_ne_nil _ m
      cases neg with
      | true => simp [Layout.render, String.append_eq_empty_iff]
      | false => exact hm
  | infinite neg => cases neg <;> decide
  | nan => decide

theorem intText_ne_empty (n : Int) : toString n ≠ "" := by
  cases n with
  | ofNat n => exact Nat.repr_ne_empty
  | negSucc n => exact fun h => absurd (String.append_eq_empty_iff.1 h).1 (by decide)

/-- Only a text can be written as nothing by itself. -/
theorem text_ne_empty {v : Value} (h : ∀ s, v ≠ .str s) : v.text ≠ "" := by
  cases v with
  | str s => exact absurd rfl (h s)
  | null => decide
  | bool b => cases b <;> decide
  | int n => exact intText_ne_empty n
  | float x => exact numberText_ne_empty x
  | bytes b =>
      rw [Value.text, Value.literal, quotedBytes, Ne, ← String.toList_eq_nil_iff, String.toList_ofList]
      exact List.cons_ne_nil _ _
      all_goals nofun
  | date d => exact Date.render_ne_empty d
  | timestamp t => exact Timestamp.render_ne_empty " " t
  | list items => simp [Value.text, Value.literal, String.append_eq_empty_iff]
  | tuple items =>
      cases items with
      | nil => simp [Value.text, Value.literal, String.append_eq_empty_iff]
      | cons v rest => cases rest <;> simp [Value.text, Value.literal, String.append_eq_empty_iff]
  | set items => cases items <;> simp [Value.text, Value.literal, String.append_eq_empty_iff]
  | map entries => simp [Value.text, Value.literal, String.append_eq_empty_iff]

/-- Two texts with a comma between them are not nothing. -/
theorem intercalate_ne_empty (a b : String) (rest : List String) :
    ",".intercalate (a :: b :: rest) ≠ "" := by
  rw [Ne, ← String.toList_eq_nil_iff, String.toList_intercalate, List.map_cons, List.map_cons,
    List.intercalate_cons_cons]
  simp

/-- Which values have no text in a path. -/
theorem valueText_eq_empty : (v : Value) → (valueText v = "" ↔ v.leavesNoText = true)
  | .str s => by rw [valueText, Value.text, Value.leavesNoText, String.isEmpty_iff]; all_goals nofun
  | .list [] => by simp [valueText, valueTexts, Value.leavesNoText]
  | .list [v] => by
      rw [valueText, valueTexts, valueTexts, Value.leavesNoText, ← valueText_eq_empty v]
      simp
  | .list (v :: w :: rest) => by
      refine iff_of_false ?_ (by simp [Value.leavesNoText])
      rw [valueText, valueTexts, valueTexts]
      exact intercalate_ne_empty _ _ _
  | .tuple [] => by simp [valueText, valueTexts, Value.leavesNoText]
  | .tuple [v] => by
      rw [valueText, valueTexts, valueTexts, Value.leavesNoText, ← valueText_eq_empty v]
      simp
  | .tuple (v :: w :: rest) => by
      refine iff_of_false ?_ (by simp [Value.leavesNoText])
      rw [valueText, valueTexts, valueTexts]
      exact intercalate_ne_empty _ _ _
  | .bool b => by cases b <;> decide
  | .null => by decide
  | .int n => iff_of_false (text_ne_empty (v := .int n) nofun) nofun
  | .float x => iff_of_false (text_ne_empty (v := .float x) nofun) nofun
  | .bytes b => iff_of_false (text_ne_empty (v := .bytes b) nofun) nofun
  | .date d => iff_of_false (text_ne_empty (v := .date d) nofun) nofun
  | .timestamp t => iff_of_false (text_ne_empty (v := .timestamp t) nofun) nofun
  | .set items => iff_of_false (text_ne_empty (v := .set items) nofun) nofun
  | .map entries => iff_of_false (text_ne_empty (v := .map entries) nofun) nofun

/-! ## Places in the path -/

theorem Template.filling_eq_nil {reserved : Bool} {v : Value} :
    filling reserved v = [] ↔ v.leavesNoText = true := by
  rw [← valueText_eq_empty, ← String.toList_eq_nil_iff]
  cases reserved with
  | true => exact Percent.encode_eq_nil
  | false => exact Percent.encode_eq_nil

theorem joinChars_suffix (base path : List Char) :
    ∃ front, joinChars base path = front ++ path.dropWhile isSlash := by
  unfold joinChars
  cases path with
  | nil => exact ⟨base, (List.append_nil base).symm⟩
  | cons c rest =>
      rw [if_neg (by simp)]
      split
      · exact ⟨(c :: rest).takeWhile isSlash, List.takeWhile_append_dropWhile.symm⟩
      · exact ⟨trimRight isSlash base ++ ['/'], by simp⟩

/-- The URL of a path ends in it, but for slashes that it begins with. -/
theorem requestUrl_suffix (d : Document) (path : String) (root : Option String) :
    ∃ front, (requestUrl d path root).toList = front ++ path.toList.dropWhile isSlash := by
  have hjoin : ∀ base, ∃ front, (joinUrl base path).toList = front ++ path.toList.dropWhile isSlash := by
    intro base
    rw [joinUrl, String.toList_ofList]
    exact joinChars_suffix _ _
  unfold requestUrl
  split
  · split
    · exact hjoin _
    · exact hjoin _
  · exact hjoin _

/-! ## Pairs of the query -/

theorem queryValue_eq_nil {v w : Value} (h : queryValue v = .ok w) :
    w = .list [] ↔ v.isEmptyList = true := by
  have hitems : ∀ items ws, queryValues items = .ok ws → (ws = [] ↔ items = []) := by
    intro items ws hws
    cases items with
    | nil => cases hws; exact iff_of_true rfl rfl
    | cons v rest =>
        obtain ⟨w, -, hws⟩ := bind_eq_ok.1 hws
        obtain ⟨tail, -, hws⟩ := bind_eq_ok.1 hws
        cases hws
        exact iff_of_false nofun nofun
  cases v with
  | list items =>
      obtain ⟨ws, hws, hw⟩ := bind_eq_ok.1 h
      cases hw
      rw [Value.list.injEq, hitems items ws hws]
      cases items <;> simp [Value.isEmptyList]
  | tuple items =>
      obtain ⟨ws, hws, hw⟩ := bind_eq_ok.1 h
      cases hw
      rw [Value.list.injEq, hitems items ws hws]
      cases items <;> simp [Value.isEmptyList]
  | map entries =>
      obtain ⟨text, -, hw⟩ := bind_eq_ok.1 h
      cases hw
      exact iff_of_false nofun nofun
  | set items =>
      rw [textValue_ok (h : textValue _ = _)]
      exact iff_of_false nofun nofun
  | _ => cases h; exact iff_of_false nofun nofun

/-- A name has a pair for each item of a list, and one for any other value. -/
theorem exists_mem_queryPairs {k k' : String} {w : Value} :
    (∃ x, (k, x) ∈ queryPairs (k', w)) ↔ k = k' ∧ w ≠ .list [] := by
  cases w with
  | list items =>
      cases items with
      | nil => simp [queryPairs]
      | cons v rest =>
          refine ⟨fun ⟨x, hx⟩ => ?_, fun ⟨hk, _⟩ => ⟨queryItemText v, by simp [queryPairs, hk]⟩⟩
          obtain ⟨item, -, he⟩ := List.mem_map.1 hx
          cases he
          exact ⟨rfl, by simp⟩
  | _ => simp [queryPairs]

/-- The names in the query string are those of the parameters that go there, but for lists of nothing. -/
theorem exists_mem_parse {m : Method} {d : Document} {t : Table Value} {o : Option Options} {r : Request}
    (h : buildRequest m d t o = .ok r) (k : String) :
    (∃ x, (k, x) ∈ Query.parse r.query) ↔
      ∃ v, (handedOut m (m.carried t)).2.get? k = some v ∧ v.isEmptyList = false := by
  obtain ⟨path, es, -, hes, rfl⟩ := buildRequest_ok h
  show (∃ x, (k, x) ∈ Query.parse (Query.render (es.flatMap queryPairs))) ↔ _
  rw [Query.parse_render]
  constructor
  · rintro ⟨x, hx⟩
    obtain ⟨⟨k', w⟩, hmem, hx⟩ := List.mem_flatMap.1 hx
    obtain ⟨rfl, hw⟩ := exists_mem_queryPairs.1 ⟨x, hx⟩
    obtain ⟨v, hv, hvw⟩ := (mem_queryEntries hes).1 hmem
    exact ⟨v, hv, Bool.eq_false_iff.2 fun he => hw ((queryValue_eq_nil hvw).2 he)⟩
  · rintro ⟨v, hv, he⟩
    obtain ⟨w, hvw, hget⟩ := exists_queryValue hes hv
    have hmem : (k, w) ∈ es := (mem_queryEntries hes).2 ⟨v, hv, hvw⟩
    have hw : w ≠ .list [] := fun hw => by
      rw [(queryValue_eq_nil hvw).1 hw] at he
      cases he
    obtain ⟨x, hx⟩ := exists_mem_queryPairs.2 ⟨rfl, hw⟩
    exact ⟨x, List.mem_flatMap.2 ⟨_, hmem, hx⟩⟩

/-! ## Main statement -/

/-- A name that is a key of the body. -/
def Request.InBody (r : Request) (k : String) : Prop :=
  ∃ es x, r.body = some (.map es) ∧ Value.entry? es k = some x

/-- A name with a pair in the query string. -/
def Request.InQuery (r : Request) (k : String) : Prop := ∃ x, (k, x) ∈ Query.parse r.query

/-- The places of a name in the path of a method. -/
def Method.places (m : Method) (k : String) : List Piece :=
  (pieces (m.path.getD "").toList).filter (·.name? = some k)

/-- What is declared and not in the path is a key of the body or goes to the query. -/
theorem placed_of_mem_keys {m : Method} {d : Document} {t : Table Value} {o : Option Options} {r : Request}
    (h : buildRequest m d t o = .ok r) {k : String} {v : Value} (hk : k ∈ m.parameters.keys)
    (hv : (m.carried t).get? k = some v) :
    r.InBody k ∨ (handedOut m (m.carried t)).2.get? k = some v := by
  obtain ⟨path, es, -, hes, rfl⟩ := buildRequest_ok h
  cases hd : m.destination (m.carried t) k with
  | whole =>
      rw [destination_eq_whole, namesWhole_of_mem_keys m hk] at hd
      cases hd
  | field =>
      obtain ⟨fs, hfs, he⟩ := entry?_composedBody ((destination_eq_field m _).1 hd).2
        nodup_bodyFields (mem_bodyFields.2 ⟨hd, hv⟩)
      exact .inl ⟨fs, _, (handedOut_fst m _).trans hfs, he⟩
  | query => exact .inr (by rw [get?_handedOut, if_pos hd, hv])

/-- Every required parameter has a value that is neither null nor the empty text. Each of its places in the path
has at least one character, unless the value is a list that leaves no text; the URL ends in the path, but for
slashes that the path begins with. If it has no place there, it is a key of the body, or it has a pair in the
query unless the value is a list of nothing. -/
theorem required_present {defaults given : Table Value} {m : Method} {d : Document} {o : Option Options}
    {r : Request} (h : resolveRequest defaults given m d o = .ok r) :
    ∃ (t : Table Value) (path : String), resolveParameters defaults given m d.parameters = .ok t ∧
      path.toList = (pieces (m.path.getD "").toList).flatMap (Piece.filled t.get?) ∧
      (∃ front, r.url.toList = front ++ path.toList.dropWhile isSlash) ∧
      ∀ k ∈ m.requiredParameters, ∃ v, t.get? k = some v ∧ isMissing (some v) = false ∧
        (∀ p ∈ m.places k, p.filled t.get? = [] ↔ v.leavesNoText = true) ∧
        (k ∉ m.holes → r.InBody k ∨ (r.InQuery k ↔ v.isEmptyList = false)) := by
  unfold resolveRequest at h
  cases ht : resolveParameters defaults given m d.parameters with
  | error e => rw [ht] at h; cases h
  | ok t =>
      rw [ht] at h
      obtain ⟨path, es, hpath, -, hr⟩ := buildRequest_ok h
      obtain ⟨front, hfront⟩ := requestUrl_suffix d path (o.bind (·.rootUrl))
      refine ⟨t, path, rfl, (expand_ok hpath).1, ⟨front, by rw [hr]; exact hfront⟩, fun k hk => ?_⟩
      have hfilled := resolveParameters_filled ht hk
      obtain ⟨v, hv⟩ := exists_of_isMissing_eq_false hfilled
      rw [hv] at hfilled
      refine ⟨v, hv, hfilled, fun p hp => ?_, fun hhole => ?_⟩
      · have hname : p.name? = some k := by simpa using List.of_mem_filter hp
        cases p with
        | literal text => cases hname
        | hole reserved name =>
            rw [Piece.filled, Option.some.inj hname, hv]
            exact filling_eq_nil
      · have hkey : k ∈ m.parameters.keys := by
          rcases Method.mem_requiredParameters.1 hk with hreq | hk'
          · exact Method.mem_keys_of_requires hreq
          · exact absurd hk' hhole
        have hnull : v ≠ .null := by
          rintro rfl
          cases hfilled
        have hcarried : (m.carried t).get? k = some v := by
          rw [Method.carried, Table.get?_filter, hv]
          simp [Option.filter, hhole, hnull]
        rcases placed_of_mem_keys h hkey hcarried with hbody | hquery
        · exact .inl hbody
        · refine .inr ((exists_mem_parse h k).trans ?_)
          simp [hquery]

/-- A method with a required parameter in the query. -/
def listNotes : Method where
  id := some "notes.list"
  verb := some "GET"
  path := some "notes"
  flatPath := none
  description := none
  parameters := Table.ofList [
    ("ids", ⟨"string", .query, true, .null, true, none, none, none, none, ∅⟩)]
  parameterOrder := ["ids"]
  request := none
  response := none
  scopes := []
  unknown := ∅

/-- A list with an item has its pair. -/
theorem required_present_listNotes :
    ∃ r, resolveRequest ∅ (Table.ofList [("ids", .list [.int 7])]) listNotes notesDocument none = .ok r ∧
      (r.InBody "ids" ∨ r.InQuery "ids") := by
  obtain ⟨r, h, -⟩ := exists_of_toOption_map (f := Request.url) (b := "notes")
    (x := resolveRequest ∅ (Table.ofList [("ids", .list [.int 7])]) listNotes notesDocument none)
    (by decide +kernel)
  refine ⟨r, h, ?_⟩
  obtain ⟨t, path, ht, -, -, hrequired⟩ := required_present h
  obtain ⟨v, hv, -, -, hplaced⟩ := hrequired "ids" (by decide +kernel)
  have hresolved : resolveParameters ∅ (Table.ofList [("ids", .list [.int 7])]) listNotes
      notesDocument.parameters = .ok (Table.ofList [("ids", .list [.int 7])]) := by cbv
  rw [hresolved] at ht
  cases ht
  cases hv
  rcases hplaced (by decide +kernel) with hbody | hquery
  · exact .inl hbody
  · exact .inr (hquery.2 rfl)

/-- A method whose path is nothing but what it is given. -/
def copyNote : Method :=
  { listNotes with
    id := some "notes.copy", path := some "\x7b+from\x7d\x7b+to\x7d", parameters := ∅, parameterOrder := [] }

/-- Lists of nothing count as given, and leave nothing: no character in the path, no pair in the query. And of
slashes that a path begins with, the URL has one. -/
theorem required_hollow :
    (∃ r, resolveRequest ∅ (Table.ofList [("id", .list [])]) updateNote notesDocument none = .ok r ∧
      "id" ∈ updateNote.requiredParameters ∧ .hole false ['i', 'd'] ∈ updateNote.places "id" ∧
      r.url = "notes/") ∧
    (∃ r, resolveRequest ∅ (Table.ofList [("ids", .tuple [])]) listNotes notesDocument none = .ok r ∧
      "ids" ∈ listNotes.requiredParameters ∧ "ids" ∉ listNotes.holes ∧ ¬ r.InBody "ids" ∧
      ¬ r.InQuery "ids") ∧
    (∃ r, resolveRequest ∅ (Table.ofList [("from", .str "/"), ("to", .str "/")]) copyNote
        { notesDocument with rootUrl := some "https://a.example/" } none = .ok r ∧
      "from" ∈ copyNote.holes ∧ "to" ∈ copyNote.holes ∧ r.url = "https://a.example/") := by
  refine ⟨?_, ?_, ?_⟩
  · obtain ⟨r, h, hurl⟩ := exists_of_toOption_map (f := Request.url) (b := "notes/")
      (x := resolveRequest ∅ (Table.ofList [("id", .list [])]) updateNote notesDocument none)
      (by decide +kernel)
    exact ⟨r, h, by decide +kernel, by decide +kernel, hurl⟩
  · obtain ⟨r, h, hr⟩ := exists_of_toOption_map (f := fun r => (r.query, r.body)) (b := ("", none))
      (x := resolveRequest ∅ (Table.ofList [("ids", .tuple [])]) listNotes notesDocument none)
      (by decide +kernel)
    obtain ⟨hquery, hbody⟩ := Prod.mk.inj hr
    refine ⟨r, h, by decide +kernel, by decide +kernel, ?_, ?_⟩
    · rintro ⟨es, x, hmap, -⟩
      rw [hbody] at hmap
      cases hmap
    · rintro ⟨x, hx⟩
      rw [hquery] at hx
      cases hx
  · obtain ⟨r, h, hurl⟩ := exists_of_toOption_map (f := Request.url) (b := "https://a.example/")
      (x := resolveRequest ∅ (Table.ofList [("from", .str "/"), ("to", .str "/")]) copyNote
        { notesDocument with rootUrl := some "https://a.example/" } none) (by decide +kernel)
    exact ⟨r, h, by decide +kernel, by decide +kernel, hurl⟩

end ApiDiscovery
