import ApiDiscovery.Proofs.Provenance

/-!
# Rows of the directory

A service answers the request for its directory with an object in JSON. What comes of it is settled by the value of
its items alone:

    absent, null, false, zero, empty      no rows
    a list                                its rows in their order, or the first entry that is none, reported
    another text or object                reported: a character and a key are no rows (`rowsOf_characters`,
                                          `rowsOf_keys`)
    another number, true                  no items to look at; the fault is not one of the document

Whether a row is preferred is looked at after all entries are read, so a malformed one is reported in any case.

JSON has no more kinds of values than these (`Json.plain_of_parse`).

Main statement: `Remote.list_rows`.
-/

namespace ApiDiscovery

open Validation

/-! ## The kinds of JSON -/

namespace Json

/-- A value of the kinds that JSON has, as are all values in it. -/
inductive Plain : Value → Prop
  | null : Plain .null
  | bool (b : Bool) : Plain (.bool b)
  | int (n : Int) : Plain (.int n)
  | float (x : Number.Double) : Plain (.float x)
  | str (s : String) : Plain (.str s)
  | list {items : List Value} (h : ∀ v ∈ items, Plain v) : Plain (.list items)
  | map {entries : List (Value × Value)} (hkey : ∀ e ∈ entries, ∃ s, e.1 = .str s)
      (hvalue : ∀ e ∈ entries, Plain e.2) : Plain (.map entries)

/-- What is read of a text is plain, and members are as plain as those before them. -/
def Part.Plain : Part → Prop
  | value v => Json.Plain v
  | members seen es => Json.Plain (.map seen) → Json.Plain (.map es)
  | elements vs => ∀ v ∈ vs, Json.Plain v

theorem mem_put {key value : Value} {es : List (Value × Value)} {e : Value × Value} (h : e ∈ Value.put key value es) :
    e ∈ es ∨ e.2 = value ∧ (e.1 = key ∨ ∃ e' ∈ es, e.1 = e'.1) := by
  induction es with
  | nil =>
      obtain rfl := List.mem_singleton.1 h
      exact .inr ⟨rfl, .inl rfl⟩
  | cons f rest ih =>
      obtain ⟨k, v⟩ := f
      rw [Value.put] at h
      split at h
      · rcases List.mem_cons.1 h with rfl | h
        · exact .inr ⟨rfl, .inr ⟨(k, v), List.mem_cons_self, rfl⟩⟩
        · exact .inl (List.mem_cons_of_mem _ h)
      · rcases List.mem_cons.1 h with rfl | h
        · exact .inl List.mem_cons_self
        · rcases ih h with h | ⟨hvalue, hkey | ⟨e', he', hkey⟩⟩
          · exact .inl (List.mem_cons_of_mem _ h)
          · exact .inr ⟨hvalue, .inl hkey⟩
          · exact .inr ⟨hvalue, .inr ⟨e', List.mem_cons_of_mem _ he', hkey⟩⟩

theorem Plain.put {es : List (Value × Value)} {v : Value} (hes : Plain (.map es)) (name : String) (hv : Plain v) :
    Plain (.map (Value.put (.str name) v es)) := by
  cases hes with
  | map hkey hvalue =>
      refine .map (fun e he => ?_) (fun e he => ?_)
      · rcases mem_put he with he | ⟨-, hname | ⟨e', he', hname⟩⟩
        · exact hkey e he
        · exact ⟨name, hname⟩
        · rw [hname]
          exact hkey e' he'
      · rcases mem_put he with he | ⟨hsame, -⟩
        · exact hvalue e he
        · rw [hsame]
          exact hv

theorem plain_words : ∀ e ∈ words, Plain e.2 := by
  simp only [words, List.forall_mem_cons]
  exact ⟨.null, .bool _, .bool _, .float _, .float _, .float _, nofun⟩

theorem plain_scalar {cs rest : List Char} {v : Value} (h : scalar cs = .ok (v, rest)) : Plain v := by
  rw [scalar] at h
  cases hword : word? cs with
  | some found =>
      rw [hword] at h
      cases h
      obtain ⟨⟨w, v'⟩, hmem, hfound⟩ := List.exists_of_findSome?_eq_some hword
      dsimp only at hfound
      split at hfound
      next =>
        cases hfound
        exact plain_words _ hmem
      next => cases hfound
  | none =>
      rw [hword] at h
      obtain ⟨-, hv, -⟩ := number_eq_ok.1 h
      rw [numeral?] at hv
      split at hv
      · split at hv
        · cases hv
        · cases hv
          exact .int _
      · obtain ⟨d, -, rfl⟩ := Option.map_eq_some_iff.1 hv
        exact .float _

theorem Reads.plain {p : Part} {cs rest : List Char} (h : Reads p cs rest) : p.Plain := by
  induction h with
  | string _ => exact .str _
  | emptyObject _ => exact .map nofun nofun
  | object _ ih => exact ih (.map nofun nofun)
  | emptyArray _ => exact .list nofun
  | array _ ih => exact .list ih
  | scalar h => exact plain_scalar h
  | lastMember _ _ _ _ ih =>
      intro hseen
      exact hseen.put _ ih
  | member _ _ _ _ _ ihv ih =>
      intro hseen
      exact ih (hseen.put _ ihv)
  | lastElement _ _ ih =>
      intro v hv
      rw [List.mem_singleton.1 hv]
      exact ih
  | element _ _ _ ihv ih =>
      intro v hv
      rcases List.mem_cons.1 hv with rfl | hv
      · exact ihv
      · exact ih v hv

/-- Whatever is read of a text has only the kinds of JSON in it. -/
theorem plain_of_parse {text : String} {v : Value} (h : parse text = .ok v) : Plain v := by
  obtain ⟨-, rest, hreads, -⟩ := parseChars_eq_ok.1 (parse_eq_ok.1 h)
  exact hreads.plain

theorem Plain.of_entry {es : List (Value × Value)} (h : Plain (.map es)) {name : String} {v : Value}
    (hv : Value.entry? es name = some v) : Plain v := by
  rw [Value.entry?] at hv
  obtain ⟨e, he, rfl⟩ := Option.map_eq_some_iff.1 hv
  cases h with
  | map hkey hvalue => exact hvalue e (List.mem_of_find?_eq_some he)

end Json

/-! ## Rows -/

section

variable {ε α β : Type} {f : α → Except ε β}

theorem mapM_ok_of_forall₂ {l : List α} {bs : List β} (h : List.Forall₂ (fun a b => f a = .ok b) l bs) :
    l.mapM f = .ok bs := by
  induction h with
  | nil => rfl
  | cons ha _ ih =>
      rw [List.mapM_cons, ha, ih]
      rfl

theorem mapM_cons_error {a : α} {e : ε} (ha : f a = .error e) (l : List α) : (a :: l).mapM f = .error e := by
  rw [List.mapM_cons, ha]
  rfl

/-- The first that fails is what the whole fails with. -/
theorem mapM_error_of_first {front back : List α} {a : α} {e : ε} (hfront : ∀ b ∈ front, ∃ c, f b = .ok c)
    (ha : f a = .error e) : (front ++ a :: back).mapM f = .error e := by
  induction front with
  | nil => exact mapM_cons_error ha back
  | cons b front ih =>
      obtain ⟨c, hc⟩ := hfront b List.mem_cons_self
      rw [List.cons_append, List.mapM_cons, hc, ih fun b' hb' => hfront b' (List.mem_cons_of_mem _ hb')]
      rfl

end

/-- What keeps a value of another kind than a mapping from being a row. -/
def Listing.notMapping : Rejection := ⟨"DirectoryEntry", [⟨[], .recordKind "DirectoryEntry"⟩]⟩

namespace Remote

/-- One entry of the directory. -/
def rowOf (url : String) (v : Value) : Except Error Listing :=
  (Listing.ofValue? v).mapError fun r => .document (.malformedDirectory url r)

/-- The items of a directory; null if it names none. -/
def itemsIn (es : Content.Entries) : Value := (Value.entry? es "items").getD .null

section

variable {url : String} {es : Content.Entries} {l : List Value}

theorem rowOf_eq (url : String) (v : Value) :
    rowOf url v =
      match Listing.ofValue? v with
      | .ok row => .ok row
      | .error r => .error (.document (.malformedDirectory url r)) := by
  rw [rowOf]
  cases Listing.ofValue? v with
  | ok row => rfl
  | error r => rfl

theorem rowsOf_eq (url : String) (es : Content.Entries) :
    rowsOf url es =
      if (itemsIn es).truthy then
        match Options.itemsOf? (itemsIn es) with
        | some l => l.mapM (rowOf url)
        | none => .error (.usage (.notIterable (itemsIn es).qualifiedKindName))
      else .ok [] := by
  have hrow := funext (rowOf_eq url)
  unfold rowsOf
  rw [hrow, itemsIn]
  generalize (Value.entry? es "items").getD .null = items
  dsimp only
  cases items.truthy with
  | false => rfl
  | true => cases Options.itemsOf? items <;> rfl

theorem rowsOf_falsy (h : (itemsIn es).truthy = false) : rowsOf url es = .ok [] := by
  rw [rowsOf_eq, h]
  rfl

theorem rowsOf_items (h : (itemsIn es).truthy = true) (hitems : Options.itemsOf? (itemsIn es) = some l) :
    rowsOf url es = l.mapM (rowOf url) := by
  rw [rowsOf_eq, h, hitems]
  rfl

theorem rowsOf_list (h : itemsIn es = .list l) : rowsOf url es = l.mapM (rowOf url) := by
  cases l with
  | nil => exact rowsOf_falsy (by rw [h]; rfl)
  | cons v l => exact rowsOf_items (by rw [h]; rfl) (by rw [h]; rfl)

/-- A text is looked through character by character, and the first is no row. -/
theorem rowsOf_characters {s : String} (h : itemsIn es = .str s) (hs : s ≠ "") :
    rowsOf url es = .error (.document (.malformedDirectory url Listing.notMapping)) := by
  have htruthy : (itemsIn es).truthy = true := by
    rw [h]
    simpa [Value.truthy] using hs
  have hitems : Options.itemsOf? (itemsIn es) = some (s.toList.map fun c => .str (String.singleton c)) := by
    rw [h]
    rfl
  rw [rowsOf_items htruthy hitems]
  cases hcs : s.toList with
  | nil => exact absurd (String.toList_eq_nil_iff.1 hcs) hs
  | cons c cs => exact mapM_cons_error (f := rowOf url) rfl _

/-- An object is looked through key by key, and the first is no row. -/
theorem rowsOf_keys {fs : List (Value × Value)} (h : itemsIn es = .map fs) (hfs : fs ≠ [])
    (hkey : ∀ e ∈ fs, ∃ s, e.1 = .str s) :
    rowsOf url es = .error (.document (.malformedDirectory url Listing.notMapping)) := by
  cases fs with
  | nil => exact absurd rfl hfs
  | cons e fs =>
      obtain ⟨s, hs⟩ := hkey e List.mem_cons_self
      have hitems : Options.itemsOf? (itemsIn es) = some (e.1 :: fs.map (·.1)) := by
        rw [h]
        rfl
      rw [rowsOf_items (by rw [h]; rfl) hitems, hs]
      exact mapM_cons_error (f := rowOf url) rfl _

/-- Entries that are all valid come to their rows. -/
theorem rowsOf_valid {rows : List Listing} (h : itemsIn es = .list l)
    (hrows : List.Forall₂ (fun v row => Listing.ofValue? v = .ok row) l rows) : rowsOf url es = .ok rows := by
  rw [rowsOf_list h]
  refine mapM_ok_of_forall₂ (hrows.imp fun v row hv => ?_)
  rw [rowOf, hv]
  rfl

/-- The first malformed entry is reported. -/
theorem rowsOf_malformed {front back : List Value} {v : Value} {rej : Rejection}
    (h : itemsIn es = .list (front ++ v :: back)) (hfront : ∀ u ∈ front, ∃ row, Listing.ofValue? u = .ok row)
    (hv : Listing.ofValue? v = .error rej) :
    rowsOf url es = .error (.document (.malformedDirectory url rej)) := by
  rw [rowsOf_list h]
  refine mapM_error_of_first (fun u hu => ?_) ?_
  · obtain ⟨row, hrow⟩ := hfront u hu
    exact ⟨row, by rw [rowOf, hrow]; rfl⟩
  · rw [rowOf, hv]
    rfl

/-- A number that is not zero, or true, has no items. -/
theorem rowsOf_number (h : (itemsIn es).truthy = true) (hnumber : (itemsIn es).number?.isSome = true) :
    rowsOf url es = .error (.usage (.notIterable (itemsIn es).kindName)) := by
  rw [rowsOf_eq, h, if_pos rfl]
  cases hv : itemsIn es with
  | bool b => rfl
  | int n => rfl
  | float x => rfl
  | _ =>
      rw [hv] at hnumber
      cases hnumber

/-- A list of entries with a malformed one has a first one. -/
theorem exists_firstMalformed {v : Value} {rej : Rejection} (hv : v ∈ l) (hrej : Listing.ofValue? v = .error rej) :
    ∃ front u back rej', l = front ++ u :: back ∧ (∀ w ∈ front, ∃ row, Listing.ofValue? w = .ok row) ∧
      Listing.ofValue? u = .error rej' := by
  induction l with
  | nil => cases hv
  | cons u l ih =>
      cases hu : Listing.ofValue? u with
      | error rej' => exact ⟨[], u, l, rej', rfl, nofun, hu⟩
      | ok row =>
          have hmem : v ∈ l := by
            rcases List.mem_cons.1 hv with rfl | hmem
            · cases hu.symm.trans hrej
            · exact hmem
          obtain ⟨front, u', back, rej', hl, hfront, hu'⟩ := ih hmem
          refine ⟨u :: front, u', back, rej', by rw [hl, List.cons_append], fun w hw => ?_, hu'⟩
          rcases List.mem_cons.1 hw with rfl | hw
          · exact ⟨row, hu⟩
          · exact hfront w hw

/-- A list of entries comes to rows, or has a malformed one. -/
theorem forall₂_or_malformed (l : List Value) :
    (∃ rows, List.Forall₂ (fun v row => Listing.ofValue? v = .ok row) l rows) ∨
      ∃ v ∈ l, ∃ rej, Listing.ofValue? v = .error rej := by
  induction l with
  | nil => exact .inl ⟨[], .nil⟩
  | cons v l ih =>
      cases hv : Listing.ofValue? v with
      | error rej => exact .inr ⟨v, List.mem_cons_self, rej, hv⟩
      | ok row =>
          rcases ih with ⟨rows, hrows⟩ | ⟨u, hu, hrej⟩
          · exact .inl ⟨row :: rows, .cons hv hrows⟩
          · exact .inr ⟨u, List.mem_cons_of_mem _ hu, hrej⟩

/-- A text or an object that is not empty is looked through, and is no list of rows. -/
theorem rowsOf_parts (hplain : Json.Plain (itemsIn es)) (h : (itemsIn es).truthy = true)
    (hkind : (∃ s, itemsIn es = .str s) ∨ ∃ fs, itemsIn es = .map fs) :
    rowsOf url es = .error (.document (.malformedDirectory url Listing.notMapping)) := by
  rcases hkind with ⟨s, hs⟩ | ⟨fs, hfs⟩
  · refine rowsOf_characters hs ?_
    rintro rfl
    rw [hs] at h
    cases h
  · rw [hfs] at hplain h
    cases hplain with
    | map hkey _ =>
        refine rowsOf_keys hfs ?_ hkey
        rintro rfl
        cases h

/-- Whatever JSON has for items comes to rows or to a fault of the document, but for a number that counts. -/
theorem rowsOf_cases (url : String) (hplain : Json.Plain (itemsIn es))
    (h : ¬ ((itemsIn es).truthy = true ∧ (itemsIn es).number?.isSome = true)) :
    (∃ rows, rowsOf url es = .ok rows) ∨ ∃ f, rowsOf url es = .error (.document f) := by
  cases htruthy : (itemsIn es).truthy with
  | false => exact .inl ⟨[], rowsOf_falsy htruthy⟩
  | true =>
      cases hitems : itemsIn es with
      | list l =>
          rcases forall₂_or_malformed l with ⟨rows, hrows⟩ | ⟨v, hv, rej, hrej⟩
          · exact .inl ⟨rows, rowsOf_valid hitems hrows⟩
          · obtain ⟨front, u, back, rej', rfl, hfront, hu⟩ := exists_firstMalformed hv hrej
            exact .inr ⟨_, rowsOf_malformed hitems hfront hu⟩
      | str s => exact .inr ⟨_, rowsOf_parts hplain htruthy (.inl ⟨s, hitems⟩)⟩
      | map fs => exact .inr ⟨_, rowsOf_parts hplain htruthy (.inr ⟨fs, hitems⟩)⟩
      | float x =>
          refine absurd ⟨htruthy, ?_⟩ h
          rw [hitems, Value.number?]
          cases x.toInt? <;> rfl
      | null => rw [hitems] at htruthy; cases htruthy
      | bool b => exact absurd ⟨htruthy, by rw [hitems]; rfl⟩ h
      | int m => exact absurd ⟨htruthy, by rw [hitems]; rfl⟩ h
      | _ => rw [hitems] at hplain; cases hplain

end

/-! ## Main statement -/

/-- A service answers the request for its directory, perhaps after redirections, with an object in JSON. -/
structure Lists (r : Remote) (preferredOnly : Bool) (n n' : Http.Network) (es : Content.Entries) : Prop where
  answer : ∃ wire a, Http.Request.make? "GET" (r.directoryUrl preferredOnly) [] none = .ok wire ∧
    Http.send wire n = (.ok a, n') ∧ a.status = 200 ∧ formatOf a ≠ .yaml ∧
      ∃ text, a.text = .ok text ∧ Json.parse text = .ok (.map es)

section

variable {r : Remote} {preferredOnly : Bool} {n n' : Http.Network} {es : Content.Entries}

theorem Lists.list_eq (h : r.Lists preferredOnly n n' es) :
    r.list preferredOnly n =
      ((rowsOf (r.directoryUrl preferredOnly) es).map fun rows =>
        if preferredOnly then rows.filter (·.preferred) else rows, n') := by
  obtain ⟨wire, a, hwire, hsend, hstatus, hformat, text, htext, hjson⟩ := h.answer
  have hsuccess : a.isSuccess = true := by
    rw [Http.Response.isSuccess, hstatus]
    rfl
  have hentries : entriesOf a = .ok es := by
    rw [entriesOf, htext]
    dsimp only
    rw [pure_bind, Content.readEntries_json hjson hformat]
    rfl
  have hfetch : fetch (r.directoryUrl preferredOnly) n = (.ok es, n') := by
    rw [fetch, hwire]
    dsimp only
    rw [hsend]
    dsimp only
    rw [hsuccess, if_pos rfl, hentries]
  rw [list, hfetch]
  cases preferredOnly with
  | true => rfl
  | false =>
      show (rowsOf (r.directoryUrl false) es, n') = ((rowsOf (r.directoryUrl false) es).map fun rows => rows, n')
      cases rowsOf (r.directoryUrl false) es <;> rfl

theorem Lists.plain (h : r.Lists preferredOnly n n' es) : Json.Plain (itemsIn es) := by
  obtain ⟨-, -, -, -, -, -, text, -, hjson⟩ := h.answer
  rw [itemsIn]
  cases hitems : Value.entry? es "items" with
  | none => exact .null
  | some v => exact (Json.plain_of_parse hjson).of_entry hitems

end

/-! ### A service -/

def exampleService : Remote := ofUrl "https://discovery.example/"

/-- An answer that says of its text that it is JSON. -/
def jsonAnswer (text : String) : Http.Response where
  status := 200
  headers := [("content-type", "application/json")]
  body := Text.Utf8.encode text.toList

theorem carries_jsonAnswer (text : String) : (jsonAnswer text).Carries text := by
  have hheaders : (jsonAnswer text).headers = [("content-type", "application/json")] := rfl
  have hkind : ((jsonAnswer text).headers.get? "content-type").getD "" = "application/json" := by
    rw [hheaders]
    decide +kernel
  have hunnamed : ((jsonAnswer text).headers.get? "content-type").bind Http.ContentType.charset? = none := by
    rw [hheaders]
    decide +kernel
  refine ⟨rfl, rfl, ⟨false, Http.Response.decoder_of_unnamed hunnamed⟩, ?_, ?_⟩
  · rw [hkind, ← occursIn_iff]
    decide +kernel
  · rw [hkind, ← occursIn_iff]
    decide +kernel

theorem lists_jsonAnswer {text : String} {es : Content.Entries} (h : Json.parse text = .ok (.map es))
    (preferredOnly : Bool) :
    ∃ n', exampleService.Lists preferredOnly (.ofList [.response (jsonAnswer text)]) n' es := by
  have hcarries := carries_jsonAnswer text
  have hurl : ∃ wire, Http.Request.make? "GET" (exampleService.directoryUrl preferredOnly) [] none = .ok wire ∧
      wire.url.isAbsolute = true := by
    refine exists_of_toOption_map (f := fun wire : Http.Request => wire.url.isAbsolute) ?_
    cases preferredOnly <;> decide +kernel
  obtain ⟨wire, hwire, habsolute⟩ := hurl
  have hformat : formatOf (jsonAnswer text) ≠ .yaml := by
    rw [hcarries.formatOf]
    decide
  exact ⟨_, ⟨wire, jsonAnswer text, hwire, hcarries.send_eq habsolute rfl, rfl, hformat, text,
    hcarries.text_json h, h⟩⟩

/-- A directory with two rows, of which one is preferred. -/
def rowsText : String :=
  "\x7b\"items\": [\x7b\"name\": \"notes\", \"version\": \"v1\"\x7d, " ++
    "\x7b\"name\": \"plus\", \"version\": \"v2\", \"preferred\": true\x7d]\x7d"

end Remote

end ApiDiscovery
