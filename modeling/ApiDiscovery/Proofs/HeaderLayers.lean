import ApiDiscovery.Proofs.Layering
import ApiDiscovery.Proofs.Presence
import ApiDiscovery.Proofs.Sending
import ApiDiscovery.Proofs.WrittenQuery

/-!
# Layers of a header

The header that is sent comes of layers: what is given for a client, over what is given for its factory, over the
fields that every request has. A name is the same in any letter case for whoever gets the header, while layers are
laid over each other as tables, spelling by spelling:

    one spelling     the value of the highest layer that has it (`Table.Stacks`)
    one name         the values of all its spellings, those of the highest layer among them
    on the way       nothing is added to a name that a layer sets, nor taken from it; only the credentials of a URL
                     replace what is said of the authorization (`Request.make?_values`)

So a name has one value, that of the highest layer, exactly if all layers that set it spell it alike.

Main statement: `Factory.header_sent`.
-/

namespace ApiDiscovery

open Http

/-! ## Names and spellings -/

namespace Http.Headers

theorem values_congr {a b : String} (h : sameName a b = true) (g : Headers) : g.values a = g.values b := by
  have hsame : (fun f : String × String => sameName f.1 a) = fun f => sameName f.1 b := by
    funext f
    rw [Bool.eq_iff_iff, sameName_iff, sameName_iff, sameName_iff.1 h]
  rw [values, values, hsame]

theorem contains_iff {h : Headers} {name : String} : h.contains name = true ↔ h.values name ≠ [] := by
  rw [contains, List.any_eq_true, values, Ne, List.map_eq_nil_iff, List.filter_eq_nil_iff]
  push Not
  exact Iff.rfl

theorem contains_congr {a b : String} (h : sameName a b = true) (g : Headers) : g.contains a = g.contains b := by
  rw [Bool.eq_iff_iff, contains_iff, contains_iff, values_congr h]

theorem contains_of_values_eq {g h : Headers} {name : String} (hvalues : g.values name = h.values name)
    (hset : h.contains name = true) : g.contains name = true := by
  rw [contains_iff, hvalues]
  exact contains_iff.1 hset

/-- A name that is not set is another one than a name that is. -/
theorem sameName_eq_false_of_contains {h : Headers} {own name : String} (hown : h.contains own = false)
    (hset : h.contains name = true) : sameName own name = false := by
  rw [Bool.eq_false_iff]
  intro hsame
  rw [contains_congr hsame, hset] at hown
  cases hown

/-- A field that stands only where its name is not set has no value for a name that is. -/
theorem values_ofUnset {h : Headers} {name : String} (hset : h.contains name = true) (own value : String)
    (without : Bool) : Headers.values (if h.contains own || without then [] else [(own, value)]) name = [] := by
  cases hown : h.contains own with
  | true => rfl
  | false =>
      cases without with
      | true => rfl
      | false =>
          rw [Bool.or_self, if_neg Bool.false_ne_true, values_cons, sameName_eq_false_of_contains hown hset]
          rfl

theorem values_set (h : Headers) (name value other : String) :
    (h.set name value).values other = if sameName name other then [value] else h.values other := by
  induction h with
  | nil =>
      rw [set, values_cons]
      rfl
  | cons f rest ih =>
      rw [set]
      cases hf : sameName f.1 name with
      | true =>
          have hother : sameName f.1 other = sameName name other := by
            rw [Bool.eq_iff_iff, sameName_iff, sameName_iff, sameName_iff.1 hf]
          rw [if_pos rfl, values_cons, values_erase, values_cons, hother]
          cases sameName name other <;> rfl
      | false =>
          rw [if_neg Bool.false_ne_true, values_cons, values_cons, ih]
          cases hname : sameName name other with
          | false => rfl
          | true =>
              -- The field has another name than the one that is set, so it is not of this one either.
              have hother : sameName f.1 other = false := by
                rw [Bool.eq_false_iff] at hf ⊢
                intro ho
                exact hf (sameName_iff.2 ((sameName_iff.1 ho).trans (sameName_iff.1 hname).symm))
              rw [hother]
              rfl

/-- A default leaves the values of a name that is set as they are. -/
theorem values_setDefault {h : Headers} {other : String} (hset : h.contains other = true) (name value : String) :
    (h.setDefault name value).values other = h.values other := by
  rw [setDefault]
  cases hname : h.contains name with
  | true => rfl
  | false =>
      rw [if_neg Bool.false_ne_true, values_append, values_cons, sameName_eq_false_of_contains hname hset]
      exact List.append_nil _

theorem values_setDefaults (fields : Headers) {h : Headers} {other : String} (hset : h.contains other = true) :
    (fields.foldl (fun h f => h.setDefault f.1 f.2) h).values other = h.values other := by
  induction fields generalizing h with
  | nil => rfl
  | cons f fields ih =>
      have hkept := values_setDefault hset f.1 f.2
      rw [List.foldl_cons, ih (contains_of_values_eq hkept hset), hkept]

theorem get?_rows_of_values {h : Headers} {name : String} (hvalues : h.values name ≠ []) :
    h.rows.get? (Text.lowerAscii name) = some (", ".intercalate (h.values name)) := by
  rw [get?_rows, get?]
  split
  next hnone => exact absurd hnone hvalues
  next => rfl

end Http.Headers

/-! ## What is made ready -/

namespace Http

open Headers

/-- The fields that a request has of itself are of names that its header does not set. -/
theorem values_ownFields {h : Headers} {name : String} (hset : h.contains name = true) (verb : String) (u : Url) :
    (ownFields verb u h).values name = [] := by
  rw [ownFields, values_append, values_ofUnset hset, Bool.or_assoc, values_ofUnset hset]
  rfl

/-- What the user in a URL gives for the authorization. -/
def authorization? (u : Url) : Option String :=
  let user := u.userinfo.toList
  let name := Percent.decode (user.takeWhile (· != ':'))
  let password := Percent.decode ((user.dropWhile (· != ':')).drop 1)
  if name.isEmpty && password.isEmpty then none
  else some ("Basic " ++ String.ofList (Text.Base64.encode (Text.Utf8.encode (name ++ ':' :: password))))

theorem values_credentials (u : Url) (h : Headers) (name : String) :
    (credentials u h).values name =
      (((authorization? u).filter fun _ => sameName "Authorization" name).map ([·])).getD (h.values name) := by
  rw [credentials, authorization?]
  split
  · rfl
  · rw [values_set]
    cases sameName "Authorization" name <;> rfl

theorem Request.make?_ok {verb url : String} {layered : Headers} {body : Option Value} {w : Request}
    (h : Request.make? verb url layered body = .ok w) :
    ∃ fields : Headers, w.headers = credentials w.url
      (ownFields w.verb w.url (fields.foldl (fun (h : Headers) f => h.setDefault f.1 f.2)
          ((if layered.contains "Accept" then [] else [("Accept", "*/*")]) ++ layered)) ++
        fields.foldl (fun (h : Headers) f => h.setDefault f.1 f.2)
          ((if layered.contains "Accept" then [] else [("Accept", "*/*")]) ++ layered)) := by
  unfold Request.make? at h
  cases hurl : (Url.parse url).bind Url.rooted with
  | error f => rw [hurl] at h; cases h
  | ok u =>
      rw [hurl] at h
      simp only [pure_bind] at h
      cases hheader : headerFault? layered with
      | some f => rw [hheader] at h; cases h
      | none =>
          rw [hheader] at h
          cases hbody : Body.ofValue? body with
          | error f => rw [hbody] at h; cases h
          | ok b =>
              rw [hbody] at h
              cases h
              exact ⟨b.fields, rfl⟩

/-- The values of a name that the header of a call sets are sent as they are. Only the credentials of the URL stand
against them. -/
theorem Request.make?_values {verb url : String} {layered : Headers} {body : Option Value} {w : Request}
    (h : Request.make? verb url layered body = .ok w) {name : String} (hset : layered.contains name = true) :
    w.headers.values name =
      (((authorization? w.url).filter fun _ => sameName "Authorization" name).map ([·])).getD
        (layered.values name) := by
  obtain ⟨fields, hheaders⟩ := make?_ok h
  have haccept : Headers.values (if layered.contains "Accept" then [] else [("Accept", "*/*")]) name = [] := by
    have hunset := values_ofUnset hset "Accept" "*/*" false
    rwa [Bool.or_false] at hunset
  have hbelow : Headers.contains
      ((if layered.contains "Accept" then [] else [("Accept", "*/*")]) ++ layered) name = true := by
    refine contains_of_values_eq ?_ hset
    rw [values_append, haccept, List.nil_append]
  have hkept := values_setDefaults fields hbelow
  rw [values_append, haccept, List.nil_append] at hkept
  rw [hheaders, values_credentials, values_append, values_ownFields (contains_of_values_eq hkept hset), hkept]
  rfl

end Http

/-! ## Layers -/

namespace Table

/-- The spellings that a table has of a name. -/
def spellings (t : Table String) (name : String) : List String := t.keys.filter (sameName · name)

/-- Whether a table sets a name, in any spelling. -/
def setsName (t : Table String) (name : String) : Bool := Headers.contains t.entries name

/-- A table has of every spelling the value of the highest of some layers, from the top on, that has it. -/
def Stacks (t : Table α) (layers : List (Table α)) : Prop := ∀ k, t.get? k = layers.findSome? (·.get? k)

theorem nodup_spellings (t : Table String) (name : String) : (t.spellings name).Nodup :=
  t.distinct.filter _

theorem mem_spellings {t : Table String} {name k : String} :
    k ∈ t.spellings name ↔ sameName k name = true ∧ ∃ v, t.get? k = some v := by
  rw [spellings, List.mem_filter, ← contains_iff, contains, Option.isSome_iff_exists, and_comm]

theorem setsName_iff {t : Table String} {name : String} : t.setsName name = true ↔ t.spellings name ≠ [] := by
  rw [setsName, Headers.contains, List.any_eq_true, Ne, spellings, List.filter_eq_nil_iff]
  push Not
  rw [keys]
  simp only [List.mem_map, exists_exists_and_eq_and]

/-- The values of a name in a table are those of its spellings. -/
theorem values_eq_filterMap (t : Table String) (name : String) :
    Headers.values t.entries name = (t.spellings name).filterMap t.get? := by
  have hkeep : ∀ es : Headers, (∀ e ∈ es, t.get? e.1 = some e.2) →
      Headers.values es name = ((es.map (·.1)).filter (sameName · name)).filterMap t.get? := by
    intro es hes
    induction es with
    | nil => rfl
    | cons e es ih =>
        have hrest := ih fun e' he' => hes e' (List.mem_cons_of_mem _ he')
        rw [Headers.values_cons, List.map_cons, List.filter_cons]
        cases sameName e.1 name with
        | false => exact hrest
        | true =>
            rw [if_pos rfl, if_pos rfl, List.filterMap_cons, hes e List.mem_cons_self, hrest]
  exact hkeep t.entries fun e he => get?_eq_some.2 he

/-- Every spelling of a name has one value. -/
theorem length_values (t : Table String) (name : String) :
    (Headers.values t.entries name).length = (t.spellings name).length := by
  rw [Headers.values, spellings, keys, List.filter_map, List.length_map, List.length_map]
  rfl

end Table

namespace Http

/-- The layers that set a name all have one spelling of it. -/
def SpelledAlike (layers : List (Table String)) (name : String) : Prop :=
  ∀ t ∈ layers, ∀ t' ∈ layers, ∀ k ∈ t.spellings name, ∀ k' ∈ t'.spellings name, k = k'

section Layers

variable {layers : List (Table String)} {t top : Table String} {name : String}

theorem mem_spellings_stacks (h : t.Stacks layers) {k : String} :
    k ∈ t.spellings name ↔ ∃ l ∈ layers, k ∈ l.spellings name := by
  rw [Table.mem_spellings, h]
  constructor
  · rintro ⟨hsame, v, hv⟩
    obtain ⟨l, hl, hget⟩ := List.exists_of_findSome?_eq_some hv
    exact ⟨l, hl, Table.mem_spellings.2 ⟨hsame, v, hget⟩⟩
  · rintro ⟨l, hl, hk⟩
    obtain ⟨hsame, v, hv⟩ := Table.mem_spellings.1 hk
    refine ⟨hsame, Option.isSome_iff_exists.1 ?_⟩
    rw [List.findSome?_isSome_iff]
    exact ⟨l, hl, by rw [hv]; rfl⟩

/-- No layer above the highest one that sets a name has a spelling of it. -/
theorem findSome?_eq_top (htop : layers.find? (·.setsName name) = some top) {k : String}
    (hk : k ∈ top.spellings name) : layers.findSome? (·.get? k) = top.get? k := by
  induction layers with
  | nil => cases htop
  | cons l below ih =>
      rw [List.find?_cons] at htop
      rw [List.findSome?_cons]
      cases hl : l.setsName name with
      | true =>
          rw [hl] at htop
          cases htop
          obtain ⟨-, v, hv⟩ := Table.mem_spellings.1 hk
          rw [hv]
      | false =>
          rw [hl] at htop
          have hnone : l.get? k = none := by
            by_contra hsome
            obtain ⟨v, hv⟩ := Option.ne_none_iff_exists'.1 hsome
            have hmem := Table.mem_spellings.2 ⟨(Table.mem_spellings.1 hk).1, v, hv⟩
            have hsets := Table.setsName_iff.2 (List.ne_nil_of_mem hmem)
            rw [hl] at hsets
            cases hsets
          rw [hnone]
          exact ih htop

/-- The values of the highest layer that sets a name are among those that layers come to. -/
theorem values_top_subset (h : t.Stacks layers) (htop : layers.find? (·.setsName name) = some top) {v : String}
    (hv : v ∈ Headers.values top.entries name) : v ∈ Headers.values t.entries name := by
  rw [Table.values_eq_filterMap, List.mem_filterMap] at hv ⊢
  obtain ⟨k, hk, hget⟩ := hv
  refine ⟨k, (mem_spellings_stacks h).2 ⟨top, List.mem_of_find?_eq_some htop, hk⟩, ?_⟩
  rw [h, findSome?_eq_top htop hk, hget]

theorem eq_singleton_of_forall_eq {α : Type} {l : List α} (hnodup : l.Nodup) {a : α} (ha : a ∈ l)
    (hall : ∀ b ∈ l, b = a) : l = [a] := by
  have hreplicate := List.eq_replicate_of_mem hall
  have hlength : l.length ≤ 1 := by
    rw [hreplicate] at hnodup
    exact List.nodup_replicate.1 hnodup
  have hpos : 0 < l.length := List.length_pos_of_mem ha
  rw [hreplicate, show l.length = 1 by omega, List.replicate_one]

/-- Layers give a name one value, that of the highest one that sets it, if and only if they spell it alike. -/
theorem single_iff_spelledAlike (h : t.Stacks layers) (htop : layers.find? (·.setsName name) = some top) :
    (∃ v, Headers.values top.entries name = [v] ∧ Headers.values t.entries name = [v]) ↔
      SpelledAlike layers name := by
  have hmem : top ∈ layers := List.mem_of_find?_eq_some htop
  have hsets : top.setsName name = true := List.find?_some (p := fun l : Table String => l.setsName name) htop
  constructor
  · rintro ⟨v, -, hone⟩ l hl l' hl' k hk k' hk'
    have hspelled := (mem_spellings_stacks h).2 ⟨l, hl, hk⟩
    have hspelled' := (mem_spellings_stacks h).2 ⟨l', hl', hk'⟩
    have hlength : (t.spellings name).length = 1 := by
      rw [← Table.length_values, hone]
      rfl
    obtain ⟨a, ha⟩ := List.length_eq_one_iff.1 hlength
    rw [ha] at hspelled hspelled'
    rw [List.mem_singleton.1 hspelled, List.mem_singleton.1 hspelled']
  · intro halike
    obtain ⟨k, hk⟩ := List.exists_mem_of_ne_nil _ (Table.setsName_iff.1 hsets)
    obtain ⟨-, v, hv⟩ := Table.mem_spellings.1 hk
    have hown : top.spellings name = [k] :=
      eq_singleton_of_forall_eq (top.nodup_spellings name) hk fun b hb => halike top hmem top hmem b hb k hk
    have hall : t.spellings name = [k] := by
      refine eq_singleton_of_forall_eq (t.nodup_spellings name) ((mem_spellings_stacks h).2 ⟨top, hmem, hk⟩) ?_
      intro b hb
      obtain ⟨l, hl, hb⟩ := (mem_spellings_stacks h).1 hb
      exact halike l hl top hmem b hb k hk
    refine ⟨v, ?_, ?_⟩
    · rw [Table.values_eq_filterMap, hown, List.filterMap_cons, hv]
      rfl
    · rw [Table.values_eq_filterMap, hall, List.filterMap_cons, h, findSome?_eq_top htop hk, hv]
      rfl

end Layers

end Http

/-! ## Main statement -/

/-- The layers of the header of what a client sends, the highest first: what is given for the client, what is given
for its factory, and the basic fields. -/
def Options.headerLayers (own base : Options) : List (Table String) :=
  [own.headers, base.headers, Transport.basicHeaders]

namespace Factory

/-- A client that a factory makes has the options that are given for it over those of the factory. -/
theorem options_of_fromDocument {f : Factory} {d : Document} {c : Choices} {client : Client}
    (h : f.fromDocument d c = .ok client) :
    ∃ o, Options.coerce c.given c.settings = .ok o ∧ client.options = o.onto f.options := by
  rw [fromDocument] at h
  obtain ⟨-, -, h⟩ := bind_eq_ok.1 h
  obtain ⟨o, ho, h⟩ := bind_eq_ok.1 h
  obtain ⟨opts, hopts, h⟩ := bind_eq_ok.1 h
  rw [Options.layered_eq] at hopts
  cases hopts
  cases hbuild : Client.build d (o.onto f.options) with
  | error e =>
      rw [hbuild] at h
      cases h
  | ok c' =>
      rw [hbuild] at h
      cases h
      refine ⟨o, ?_, Client.options_of_build hbuild⟩
      rw [Choices.options] at ho
      cases hcoerce : Options.coerce c.given c.settings with
      | error e =>
          rw [hcoerce] at ho
          cases ho
      | ok o' =>
          rw [hcoerce] at ho
          cases ho
          rfl

end Factory

/-- A request has the headers of the options of its client. -/
theorem Client.headers_of_request {c : Client} {m : Method} {given : Table Value} {r : Request}
    (h : c.request m given = .ok r) : r.headers = c.options.headers := by
  rw [Client.request] at h
  cases hresolve : resolveRequest c.defaults given m c.document (some c.options) with
  | error e =>
      rw [hresolve] at h
      cases h
  | ok r' =>
      rw [hresolve] at h
      cases h
      rw [resolveRequest] at hresolve
      cases hparameters : resolveParameters c.defaults given m c.document.parameters with
      | error e =>
          rw [hparameters] at hresolve
          cases hresolve
      | ok t =>
          rw [hparameters] at hresolve
          obtain ⟨path, es, -, -, hr⟩ := buildRequest_ok hresolve
          rw [hr]
          rfl

namespace Factory

theorem stacks_layered {o base : Options} {r : Request} (h : r.headers = (o.onto base).headers) (tr : Transport)
    (hown : tr.headers = ∅) :
    (r.headers.onto (tr.headers.onto Transport.basicHeaders)).Stacks (o.headerLayers base) := by
  intro k
  have hempty : (∅ : Table String).get? k = none := rfl
  rw [h, Options.onto_headers, Table.get?_onto, Table.get?_onto, Table.get?_onto, hown, hempty, Option.none_or,
    Options.headerLayers, List.findSome?_cons, List.findSome?_cons, List.findSome?_cons, List.findSome?_nil]
  cases o.headers.get? k with
  | some v => rfl
  | none =>
      cases base.headers.get? k with
      | some v => rfl
      | none =>
          cases Transport.basicHeaders.get? k with
          | some v => rfl
          | none => rfl

/-- What a client of a factory sends through the transport that the factory makes for it. A name that some layer of
the header sets has a value for each of its spellings, that of the highest layer that has the spelling; the values of
the highest layer that sets the name are among them. So it has one value, that of the highest layer, if and only if
all layers that set it spell it alike. Only the authorization is taken from a URL that names a user, whatever the
layers say. Who reads the header finds these values under the name, in one text. -/
theorem header_sent {f : Factory} {c : Choices} {d : Document} {client : Client} {m : Method} {given : Table Value}
    {r : Request} {n : Network} {w : Http.Request} (hclient : f.fromDocument d c = .ok client)
    (hrequest : client.request m given = .ok r) (hsent : (Transport.ofOptions client.options).Sends r n w) :
    ∃ o, Options.coerce c.given c.settings = .ok o ∧
      ∀ name top, (o.headerLayers f.options).find? (·.setsName name) = some top →
        (∀ v, authorization? w.url = some v → sameName "Authorization" name = true →
          w.headers.values name = [v]) ∧
        ((sameName "Authorization" name = true → authorization? w.url = none) →
          (∃ spelled : List String, spelled.Nodup ∧
            (∀ k, k ∈ spelled ↔ ∃ layer ∈ o.headerLayers f.options, k ∈ layer.spellings name) ∧
            w.headers.values name = spelled.filterMap fun k => (o.headerLayers f.options).findSome? (·.get? k)) ∧
          (∀ v ∈ Headers.values top.entries name, v ∈ w.headers.values name) ∧
          ((∃ v, Headers.values top.entries name = [v] ∧ w.headers.values name = [v]) ↔
            SpelledAlike (o.headerLayers f.options) name)) ∧
        w.headers.rows.get? (Text.lowerAscii name) = some (", ".intercalate (w.headers.values name)) := by
  obtain ⟨o, ho, hoptions⟩ := options_of_fromDocument hclient
  have hheaders : r.headers = (o.onto f.options).headers := by
    rw [Client.headers_of_request hrequest, hoptions]
  have hstacks := stacks_layered hheaders (Transport.ofOptions client.options) rfl
  refine ⟨o, ho, fun name top htop => ?_⟩
  have hset : ((Transport.ofOptions client.options).layered r).contains name = true := by
    have hsets := List.find?_some (p := fun l : Table String => l.setsName name) htop
    obtain ⟨k, hk⟩ := List.exists_mem_of_ne_nil _ (Table.setsName_iff.1 hsets)
    have hmem := (mem_spellings_stacks hstacks).2 ⟨top, List.mem_of_find?_eq_some htop, hk⟩
    exact Table.setsName_iff.2 (List.ne_nil_of_mem hmem)
  have hvalues := Request.make?_values hsent.make? hset
  refine ⟨?_, ?_, ?_⟩
  · intro v hv hname
    rw [hvalues, hv, Option.filter_some, if_pos hname]
    rfl
  · intro hfree
    have hkept : w.headers.values name =
        Headers.values ((Transport.ofOptions client.options).layered r) name := by
      rw [hvalues]
      cases hname : sameName "Authorization" name with
      | true =>
          rw [hfree hname]
          rfl
      | false => cases authorization? w.url <;> rfl
    rw [hkept]
    refine ⟨⟨_, Table.nodup_spellings _ name, fun k => mem_spellings_stacks hstacks, ?_⟩, ?_, ?_⟩
    · rw [Transport.layered, Table.values_eq_filterMap]
      exact congrArg (List.filterMap · _) (funext hstacks)
    · intro v hv
      exact values_top_subset hstacks htop hv
    · exact single_iff_spelledAlike hstacks htop
  · -- Neither what a layer sets nor the credentials of a URL are nothing.
    refine Headers.get?_rows_of_values ?_
    rw [hvalues]
    cases (authorization? w.url).filter fun _ => sameName "Authorization" name with
    | some v => exact List.cons_ne_nil v []
    | none => exact Headers.contains_iff.1 hset

/-- A factory that sets a field of its own. -/
def tracedFactory : Factory where
  options := { headers? := some (.ofList [("x-trace", "factory")]) }
  bundle := none
  remote := Remote.ofUrl "https://a.example/"

/-- A method without parameters. -/
def fetchNotes : Method := { listNotes with parameters := ∅, parameterOrder := [] }

/-- The header of the first request that a client with a header of its own sends, where every answer is the empty
response. -/
def firstHeader? (f : Factory) (header : List (String × Value)) : Option Headers :=
  (f.fromDocument rootedDocument { settings := [("headers", .ofFields header)] }).toOption.bind fun client =>
    (client.request fetchNotes ∅).toOption.bind fun r =>
      ((Transport.ofOptions client.options).execute r (.ofList [])).state.sent[0]?.map (·.headers)

theorem sends_of_firstHeader? {f : Factory} {header : List (String × Value)} {h : Headers}
    (hfirst : f.firstHeader? header = some h) :
    ∃ client r w, f.fromDocument rootedDocument { settings := [("headers", .ofFields header)] } = .ok client ∧
      client.request fetchNotes ∅ = .ok r ∧ (Transport.ofOptions client.options).Sends r (.ofList []) w ∧
      w.headers = h := by
  unfold firstHeader? at hfirst
  obtain ⟨client, hclient, hfirst⟩ := Option.bind_eq_some_iff.1 hfirst
  obtain ⟨r, hrequest, hfirst⟩ := Option.bind_eq_some_iff.1 hfirst
  obtain ⟨w, hsent, hheaders⟩ := Option.map_eq_some_iff.1 hfirst
  refine ⟨client, r, w, ?_, ?_, ⟨0, Nat.le_refl _, hsent, .inl rfl⟩, hheaders⟩
  · exact eq_ok_of_toOption hclient
  · exact eq_ok_of_toOption hrequest

/-- A field of the factory that the client spells alike has the value of the client. -/
theorem header_sent_traced :
    ∃ client r w, tracedFactory.fromDocument rootedDocument
        { settings := [("headers", .ofFields [("x-trace", .str "client")])] } = .ok client ∧
      client.request fetchNotes ∅ = .ok r ∧ (Transport.ofOptions client.options).Sends r (.ofList []) w ∧
      w.headers.values "x-trace" = ["client"] ∧ w.headers.rows.get? "x-trace" = some "client" := by
  have hfirst : tracedFactory.firstHeader? [("x-trace", .str "client")] =
      some [("Host", "a.example"), ("Accept", "application/json"), ("x-trace", "client")] := by decide +kernel
  obtain ⟨client, r, w, hclient, hrequest, hsent, hheaders⟩ := sends_of_firstHeader? hfirst
  refine ⟨client, r, w, hclient, hrequest, hsent, ?_⟩
  obtain ⟨o, ho, hnames⟩ := header_sent hclient hrequest hsent
  have hown : o.headers = .ofList [("x-trace", "client")] := by
    have hcoerce : (Options.coerce (.data .null) [("headers", .ofFields [("x-trace", .str "client")])]).toOption.map
        (·.headers) = some (.ofList [("x-trace", "client")]) := by decide +kernel
    obtain ⟨o', ho', hheaders'⟩ := exists_of_toOption_map hcoerce
    obtain rfl : o = o' := Except.ok.inj (ho.symm.trans ho')
    exact hheaders'
  have hlayers : o.headerLayers tracedFactory.options =
      [.ofList [("x-trace", "client")], .ofList [("x-trace", "factory")], Transport.basicHeaders] := by
    rw [Options.headerLayers, hown]
    rfl
  rw [hlayers] at hnames
  obtain ⟨-, hfree, hread⟩ := hnames "x-trace" (.ofList [("x-trace", "client")]) (by decide +kernel)
  have hother : sameName "Authorization" "x-trace" = false := by decide +kernel
  rw [hother] at hfree
  obtain ⟨-, -, hsingle⟩ := hfree nofun
  have halike : SpelledAlike [.ofList [("x-trace", "client")], .ofList [("x-trace", "factory")],
      Transport.basicHeaders] "x-trace" := by
    unfold SpelledAlike
    decide +kernel
  obtain ⟨v, htop, hv⟩ := hsingle.2 halike
  have hclientValue : Headers.values (Table.ofList [("x-trace", "client")]).entries "x-trace" = ["client"] := by
    decide +kernel
  have hlower : Text.lowerAscii "x-trace" = "x-trace" := by decide +kernel
  have hone : w.headers.values "x-trace" = ["client"] := by rw [hv, ← htop, hclientValue]
  rw [hlower, hone, String.intercalate_singleton] at hread
  exact ⟨hone, hread⟩

/-- A client that sets the field for what it accepts in small letters sends it along with the basic one: both are read
under the name. -/
theorem header_sent_twice :
    ∃ client r w, Factory.fromDocument { tracedFactory with options := {} } rootedDocument
        { settings := [("headers", .ofFields [("accept", .str "text/plain")])] } = .ok client ∧
      client.request fetchNotes ∅ = .ok r ∧ (Transport.ofOptions client.options).Sends r (.ofList []) w ∧
      w.headers.values "accept" = ["application/json", "text/plain"] ∧
      w.headers.rows.get? "accept" = some "application/json, text/plain" := by
  have hfirst : Factory.firstHeader? { tracedFactory with options := {} } [("accept", .str "text/plain")] =
      some [("Host", "a.example"), ("Accept", "application/json"), ("accept", "text/plain")] := by decide +kernel
  obtain ⟨client, r, w, hclient, hrequest, hsent, hheaders⟩ := sends_of_firstHeader? hfirst
  refine ⟨client, r, w, hclient, hrequest, hsent, ?_⟩
  rw [hheaders]
  decide +kernel

end Factory

end ApiDiscovery
