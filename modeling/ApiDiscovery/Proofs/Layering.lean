import ApiDiscovery.Factory
import ApiDiscovery.Proofs.Outcome

/-!
# Layers of options

A client has its options from up to five layers, each over the ones below it:

    settings by name      over   what is given for the client
                          over   the options of the factory
                          over   the settings of the user
                          over   the defaults

Every step between them goes through data. Options are written as the fields that they set, fields are laid over
fields, and what comes of it is checked again. Written options are read back as they are (`ofValue?_setFields`),
so neither does a check refuse what was checked before nor does writing blur what is set and what is only a
default. What is left is one choice for each field: the highest layer that gives it (`FirstGiven`). Parameters
and headers are layered name by name, but only between what is given for the client and the factory.

Main statement: `Factory.fromDocument_layers`.
-/

namespace ApiDiscovery

open Number Validation Http

/-! ## Fields as data -/

/-- The entries of a mapping with text keys. -/
def fieldEntries (fs : List (String × Value)) : List (Value × Value) := fs.map fun f => (.str f.1, f.2)

theorem entry?_fieldEntries (fs : List (String × Value)) (name : String) :
    Value.entry? (fieldEntries fs) name = lookupEntry name fs := by
  induction fs with
  | nil => rfl
  | cons f rest ih =>
      rw [fieldEntries, List.map_cons, Value.entry?_cons, lookupEntry, ← ih]
      by_cases hf : f.1 = name
      · rw [if_pos hf, if_pos (congrArg Value.str hf)]
      · rw [if_neg hf, if_neg fun h => hf (Value.str.inj h)]
        rfl

/-- Setting a text key is setting a field. -/
theorem put_fieldEntries (name : String) (v : Value) (fs : List (String × Value)) :
    Value.put (.str name) v (fieldEntries fs) = fieldEntries (setEntry name v fs) := by
  induction fs with
  | nil => rfl
  | cons f rest ih =>
      rw [fieldEntries, List.map_cons, Value.put, setEntry]
      by_cases hf : f.1 = name
      · rw [if_pos hf, if_pos (Value.sameKey_str_left.2 (congrArg Value.str hf.symm))]
        rw [hf]
        rfl
      · rw [if_neg hf, if_neg fun h => hf (Value.str.inj (Value.sameKey_str_left.1 h)).symm]
        exact congrArg _ ih

/-- Setting text keys one after the other is setting fields. -/
theorem foldl_put_fieldEntries (above fs : List (String × Value)) :
    (fieldEntries above).foldl (fun es e => Value.put e.1 e.2 es) (fieldEntries fs) =
      fieldEntries (above.foldl (fun fs f => setEntry f.1 f.2 fs) fs) := by
  induction above generalizing fs with
  | nil => rfl
  | cons f rest ih =>
      have hstep := ih (setEntry f.1 f.2 fs)
      rw [← put_fieldEntries] at hstep
      exact hstep

/-- Fields that are set one after the other, each from what it was, are looked up in what was set and else below. -/
theorem lookupEntry_foldl_setEntry {us : List (String × α)} (h : (us.map (·.1)).Nodup)
    (g : String → α → Option β → β) (fs : List (String × β)) (name : String) :
    lookupEntry name (us.foldl (fun fs u => setEntry u.1 (g u.1 u.2 (lookupEntry u.1 fs)) fs) fs) =
      ((lookupEntry name us).map fun a => g name a (lookupEntry name fs)).or (lookupEntry name fs) := by
  induction us generalizing fs with
  | nil => rfl
  | cons u rest ih =>
      rw [List.map_cons, List.nodup_cons] at h
      rw [List.foldl_cons, ih h.2, lookupEntry_setEntry, lookupEntry]
      by_cases hu : u.1 = name
      · subst hu
        rw [if_pos rfl, if_pos rfl, lookupEntry_eq_none.2 h.1]
        rfl
      · rw [if_neg hu, if_neg hu]

theorem setEntry_map (g : α → β) (name : String) (a : α) (es : List (String × α)) :
    setEntry name (g a) (es.map fun e => (e.1, g e.2)) = (setEntry name a es).map fun e => (e.1, g e.2) := by
  induction es with
  | nil => rfl
  | cons e rest ih =>
      rw [List.map_cons, setEntry, setEntry]
      by_cases he : e.1 = name
      · rw [if_pos he, if_pos he]
        rfl
      · rw [if_neg he, if_neg he, ih]
        rfl

theorem Table.entries_mapValues_setAll (g : α → β) (t : Table α) (es : List (String × α)) :
    ((t.setAll es).mapValues g).entries =
      (es.map fun e => (e.1, g e.2)).foldl (fun fs f => setEntry f.1 f.2 fs) (t.mapValues g).entries := by
  induction es generalizing t with
  | nil => rfl
  | cons e rest ih =>
      have hset : ((t.set e.1 e.2).mapValues g).entries = setEntry e.1 (g e.2) (t.mapValues g).entries :=
        (setEntry_map g e.1 e.2 t.entries).symm
      have hrest := ih (t.set e.1 e.2)
      rw [hset] at hrest
      exact hrest

/-! ## Written options -/

theorem lookupEntry_append (name : String) (fs gs : List (String × α)) :
    lookupEntry name (fs ++ gs) = (lookupEntry name fs).or (lookupEntry name gs) := by
  induction fs with
  | nil => rfl
  | cons f rest ih =>
      rw [List.cons_append, lookupEntry, lookupEntry, ih]
      by_cases hf : f.1 = name
      · rw [if_pos hf, if_pos hf]
        rfl
      · rw [if_neg hf, if_neg hf]

theorem lookupEntry_toList (name own : String) (f : α → β) (x : Option α) :
    lookupEntry name (x.map fun a => (own, f a)).toList = if own = name then x.map f else none := by
  cases x with
  | none => exact (ite_self none).symm
  | some a => rfl

namespace Options

/-- What is written under the name of a field is what is set for it. -/
theorem lookupEntry_setFields (o : Options) :
    lookupEntry "params" o.setFields = o.params?.map (tableValue id) ∧
    lookupEntry "root_url" o.setFields = o.rootUrl?.map Value.ofText? ∧
    lookupEntry "headers" o.setFields = o.headers?.map (tableValue .str) ∧
    lookupEntry "timeout" o.setFields = o.timeout?.map .float ∧
    lookupEntry "max_retries" o.setFields = o.maxRetries?.map .int ∧
    lookupEntry "verify_ssl" o.setFields = o.verifyTls?.map .bool := by
  simp [setFields, lookupEntry_append, lookupEntry_toList]

theorem read_eq_ok {es : List (Value × Value)} {o : Options} :
    read (.map es) = .ok o ↔
      readSet "params" es anyTable = .ok o.params? ∧
      readSet "root_url" es (optional text) = .ok o.rootUrl? ∧
      readSet "headers" es (table text) = .ok o.headers? ∧
      readSet "timeout" es number = .ok o.timeout? ∧
      readSet "max_retries" es whole = .ok o.maxRetries? ∧
      readSet "verify_ssl" es bool = .ok o.verifyTls? := by
  simp only [read, Shape.read, Checked.seq_eq_ok, Checked.map_eq_ok]
  constructor
  · rintro ⟨_, v, ⟨_, m, ⟨_, t, ⟨_, h, ⟨_, r, ⟨p, hp, rfl⟩, hr, rfl⟩, hh, rfl⟩, ht, rfl⟩, hm, rfl⟩, hv, rfl⟩
    exact ⟨hp, hr, hh, ht, hm, hv⟩
  · rintro ⟨hp, hr, hh, ht, hm, hv⟩
    exact ⟨_, _, ⟨_, _, ⟨_, _, ⟨_, _, ⟨_, _, ⟨_, hp, rfl⟩, hr, rfl⟩, hh, rfl⟩, ht, rfl⟩, hm, rfl⟩, hv, rfl⟩

/-- What is set is what is given, checked. -/
theorem readSet_eq_ok {name : String} (hname : shape.field name = .plain name) {es : List (Value × Value)}
    {check : Value → Checked α} {x : Option α} :
    readSet name es check = .ok x ↔
      match Value.entry? es name with
      | some v => ∃ a, check v = .ok a ∧ x = some a
      | none => x = none := by
  rw [readSet, hname, Field.read_plain]
  cases Value.entry? es name with
  | none => exact ⟨fun h => (Checked.ok.inj h).symm, fun h => congrArg _ h.symm⟩
  | some v =>
      refine Checked.within_eq_ok.trans (Checked.map_eq_ok.trans ?_)
      exact exists_congr fun a => and_congr_right fun _ => eq_comm

/-- A field that is written as what checks to it is read back. -/
theorem readSet_written {name : String} (hname : shape.field name = .plain name) {fs : List (String × Value)}
    {check : Value → Checked α} {f : α → Value} {x : Option α} (hx : lookupEntry name fs = x.map f)
    (h : ∀ a, check (f a) = .ok a) : readSet name (fieldEntries fs) check = .ok x := by
  rw [readSet_eq_ok hname, entry?_fieldEntries, hx]
  cases x with
  | none => rfl
  | some a => exact ⟨a, h a, rfl⟩

theorem optional_text_ofText? (u : Option String) : optional text (.ofText? u) = .ok u := by
  cases u <;> rfl

/-- Written options are read back, with just the same fields set. -/
theorem ofValue?_setFields (o : Options) : ofValue? (.ofFields o.setFields) = .ok o := by
  obtain ⟨hparams, hroot, hheaders, htimeout, hretries, hverify⟩ := lookupEntry_setFields o
  refine Checked.toExcept_eq_ok.2 (read_eq_ok.2 ⟨?_, ?_, ?_, ?_, ?_, ?_⟩)
  · exact readSet_written rfl hparams (table_ofFields fun _ => rfl)
  · exact readSet_written rfl hroot optional_text_ofText?
  · exact readSet_written rfl hheaders (table_ofFields fun _ => rfl)
  · exact readSet_written rfl htimeout fun _ => rfl
  · exact readSet_written rfl hretries fun _ => rfl
  · exact readSet_written rfl hverify fun _ => rfl

/-! ## One layer over another -/

/-- One set of fields over another. -/
def layFields (upper lower : List (String × Value)) : List (String × Value) :=
  upper.foldl (fun fs f => setEntry f.1 (layeredValue f.1 f.2 (lookupEntry f.1 fs)) fs) lower

theorem layeredFields_eq_layFields (upper lower : Options) :
    layeredFields upper lower = fieldEntries (layFields upper.setFields lower.settled.setFields) := by
  have hfold : ∀ (us fs : List (String × Value)),
      us.foldl (fun es f => Value.put (.str f.1) (layeredValue f.1 f.2 (Value.entry? es f.1)) es)
        (fieldEntries fs) = fieldEntries (layFields us fs) := by
    intro us
    induction us with
    | nil => exact fun _ => rfl
    | cons u rest ih =>
        intro fs
        rw [List.foldl_cons, entry?_fieldEntries, put_fieldEntries, ih]
        rfl
  exact hfold _ _

theorem layFields_append (us vs fs : List (String × Value)) :
    layFields (us ++ vs) fs = layFields vs (layFields us fs) := List.foldl_append

/-- A table that is written over another one is written with the entries of both. -/
theorem layeredValue_table {name : String} (hname : tableNames.contains name = true) (f : α → Value)
    (upper lower : Table α) :
    layeredValue name (tableValue f upper) (some (tableValue f lower)) = tableValue f (upper.onto lower) := by
  have hput := foldl_put_fieldEntries (upper.mapValues f).entries (lower.mapValues f).entries
  have hset := Table.entries_mapValues_setAll f lower upper.entries
  rw [tableValue, tableValue, Value.ofFields, Value.ofFields, layeredValue, if_pos hname, tableValue, Table.onto,
    Value.ofFields, hset]
  exact congrArg Value.map hput

/-- The fields of options that have everything set. -/
def allFields (params : Table Value) (root : Option String) (headers : Table String) (timeout : Double)
    (retries : Int) (verify : Bool) : List (String × Value) :=
  [("params", tableValue id params), ("root_url", .ofText? root), ("headers", tableValue .str headers),
    ("timeout", .float timeout), ("max_retries", .int retries), ("verify_ssl", .bool verify)]

variable (p : Table Value) (u : Option String) (h : Table String) (t : Double) (n : Int) (b : Bool)

theorem layFields_params (p? : Option (Table Value)) :
    layFields (p?.map fun p => ("params", tableValue id p)).toList (allFields p u h t n b) =
      allFields ((p?.getD ∅).onto p) u h t n b := by
  cases p? with
  | none => rfl
  | some above =>
      show setEntry "params" (layeredValue "params" (tableValue id above) (some (tableValue id p))) _ = _
      rw [layeredValue_table rfl]
      rfl

theorem layFields_headers (h? : Option (Table String)) :
    layFields (h?.map fun h => ("headers", tableValue .str h)).toList (allFields p u h t n b) =
      allFields p u ((h?.getD ∅).onto h) t n b := by
  cases h? with
  | none => rfl
  | some above =>
      show setEntry "headers" (layeredValue "headers" (tableValue .str above) (some (tableValue .str h))) _ = _
      rw [layeredValue_table rfl]
      rfl

theorem layFields_rootUrl (u? : Option (Option String)) :
    layFields (u?.map fun u => ("root_url", Value.ofText? u)).toList (allFields p u h t n b) =
      allFields p (u?.getD u) h t n b := by
  rcases u? with - | - | - <;> rfl

theorem layFields_timeout (t? : Option Double) :
    layFields (t?.map fun t => ("timeout", Value.float t)).toList (allFields p u h t n b) =
      allFields p u h (t?.getD t) n b := by
  cases t? <;> rfl

theorem layFields_retries (n? : Option Int) :
    layFields (n?.map fun n => ("max_retries", Value.int n)).toList (allFields p u h t n b) =
      allFields p u h t (n?.getD n) b := by
  cases n? <;> rfl

theorem layFields_verify (b? : Option Bool) :
    layFields (b?.map fun b => ("verify_ssl", Value.bool b)).toList (allFields p u h t n b) =
      allFields p u h t n (b?.getD b) := by
  cases b? <;> rfl

theorem layFields_setFields (upper lower : Options) :
    layFields upper.setFields lower.settled.setFields = (upper.onto lower).setFields := by
  have hlower : lower.settled.setFields = allFields lower.params lower.rootUrl lower.headers lower.timeout
      lower.maxRetries lower.verifyTls := rfl
  rw [setFields, layFields_append, layFields_append, layFields_append, layFields_append, layFields_append, hlower,
    layFields_params, layFields_rootUrl, layFields_headers, layFields_timeout, layFields_retries,
    layFields_verify]
  rfl

/-- What is put together from two layers is options, and they are written just so. -/
theorem layeredFields_eq (upper lower : Options) :
    layeredFields upper lower = fieldEntries (upper.onto lower).setFields := by
  rw [layeredFields_eq_layFields, layFields_setFields]

/-- Checking two layers again refuses nothing and changes nothing. -/
theorem layer_eq (upper lower : Options) : upper.layer lower = .ok (upper.onto lower) := by
  rw [layer, layeredFields_eq]
  exact ofValue?_setFields _

theorem layered_eq (upper lower : Options) : upper.layered lower = .ok (upper.onto lower) := by
  rw [layered, layer_eq]

/-! ## What is given, as data -/

/-- The entries that given options have. -/
def Given.entries? : Given → Except CoerceFault (List (Value × Value))
  | .made o => .ok (fieldEntries o.setFields)
  | .data v => entriesOf v

/-- What is given for a field, as it is given. -/
def Given.field? (g : Given) (name : String) : Option Value :=
  match g.entries? with
  | .ok es => Value.entry? es name
  | .error _ => none

theorem entriesOf_map (es : List (Value × Value)) : entriesOf (.map es) = .ok es := by
  cases es <;> rfl

/-- Settings by name over entries. -/
def overEntries (settings : List (String × Value)) (es : List (Value × Value)) : List (Value × Value) :=
  settings.foldl (fun acc s => Value.put (.str s.1) s.2 acc) es

theorem entry?_overEntries (t : Table Value) (es : List (Value × Value)) (name : String) :
    Value.entry? (overEntries t.entries es) name = (t.get? name).or (Value.entry? es name) := by
  have hlist : ∀ ss : List (String × Value), (ss.map (·.1)).Nodup → ∀ es,
      Value.entry? (overEntries ss es) name = (lookupEntry name ss).or (Value.entry? es name) := by
    intro ss
    induction ss with
    | nil => exact fun _ _ => rfl
    | cons s rest ih =>
        intro hnodup es
        rw [List.map_cons, List.nodup_cons] at hnodup
        rw [overEntries, List.foldl_cons, ← overEntries, ih hnodup.2, Value.entry?_put, lookupEntry]
        by_cases hs : s.1 = name
        · rw [if_pos hs, if_pos (congrArg Value.str hs), lookupEntry_eq_none.2 (hs ▸ hnodup.1)]
          rfl
        · rw [if_neg hs, if_neg fun h => hs (Value.str.inj h)]
  exact hlist t.entries t.distinct es

/-- Made options are no other than the mapping of what is set in them. -/
theorem coerce_eq (given : Given) (settings : List (String × Value)) :
    coerce given settings =
      given.entries?.bind fun es => (ofValue? (.map (overEntries settings es))).mapError .rejected := by
  have hdata : ∀ es, coerce (.data (.map es)) settings =
      (ofValue? (.map (overEntries settings es))).mapError .rejected := by
    intro es
    have hread (read : List (Value × Value) → Except CoerceFault Options) : (Except.ok es).bind read = read es := rfl
    show ((entriesOf (.map es)).bind fun es => _) = _
    rw [entriesOf_map, hread, overEntries]
    cases ofValue? (.map (settings.foldl (fun acc s => Value.put (.str s.1) s.2 acc) es)) <;> rfl
  cases given with
  | data v =>
      show ((entriesOf v).bind fun es => _) = (entriesOf v).bind fun es => _
      refine congrArg _ (funext fun es => ?_)
      rw [← hdata es]
      show _ = (entriesOf (.map es)).bind fun es => _
      rw [entriesOf_map]
      rfl
  | made o =>
      cases settings with
      | nil =>
          have hback : ofValue? (.map (fieldEntries o.setFields)) = .ok o := ofValue?_setFields o
          show Except.ok o = (ofValue? (.map (fieldEntries o.setFields))).mapError _
          rw [hback]
          rfl
      | cons s rest =>
          refine Eq.trans ?_ (hdata (fieldEntries o.setFields))
          show _ = (entriesOf (.map (fieldEntries o.setFields))).bind fun es => _
          rw [entriesOf_map]
          rfl

/-- Reading looks at the entries by their names only. -/
theorem read_congr {es fs : List (Value × Value)} (h : ∀ name, Value.entry? es name = Value.entry? fs name) :
    read (.map es) = read (.map fs) := by
  have hread : ∀ {α : Type} (name : String) (check : Value → Checked α),
      shape.field name = .plain name → readSet name es check = readSet name fs check := by
    intro α name check hname
    rw [readSet, readSet, hname, Field.read_plain, Field.read_plain, h]
  rw [read, Shape.read, Shape.read, hread "params" _ rfl, hread "root_url" _ rfl, hread "headers" _ rfl,
    hread "timeout" _ rfl, hread "max_retries" _ rfl, hread "verify_ssl" _ rfl]

/-- Made options and a mapping of the fields that are set in them, in whatever order, are the same. -/
theorem coerce_made (o : Options) {es : List (Value × Value)}
    (h : ∀ name, Value.entry? es name = lookupEntry name o.setFields) (settings : Table Value) :
    coerce (.data (.map es)) settings.entries = coerce (.made o) settings.entries := by
  have hread : ofValue? (.map (overEntries settings.entries es)) =
      ofValue? (.map (overEntries settings.entries (fieldEntries o.setFields))) := by
    refine congrArg (Checked.toExcept shape.name) (read_congr fun name => ?_)
    rw [entry?_overEntries, entry?_overEntries, h, entry?_fieldEntries]
  rw [coerce_eq, coerce_eq]
  show (entriesOf (.map es)).bind _ = _
  rw [entriesOf_map]
  exact congrArg (Except.mapError CoerceFault.rejected) hread

/-! ## The first layer that gives a field -/

/-- A value is what the first of some layers gives that gives anything, as it is checked; or the default, if none
of them does. -/
def FirstGiven (check : Value → Checked α) (default a : α) : List (Option Value) → Prop
  | [] => a = default
  | none :: below => FirstGiven check default a below
  | some v :: _ => check v = .ok a

theorem firstGiven_or {check : Value → Checked α} {default a : α} {x y : Option Value} {below : List (Option Value)} :
    FirstGiven check default a (x.or y :: below) ↔ FirstGiven check default a (x :: y :: below) := by
  cases x <;> exact Iff.rfl

/-- What is read of a field is what its layer gives, or else what the layers below it come to. -/
theorem firstGiven_of_readSet {name : String} (hname : shape.field name = .plain name)
    {es : List (Value × Value)} {check : Value → Checked α} {x : Option α}
    (hx : readSet name es check = .ok x) {default a : α} {below : List (Option Value)}
    (h : FirstGiven check default a below) :
    FirstGiven check default (x.getD a) (Value.entry? es name :: below) := by
  rw [readSet_eq_ok hname] at hx
  cases he : Value.entry? es name with
  | none =>
      rw [he] at hx
      rw [hx]
      exact h
  | some v =>
      rw [he] at hx
      obtain ⟨b, hb, rfl⟩ := hx
      exact hb

/-- Given options that are let through were read from entries in which a setting by name goes before what is
given. -/
theorem exists_of_coerce {given : Given} {v : Table Value} {o : Options} (h : coerce given v.entries = .ok o) :
    ∃ es, read (.map es) = .ok o ∧ ∀ name, Value.entry? es name = (v.get? name).or (given.field? name) := by
  rw [coerce_eq] at h
  cases hes : given.entries? with
  | error f =>
      rw [hes] at h
      cases h
  | ok es =>
      refine ⟨overEntries v.entries es, ?_, fun name => ?_⟩
      · rw [hes] at h
        cases hread : ofValue? (.map (overEntries v.entries es)) with
        | error r =>
            simp only [Except.bind, hread] at h
            cases h
        | ok o' =>
            simp only [Except.bind, hread] at h
            cases h
            exact Checked.toExcept_eq_ok.1 hread
      · rw [entry?_overEntries, Given.field?, hes]

/-- The options of a client, put together field by field from what the settings by name, what is given for the
client, what is given for the factory and the settings of the user say. -/
structure Layered (s : Settings) (f o : Given) (v : Table Value) (c : Options) : Prop where
  rootUrl : FirstGiven (optional text) none c.rootUrl
    [v.get? "root_url", o.field? "root_url", f.field? "root_url"]
  timeout : FirstGiven number s.timeout c.timeout [v.get? "timeout", o.field? "timeout", f.field? "timeout"]
  retries : FirstGiven whole s.maxRetries c.maxRetries
    [v.get? "max_retries", o.field? "max_retries", f.field? "max_retries"]
  verify : FirstGiven bool s.verifyTls c.verifyTls
    [v.get? "verify_ssl", o.field? "verify_ssl", f.field? "verify_ssl"]
  /-- The map of the client's own layers, name by name over the one of the factory. -/
  params : ∃ upper lower, FirstGiven anyTable ∅ upper [v.get? "params", o.field? "params"] ∧
    FirstGiven anyTable ∅ lower [f.field? "params"] ∧ ∀ k, c.params.get? k = (upper.get? k).or (lower.get? k)
  headers : ∃ upper lower, FirstGiven (table text) ∅ upper [v.get? "headers", o.field? "headers"] ∧
    FirstGiven (table text) ∅ lower [f.field? "headers"] ∧
    ∀ k, c.headers.get? k = (upper.get? k).or (lower.get? k)

theorem layered_onto {s : Settings} {f o : Given} {v : Table Value} {ff oo : Options}
    (hf : coerce f [] = .ok ff) (ho : coerce o v.entries = .ok oo) :
    Layered s f o v (oo.onto (ff.onto s.options)) := by
  obtain ⟨es, hes, hover⟩ := exists_of_coerce ho
  obtain ⟨fs, hfs, hunder⟩ := exists_of_coerce (v := ∅) hf
  obtain ⟨hp, hu, hh, ht, hn, hb⟩ := read_eq_ok.1 hes
  obtain ⟨hp', hu', hh', ht', hn', hb'⟩ := read_eq_ok.1 hfs
  -- One field of the client over the layers below, and one of the factory over the settings of the user.
  have above : ∀ {α : Type} {check : Value → Checked α} {default a : α} {x : Option α} {name : String}
      {below : List (Option Value)}, shape.field name = .plain name → readSet name es check = .ok x →
      FirstGiven check default a below →
      FirstGiven check default (x.getD a) (v.get? name :: o.field? name :: below) := by
    intro α check default a x name below hname hx hbelow
    have hfirst := firstGiven_of_readSet hname hx hbelow
    rw [hover, firstGiven_or] at hfirst
    exact hfirst
  have base : ∀ {α : Type} {check : Value → Checked α} {default : α} {x : Option α} {name : String},
      shape.field name = .plain name → readSet name fs check = .ok x →
      FirstGiven check default (x.getD default) [f.field? name] := by
    intro α check default x name hname hx
    have hnone : FirstGiven check default default [] := rfl
    have hfirst := firstGiven_of_readSet hname hx hnone
    rw [hunder] at hfirst
    exact hfirst
  refine ⟨?_, ?_, ?_, ?_, ?_, ?_⟩
  · rw [onto_rootUrl, onto_rootUrl]
    exact above rfl hu (base rfl hu')
  · rw [onto_timeout, onto_timeout]
    exact above rfl ht (base rfl ht')
  · rw [onto_maxRetries, onto_maxRetries]
    exact above rfl hn (base rfl hn')
  · rw [onto_verifyTls, onto_verifyTls]
    exact above rfl hb (base rfl hb')
  · refine ⟨oo.params, ff.params, above rfl hp rfl, base rfl hp', fun k => ?_⟩
    rw [onto_params, onto_params, Table.get?_onto]
    exact congrArg (fun t => (oo.params.get? k).or (Table.get? t k)) ff.params.onto_empty
  · refine ⟨oo.headers, ff.headers, above rfl hh rfl, base rfl hh', fun k => ?_⟩
    rw [onto_headers, onto_headers, Table.get?_onto]
    exact congrArg (fun t => (oo.headers.get? k).or (Table.get? t k)) ff.headers.onto_empty

end Options

/-! ## Clients of a factory -/

theorem Choices.check_eq_ok {c : Choices} {operation : String} {taken : List String}
    (h : ∀ name ∈ taken, name ∉ c.settings.map (·.1)) : c.check operation taken = .ok () := by
  have hnone : (c.settings.find? fun s => taken.contains s.1) = none := by
    rw [List.find?_eq_none]
    intro s hs htaken
    exact h s.1 (List.contains_iff_mem.1 htaken) (List.mem_map_of_mem hs)
  rw [Choices.check, hnone]

theorem Choices.options_made (made : Options) {es : List (Value × Value)}
    (h : ∀ name, Value.entry? es name = lookupEntry name made.setFields) (settings : Table Value) :
    Choices.options ⟨.made made, settings.entries⟩ = Choices.options ⟨.data (.map es), settings.entries⟩ := by
  have hcoerce := Options.coerce_made made h settings
  rw [Choices.options, Choices.options, ← hcoerce]

theorem Client.options_of_build {d : Document} {o : Options} {c : Client} (h : Client.build d o = .ok c) :
    c.options = o := by
  rw [Client.build] at h
  cases hm : Member.ofResource d.name d.tree with
  | error e =>
      rw [hm] at h
      cases h
  | ok ms =>
      rw [hm] at h
      cases h
      rfl

namespace Factory

theorem ofSettings_eq {s : Settings} {given : Options.Given} {o : Options} (h : Options.coerce given [] = .ok o)
    (bundle : Option Bundle) (shared : Option (Responder World)) :
    ofSettings s given bundle shared = .ok {
      options := o.onto s.options
      bundle := bundle.or ((present s.bundleDir).map fun d => { directory := Path.ofText d })
      remote := Remote.ofUrl s.discoveryUrl
      shared } := by
  have hgiven : Choices.options { given } = .ok o := by rw [Choices.options, h]
  rw [ofSettings, hgiven]
  show (o.layered s.options >>= fun o => _) = _
  rw [Options.layered_eq]
  rfl

/-- Making a client of a document fails only where the document is defective, once the options are let
through. -/
theorem fromDocument_eq {f : Factory} {c : Choices} {o : Options}
    (hc : ∀ name ∈ ["self", "document", "options"], name ∉ c.settings.map (·.1))
    (ho : Options.coerce c.given c.settings = .ok o) (d : Document) :
    f.fromDocument d c = (Client.build d (o.onto f.options)).mapError .document := by
  have hoptions : c.options = .ok o := by rw [Choices.options, ho]
  rw [fromDocument, Choices.check_eq_ok hc, hoptions]
  show (o.layered f.options >>= fun o => _) = _
  rw [Options.layered_eq, ok_bind]
  cases Client.build d (o.onto f.options) <;> rfl

theorem create_options (f : Factory) (fs : Files) (name version : String) (c : Choices) :
    (f.create fs name version c).2.options = f.options := by
  rw [create]
  split <;> rfl

/-- Making a client by the name of an API leaves the options of the factory as they are. -/
theorem make_options (f : Factory) (fs : Files) (name : String) (version : Option String) (c : Choices)
    (n : Network) : (f.make fs name version c n).2.1.options = f.options := by
  rw [make]
  split
  · rfl
  · rfl
  · dsimp only
    split
    · rfl
    · rfl
    · exact create_options ..
  · split <;> rfl

/-- A factory made with settings and options makes the client of a document with options that are put together field
by field (`Options.Layered`): the settings by name first, then what is given for the client, then what is given for
the factory, then the settings of the user. Parameters and headers of the client's own layers lie name by name over
those of the factory, and the calls of the client start from the parameters that come of it.

Nothing but a defect of the document keeps such a client from being made. Options that are made already are as good
as a mapping of the fields that are set in them. Checking layered data again refuses and changes nothing, and
whatever a factory makes, its own options stay. -/
theorem fromDocument_layers (s : Settings) {f o : Options.Given} {v : Table Value}
    (hf : ∃ ff, Options.coerce f [] = .ok ff) (ho : ∃ oo, Options.coerce o v.entries = .ok oo)
    (hv : ∀ name ∈ ["self", "document", "options"], name ∉ v.keys) (bundle : Option Bundle)
    (shared : Option (Responder World)) :
    ∃ fac opts, ofSettings s f bundle shared = .ok fac ∧
      Options.Layered s f o v opts ∧
      (∀ d, fac.fromDocument d ⟨o, v.entries⟩ = (Client.build d opts).mapError .document) ∧
      (∀ d c, fac.fromDocument d ⟨o, v.entries⟩ = .ok c → c.options = opts ∧ c.defaults = opts.params) ∧
      (∀ (made : Options) (es : List (Value × Value)),
        (∀ name, Value.entry? es name = lookupEntry name made.setFields) →
        ofSettings s (.made made) bundle shared = ofSettings s (.data (.map es)) bundle shared ∧
        ∀ d, fac.fromDocument d ⟨.made made, v.entries⟩ = fac.fromDocument d ⟨.data (.map es), v.entries⟩) ∧
      (∀ upper lower : Options, ∃ merged, Options.ofValue? (.map (upper.layeredFields lower)) = .ok merged ∧
        fieldEntries merged.setFields = upper.layeredFields lower) ∧
      ∀ fs name version version? c n, (fac.create fs name version c).2.options = fac.options ∧
        (fac.make fs name version? c n).2.1.options = fac.options := by
  obtain ⟨ff, hf⟩ := hf
  obtain ⟨oo, ho⟩ := ho
  have hfac := ofSettings_eq (s := s) hf bundle shared
  refine ⟨_, oo.onto (ff.onto s.options), hfac, Options.layered_onto hf ho, ?_, ?_, ?_, ?_, ?_⟩
  · intro d
    exact fromDocument_eq (c := ⟨o, v.entries⟩) hv ho d
  · intro d c hc
    rw [fromDocument_eq (c := ⟨o, v.entries⟩) hv ho d] at hc
    cases hbuild : Client.build d (oo.onto (ff.onto s.options)) with
    | error e =>
        rw [hbuild] at hc
        cases hc
    | ok c' =>
        rw [hbuild] at hc
        cases hc
        have hopts := Client.options_of_build hbuild
        exact ⟨hopts, congrArg Options.params hopts⟩
  · intro made es hes
    refine ⟨?_, fun d => ?_⟩
    · have hoptions : Choices.options { given := .made made } = Choices.options { given := .data (.map es) } :=
        Choices.options_made made hes ∅
      rw [ofSettings, hoptions, ofSettings]
    · rw [fromDocument, fromDocument, Choices.options_made made hes v]
      rfl
  · intro upper lower
    refine ⟨upper.onto lower, ?_, (Options.layeredFields_eq upper lower).symm⟩
    exact Options.layer_eq upper lower
  · intro fs name version version? c n
    exact ⟨create_options .., make_options ..⟩

/-- The client of a document with nothing but a name and a version. Three retries that are asked for stand against
seven of the factory, though three are the default; a parameter that is given as null hides the factory's one, and a
setting by name goes before everything. -/
theorem fromDocument_layers_default_kept :
    let given : Options.Given :=
      .made { maxRetries? := some 7, params? := some (.ofList [("a", .int 1), ("b", .int 2)]) }
    let own : Options.Given := .data (.ofFields [("max_retries", .int 3), ("verify_ssl", .bool true),
      ("params", .ofFields [("a", .null)])])
    let named : Table Value := .ofList [("verify_ssl", .bool false)]
    let d : Document := ⟨"notes", "v1", none, none, none, none, none, none, ∅, ∅, .mk ∅ [] ∅⟩
    ∃ fac client, ofSettings {} given none none = .ok fac ∧ fac.fromDocument d ⟨own, named.entries⟩ = .ok client ∧
      client.document.name = "notes" ∧ client.options.maxRetries = 3 ∧ client.options.verifyTls = false ∧
      client.defaults.get? "a" = some .null ∧ client.defaults.get? "b" = some (.int 2) := by
  intro given own named d
  obtain ⟨fac, opts, hfac, hlayers, hmade, hclient, -⟩ :=
    fromDocument_layers {} (f := given) (o := own) (v := named) ⟨_, rfl⟩ ⟨_, rfl⟩ (by decide) none none
  obtain ⟨client, hbuild, hname⟩ : ∃ client, Client.build d opts = .ok client ∧ client.document.name = "notes" :=
    ⟨_, rfl, rfl⟩
  have hc : fac.fromDocument d ⟨own, named.entries⟩ = .ok client := by rw [hmade, hbuild]; rfl
  refine ⟨fac, client, hfac, hc, hname, ?_⟩
  obtain ⟨hopts, hdefaults⟩ := hclient d client hc
  obtain ⟨upper, lower, hupper, hlower, hget⟩ := hlayers.params
  have hretries : Checked.ok 3 = Checked.ok opts.maxRetries := hlayers.retries
  have hverify : Checked.ok false = Checked.ok opts.verifyTls := hlayers.verify
  have hup : Checked.ok (Table.ofList [("a", .null)]) = Checked.ok upper := hupper
  have hlow : Checked.ok (Table.ofList [("a", .int 1), ("b", .int 2)]) = Checked.ok lower := hlower
  rw [hdefaults, hget, hget, hopts, ← Checked.ok.inj hup, ← Checked.ok.inj hlow]
  exact ⟨(Checked.ok.inj hretries).symm, (Checked.ok.inj hverify).symm, rfl, rfl⟩

end Factory

end ApiDiscovery
