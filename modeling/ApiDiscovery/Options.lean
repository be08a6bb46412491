import ApiDiscovery.Validation.Record

/-!
# Options of clients

What a client is made with. Each option is either set, perhaps to its default, or left open; the
default shows where it is left open. Layering looks at what is set: `Options.onto` says what
comes of it, `Options.layer` puts the data together and checks them again.

`Options.coerce` makes options from what callers give: nothing, options, a mapping or a sequence of
pairs, with further settings over it.
-/

namespace ApiDiscovery

open Number Validation

/-- Options, each as far as it is set. -/
structure Options where
  params? : Option (Table Value) := none
  rootUrl? : Option (Option String) := none
  headers? : Option (Table String) := none
  timeout? : Option Double := none
  maxRetries? : Option Int := none
  verifyTls? : Option Bool := none

namespace Options

def defaultTimeout : Double := .ofInt 30

def defaultRetries : Int := 3

/-! ## Effective values -/

def params (o : Options) : Table Value := o.params?.getD ∅

/-- The URL that takes the place of a document's root. -/
def rootUrl (o : Options) : Option String := o.rootUrl?.getD none

def headers (o : Options) : Table String := o.headers?.getD ∅

def timeout (o : Options) : Double := o.timeout?.getD defaultTimeout

def maxRetries (o : Options) : Int := o.maxRetries?.getD defaultRetries

def verifyTls (o : Options) : Bool := o.verifyTls?.getD true

/-! ## Layering -/

/-- One set of options over another. What the upper one sets wins; parameters and headers are
layered name by name. The result has everything set. -/
def onto (upper lower : Options) : Options where
  params? := some (upper.params.onto lower.params)
  rootUrl? := some (upper.rootUrl?.getD lower.rootUrl)
  headers? := some (upper.headers.onto lower.headers)
  timeout? := some (upper.timeout?.getD lower.timeout)
  maxRetries? := some (upper.maxRetries?.getD lower.maxRetries)
  verifyTls? := some (upper.verifyTls?.getD lower.verifyTls)

variable (upper lower : Options)

@[simp] theorem onto_params : (upper.onto lower).params = upper.params.onto lower.params := rfl

@[simp] theorem onto_rootUrl : (upper.onto lower).rootUrl = upper.rootUrl?.getD lower.rootUrl := rfl

@[simp] theorem onto_headers : (upper.onto lower).headers = upper.headers.onto lower.headers := rfl

@[simp] theorem onto_timeout : (upper.onto lower).timeout = upper.timeout?.getD lower.timeout := rfl

@[simp] theorem onto_maxRetries : (upper.onto lower).maxRetries = upper.maxRetries?.getD lower.maxRetries := rfl

@[simp] theorem onto_verifyTls : (upper.onto lower).verifyTls = upper.verifyTls?.getD lower.verifyTls := rfl

/-! ## Reading -/

def shape : Shape where
  name := "ClientOptions"
  fields := ["params", "root_url", "headers", "timeout", "max_retries", "verify_ssl"].map .plain
  frozen := true
  keepsUnknown := false

def readSet (name : String) (es : List (Value × Value)) (check : Value → Checked α) :
    Checked (Option α) :=
  (shape.field name).read es none fun v => (check v).map some

def read : Value → Checked Options :=
  shape.read fun es =>
    Options.mk
      <$> readSet "params" es anyTable
      <*> readSet "root_url" es (optional text)
      <*> readSet "headers" es (table text)
      <*> readSet "timeout" es number
      <*> readSet "max_retries" es whole
      <*> readSet "verify_ssl" es bool

def ofValue? (v : Value) : Except Rejection Options := (read v).toExcept shape.name

/-! ## Writing -/

def tableValue (f : α → Value) (t : Table α) : Value := .ofFields (t.mapValues f).entries

def setFields (o : Options) : List (String × Value) :=
  (o.params?.map fun t => ("params", tableValue id t)).toList ++
    (o.rootUrl?.map fun u => ("root_url", Value.ofText? u)).toList ++
    (o.headers?.map fun t => ("headers", tableValue .str t)).toList ++
    (o.timeout?.map fun x => ("timeout", Value.float x)).toList ++
    (o.maxRetries?.map fun n => ("max_retries", Value.int n)).toList ++
    (o.verifyTls?.map fun b => ("verify_ssl", Value.bool b)).toList

/-- The options with everything set to what it effectively is. -/
def settled (o : Options) : Options where
  params? := some o.params
  rootUrl? := some o.rootUrl
  headers? := some o.headers
  timeout? := some o.timeout
  maxRetries? := some o.maxRetries
  verifyTls? := some o.verifyTls

/-! ## Layering as data

Options are layered as data, and what comes of it is checked like any other. -/

/-- The options that are layered entry by entry. -/
def tableNames : List String := ["params", "headers"]

/-- The value of a field over the one below it: the entries of both for a table, else the upper one. -/
def layeredValue (name : String) (upper : Value) (lower : Option Value) : Value :=
  match upper, lower with
  | .map above, some (.map below) =>
      if tableNames.contains name then .map (above.foldl (fun es e => Value.put e.1 e.2 es) below)
      else upper
  | _, _ => upper

/-- The data of options over others: everything that the lower ones have, with what the upper ones set. -/
def layeredFields (upper lower : Options) : List (Value × Value) :=
  upper.setFields.foldl
    (fun es f => Value.put (.str f.1) (layeredValue f.1 f.2 (Value.entry? es f.1)) es)
    (lower.settled.setFields.map fun f => (.str f.1, f.2))

def layer (upper lower : Options) : Except Rejection Options :=
  ofValue? (.map (layeredFields upper lower))

/-! ## What callers give -/

/-- Options as callers give them: made already, or as data. -/
inductive Given where
  | made (o : Options)
  | data (v : Value)

/-- Why given options are refused. -/
inductive CoerceFault where
  | rejected (r : Rejection)
  /-- Data of a kind that has no items. -/
  | notIterable (kind : String)
  /-- An item that is no sequence. -/
  | itemKind (index : Nat)
  /-- An item that is no pair. -/
  | itemLength (index length : Nat)
  /-- A key of a kind that cannot be one. -/
  | keyKind (kind : String)

/-- The items of data, if it has any: characters, bytes, members or keys. -/
def itemsOf? : Value → Option (List Value)
  | .str s => some (s.toList.map fun c => .str (String.singleton c))
  | .bytes b => some (b.map fun n => .int n.toNat)
  | .list l => some l
  | .tuple l => some l
  | .set l => some l
  | .map es => some (es.map (·.1))
  | _ => none

def pairEntries (acc : List (Value × Value)) (index : Nat) :
    List Value → Except CoerceFault (List (Value × Value))
  | [] => .ok acc
  | item :: rest =>
      match itemsOf? item with
      | none => .error (.itemKind index)
      | some [k, v] =>
          match k.unkeyable? with
          | some bad => .error (.keyKind bad.kindName)
          | none => pairEntries (Value.put k v acc) (index + 1) rest
      | some items => .error (.itemLength index items.length)

/-- The entries that data give: those of a mapping, or those that pairs make. Whatever counts as no
answer gives none. -/
def entriesOf (v : Value) : Except CoerceFault (List (Value × Value)) :=
  if !v.truthy then .ok []
  else
    match v with
    | .map es => .ok es
    | v =>
        match itemsOf? v with
        | some items => pairEntries [] 0 items
        | none => .error (.notIterable v.kindName)

/-- Options from what is given, with further settings over it. Options without further settings are
taken as they are. -/
def coerce (given : Given) (settings : List (String × Value)) : Except CoerceFault Options := do
  let build (es : List (Value × Value)) : Except CoerceFault Options :=
    let all := settings.foldl (fun acc s => Value.put (.str s.1) s.2 acc) es
    match ofValue? (.map all) with
    | .ok o => .ok o
    | .error r => .error (.rejected r)
  match given, settings with
  | .made o, [] => return o
  | .made o, _ => build (o.setFields.map fun e => (.str e.1, e.2))
  | .data v, _ => build (← entriesOf v)

/-- Whether coercing hands back the very options that were given. -/
def isKept (given : Given) (settings : List (String × Value)) : Bool :=
  match given with
  | .made _ => settings.isEmpty
  | .data _ => false

end Options

end ApiDiscovery
