import ApiDiscovery.Http.Message
import ApiDiscovery.Request
import ApiDiscovery.Text.Base64

/-!
# Outgoing requests

A request of a call is made ready for the wire: its URL is brought into normal form, its header is
layered over the client's, and its body is written. A body that is a text or bytes goes as it is;
anything else is written in JSON.

Layers of the header are laid over each other name by name as they are spelled, so two spellings of
one name are both sent.
-/

namespace ApiDiscovery.Http

open Text

/-- Why a request cannot be sent, or fails. -/
inductive SendFault where
  | url (f : Url.Fault)
  | header (f : TextFault)
  | body (w : Json.WriteFault)
  | network (f : Failure)
  /-- A response to a request whose URL names no host. -/
  | unknownScheme (url : String)

/-- A body with the fields that the header has for it unless it says otherwise. -/
structure Body where
  bytes : List UInt8
  fields : Headers

def lengthField (bytes : List UInt8) : Headers :=
  if bytes.isEmpty then [] else [("Content-Length", toString bytes.length)]

def Body.ofValue? : Option Value → Except Json.WriteFault Body
  | none => .ok ⟨[], []⟩
  | some (.str s) =>
      let bytes := Utf8.encode s.toList
      .ok ⟨bytes, lengthField bytes⟩
  | some (.bytes b) => .ok ⟨b, lengthField b⟩
  | some v => do
      let bytes := Utf8.encode (← Json.write Json.Style.wire v).toList
      return ⟨bytes, [("Content-Length", toString bytes.length), ("Content-Type", "application/json")]⟩

/-- The header of a request without a body of its own begins with the host; a verb that is for sending
a body says when there is none. -/
def ownFields (verb : String) (u : Url) (h : Headers) : Headers :=
  (if h.contains "Host" || u.host.isEmpty then [] else [("Host", u.netloc)]) ++
    (if h.contains "Content-Length" || h.contains "Transfer-Encoding" ||
        !(["POST", "PUT", "PATCH"].contains verb) then []
      else [("Content-Length", "0")])

/-- The fields that a user in a URL gives: a name and a password. -/
def credentials (u : Url) (h : Headers) : Headers :=
  let user := u.userinfo.toList
  let name := Percent.decode (user.takeWhile (· != ':'))
  let password := Percent.decode ((user.dropWhile (· != ':')).drop 1)
  if name.isEmpty && password.isEmpty then h
  else
    h.set "Authorization"
      ("Basic " ++ String.ofList (Base64.encode (Utf8.encode (name ++ ':' :: password))))

/-- The request that goes over the wire: `layered` is the header, `body` what is to be sent. -/
def Request.make? (verb url : String) (layered : Headers) (body : Option Value) :
    Except SendFault Request := do
  let u ←
    match (Url.parse url).bind Url.rooted with
    | .ok u => pure u
    | .error f => throw (.url f)
  match headerFault? layered with
  | some f => throw (.header f)
  | none => pure ()
  let b ←
    match Body.ofValue? body with
    | .ok b => pure b
    | .error w => throw (.body w)
  let verb := upper verb
  let h := b.fields.foldl (fun (h : Headers) f => h.setDefault f.1 f.2)
    ((if layered.contains "Accept" then [] else [("Accept", "*/*")]) ++ layered)
  return { verb, url := u, headers := credentials u (ownFields verb u h ++ h), body := b.bytes }

/-! ## Redirections -/

def redirectedVerb (status : Int) (verb : String) : String :=
  if status = 303 || status = 302 then if verb == "HEAD" then verb else "GET"
  else if status = 301 && verb == "POST" then "GET"
  else verb

/-- The URL that a redirection leads to. One with a scheme and no host stays at the host; a relative one
is read against the URL of the request, whose fragment is kept. -/
def redirectedUrl (u : Url) (place : String) : Except SendFault Url := do
  let target ←
    match Url.parse place with
    | .ok t => pure t
    | .error f =>
        throw (.network
          ⟨.remoteProtocol, "Invalid URL in location header: " ++ f.message ++ "."⟩)
  let fixed : Except Url.Fault Url := do
    let target ←
      if !target.scheme.isEmpty && target.host.isEmpty then
        target.revise fun r => { r with host := (Url.takeHost u.netloc.toList).1 }
      else pure target
    let target ← if target.isAbsolute then pure target else u.resolve target
    match u.fragment.filter (!·.isEmpty) with
    | some f =>
        if (target.fragment.getD "").isEmpty then
          target.revise fun r => { r with fragment := some (Percent.decode f.toList) }
        else pure target
    | none => pure target
  match fixed with
  | .ok t => return t
  | .error f => throw (.url f)

/-- The header that goes on: credentials only to the same place or its secure form, and what describes
a body only with a body. -/
def redirectedHeaders (r : Request) (target : Url) (dropsBody : Bool) : Headers :=
  let h := r.headers
  let h :=
    if r.url.sameOrigin target then h
    else
      (if r.url.isSecureForm target then h else h.erase "Authorization").set "Host" target.netloc
  let h := if dropsBody then (h.erase "Content-Length").erase "Transfer-Encoding" else h
  h.erase "Cookie"

def Request.redirect? (r : Request) (status : Int) (place : String) : Except SendFault Request := do
  let verb := redirectedVerb status r.verb
  let target ← redirectedUrl r.url place
  let dropsBody := verb != r.verb && verb == "GET"
  let h := redirectedHeaders r target dropsBody
  if dropsBody then
    return { verb, url := target, headers := ownFields verb target h ++ h, body := [] }
  else return { verb, url := target, headers := h, body := r.body }

def redirectionLimit : Nat := 20

/-- Sends a request and follows redirections, with at most so many requests. -/
def follow : Nat → Request → Network → Except SendFault Response × Network
  | 0, _, n => (.error (.network ⟨.redirections, "Exceeded maximum allowed redirects."⟩), n)
  | left + 1, r, n =>
      match n.exchange r with
      | (.failure f, n) => (.error (.network f), n)
      | (.response a, n) =>
          if !r.url.isAbsolute then (.error (.unknownScheme r.url.render), n)
          else
            match a.redirection? with
            | none => (.ok a, n)
            | some place =>
                match r.redirect? a.status place with
                | .ok next => follow left next n
                | .error f => (.error f, n)

def send (r : Request) (n : Network) : Except SendFault Response × Network :=
  follow (redirectionLimit + 1) r n

end ApiDiscovery.Http
