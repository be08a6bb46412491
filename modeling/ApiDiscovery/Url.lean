import ApiDiscovery.Number.Numeral
import ApiDiscovery.Text.Blank
import ApiDiscovery.Url.Host

/-!
# URLs

`Url.parse` takes a text apart and brings each component into its normal form: the scheme in lower
case, the port left out where it is the scheme's own, segments of one and two dots removed from the
path of a URL that has a scheme or an authority, and characters written by number that may not stand
for themselves. `Url.render` puts the components together; `Url.resolve` reads a reference against a
base.
-/

namespace ApiDiscovery

open Number Text

/-- A URL by its components, each in normal form. -/
structure Url where
  scheme : String
  userinfo : String
  host : String
  port : Option Int
  path : String
  query : Option String
  fragment : Option String
deriving DecidableEq, Repr

namespace Url

/-- Why a text is no URL. -/
inductive Fault where
  | tooLong
  /-- A control character at a position. -/
  | control (c : Char) (position : Nat)
  | host (f : Host.Fault)
  | port (text : String)
  | absolutePath
  | doubleSlash
  | leadingColon
deriving DecidableEq, Repr

def Fault.message : Fault → String
  | .tooLong => "URL too long"
  | .control c i =>
      "Invalid non-printable ASCII character in URL, " ++ quoted (String.singleton c) ++
        " at position " ++ toString i ++ "."
  | .host f => f.message
  | .port t => "Invalid port: " ++ quoted t
  | .absolutePath => "For absolute URLs, path must be empty or begin with '/'"
  | .doubleSlash => "Relative URLs cannot have a path starting with '//'"
  | .leadingColon => "Relative URLs cannot have a path starting with ':'"

/-! ## Characters that stand for themselves -/

/-- The printable characters of ASCII but the space and those listed. -/
def isKept (excluded : String) (c : Char) : Bool :=
  0x20 < c.toNat && c.toNat < 0x7f && !excluded.toList.contains c

def keptInPath (c : Char) : Bool := isKept "\"#<>?\x60\x7b\x7d" c

def keptInQuery (c : Char) : Bool := isKept "\"#<>" c

def keptInFragment (c : Char) : Bool := isKept "\"<>\x60" c

def keptInUserinfo (c : Char) : Bool := isKept "\"#<>?\x60\x7b\x7d/;=@[\\]^|" c

/-! ## Taking apart -/

/-- The components of a text, as they stand. -/
structure Raw where
  scheme : List Char
  userinfo : List Char
  host : List Char
  port : List Char
  path : List Char
  query : Option (List Char)
  fragment : Option (List Char)

/-- The scheme at the front, with the rest behind its colon. A colon alone counts as one. -/
def takeScheme (s : List Char) : List Char × List Char :=
  let isSchemeChar (c : Char) := c.isAlphanum || c == '+' || c == '.' || c == '-'
  match s with
  | ':' :: rest => ([], rest)
  | c :: _ =>
      if c.isAlpha then
        match s.dropWhile isSchemeChar with
        | ':' :: rest => (s.takeWhile isSchemeChar, rest)
        | _ => ([], s)
      else ([], s)
  | [] => ([], [])

/-- The part up to the last occurrence of a character, if there is one, and what follows it. -/
def splitLast (sep : Char) (s : List Char) : Option (List Char × List Char) :=
  if s.contains sep then
    let after := (s.reverse.takeWhile (· != sep)).reverse
    some (s.take (s.length - after.length - 1), after)
  else none

/-- The host and the port of an authority: a host in brackets goes to the last closing one, any
other to the first colon. -/
def takeHost (s : List Char) : List Char × List Char :=
  let (host, rest) :=
    match s, splitLast ']' s with
    | '[' :: _, some (inner, after) => (inner ++ [']'], after)
    | _, _ => (s.takeWhile (· != ':'), s.dropWhile (· != ':'))
  match rest with
  | ':' :: port => (host, port)
  | port => (host, port)

def isAuthorityEnd (c : Char) : Bool := c == '/' || c == '?' || c == '#'

def takeApart (s : List Char) : Raw :=
  let (scheme, rest) := takeScheme s
  let (authority, rest) :=
    match rest with
    | '/' :: '/' :: rest =>
        (rest.takeWhile (!isAuthorityEnd ·), rest.dropWhile (!isAuthorityEnd ·))
    | rest => ([], rest)
  let (userinfo, hostPort) :=
    match splitLast '@' authority with
    | some (user, rest) => (user, rest)
    | none => ([], authority)
  let (host, port) := takeHost hostPort
  let path := rest.takeWhile fun c => c != '?' && c != '#'
  let rest := rest.dropWhile fun c => c != '?' && c != '#'
  let (query, rest) :=
    match rest with
    | '?' :: rest => (some (rest.takeWhile (· != '#')), rest.dropWhile (· != '#'))
    | rest => (none, rest)
  let fragment :=
    match rest with
    | '#' :: rest => some rest
    | _ => none
  ⟨scheme, userinfo, host, port, path, query, fragment⟩

/-! ## Normal forms -/

def ownPort? (scheme : String) : Option Int :=
  if scheme == "http" || scheme == "ws" then some 80
  else if scheme == "https" || scheme == "wss" then some 443
  else if scheme == "ftp" then some 21
  else none

/-- A port as a whole number; the scheme's own one is left out. -/
def normalizePort (scheme port : List Char) : Except Fault (Option Int) :=
  if port.isEmpty then .ok none
  else
    match (dropUnderscores? false (trim isBlank port)).map (wholeNumber? 10) with
    | some (.ok n) => .ok (if some n == ownPort? (String.ofList scheme) then none else some n)
    | _ => .error (.port (String.ofList port))

/-- Segments without those of one dot, each one of two dots with the segment before it. The empty
segment before the first slash stays. -/
def dropDots (segments : List (List Char)) : List (List Char) :=
  (segments.foldl (fun kept s =>
    if s == ['.'] then kept
    else if s == ['.', '.'] then if kept.isEmpty || kept == [[]] then kept else kept.drop 1
    else s :: kept) []).reverse

def normalizePath (path : List Char) : List Char :=
  ['/'].intercalate (dropDots (Query.splitAt '/' path))

/-- A path has to fit what is before it. -/
def checkPath (hasScheme hasAuthority : Bool) (path : List Char) : Except Fault Unit :=
  if hasAuthority && !path.isEmpty && path.head? != some '/' then .error .absolutePath
  else if !hasScheme && !hasAuthority && ['/', '/'].isPrefixOf path then .error .doubleSlash
  else if !hasScheme && !hasAuthority && path.head? == some ':' then .error .leadingColon
  else .ok ()

def ofRaw (r : Raw) : Except Fault Url := do
  let userinfo := Percent.encode keptOrUnreserved r.userinfo
  let host ←
    match Host.normalize r.host with
    | .ok h => pure h
    | .error f => throw (.host f)
  let port ← normalizePort r.scheme r.port
  let hasScheme := !r.scheme.isEmpty
  let hasAuthority := !userinfo.isEmpty || !host.isEmpty || port.isSome
  checkPath hasScheme hasAuthority r.path
  let path := if hasScheme || hasAuthority then normalizePath r.path else r.path
  return {
    scheme := String.ofList (r.scheme.map Char.toLower)
    userinfo := String.ofList userinfo
    host := String.ofList host
    port
    path := String.ofList (Percent.encode keptInPath path)
    query := r.query.map fun q => String.ofList (Percent.encode keptInQuery q)
    fragment := r.fragment.map fun f => String.ofList (Percent.encode keptInFragment f) }
where
  keptOrUnreserved (c : Char) : Bool := Percent.isUnreserved c || keptInUserinfo c

def lengthLimit : Nat := 65536

/-- The first control character of ASCII with its position. -/
def control? (s : List Char) : Option (Char × Nat) :=
  s.zipIdx.find? fun (c, _) => c.toNat < 0x20 || c.toNat == 0x7f

def parse (s : String) : Except Fault Url :=
  if lengthLimit < s.length then .error .tooLong
  else
    match control? s.toList with
    | some (c, i) => .error (.control c i)
    | none => ofRaw (takeApart s.toList)

/-! ## Putting together -/

def netloc (u : Url) : String :=
  (if u.host.toList.contains ':' then "[" ++ u.host ++ "]" else u.host) ++
    (u.port.map fun p => ":" ++ toString p).getD ""

def authority (u : Url) : String :=
  (if u.userinfo.isEmpty then "" else u.userinfo ++ "@") ++ u.netloc

def render (u : Url) : String :=
  (if u.scheme.isEmpty then "" else u.scheme ++ ":") ++
    (if u.authority.isEmpty then "" else "//" ++ u.authority) ++ u.path ++
    (u.query.map ("?" ++ ·)).getD "" ++ (u.fragment.map ("#" ++ ·)).getD ""

/-- Whether a URL names a host under a scheme. -/
def isAbsolute (u : Url) : Bool := !u.scheme.isEmpty && !u.host.isEmpty

/-- Path and query, the path of the root if there is none. -/
def target (u : Url) : String :=
  (if u.path.isEmpty then "/" else u.path) ++ (u.query.map ("?" ++ ·)).getD ""

/-- A URL that names no host under a scheme, as a path from the root. -/
def rooted (u : Url) : Except Fault Url :=
  if u.isAbsolute then .ok u
  else
    let s := '/' :: u.target.toList.dropWhile (· == '/')
    ofRaw {
      scheme := [], userinfo := [], host := [], port := []
      path := s.takeWhile (· != '?')
      query := match s.dropWhile (· != '?') with
        | '?' :: q => some q
        | _ => none
      fragment := none }

def effectivePort (u : Url) : Option Int := u.port.or (ownPort? u.scheme)

def sameOrigin (u v : Url) : Bool :=
  u.scheme == v.scheme && u.host == v.host && u.effectivePort == v.effectivePort

/-- Whether `v` is the secure form of `u`: the same host on the two schemes' own ports. -/
def isSecureForm (u v : Url) : Bool :=
  u.host == v.host && u.scheme == "http" && u.effectivePort == some 80 &&
    v.scheme == "https" && v.effectivePort == some 443

/-- The URL with components replaced, in normal form again. -/
def revise (u : Url) (change : Raw → Raw) : Except Fault Url :=
  let (host, port) := takeHost u.netloc.toList
  ofRaw (change {
    scheme := u.scheme.toList
    userinfo := u.userinfo.toList
    host, port
    path := u.path.toList
    query := u.query.map (·.toList)
    fragment := u.fragment.map (·.toList) })

end Url

end ApiDiscovery
