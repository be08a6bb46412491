import ApiDiscovery.Url

/-!
# References

A reference is read against the URL of the place where it stands. What it leaves out at its front is
taken from the base; a relative path goes on from the directory of the base, and its segments of dots
are resolved.
-/

namespace ApiDiscovery.Reference

/-- The components of a text with the parameters of its last segment. -/
structure Parts where
  scheme : String
  netloc : List Char
  path : List Char
  params : List Char
  query : List Char
  fragment : List Char

/-- The schemes whose references can be relative. -/
def hierarchical : List String :=
  ["", "ftp", "http", "gopher", "nntp", "imap", "wais", "file", "https", "shttp", "mms",
    "prospero", "rtsp", "rtspu", "sftp", "svn", "svn+ssh", "ws", "wss"]

/-- The schemes whose last segment can have parameters. -/
def parametric : List String :=
  ["", "ftp", "hdl", "prospero", "http", "https", "shttp", "rtsp", "rtspu", "sip", "sips", "mms",
    "sftp", "tel"]

/-- The path before the first semicolon of its last segment, and what follows it. -/
def splitParams (path : List Char) : List Char × List Char :=
  let last := (path.reverse.takeWhile (· != '/')).reverse
  if last.contains ';' then
    (path.take (path.length - last.length) ++ last.takeWhile (· != ';'),
      (last.dropWhile (· != ';')).drop 1)
  else (path, [])

/-- The parts of a URL; `scheme` is taken where it has none. -/
def partsOf (scheme : String) (u : Url) : Parts :=
  let scheme := if u.scheme.isEmpty then scheme else u.scheme
  let (path, params) :=
    if parametric.contains scheme then splitParams u.path.toList else (u.path.toList, [])
  ⟨scheme, u.authority.toList, path, params, (u.query.getD "").toList, (u.fragment.getD "").toList⟩

def Parts.render (p : Parts) : String :=
  let path := if p.params.isEmpty then p.path else p.path ++ ';' :: p.params
  let rooted := if !p.netloc.isEmpty && !path.isEmpty && path.head? != some '/' then '/' :: path
    else path
  let mark (c : Char) (s : List Char) := if s.isEmpty then [] else c :: s
  String.ofList ((if p.scheme.isEmpty then [] else p.scheme.toList ++ [':']) ++
    (if p.netloc.isEmpty then [] else '/' :: '/' :: p.netloc) ++ rooted ++ mark '?' p.query ++
    mark '#' p.fragment)

/-- Resolves the segments of dots; one at the end leaves a directory. -/
def resolveDots (segments : List (List Char)) : List (List Char) :=
  let isDots (s : List Char) := s == ['.'] || s == ['.', '.']
  let kept := (segments.foldl (fun kept s =>
    if s == ['.', '.'] then kept.drop 1 else if s == ['.'] then kept else s :: kept) []).reverse
  if (segments.getLast?.map isDots).getD false then kept ++ [[]] else kept

def segmentsAgainst (base path : List Char) : List (List Char) :=
  let own := Query.splitAt '/' path
  if path.head? == some '/' then own
  else
    let dir := Query.splitAt '/' base
    let dir := if dir.getLast? == some [] then dir else dir.dropLast
    let all := dir ++ own
    all.take 1 ++ ((all.drop 1).dropLast.filter (!·.isEmpty)) ++ (all.drop 1).getLast?.toList

def resolveText (base reference : Url) : String :=
  let text := reference.render
  if text.isEmpty then base.render
  else
    let b := partsOf "" base
    let r := partsOf b.scheme reference
    if r.scheme != b.scheme || !hierarchical.contains r.scheme then text
    else if !r.netloc.isEmpty then r.render
    else
      let r := { r with netloc := b.netloc }
      if r.path.isEmpty && r.params.isEmpty then
        { r with
          path := b.path
          params := b.params
          query := if r.query.isEmpty then b.query else r.query : Parts }.render
      else
        let path := ['/'].intercalate (resolveDots (segmentsAgainst b.path r.path))
        { r with path := if path.isEmpty then ['/'] else path : Parts }.render

end ApiDiscovery.Reference

namespace ApiDiscovery

def Url.resolve (base reference : Url) : Except Url.Fault Url :=
  Url.parse (Reference.resolveText base reference)

end ApiDiscovery
