import ApiDiscovery.Http.ContentType
import ApiDiscovery.Http.Header
import ApiDiscovery.Json.Reader
import ApiDiscovery.Text.Charset
import ApiDiscovery.Url.Reference

/-!
# Messages

What goes over the wire: requests one way, and the other way responses or failures of the network.
-/

namespace ApiDiscovery.Http

open Text

/-- A request as it is sent. -/
structure Request where
  verb : String
  url : Url
  headers : Headers
  body : List UInt8

/-- A response, with the character sets that are known where it is read. -/
structure Response where
  status : Int
  headers : Headers
  body : List UInt8
  charsets : Charsets := Charset.standard

namespace Response

/-- A response that says nothing. -/
def bare (status : Int) : Response := { status, headers := [], body := [] }

/-- How the body is read: in the character set that the header names, if it is known, else in UTF-8. -/
def decoder (r : Response) : Decoder :=
  (((r.headers.get? "content-type").bind ContentType.charset?).bind r.charsets).getD
    (Charset.utf8 false).decode

def text (r : Response) : Except Charset.Fault String :=
  if r.body.isEmpty then .ok "" else (r.decoder r.body).map String.ofList

/-- The encoding of a body in JSON, told from its first bytes. -/
def jsonCharset : List UInt8 → Charset
  | 0x00 :: 0x00 :: 0xfe :: 0xff :: _ | 0xff :: 0xfe :: 0x00 :: 0x00 :: _ => .utf32 .marked
  | 0xfe :: 0xff :: _ | 0xff :: 0xfe :: _ => .utf16 .marked
  | 0xef :: 0xbb :: 0xbf :: _ => .utf8 true
  | 0x00 :: b :: _ :: _ :: _ => if b == 0 then .utf32 .big else .utf16 .big
  | _ :: 0x00 :: c :: d :: _ => if c == 0 && d == 0 then .utf32 .little else .utf16 .little
  | [0x00, _] => .utf16 .big
  | [_, 0x00] => .utf16 .little
  | _ => .utf8 false

def json? (r : Response) : Option Value :=
  ((jsonCharset r.body).decode? r.body).bind fun cs => (Json.parse (String.ofList cs)).toOption

def isSuccess (r : Response) : Bool := 200 ≤ r.status && r.status < 300

def redirection? (r : Response) : Option String :=
  if [301, 302, 303, 307, 308].contains r.status then r.headers.get? "location" else none

end Response

/-! ## Failures of the network -/

/-- How the exchange of messages can fail. -/
inductive FailureKind where
  | connect
  | read
  | write
  | close
  | network
  | connectTimeout
  | readTimeout
  | writeTimeout
  | poolTimeout
  | timeout
  | remoteProtocol
  | localProtocol
  | proxy
  | unsupportedScheme
  | decoding
  | redirections
deriving DecidableEq, Repr

/-- Whether another attempt may succeed: the network did not carry the messages, or not in time. -/
def FailureKind.isTransient : FailureKind → Bool
  | connect | read | write | close | network => true
  | connectTimeout | readTimeout | writeTimeout | poolTimeout | timeout => true
  | _ => false

/-- A failure with the words that the network has for it. -/
structure Failure where
  kind : FailureKind
  text : String
deriving DecidableEq, Repr

/-- What comes back for a request. -/
inductive Answer where
  | response (r : Response)
  | failure (f : Failure)

/-- A network: what it answers to its requests in turn, and the requests so far. -/
structure Network where
  script : Nat → Answer
  sent : List Request := []

namespace Network

def emptyResponse : Response := .bare 200

/-- The network that gives the answers in order; the last one repeats. -/
def ofList (answers : List Answer) : Network where
  script i :=
    ((answers[i]?).or answers.getLast?).getD (.response emptyResponse)

def exchange (n : Network) (r : Request) : Answer × Network :=
  (n.script n.sent.length, { n with sent := n.sent ++ [r] })

end Network

end ApiDiscovery.Http
