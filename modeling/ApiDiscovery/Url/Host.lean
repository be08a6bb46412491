import ApiDiscovery.Text.Digit
import ApiDiscovery.Text.LetterCase
import ApiDiscovery.Text.NameLetter
import ApiDiscovery.Text.Punycode
import ApiDiscovery.Text.Quoted
import ApiDiscovery.Url.Percent
import ApiDiscovery.Url.Query

/-!
# Hosts

The host of a URL is an address of one of the two versions of the protocol or a name. An address is
checked and kept as it is written; a name is written in lower case. A name with characters beyond ASCII is
written label by label in those of ASCII, behind a mark.
-/

namespace ApiDiscovery.Host

open Text

/-- The parts of a text between the occurrences of a character. -/
abbrev parts (sep : Char) (s : List Char) : List (List Char) := Query.splitAt sep s

/-! ## Addresses -/

/-- The positions in the form of four numbers with one character of any kind between two of them,
after reading one more character: an even one is before a digit of a number, an odd one behind a
digit. -/
def advance (c : Char) (states : List Nat) : List Nat :=
  (states.flatMap fun s =>
    if s % 2 == 0 then if c.isDigit then [s + 1] else []
    else (if c.isDigit then [s] else []) ++ (if s < 7 then [s + 1] else [])).eraseDups

/-- Whether a text has the form of four numbers with one character of any kind between two of
them. -/
def looksNumeric (s : List Char) : Bool := (s.foldl (fun st c => advance c st) [0]).contains 7

/-- A number below 256 without leading zeros. -/
def isOctet (s : List Char) : Bool :=
  !s.isEmpty && s.length ≤ 3 && s.all Char.isDigit && (s.length == 1 || s.head? != some '0') &&
    s.foldl (fun n c => n * 10 + (c.toNat - 0x30)) 0 ≤ 255

def isAddress4 (s : List Char) : Bool :=
  let octets := parts '.' s
  octets.length == 4 && octets.all isOctet

def isGroup (s : List Char) : Bool :=
  !s.isEmpty && s.length ≤ 4 && s.all fun c => (hexValue? c).isSome

/-- Whether the groups of an address are complete: eight of them, or fewer with one gap, which may
touch an end only as an empty group on either side of it. -/
def groupsComplete (groups : List (List Char)) : Bool :=
  let inner := (groups.drop 1).dropLast
  match inner.count [] with
  | 0 => groups.length == 8 && groups.all isGroup
  | 1 =>
      let hi := groups.takeWhile (· != []) |>.length
      let first := (groups.head?.getD []).isEmpty
      let last := (groups.getLast?.getD []).isEmpty
      let skip := if first then 1 else hi
      let lo := groups.length - skip - 1
      (!first || inner.head? == some []) && (!last || lo == 1) &&
        (groups.filter (· != [])).all isGroup &&
        (groups.filter (· != [])).length < 8
  | _ => false

/-- Groups of hexadecimal digits with colons between them; the last two may be written as an
address of four numbers. A zone may follow a percent sign. -/
def isAddress6 (s : List Char) : Bool :=
  let address := s.takeWhile (· != '%')
  let zone := s.dropWhile (· != '%')
  let zoneOk := zone.isEmpty || (1 < zone.length && !(zone.drop 1).contains '%')
  let groups := parts ':' address
  let last := groups.getLast?.getD []
  let groups := if last.contains '.' then groups.dropLast ++ [['0'], ['0']] else groups
  zoneOk && 3 ≤ (parts ':' address).length && groups.length ≤ 9 &&
    (!last.contains '.' || isAddress4 last) && groupsComplete groups

/-! ## Names -/

/-- The characters that stand for themselves in a name, the unreserved ones aside. -/
def nameMarks : List Char := "!$&'()*+,;=\"\x60\x7b\x7d%|\\".toList

/-- The dots that part the labels of a name. -/
def isDot (c : Char) : Bool := c == '.' || c == '\u3002' || c == '\uff0e' || c == '\uff61'

def labels (s : List Char) : List (List Char) :=
  Query.splitAt '.' (s.map fun c => if isDot c then '.' else c)

/-- What stands before a label that is written in other characters than its own. -/
def labelMark : List Char := "xn--".toList

/-- A label in ASCII. It has no hyphen at its ends, no two in the third and fourth place, and at most 63
characters. -/
def asciiLabel? (label : List Char) : Option (List Char) :=
  let isAscii := label.all (·.toNat < 0x80)
  let written := if isAscii then label else labelMark ++ Punycode.encode label
  if isAscii && labelMark.isPrefixOf label && 4 < label.length then
    if written.length ≤ 63 && label.getLast? != some '-' then some written else none
  else if label.isEmpty || 63 < written.length || !label.all isNameLetter ||
      label.head? == some '-' || label.getLast? == some '-' ||
      (label.drop 2).take 2 == ['-', '-'] then none
  else some written

/-- A name in ASCII. An empty last label stands for the dot at the end. -/
def asciiName? (s : List Char) : Option (List Char) :=
  let ls := labels s
  let ends := ls.getLast? == some []
  let ls := if ends then ls.dropLast else ls
  match ls.mapM asciiLabel? with
  | some (l :: rest) =>
      let name := ['.'].intercalate (l :: rest ++ if ends then [[]] else [])
      if name.length ≤ (if ends then 254 else 253) then some name else none
  | _ => none

/-- Why a text is no host. -/
inductive Fault where
  | address4 (host : String)
  | address6 (host : String)
  | name (host : String)
deriving DecidableEq, Repr

def Fault.message : Fault → String
  | .address4 h => "Invalid IPv4 address: " ++ quoted h
  | .address6 h => "Invalid IPv6 address: " ++ quoted h
  | .name h => "Invalid IDNA hostname: " ++ quoted h

def isBracketed (s : List Char) : Bool := s.head? == some '[' && s.getLast? == some ']' && 1 < s.length

/-- The host as it is kept: an address without brackets, a name in lower case. -/
def normalize (s : List Char) : Except Fault (List Char) :=
  if s.isEmpty then .ok []
  else if looksNumeric s then
    if isAddress4 s then .ok s else .error (.address4 (String.ofList s))
  else if isBracketed s then
    let inner := (s.drop 1).dropLast
    if isAddress6 inner then .ok inner else .error (.address6 (String.ofList s))
  else if s.all (·.toNat < 0x80) then
    .ok (Percent.encode (fun c => Percent.isUnreserved c || nameMarks.contains c)
      (s.map Char.toLower))
  else
    match asciiName? (lower (String.ofList s)).toList with
    | some name => .ok name
    | none => .error (.name (String.ofList s))

end ApiDiscovery.Host
