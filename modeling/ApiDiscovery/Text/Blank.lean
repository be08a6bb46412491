/-!
# Blank characters

Two notions of blank space. `isWhiteSpace` is the Unicode property White_Space; `isBlank` adds the
four information separators U+001C to U+001F, which separate text without being spaces. Each text
format names the notion it trims by.
-/

namespace ApiDiscovery.Text

/-- The Unicode property White_Space. -/
def isWhiteSpace (c : Char) : Bool :=
  let n := c.toNat
  (0x09 ≤ n && n ≤ 0x0d) || n == 0x20 || n == 0x85 || n == 0xa0 || n == 0x1680 ||
    (0x2000 ≤ n && n ≤ 0x200a) || n == 0x2028 || n == 0x2029 || n == 0x202f || n == 0x205f ||
    n == 0x3000

/-- White space or an information separator. -/
def isBlank (c : Char) : Bool :=
  isWhiteSpace c || (0x1c ≤ c.toNat && c.toNat ≤ 0x1f)

/-- Drops the longest suffix of characters of the class. -/
def trimRight (p : Char → Bool) (s : List Char) : List Char :=
  (s.reverse.dropWhile p).reverse

/-- Drops the longest prefix and the longest suffix of characters of the class. -/
def trim (p : Char → Bool) (s : List Char) : List Char :=
  trimRight p (s.dropWhile p)

/-- ASCII letters in lower case; every other character as it is. -/
def lowerAscii (s : String) : String := s.map Char.toLower

end ApiDiscovery.Text
