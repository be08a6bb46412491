/-!
# Halves of characters

A character beyond the first 65536 may be given by two numbers, a high half and a low one. Half a pair
alone is no character; U+FFFD stands for it.
-/

namespace ApiDiscovery.Text

def isHighSurrogate (n : Nat) : Bool := 0xd800 ≤ n && n ≤ 0xdbff

def isLowSurrogate (n : Nat) : Bool := 0xdc00 ≤ n && n ≤ 0xdfff

def isSurrogate (n : Nat) : Bool := isHighSurrogate n || isLowSurrogate n

def joinSurrogates (high low : Nat) : Char :=
  Char.ofNat (0x10000 + (high - 0xd800) * 0x400 + (low - 0xdc00))

def charOrReplacement (n : Nat) : Char :=
  if isSurrogate n then Char.ofNat 0xfffd else Char.ofNat n

end ApiDiscovery.Text
