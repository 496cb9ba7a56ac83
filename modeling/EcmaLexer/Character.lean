import EcmaLexer.Unicode.IdentifierStart
import EcmaLexer.Unicode.IdentifierExtend

namespace EcmaLexer.Character

/-- White space that does not end a line. -/
def isBlank (c : Char) : Bool :=
  c == ' ' || c == '\t' || c == '\x0b' || c == '\x0c' || c == '\u00a0' || c == '\u1680' ||
    ('\u2000' ≤ c && c ≤ '\u200a') || c == '\u202f' || c == '\u205f' || c == '\u3000' ||
    c == '\ufeff'

def isAscii (c : Char) : Bool := c.toNat < 0x80

def isIdentifierStart (c : Char) : Bool :=
  if isAscii c then c == '_' || c == '$' || c.isAlpha
  else Unicode.identifierStart.contains c.toNat

/-- Every identifier start is also an identifier part. -/
def isIdentifierPart (c : Char) : Bool :=
  if isAscii c then c == '_' || c == '$' || c.isAlphanum
  else Unicode.identifierStart.contains c.toNat || Unicode.identifierExtend.contains c.toNat

def isOctalDigit (c : Char) : Bool := '0' ≤ c && c ≤ '7'

/-- The value of a hexadecimal digit of either case. -/
def hexValue? (c : Char) : Option Nat :=
  if '0' ≤ c && c ≤ '9' then some (c.toNat - '0'.toNat)
  else if 'a' ≤ c && c ≤ 'f' then some (c.toNat - 'a'.toNat + 10)
  else if 'A' ≤ c && c ≤ 'F' then some (c.toNat - 'A'.toNat + 10)
  else none

def isHexDigit (c : Char) : Bool := (hexValue? c).isSome

end EcmaLexer.Character
