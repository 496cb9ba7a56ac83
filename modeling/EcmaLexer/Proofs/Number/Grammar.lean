import EcmaLexer.Lexeme.Number

namespace EcmaLexer.Number

/-- What may follow a digit: digits, with at most one underscore before each of them. -/
inductive MoreDigits (radix : Radix) : List Char → Prop where
  | nil : MoreDigits radix []
  | digit {c : Char} {rest : List Char} (hc : isDigit radix c = true)
      (hrest : MoreDigits radix rest) : MoreDigits radix (c :: rest)
  | separated {c : Char} {rest : List Char} (hc : isDigit radix c = true)
      (hrest : MoreDigits radix rest) : MoreDigits radix ('_' :: c :: rest)

/-- One or more digits with single underscores between them. -/
inductive Digits (radix : Radix) : List Char → Prop where
  | intro {c : Char} {rest : List Char} (hc : isDigit radix c = true)
      (hrest : MoreDigits radix rest) : Digits radix (c :: rest)

/-- An exponent, or none. -/
inductive Exponent : List Char → Prop where
  | none : Exponent []
  | unsigned {mark : Char} {digits : List Char} (hmark : isExponentMark mark = true)
      (hdigits : Digits .decimal digits) : Exponent (mark :: digits)
  | signed {mark sign : Char} {digits : List Char} (hmark : isExponentMark mark = true)
      (hsign : isSign sign = true) (hdigits : Digits .decimal digits) :
      Exponent (mark :: sign :: digits)

/-- What may follow a decimal integer: the `n` of a big integer, or a fraction that may lack its
    digits, or none, and an exponent. -/
inductive AfterInteger : List Char → Prop where
  | bigInt : AfterInteger ['n']
  | integer {exponent : List Char} (hexponent : Exponent exponent) : AfterInteger exponent
  | point {exponent : List Char} (hexponent : Exponent exponent) : AfterInteger ('.' :: exponent)
  | fraction {digits exponent : List Char} (hdigits : Digits .decimal digits)
      (hexponent : Exponent exponent) : AfterInteger ('.' :: (digits ++ exponent))

/-- The letters that name a radix after a leading zero. -/
def letters : Radix → List Char
  | .binary => ['b', 'B']
  | .octal => ['o', 'O']
  | .decimal => []
  | .hex => ['x', 'X']

/-- The numbers of the language. Only sloppy mode has those that begin with a zero and more
    digits: octal if all of them are below 8, and then nothing follows them; otherwise decimal. -/
inductive Literal (strict : Bool) : List Char → Prop where
  | prefixed {radix : Radix} {letter : Char} {digits suffix : List Char}
      (hletter : letter ∈ letters radix) (hdigits : Digits radix digits)
      (hsuffix : suffix = [] ∨ suffix = ['n']) :
      Literal strict ('0' :: letter :: (digits ++ suffix))
  | zero {after : List Char} (hafter : AfterInteger after) : Literal strict ('0' :: after)
  | decimal {digits after : List Char} (hdigits : Digits .decimal digits)
      (hfirst : digits.head? ≠ some '0') (hafter : AfterInteger after) :
      Literal strict (digits ++ after)
  | fraction {digits exponent : List Char} (hdigits : Digits .decimal digits)
      (hexponent : Exponent exponent) : Literal strict ('.' :: (digits ++ exponent))
  | legacyOctal {digits : List Char} (hsloppy : strict = false) (hne : digits ≠ [])
      (hdigits : ∀ c ∈ digits, Character.isOctalDigit c = true) : Literal strict ('0' :: digits)
  | legacyDecimal {digits after : List Char} (hsloppy : strict = false)
      (hdigits : ∀ c ∈ digits, c.isDigit = true)
      (hlarge : ∃ c ∈ digits, Character.isOctalDigit c = false) (hafter : AfterInteger after) :
      Literal strict ('0' :: (digits ++ after))

/-- Whether a text begins as a number does: with a digit, or a point and a digit. -/
def begins : List Char → Bool
  | [] => false
  | c :: rest => c.isDigit || c == '.' && rest.head?.any Char.isDigit

/-- Whether a number has a letter of the radix after its leading zero. -/
def hasLetter (radix : Radix) : List Char → Bool
  | '0' :: c :: _ => (letters radix).contains c
  | _ => false

/-- Whether a number is a zero and more digits that are all below 8. -/
def isLegacyOctal : List Char → Bool
  | '0' :: c :: rest => (c :: rest).all Character.isOctalDigit
  | _ => false

/-- All that is marked about a number, told from its text. In a hexadecimal number `e` is a
    digit. -/
def flagsOf (text : List Char) : Flags where
  octal := isLegacyOctal text
  hexSpecifier := hasLetter .hex text
  binarySpecifier := hasLetter .binary text
  octalSpecifier := hasLetter .octal text
  scientific := !hasLetter .hex text && text.any isExponentMark
  containsSeparator := text.contains '_'

/-- What a number is: a big integer if `n` ends it. -/
def kindOf (text : List Char) : Token :=
  if text.getLast? = some 'n' then .bigIntLiteral else .numericLiteral

/-- The longest word of a language that a text begins with, and what comes after it. -/
structure Longest (Word : List Char → Prop) (text found rest : List Char) : Prop where
  split : found ++ rest = text
  word : Word found
  longest : ∀ other, Word other → other <+: text → other.length ≤ found.length

/-- Whether a character follows that may not stand right after a number. -/
def blocked (rest : List Char) : Bool :=
  rest.head?.any fun c => c.isDigit || Character.isIdentifierStart c

end EcmaLexer.Number
