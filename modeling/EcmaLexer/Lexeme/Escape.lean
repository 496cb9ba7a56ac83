import EcmaLexer.Character
import EcmaLexer.Fault
import EcmaLexer.Text.LineBreak

namespace EcmaLexer.Escape

/-- The literal an escape stands in; the rules for octal digits differ. -/
inductive Site where
  | stringLiteral
  | template
deriving DecidableEq

/-- What the text after a backslash was read as. `width` counts the characters
    consumed, also by a malformed escape. -/
structure Reading (α : Type) where
  width : Nat
  result : Except EscapeFault α

/-- The value of the `count` hexadecimal digits at the head of a text, after the
    digits before them gave `value`. There is none when other characters come
    first. -/
def hexDigits? : Nat → Nat → List Char → Option Nat
  | 0, value, _ => some value
  | _ + 1, _, [] => none
  | count + 1, value, c :: text =>
    match Character.hexValue? c with
    | none => none
    | some digit => hexDigits? count (value * 16 + digit) text

/-- The largest number of 32 bits. -/
def largestWord : Nat := 0xffffffff

/-- One more digit of a number that stays at the largest number of 32 bits once it
    would pass it. -/
def accumulate (value digit : Nat) : Nat :=
  min largestWord (min largestWord (value * 16) + digit)

/-- The saturated value of a run of hexadecimal digits. -/
def saturatedHex (digits : List Char) : Nat :=
  digits.foldl (fun value c => accumulate value ((Character.hexValue? c).getD 0)) 0

def largestCodePoint : Nat := 0x10ffff

/-- The character of a code point. A surrogate is no character; U+FFFD stands for
    it. -/
def scalar (codePoint : Nat) : Char :=
  if codePoint.isValidChar then Char.ofNat codePoint else '\ufffd'

def isHighSurrogate (unit : Nat) : Bool := 0xd800 ≤ unit && unit < 0xdc00

def isLowSurrogate (unit : Nat) : Bool := 0xdc00 ≤ unit && unit ≤ 0xdfff

/-- The low half of a surrogate pair, when the text begins with its escape. -/
def lowSurrogate? : List Char → Option Nat
  | '\\' :: 'u' :: text => (hexDigits? 4 0 text).filter isLowSurrogate
  | _ => none

/-- Reads the four digits of `\uHHHH`. Two escapes that are the halves of a
    surrogate pair are read together as one character. -/
def fourDigits (text : List Char) : Reading Char :=
  match hexDigits? 4 0 text with
  | none => ⟨0, .error .invalidUnicode⟩
  | some unit =>
    match if isHighSurrogate unit then lowSurrogate? (text.drop 4) else none with
    | none => ⟨4, .ok (scalar unit)⟩
    | some low => ⟨10, .ok (scalar (0x10000 + (unit - 0xd800) * 0x400 + (low - 0xdc00)))⟩

/-- Reads the digits and the closing brace of `\u{H...}`, after the opening one. -/
def bracedDigits (text : List Char) : Reading Char :=
  let digits := text.takeWhile Character.isHexDigit
  if digits.isEmpty || (text.drop digits.length).head? != some '\x7d' then
    ⟨digits.length, .error .invalidUnicode⟩
  else if largestCodePoint < saturatedHex digits then
    ⟨digits.length + 1, .error .unicodeOverflow⟩
  else ⟨digits.length + 1, .ok (scalar (saturatedHex digits))⟩

/-- Reads a unicode escape after its `\u`. -/
def unicode (text : List Char) : Reading Char :=
  match text with
  | '\x7b' :: text =>
    let braced := bracedDigits text
    ⟨braced.width + 1, braced.result⟩
  | _ => fourDigits text

/-- The digits of a legacy octal escape: at most three, with a value of at most
    255, so only two after a first digit above 3. -/
def octalDigits (first : Char) (rest : List Char) : List Char :=
  ((first :: rest).take (if first ≤ '3' then 3 else 2)).takeWhile Character.isOctalDigit

def octalValue (digits : List Char) : Nat :=
  digits.foldl (fun value c => value * 8 + (c.toNat - '0'.toNat)) 0

/-- The character that a letter after the backslash stands for. -/
def letter? : Char → Option Char
  | 'b' => some '\x08'
  | 't' => some '\t'
  | 'n' => some '\n'
  | 'v' => some '\x0b'
  | 'f' => some '\x0c'
  | 'r' => some '\r'
  | _ => none

/-- Reads an escape that begins with a digit: `\0` when no digit follows, a
    legacy octal escape, or `\8` and `\9`, which stand for themselves. Templates
    and strict mode allow only the first. -/
def digit (site : Site) (strict : Bool) (first : Char) (rest : List Char) :
    Reading (List Char) :=
  if first = '0' && !(rest.head?.any Char.isDigit) then ⟨1, .ok ['\x00']⟩
  else if Character.isOctalDigit first then
    if site = .template then ⟨0, .error .templateOctal⟩
    else if strict then ⟨0, .error .strictOctal⟩
    else
      let digits := octalDigits first rest
      ⟨digits.length, .ok [scalar (octalValue digits)]⟩
  else if site = .template || strict then ⟨0, .error (.eightOrNine first)⟩
  else ⟨1, .ok [first]⟩

/-- Reads the escape whose first character after the backslash is `first`. A
    backslash before a line terminator stands for nothing. -/
def read (site : Site) (strict : Bool) (first : Char) (rest : List Char) :
    Reading (List Char) :=
  match letter? first with
  | some c => ⟨1, .ok [c]⟩
  | none =>
    if first = '\r' && rest.head? = some '\n' then ⟨2, .ok []⟩
    else if Text.isLineTerminator first then ⟨1, .ok []⟩
    else if first = 'x' then
      match hexDigits? 2 0 rest with
      | none => ⟨1, .error .invalidHex⟩
      | some value => ⟨3, .ok [scalar value]⟩
    else if first = 'u' then
      let escape := unicode rest
      ⟨escape.width + 1, escape.result.map ([·])⟩
    else if first.isDigit then digit site strict first rest
    else ⟨1, .ok [first]⟩

end EcmaLexer.Escape
