import EcmaLexer.Character
import EcmaLexer.Lexeme.Basic
import EcmaLexer.Token.Start

namespace EcmaLexer.Number

def isDigit (radix : Radix) (c : Char) : Bool := (Character.hexValue? c).any (· < radix.value)

/-- A run of digits with single underscores between them. `misplaced` tells how many
    characters come before an underscore that may not stand where it does. -/
structure DigitRun where
  width : Nat
  separated : Bool
  misplaced : Option Nat
deriving DecidableEq

/-- The run that begins one character earlier. -/
def DigitRun.after (separator : Bool) (run : DigitRun) : DigitRun where
  width := run.width + 1
  separated := separator || run.separated
  misplaced := run.misplaced.map (· + 1)

/-- Reads a run of digits. An underscore must follow a digit and be followed by
    one; `started` tells whether a digit comes before the text. -/
def digits (radix : Radix) (started : Bool) : List Char → DigitRun
  | [] => ⟨0, false, none⟩
  | c :: rest =>
    if c = '_' then
      if !started then ⟨0, false, some 0⟩
      else if rest.head? = some '_' then ⟨1, true, some 1⟩
      else if rest.head?.any (isDigit radix) then (digits radix true rest).after true
      else ⟨1, true, some 0⟩
    else if isDigit radix c then (digits radix true rest).after false
    else ⟨0, false, none⟩

/-- Ends a number. Neither an underscore nor a character that starts an identifier nor
    another digit may come right after it. -/
def finish (token : Token) (text : List Char) : Lexeme :=
  match text with
  | [] => .accept token 0
  | c :: _ =>
    if c = '_' then .reject .invalidNumericSeparator 0 0
    else if Character.isIdentifierStart c || c.isDigit then .reject (.invalidCharacter c) 0 0
    else .accept token 0

/-- Reads what may follow the digits of a number: the `n` of a big integer. -/
def suffix (integer : Bool) (text : List Char) : Lexeme :=
  if integer && text.head? = some 'n' then
    (finish .bigIntLiteral (text.drop 1)).after 1 [] {}
  else finish .numericLiteral text

/-- Reads a run of digits, and then the rest of the number. -/
def withDigits (radix : Radix) (required : Bool) (text : List Char)
    (next : List Char → Lexeme) : Lexeme :=
  let run := digits radix false text
  let flags : Flags := { containsSeparator := run.separated }
  match run.misplaced with
  | some before => (Lexeme.reject .invalidNumericSeparator run.width before).after 0 [] flags
  | none =>
    if required && run.width = 0 then .reject (.missingDigits radix) 0 0
    else (next (text.drop run.width)).after run.width [] flags

def isExponentMark (c : Char) : Bool := c == 'e' || c == 'E'

def isSign (c : Char) : Bool := c == '+' || c == '-'

/-- Reads an optional exponent, and then the end of the number. -/
def exponent (integer : Bool) (text : List Char) : Lexeme :=
  if text.head?.any isExponentMark then
    let width := if (text.drop 1).head?.any isSign then 2 else 1
    (withDigits .decimal true (text.drop width) (suffix false)).after width []
      { scientific := true }
  else suffix integer text

/-- Reads what follows the integer part of a decimal number: an optional fraction,
    an optional exponent, the end. -/
def afterInteger (text : List Char) : Lexeme :=
  if text.head? = some '.' then
    (withDigits .decimal false (text.drop 1) (exponent false)).after 1 [] {}
  else exponent true text

/-- Reads the digits after a letter that names their radix. -/
def prefixed (radix : Radix) (flags : Flags) (text : List Char) : Lexeme :=
  (withDigits radix true (text.drop 1) (suffix true)).after 2 [] flags

/-- Reads a number of several digits that begins with zero: octal when all its digits
    are below 8, and otherwise decimal all the same. Strict mode has neither. -/
def legacy (strict : Bool) (text : List Char) : Lexeme :=
  if strict then .reject .legacyOctalLiteral 1 0
  else
    let run := text.takeWhile Char.isDigit
    let rest := text.drop run.length
    if run.all Character.isOctalDigit then
      (finish .numericLiteral rest).after (1 + run.length) [] { octal := true }
    else (afterInteger rest).after (1 + run.length) [] {}

/-- Reads a number that begins with zero; `text` is what comes after the zero. -/
def leadingZero (strict : Bool) (text : List Char) : Lexeme :=
  match text.head?.bind DigitClass.ofChar? with
  | some .binary => prefixed .binary { binarySpecifier := true } text
  | some .octal => prefixed .octal { octalSpecifier := true } text
  | some .hex => prefixed .hex { hexSpecifier := true } text
  | some .underscore => .reject .invalidNumericSeparator 1 1
  | some .digit => legacy strict text
  | some .other | none => (afterInteger text).after 1 [] {}

/-- Reads a number without its value. -/
def shape (strict : Bool) (text : List Char) : Lexeme :=
  match text with
  | '0' :: rest => leadingZero strict rest
  | '.' :: _ => afterInteger text
  | _ => withDigits .decimal false text afterInteger

/-- Reads a number. Its value is its text; a number with a fault has none. -/
def read (strict : Bool) (text : List Char) : Lexeme :=
  let lexeme := shape strict text
  match lexeme.result with
  | .ok _ => { lexeme with value := some (text.take lexeme.width) }
  | .error _ => { lexeme with value := some [] }

end EcmaLexer.Number
