import EcmaLexer.Diagnostic.Basic
import EcmaLexer.Text.LineMap
import EcmaLexer.Text.Quoted

namespace EcmaLexer

/-- Why the body of an escape sequence is malformed. -/
inductive EscapeFault where
  | invalidHex
  | invalidUnicode
  | unicodeOverflow
  | templateOctal
  | strictOctal
  | eightOrNine (digit : Char)
deriving DecidableEq

namespace EscapeFault

def name : EscapeFault → String
  | invalidHex => "InvalidHex"
  | invalidUnicode => "InvalidUnicode"
  | unicodeOverflow => "UnicodeOverflow"
  | templateOctal => "TemplateOctal"
  | strictOctal => "StrictOctal"
  | eightOrNine digit => "EightOrNine(" ++ Text.singleQuoted digit ++ ")"

def describe : EscapeFault → String
  | invalidHex => "'\\x' must be followed by two hexadecimal digits"
  | invalidUnicode => "malformed '\\u' escape"
  | unicodeOverflow => "code point out of range"
  | templateOctal => "octal escapes are not allowed in templates"
  | strictOctal => "octal escapes are not allowed in strict mode"
  | eightOrNine digit => "'\\" ++ digit.toString ++ "' is not allowed here"

end EscapeFault

/-- The digit families of numbers. -/
inductive Radix where
  | binary
  | octal
  | decimal
  | hex
deriving DecidableEq

namespace Radix

def value : Radix → Nat
  | binary => 2
  | octal => 8
  | decimal => 10
  | hex => 16

def name : Radix → String
  | binary => "Binary"
  | octal => "Octal"
  | decimal => "Decimal"
  | hex => "Hex"

end Radix

/-- Why a token could not be read. -/
inductive Fault where
  /-- The text ended before a template was closed. -/
  | unexpectedEndOfInput
  | invalidEscapeSequence (escape : EscapeFault)
  /-- A character that fits nowhere at this point. -/
  | invalidCharacter (c : Char)
  | unterminatedStringLiteral
  | unterminatedComment
  | missingDigits (radix : Radix)
  | invalidNumericSeparator
  | legacyOctalLiteral
deriving DecidableEq

namespace Fault

def name : Fault → String
  | unexpectedEndOfInput => "UnexpectedEndOfInput"
  | invalidEscapeSequence _ => "InvalidEscapeSequence"
  | invalidCharacter _ => "InvalidCharacter"
  | unterminatedStringLiteral => "UnterminatedStringLiteral"
  | unterminatedComment => "UnterminatedComment"
  | missingDigits _ => "MissingDigits"
  | invalidNumericSeparator => "InvalidNumericSeparator"
  | legacyOctalLiteral => "LegacyOctalLiteral"

def describe : Fault → String
  | unexpectedEndOfInput => "unexpected end of input"
  | invalidEscapeSequence escape => "invalid escape sequence: " ++ escape.describe
  | invalidCharacter c => "invalid character " ++ Text.singleQuoted c
  | unterminatedStringLiteral => "unterminated string literal"
  | unterminatedComment => "unterminated comment"
  | missingDigits _ => "expected a digit"
  | invalidNumericSeparator => "numeric separators are not allowed here"
  | legacyOctalLiteral => "legacy octal literals are not allowed in strict mode"

/-- The message of the catalog that a fault is recorded as. -/
def message : Fault → Diagnostic.Message
  | unexpectedEndOfInput => .unexpectedEndOfText
  | invalidEscapeSequence .invalidHex => .hexDigitExpected
  | invalidEscapeSequence .invalidUnicode => .invalidUnicodeEscape
  | invalidEscapeSequence .unicodeOverflow => .codePointOutOfRange
  | invalidEscapeSequence .templateOctal => .octalEscapeInTemplate
  | invalidEscapeSequence .strictOctal => .octalEscapeInStrictMode
  | invalidEscapeSequence (.eightOrNine _) => .escapeNotAllowed
  | invalidCharacter _ => .invalidCharacter
  | unterminatedStringLiteral => .unterminatedStringLiteral
  | unterminatedComment => .commentEndExpected
  | missingDigits .binary => .binaryDigitExpected
  | missingDigits .octal => .octalDigitExpected
  | missingDigits .decimal => .digitExpected
  | missingDigits .hex => .hexDigitExpected
  | invalidNumericSeparator => .separatorNotAllowed
  | legacyOctalLiteral => .octalLiteralInStrictMode

/-- The arguments of the fault's message. -/
def args : Fault → List (List Char)
  | invalidEscapeSequence (.eightOrNine digit) => [['\\', digit]]
  | invalidCharacter c => [[c]]
  | _ => []

def diagnostic (fault : Fault) (span : Text.Span) : Diagnostic :=
  .ofMessage span fault.message fault.args

end Fault

/-- A fault at a place of the text. -/
structure ScanError where
  fault : Fault
  position : Nat
  location : Text.Location
deriving DecidableEq

def ScanError.display (error : ScanError) : String :=
  error.fault.describe ++ " at " ++ error.location.display

end EcmaLexer
