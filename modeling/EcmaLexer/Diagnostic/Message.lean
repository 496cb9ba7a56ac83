namespace EcmaLexer.Diagnostic

/-- A message of the catalog: a code, and a template for its text. -/
structure Message where
  code : Nat
  template : String
deriving DecidableEq

namespace Message

def unterminatedStringLiteral : Message := ⟨1002, "Unterminated string literal."⟩

def commentEndExpected : Message := ⟨1010, "'*/' expected."⟩

def octalLiteralInStrictMode : Message :=
  ⟨1121, "Octal literals are not allowed in strict mode."⟩

def digitExpected : Message := ⟨1124, "Digit expected."⟩

def hexDigitExpected : Message := ⟨1125, "Hexadecimal digit expected."⟩

def unexpectedEndOfText : Message := ⟨1126, "Unexpected end of text."⟩

def invalidCharacter : Message := ⟨1127, "Invalid character '\x7b0\x7d'."⟩

def binaryDigitExpected : Message := ⟨1177, "Binary digit expected."⟩

def octalDigitExpected : Message := ⟨1178, "Octal digit expected."⟩

def codePointOutOfRange : Message :=
  ⟨1198, "An extended Unicode escape value must be between 0x0 and 0x10FFFF inclusive."⟩

def invalidUnicodeEscape : Message := ⟨1199, "Invalid Unicode escape sequence."⟩

def octalEscapeInStrictMode : Message :=
  ⟨1487, "Octal escape sequences are not allowed in strict mode."⟩

def octalEscapeInTemplate : Message :=
  ⟨1488, "Octal escape sequences are not allowed in untagged templates."⟩

def escapeNotAllowed : Message := ⟨1489, "Escape sequence '\x7b0\x7d' is not allowed."⟩

def separatorNotAllowed : Message := ⟨6188, "Numeric separators are not allowed here."⟩

/-- Every message, by increasing code. -/
def catalog : List Message :=
  [unterminatedStringLiteral, commentEndExpected, octalLiteralInStrictMode, digitExpected,
    hexDigitExpected, unexpectedEndOfText, invalidCharacter, binaryDigitExpected,
    octalDigitExpected, codePointOutOfRange, invalidUnicodeEscape, octalEscapeInStrictMode,
    octalEscapeInTemplate, escapeNotAllowed, separatorNotAllowed]

def ofCode? (code : Nat) : Option Message := catalog.find? (·.code == code)

end Message

end EcmaLexer.Diagnostic
