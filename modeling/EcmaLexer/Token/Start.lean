import EcmaLexer.Token.Punctuator

namespace EcmaLexer

/-- What the first character of a token, if it is ASCII, says about the token.
    Only the small letters that begin some keyword are `keywordLetter`. -/
inductive StartClass where
  | invalid
  | blank
  | lineFeed
  | carriageReturn
  | quote
  | digit
  | zero
  | letter
  | keywordLetter
  | backslash
  | backtick
  | punctuator (punctuator : Punctuator)
deriving DecidableEq

namespace StartClass

def name : StartClass → String
  | invalid => "Error"
  | blank => "WhiteSpace"
  | lineFeed => "LineFeed"
  | carriageReturn => "CarriageReturn"
  | quote => "StringLiteral"
  | digit => "NumericLiteral"
  | zero => "LeadingZero"
  | letter => "Identifier"
  | keywordLetter => "IdentifierOrKeyword"
  | backslash => "EscapedIdentifier"
  | backtick => "TemplateTail"
  | punctuator p => p.name

/-- The class of an ASCII character. The number sign is `invalid` here although a
    private name may follow it. -/
def ofAscii (c : Char) : StartClass :=
  match Punctuator.ofChar? c with
  | some p => punctuator p
  | none =>
    match c with
    | ' ' | '\t' | '\x0b' | '\x0c' => blank
    | '\n' => lineFeed
    | '\r' => carriageReturn
    | '\x22' | '\x27' => quote
    | '0' => zero
    | '$' | '_' | 'h' | 'j' | 'q' | 'x' => letter
    | '\\' => backslash
    | '\x60' => backtick
    | _ =>
      if c.isDigit then digit
      else if c.isUpper then letter
      else if c.isLower then keywordLetter
      else invalid

/-- The class of a first character; beyond ASCII there is none. -/
def ofChar? (c : Char) : Option StartClass := if c.toNat < 0x80 then some (ofAscii c) else none

end StartClass

/-- What an ASCII character right after a leading zero says about the number. -/
inductive DigitClass where
  | other
  | digit
  | binary
  | octal
  | hex
  | underscore
deriving DecidableEq

namespace DigitClass

def name : DigitClass → String
  | other => "Error"
  | digit => "NumericLiteral"
  | binary => "BinaryDigits"
  | octal => "OctalDigits"
  | hex => "HexDigits"
  | underscore => "Underscore"

def ofAscii : Char → DigitClass
  | 'b' | 'B' => binary
  | 'o' | 'O' => octal
  | 'x' | 'X' => hex
  | '_' => underscore
  | c => if c.isDigit then digit else other

/-- The class of a character after a leading zero; beyond ASCII there is none. -/
def ofChar? (c : Char) : Option DigitClass := if c.toNat < 0x80 then some (ofAscii c) else none

end DigitClass

end EcmaLexer
