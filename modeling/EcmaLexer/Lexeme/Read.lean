import EcmaLexer.Lexeme.Name
import EcmaLexer.Lexeme.Number
import EcmaLexer.Lexeme.StringLiteral
import EcmaLexer.Lexeme.Template

namespace EcmaLexer.Lexeme

/-- Reads the longest punctuator that begins with the given one. -/
def ofPunctuator (first : Punctuator) (text : List Char) : Lexeme :=
  let longest := first.longest text
  .accept (.punctuator longest) longest.text.toList.length

/-- Reads the token at the head of a text, which begins with `c`. The class of that
    character decides what is read; beyond ASCII only identifiers begin. -/
def read (context : Context) (c : Char) (rest : List Char) : Lexeme :=
  match StartClass.ofChar? c with
  | some .quote => StringLiteral.read context.strict c rest
  | some .backtick => Template.read context rest
  | some .zero | some .digit => Number.read context.strict (c :: rest)
  | some .keywordLetter => Name.identifier true (c :: rest)
  | some .letter | some .backslash => Name.identifier false (c :: rest)
  | some (.punctuator first) =>
    if first = .period && rest.head?.any Char.isDigit then Number.read context.strict (c :: rest)
    else ofPunctuator first (c :: rest)
  | some .invalid =>
    if c = '#' then Name.privateName rest else .reject (.invalidCharacter c) 0 0
  | some .blank | some .lineFeed | some .carriageReturn => .reject (.invalidCharacter c) 0 0
  | none =>
    if Character.isIdentifierStart c then Name.identifier false (c :: rest)
    else .reject (.invalidCharacter c) 0 0

end EcmaLexer.Lexeme
