import EcmaLexer.Token.Keyword
import EcmaLexer.Token.Punctuator

namespace EcmaLexer

/-- What a stretch of text was read as. `error` marks a token that could not be
    read to its end. A template segment is a tail when a backtick closes it and
    a continuation when a substitution opens after it. -/
inductive Token where
  | error
  | endOfSource
  | stringLiteral
  | numericLiteral
  | bigIntLiteral
  | identifier
  | privateName
  | keyword (keyword : Keyword)
  | templateTail
  | templateCont
  | punctuator (punctuator : Punctuator)
deriving DecidableEq

namespace Token

def name : Token → String
  | error => "Error"
  | endOfSource => "EndOfSource"
  | stringLiteral => "StringLiteral"
  | numericLiteral => "NumericLiteral"
  | bigIntLiteral => "BigIntLiteral"
  | identifier => "Identifier"
  | privateName => "PrivateName"
  | keyword k => "Keyword(" ++ k.name ++ ")"
  | templateTail => "TemplateTail"
  | templateCont => "TemplateCont"
  | punctuator p => p.name

/-- How a token is shown to a reader: punctuators and keywords by their text,
    the others by name. -/
def display : Token → String
  | keyword k => "keyword '" ++ k.text ++ "'"
  | punctuator p => "'" ++ p.text ++ "'"
  | token => token.name

def isTemplate : Token → Bool
  | templateTail | templateCont => true
  | _ => false

/-- The text of a punctuator; other tokens have none of their own. -/
def punctuatorText? : Token → Option String
  | punctuator p => some p.text
  | _ => none

/-- Bytes of the opening delimiter, which the raw text of a token leaves out: the
    backtick or closing brace before a template segment. -/
def openerLength (token : Token) : Nat := if token.isTemplate then 1 else 0

/-- Bytes of the closing delimiter, which the raw text of a token leaves out: the
    backtick, or the dollar sign and brace, after a template segment. -/
def closerLength : Token → Nat
  | templateTail => 1
  | templateCont => 2
  | _ => 0

/-- Whether a template right after the token is the argument of a tag. The
    contextual keywords are followed by an operand or a name, never by the
    argument of a tag. -/
def endsExpression : Token → Bool
  | identifier | privateName | stringLiteral | numericLiteral | bigIntLiteral | templateTail => true
  | punctuator p => p == .rightParen || p == .rightBracket
  | keyword k =>
    k == .thisKw || k == .superKw || k == .nullKw || k == .trueKw || k == .falseKw
  | _ => false

/-- Every token. -/
def all : List Token :=
  [error, endOfSource, stringLiteral, numericLiteral, bigIntLiteral, identifier, privateName] ++
    Keyword.all.map keyword ++ [templateTail, templateCont] ++ Punctuator.all.map punctuator

end Token

end EcmaLexer
