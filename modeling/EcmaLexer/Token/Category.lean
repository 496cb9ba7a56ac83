import EcmaLexer.Token.Basic
import EcmaLexer.Token.Start

namespace EcmaLexer

/-- Whatever classification gives a name to: finished tokens, and the classes of
    characters that only hint at one. -/
inductive Category where
  | token (token : Token)
  | start (start : StartClass)
  | afterZero (digits : DigitClass)
deriving DecidableEq

namespace Category

def name : Category → String
  | token t => t.name
  | start s => s.name
  | afterZero d => d.name

/-- How a category is shown to a reader. Only tokens have a form of their own. -/
def display : Category → String
  | token t => t.display
  | category => category.name

def punctuatorText? : Category → Option String
  | token t => t.punctuatorText?
  | _ => none

def isTemplate : Category → Bool
  | token t => t.isTemplate
  | _ => false

/-- Every category with a name of its own. A class that shares its name with a
    token stands for that token. -/
def all : List Category :=
  Token.all.map token ++
    [.start .blank, .start .lineFeed, .start .carriageReturn, .start .zero, .start .keywordLetter,
      .start .backslash] ++
    [.afterZero .binary, .afterZero .octal, .afterZero .hex, .afterZero .underscore]

def ofName? (name : String) : Option Category := all.find? (·.name == name)

end Category

end EcmaLexer
