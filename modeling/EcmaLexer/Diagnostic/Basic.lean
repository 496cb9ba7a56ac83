import EcmaLexer.Diagnostic.Format
import EcmaLexer.Diagnostic.Message
import EcmaLexer.Text.Span

namespace EcmaLexer

/-- A message about a stretch of text, with its arguments filled in. -/
structure Diagnostic where
  span : Text.Span
  code : Nat
  text : List Char
deriving DecidableEq

namespace Diagnostic

def ofMessage (span : Text.Span) (message : Message) (args : List (List Char)) : Diagnostic :=
  ⟨span, message.code, format message.template.toList args⟩

/-- The code as it is shown to a reader. -/
def codeText (diagnostic : Diagnostic) : String := "ES" ++ toString diagnostic.code

/-- The diagnostic with its position, on one line. -/
def display (diagnostic : Diagnostic) : String :=
  "(" ++ toString diagnostic.span.start ++ "): error " ++ diagnostic.codeText ++ ": " ++
    String.ofList diagnostic.text

/-- The diagnostic without its position. -/
def headline (diagnostic : Diagnostic) : String :=
  diagnostic.codeText ++ ": " ++ String.ofList diagnostic.text

end Diagnostic

end EcmaLexer
