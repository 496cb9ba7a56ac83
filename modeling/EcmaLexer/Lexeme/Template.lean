import EcmaLexer.Context
import EcmaLexer.Lexeme.Basic
import EcmaLexer.Lexeme.Escape

namespace EcmaLexer.Template

/-- A reading that goes on without a cooked value. -/
def abandon (lexeme : Lexeme) : Lexeme :=
  { lexeme with value := none, flags := { lexeme.flags with containsInvalidEscape := true } }

/-- Finds the end of a segment in which an escape was malformed: the first backtick,
    or dollar sign before a brace, that no backslash hides. -/
def uncooked (text : List Char) : Lexeme :=
  match text with
  | [] => .reject .unexpectedEndOfInput 0 0
  | '\x60' :: _ => .accept .templateTail 1
  | '$' :: '\x7b' :: _ => .accept .templateCont 2
  | ['\\'] => .reject .unexpectedEndOfInput 1 1
  | '\\' :: _ :: rest => (uncooked rest).after 2 [] {}
  | _ :: rest => (uncooked rest).after 1 [] {}

/-- Reads a template segment after its opening delimiter, up to the backtick that
    closes the template or the `${` that opens a substitution. A carriage return,
    alone or before a line feed, cooks to one line feed. A malformed escape is a
    fault, unless the template is tagged: then the cooked value is abandoned. -/
def segment (context : Context) (text : List Char) : Lexeme :=
  match text with
  | [] => .reject .unexpectedEndOfInput 0 0
  | '\x60' :: _ => .accept .templateTail 1
  | '$' :: '\x7b' :: _ => .accept .templateCont 2
  | ['\\'] => .reject .unexpectedEndOfInput 1 1
  | '\\' :: first :: tail =>
    let escape := Escape.read .template context.strict first tail
    let rest := (first :: tail).drop escape.width
    match escape.result with
    | .ok value => (segment context rest).after (1 + escape.width) value {}
    | .error fault =>
      if context.tagged then abandon ((uncooked rest).after (1 + escape.width) [] {})
      else .reject (.invalidEscapeSequence fault) (1 + escape.width) 0
  | '\r' :: '\n' :: rest => (segment context rest).after 2 ['\n'] {}
  | '\r' :: rest => (segment context rest).after 1 ['\n'] {}
  | c :: rest => (segment context rest).after 1 [c] {}
termination_by text.length
decreasing_by
  all_goals simp only [List.length_drop, List.length_cons]
  all_goals omega

/-- Reads the first segment of a template, from its backtick on. -/
def read (context : Context) (rest : List Char) : Lexeme := (segment context rest).after 1 [] {}

end EcmaLexer.Template
