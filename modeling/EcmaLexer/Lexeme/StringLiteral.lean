import EcmaLexer.Lexeme.Basic
import EcmaLexer.Lexeme.Escape

namespace EcmaLexer.StringLiteral

/-- Reads a string literal after its opening quote, up to the first quote of the
    same kind that no backslash hides. A line feed or carriage return may only
    follow a backslash; U+2028 and U+2029 may stand for themselves. -/
def body (strict : Bool) (quote : Char) (text : List Char) : Lexeme :=
  match text with
  | [] => .reject .unterminatedStringLiteral 0 0
  | c :: rest =>
    if c = quote then .accept .stringLiteral 1
    else if c = '\\' then
      match rest with
      | [] => .reject .unterminatedStringLiteral 1 1
      | first :: tail =>
        let escape := Escape.read .stringLiteral strict first tail
        match escape.result with
        | .ok value =>
          (body strict quote ((first :: tail).drop escape.width)).after (1 + escape.width) value {}
        | .error fault => .reject (.invalidEscapeSequence fault) (1 + escape.width) 0
    else if c = '\n' || c = '\r' then .reject .unterminatedStringLiteral 0 0
    else (body strict quote rest).after 1 [c] {}
termination_by text.length
decreasing_by
  all_goals simp only [List.length_drop, List.length_cons]
  all_goals omega

/-- Reads a string literal that begins with the given quote. -/
def read (strict : Bool) (quote : Char) (rest : List Char) : Lexeme :=
  (body strict quote rest).after 1 [] {}

end EcmaLexer.StringLiteral
