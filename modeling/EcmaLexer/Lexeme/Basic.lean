import EcmaLexer.Fault
import EcmaLexer.Token.Basic
import EcmaLexer.Token.Flags

namespace EcmaLexer

/-- A fault, and the number of characters before the place where it was found. -/
structure Misread where
  fault : Fault
  before : Nat
deriving DecidableEq

/-- What was read at the head of a text. `width` counts the characters consumed,
    also by a reading that failed; `value` is the cooked value as far as it was
    built, or nothing once it was abandoned. -/
structure Lexeme where
  width : Nat
  value : Option (List Char)
  flags : Flags
  result : Except Misread Token

namespace Lexeme

/-- A token that takes `width` characters and adds nothing to the value. -/
def accept (token : Token) (width : Nat) : Lexeme := ⟨width, some [], {}, .ok token⟩

/-- A fault found after `before` characters, when `width` of them are consumed. -/
def reject (fault : Fault) (width before : Nat) : Lexeme :=
  ⟨width, some [], {}, .error ⟨fault, before⟩⟩

/-- The reading of a longer text: `width` characters with the given value and
    facts, and then what was read after them. -/
def after (width : Nat) (value : List Char) (flags : Flags) (lexeme : Lexeme) : Lexeme where
  width := width + lexeme.width
  value := lexeme.value.map (value ++ ·)
  flags := flags.union lexeme.flags
  result :=
    match lexeme.result with
    | .ok token => .ok token
    | .error misread => .error ⟨misread.fault, width + misread.before⟩

end Lexeme

end EcmaLexer
