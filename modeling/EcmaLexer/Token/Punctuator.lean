namespace EcmaLexer

/-- The punctuators: brackets, separators and operators. -/
inductive Punctuator where
  | negate | notEqual | strictNotEqual | modulo | moduloAssign | bitwiseAnd | bitwiseAndAssign
  | logicalAnd | logicalAndAssign | leftParen | rightParen | multiply | multiplyAssign
  | exponentiate | exponentiateAssign | add | addAssign | increment | comma | subtract
  | subtractAssign | decrement | period | ellipsis | divide | divideAssign | colon | semicolon
  | lessThan | lessThanOrEqual | shiftLeft | shiftLeftAssign | assign | looseEqual | strictEqual
  | arrow | greaterThan | greaterThanOrEqual | shiftRight | shiftRightAssign | logicalShiftRight
  | logicalShiftRightAssign | questionMark | questionMarkPeriod | coalesce | coalesceAssign
  | leftBracket | rightBracket | bitwiseXor | bitwiseXorAssign | leftBrace | rightBrace | bitwiseOr
  | bitwiseOrAssign | logicalOr | logicalOrAssign | complement
deriving DecidableEq

namespace Punctuator

/-- Every punctuator, grouped by first character. -/
def all : List Punctuator :=
  [.negate, .notEqual, .strictNotEqual, .modulo, .moduloAssign, .bitwiseAnd, .bitwiseAndAssign,
   .logicalAnd, .logicalAndAssign, .leftParen, .rightParen, .multiply, .multiplyAssign,
   .exponentiate, .exponentiateAssign, .add, .addAssign, .increment, .comma, .subtract,
   .subtractAssign, .decrement, .period, .ellipsis, .divide, .divideAssign, .colon, .semicolon,
   .lessThan, .lessThanOrEqual, .shiftLeft, .shiftLeftAssign, .assign, .looseEqual, .strictEqual,
   .arrow, .greaterThan, .greaterThanOrEqual, .shiftRight, .shiftRightAssign, .logicalShiftRight,
   .logicalShiftRightAssign, .questionMark, .questionMarkPeriod, .coalesce, .coalesceAssign,
   .leftBracket, .rightBracket, .bitwiseXor, .bitwiseXorAssign, .leftBrace, .rightBrace, .bitwiseOr,
   .bitwiseOrAssign, .logicalOr, .logicalOrAssign, .complement]

/-- How a punctuator is spelled. -/
def text : Punctuator → String
  | .negate => "!"
  | .notEqual => "!="
  | .strictNotEqual => "!=="
  | .modulo => "%"
  | .moduloAssign => "%="
  | .bitwiseAnd => "&"
  | .bitwiseAndAssign => "&="
  | .logicalAnd => "&&"
  | .logicalAndAssign => "&&="
  | .leftParen => "("
  | .rightParen => ")"
  | .multiply => "*"
  | .multiplyAssign => "*="
  | .exponentiate => "**"
  | .exponentiateAssign => "**="
  | .add => "+"
  | .addAssign => "+="
  | .increment => "++"
  | .comma => ","
  | .subtract => "-"
  | .subtractAssign => "-="
  | .decrement => "--"
  | .period => "."
  | .ellipsis => "..."
  | .divide => "/"
  | .divideAssign => "/="
  | .colon => ":"
  | .semicolon => ";"
  | .lessThan => "<"
  | .lessThanOrEqual => "<="
  | .shiftLeft => "<<"
  | .shiftLeftAssign => "<<="
  | .assign => "="
  | .looseEqual => "=="
  | .strictEqual => "==="
  | .arrow => "=>"
  | .greaterThan => ">"
  | .greaterThanOrEqual => ">="
  | .shiftRight => ">>"
  | .shiftRightAssign => ">>="
  | .logicalShiftRight => ">>>"
  | .logicalShiftRightAssign => ">>>="
  | .questionMark => "?"
  | .questionMarkPeriod => "?."
  | .coalesce => "??"
  | .coalesceAssign => "??="
  | .leftBracket => "["
  | .rightBracket => "]"
  | .bitwiseXor => "^"
  | .bitwiseXorAssign => "^="
  | .leftBrace => "\x7b"
  | .rightBrace => "\x7d"
  | .bitwiseOr => "|"
  | .bitwiseOrAssign => "|="
  | .logicalOr => "||"
  | .logicalOrAssign => "||="
  | .complement => "~"

/-- The name of a punctuator. -/
def name : Punctuator → String
  | .negate => "Negate"
  | .notEqual => "NotEqual"
  | .strictNotEqual => "StrictNotEqual"
  | .modulo => "Modulo"
  | .moduloAssign => "ModuloAssign"
  | .bitwiseAnd => "BitwiseAnd"
  | .bitwiseAndAssign => "BitwiseAndAssign"
  | .logicalAnd => "LogicalAnd"
  | .logicalAndAssign => "LogicalAndAssign"
  | .leftParen => "LeftParen"
  | .rightParen => "RightParen"
  | .multiply => "Multiply"
  | .multiplyAssign => "MultiplyAssign"
  | .exponentiate => "Exponentiate"
  | .exponentiateAssign => "ExponentiateAssign"
  | .add => "Add"
  | .addAssign => "AddAssign"
  | .increment => "Increment"
  | .comma => "Comma"
  | .subtract => "Subtract"
  | .subtractAssign => "SubtractAssign"
  | .decrement => "Decrement"
  | .period => "Period"
  | .ellipsis => "Ellipsis"
  | .divide => "Divide"
  | .divideAssign => "DivideAssign"
  | .colon => "Colon"
  | .semicolon => "Semicolon"
  | .lessThan => "LessThan"
  | .lessThanOrEqual => "LessThanOrEqual"
  | .shiftLeft => "ShiftLeft"
  | .shiftLeftAssign => "ShiftLeftAssign"
  | .assign => "Assign"
  | .looseEqual => "LooseEqual"
  | .strictEqual => "StrictEqual"
  | .arrow => "Arrow"
  | .greaterThan => "GreaterThan"
  | .greaterThanOrEqual => "GreaterThanOrEqual"
  | .shiftRight => "ShiftRight"
  | .shiftRightAssign => "ShiftRightAssign"
  | .logicalShiftRight => "LogicalShiftRight"
  | .logicalShiftRightAssign => "LogicalShiftRightAssign"
  | .questionMark => "QuestionMark"
  | .questionMarkPeriod => "QuestionMarkPeriod"
  | .coalesce => "Coalesce"
  | .coalesceAssign => "CoalesceAssign"
  | .leftBracket => "LeftBracket"
  | .rightBracket => "RightBracket"
  | .bitwiseXor => "BitwiseXor"
  | .bitwiseXorAssign => "BitwiseXorAssign"
  | .leftBrace => "LeftBrace"
  | .rightBrace => "RightBrace"
  | .bitwiseOr => "BitwiseOr"
  | .bitwiseOrAssign => "BitwiseOrAssign"
  | .logicalOr => "LogicalOr"
  | .logicalOrAssign => "LogicalOrAssign"
  | .complement => "Complement"

/-- The punctuator that consists of one character. -/
def ofChar? : Char → Option Punctuator
  | '!' => some .negate
  | '%' => some .modulo
  | '&' => some .bitwiseAnd
  | '(' => some .leftParen
  | ')' => some .rightParen
  | '*' => some .multiply
  | '+' => some .add
  | ',' => some .comma
  | '-' => some .subtract
  | '.' => some .period
  | '/' => some .divide
  | ':' => some .colon
  | ';' => some .semicolon
  | '<' => some .lessThan
  | '=' => some .assign
  | '>' => some .greaterThan
  | '?' => some .questionMark
  | '[' => some .leftBracket
  | ']' => some .rightBracket
  | '^' => some .bitwiseXor
  | '\x7b' => some .leftBrace
  | '\x7d' => some .rightBrace
  | '|' => some .bitwiseOr
  | '~' => some .complement
  | _ => none

/-- The longer punctuators that begin with a one-character punctuator, longest
    first. -/
def extensions : Punctuator → List Punctuator
  | .negate => [.strictNotEqual, .notEqual]
  | .modulo => [.moduloAssign]
  | .bitwiseAnd => [.logicalAndAssign, .bitwiseAndAssign, .logicalAnd]
  | .multiply => [.exponentiateAssign, .multiplyAssign, .exponentiate]
  | .add => [.addAssign, .increment]
  | .subtract => [.subtractAssign, .decrement]
  | .period => [.ellipsis]
  | .divide => [.divideAssign]
  | .lessThan => [.shiftLeftAssign, .lessThanOrEqual, .shiftLeft]
  | .assign => [.strictEqual, .looseEqual, .arrow]
  | .greaterThan =>
    [.logicalShiftRightAssign, .shiftRightAssign, .logicalShiftRight, .greaterThanOrEqual,
     .shiftRight]
  | .questionMark => [.coalesceAssign, .questionMarkPeriod, .coalesce]
  | .bitwiseXor => [.bitwiseXorAssign]
  | .bitwiseOr => [.logicalOrAssign, .bitwiseOrAssign, .logicalOr]
  | _ => []

/-- Whether a punctuator stands at the head of a text. `?.` does not when a digit
    follows it, so that in `a ? .5 : b` without blanks the digit keeps its point. -/
def fits (punctuator : Punctuator) (text : List Char) : Bool :=
  punctuator.text.toList.isPrefixOf text &&
    (punctuator != .questionMarkPeriod || !((text.drop 2).head?.any Char.isDigit))

/-- The longest punctuator at the head of a text, which begins with `first`. -/
def longest (first : Punctuator) (text : List Char) : Punctuator :=
  (first.extensions.find? (·.fits text)).getD first

end Punctuator

end EcmaLexer
