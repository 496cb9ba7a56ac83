import EcmaLexer.Unicode.Unprintable

namespace EcmaLexer.Text

/-- A character by its code point, as in `\u{1f600}`. -/
def codePointEscape (c : Char) : List Char :=
  "\\u\x7b".toList ++ Nat.toDigits 16 c.toNat ++ ['\x7d']

/-- A character inside quotes: the usual short escapes, a backslash before the
    quote itself, and the code point of what cannot be printed. -/
def quotedChar (quote c : Char) : List Char :=
  match c with
  | '\x00' => ['\\', '0']
  | '\t' => ['\\', 't']
  | '\n' => ['\\', 'n']
  | '\r' => ['\\', 'r']
  | '\\' => ['\\', '\\']
  | _ =>
    if c == quote then ['\\', c]
    else if c.toNat < 0x20 || c.toNat == 0x7f || Unicode.unprintable.contains c.toNat then
      codePointEscape c
    else [c]

/-- A text between two quotes, on one line and unambiguous. -/
def quoted (quote : Char) (text : List Char) : List Char :=
  quote :: (text.flatMap (quotedChar quote) ++ [quote])

/-- A character between single quotes. -/
def singleQuoted (c : Char) : String := String.ofList (quoted '\x27' [c])

/-- A text between double quotes. -/
def doubleQuoted (text : List Char) : List Char := quoted '\x22' text

end EcmaLexer.Text
