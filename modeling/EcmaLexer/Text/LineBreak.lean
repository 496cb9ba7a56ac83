namespace EcmaLexer.Text

/-- The two line terminators beyond ASCII, U+2028 and U+2029. -/
def isSeparator (c : Char) : Bool := c == '\u2028' || c == '\u2029'

def isLineTerminator (c : Char) : Bool := c == '\n' || c == '\r' || isSeparator c

end EcmaLexer.Text
