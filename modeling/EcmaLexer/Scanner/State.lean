import EcmaLexer.Context
import EcmaLexer.Diagnostic.Log
import EcmaLexer.Text.Mark
import EcmaLexer.Text.Utf8
import EcmaLexer.Token.Basic
import EcmaLexer.Token.Flags

namespace EcmaLexer

/-- Where a scanner stands, and what it knows about the token it read last. A
    reading that failed leaves the raw bounds of the token before it. -/
structure Scanner.State where
  mark : Text.Mark
  tokenStart : Nat
  /-- The cooked value, or nothing once it was abandoned. -/
  value : Option (List Char)
  rawStart : Nat
  rawStop : Nat
  token : Token
  flags : Flags
deriving DecidableEq

/-- The state before anything is read. -/
def Scanner.State.initial : Scanner.State where
  mark := .origin
  tokenStart := 0
  value := some []
  rawStart := 0
  rawStop := 0
  token := .error
  flags := {}

/-- A scanner over one text. Every fault it meets is recorded as a diagnostic. -/
structure Scanner where
  source : List Char
  options : Options
  state : Scanner.State
  diagnostics : Diagnostic.Log
deriving DecidableEq

/-- A token that was read: its range with delimiters, its cooked value, its raw
    text without delimiters. -/
structure ScannedToken where
  token : Token
  range : Text.Range
  value : Option (List Char)
  raw : List Char
  flags : Flags
deriving DecidableEq

/-- What can be asked of a scanner at once. -/
structure Snapshot where
  token : Token
  value : Option (List Char)
  raw : List Char
  start : Nat
  stop : Nat
  flags : Flags
  location : Text.Location
  lineStart : Nat
  atEnd : Bool
  diagnosticCount : Nat
deriving DecidableEq

namespace Scanner

def ofSource (source : List Char) (options : Options) : Scanner := ⟨source, options, .initial, []⟩

def sourceLength (scanner : Scanner) : Nat := Text.utf8Length scanner.source

/-- Byte offset of the next unread character. -/
def offset (scanner : Scanner) : Nat := scanner.state.mark.offset

/-- The text from a byte offset on. From past the end or from inside a character
    there is nothing to read. -/
def textFrom (scanner : Scanner) (offset : Nat) : List Char :=
  (Text.dropBytes? offset scanner.source).getD []

def unread (scanner : Scanner) : List Char := scanner.textFrom scanner.offset

def atEnd (scanner : Scanner) : Bool := scanner.sourceLength ≤ scanner.offset

/-- The location of the cursor. -/
def location (scanner : Scanner) : Text.Location := scanner.state.mark.locate scanner.offset

/-- The raw text of the current token. It can be read unless a template was asked for
    where none begins, which may leave the cursor outside the text or inside a
    character. -/
def raw? (scanner : Scanner) : Option (List Char) :=
  Text.slice? scanner.source scanner.state.rawStart scanner.state.rawStop

/-- The current token. -/
def current (scanner : Scanner) : ScannedToken where
  token := scanner.state.token
  range := .ofOffsets scanner.state.tokenStart scanner.offset
  value := scanner.state.value
  raw := scanner.raw?.getD []
  flags := scanner.state.flags

/-- Everything about the scanner, if its raw text can be read. -/
def snapshot? (scanner : Scanner) : Option Snapshot :=
  scanner.raw?.map fun raw =>
    { token := scanner.state.token
      value := scanner.state.value
      raw := raw
      start := scanner.state.tokenStart
      stop := scanner.offset
      flags := scanner.state.flags
      location := scanner.location
      lineStart := scanner.state.mark.lineStart
      atEnd := scanner.atEnd
      diagnosticCount := scanner.diagnostics.length }

end Scanner

end EcmaLexer
