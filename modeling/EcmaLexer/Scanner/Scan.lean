import EcmaLexer.Lexeme.Read
import EcmaLexer.Scanner.State
import EcmaLexer.Trivia

namespace EcmaLexer.Scanner

/-- Bytes of the character at a position, 0 where there is none. -/
def charLengthAt (scanner : Scanner) (position : Nat) : Nat :=
  match scanner.textFrom position with
  | [] => 0
  | c :: _ => c.utf8Size

/-- Records a fault. Its location is on the line where the scanner stands. -/
def report (scanner : Scanner) (fault : Fault) (position : Nat) :
    Except ScanError Token × Scanner :=
  let span : Text.Span := ⟨Text.word32 position, scanner.charLengthAt position⟩
  (.error ⟨fault, position, scanner.state.mark.locate position⟩,
    { scanner with
      state := { scanner.state with token := .error }
      diagnostics := scanner.diagnostics.add (fault.diagnostic span) })

/-- Takes over what was read at the head of `text`, which begins at `start`. The token
    may have begun before it, with an opening delimiter. -/
def commit (scanner : Scanner) (tokenStart : Nat) (start : Text.Mark) (breaksLine : Bool)
    (text : List Char) (lexeme : Lexeme) : Except ScanError Token × Scanner :=
  let mark := start.past (text.take lexeme.width)
  let state : State :=
    { scanner.state with
      mark := mark
      tokenStart := tokenStart
      value := lexeme.value
      flags := { lexeme.flags with precedingLineBreak := breaksLine } }
  match lexeme.result with
  | .ok token =>
    (.ok token,
      { scanner with
        state :=
          { state with
            token := token
            rawStart := tokenStart + token.openerLength
            rawStop := mark.offset - token.closerLength } })
  | .error misread =>
    report { scanner with state := state } misread.fault
      (start.offset + Text.utf8Length (text.take misread.before))

/-- The context asked for, together with the one the options set. -/
def contextFor (scanner : Scanner) (context : Context) : Context :=
  context.union scanner.options.context

/-- Reads the next token. Blanks and comments before it are skipped. A comment that
    never ends takes up the rest of the text; the start and the raw text of the token
    before it stay. -/
def scan (scanner : Scanner) (context : Context) : Except ScanError Token × Scanner :=
  let unread := scanner.unread
  let hashbang := scanner.options.skipHashbang && scanner.offset == 0
  let gap := Trivia.skip hashbang unread
  if gap.unclosed then
    let mark := scanner.state.mark.past unread
    let state : State :=
      { scanner.state with
        mark := mark
        value := some []
        flags := { precedingLineBreak := gap.breaksLine } }
    report { scanner with state := state } .unterminatedComment mark.offset
  else
    let start := scanner.state.mark.past (unread.take gap.width)
    let text := unread.drop gap.width
    let lexeme :=
      match text with
      | [] => Lexeme.accept .endOfSource 0
      | c :: rest => Lexeme.read (scanner.contextFor context) c rest
    commit scanner start.offset start gap.breaksLine text lexeme

/-- Reads the first segment of a template. The cursor should be on the backtick; what
    stands there is passed over as one byte in any case. -/
def scanTemplate (scanner : Scanner) (context : Context) : Except ScanError Token × Scanner :=
  let start := scanner.state.mark.advance 1
  let text := scanner.textFrom start.offset
  commit scanner scanner.offset start false text
    (Template.segment (scanner.contextFor context) text)

/-- Reads the segment that follows a substitution, right after the brace that closed
    it, which becomes the opening delimiter of the segment. -/
def resumeTemplate (scanner : Scanner) (context : Context) : Except ScanError Token × Scanner :=
  if scanner.atEnd || scanner.offset == 0 then
    report scanner .unexpectedEndOfInput scanner.offset
  else
    commit scanner (scanner.offset - 1) scanner.state.mark false scanner.unread
      (Template.segment (scanner.contextFor context) scanner.unread)

/-- The scanner with the state and the number of diagnostics it had earlier. -/
def rewindTo (scanner earlier : Scanner) : Scanner :=
  { scanner with
    state := earlier.state
    diagnostics := scanner.diagnostics.truncate earlier.diagnostics.length }

/-- Runs an action, and then puts the scanner back where it was. -/
def lookAhead {α : Type} (scanner : Scanner) (action : Scanner → α × Scanner) : α × Scanner :=
  let (result, ahead) := action scanner
  (result, ahead.rewindTo scanner)

/-- Runs an action, and keeps its progress only if it gives a result. -/
def tryScan {α : Type} (scanner : Scanner) (action : Scanner → Option α × Scanner) :
    Option α × Scanner :=
  match action scanner with
  | (some result, ahead) => (some result, ahead)
  | (none, ahead) => (none, ahead.rewindTo scanner)

end EcmaLexer.Scanner
