import EcmaLexer.Scanner.Scan

namespace EcmaLexer

/-- The tokens of a whole text. A bare scanner cannot tell the brace that closes a
    substitution from one that closes a block, so the stream counts the open braces
    and remembers, for every open substitution, how many there were at its start and
    in which context its template is read. -/
structure Stream where
  scanner : Scanner
  templates : List (Nat × Context)
  braceDepth : Nat
  previous : Option Token
  finished : Bool

namespace Stream

/-- A token, or the fault that ends the stream. -/
abbrev Item := Except ScanError ScannedToken

def ofSource (source : List Char) (options : Options) : Stream where
  scanner := .ofSource source options
  templates := []
  braceDepth := 0
  previous := none
  finished := false

/-- The context of the next token. A template right after the end of an expression is
    the argument of a tag. -/
def context (stream : Stream) : Context := { tagged := stream.previous.any Token.endsExpression }

/-- Goes on with the template whose substitution a brace has closed. -/
def resume (stream : Stream) (context : Context) : Except ScanError Token × Stream :=
  let (result, scanner) := stream.scanner.resumeTemplate context
  match result with
  | .ok .templateCont =>
    (result,
      { stream with
        scanner := scanner
        templates := (stream.braceDepth, context) :: stream.templates })
  | _ => (result, { stream with scanner := scanner })

/-- Follows a brace or template that the scanner has just read. -/
def track (stream : Stream) (context : Context) : Token → Except ScanError Token × Stream
  | .punctuator .leftBrace =>
    (.ok (.punctuator .leftBrace), { stream with braceDepth := stream.braceDepth + 1 })
  | .punctuator .rightBrace =>
    match stream.templates with
    | (depth, templateContext) :: templates =>
      if depth = stream.braceDepth then
        resume { stream with templates := templates } templateContext
      else
        (.ok (.punctuator .rightBrace), { stream with braceDepth := stream.braceDepth - 1 })
    | [] => (.ok (.punctuator .rightBrace), { stream with braceDepth := stream.braceDepth - 1 })
  | .templateCont =>
    (.ok .templateCont,
      { stream with templates := (stream.braceDepth, context) :: stream.templates })
  | token => (.ok token, stream)

/-- Reads the next token, which may be a segment of a template. -/
def advance (stream : Stream) : Except ScanError Token × Stream :=
  let context := stream.context
  match stream.scanner.scan context with
  | (.error error, scanner) => (.error error, { stream with scanner := scanner })
  | (.ok token, scanner) =>
    match track { stream with scanner := scanner } context token with
    | (.error error, stream) => (.error error, stream)
    | (.ok token, stream) => (.ok token, { stream with previous := some token })

/-- The next item. The end of the text and the first fault end the stream. -/
def next (stream : Stream) : Option Item × Stream :=
  if stream.finished then (none, stream)
  else
    match stream.advance with
    | (.ok .endOfSource, stream) => (none, { stream with finished := true })
    | (.ok _, stream) => (some (.ok stream.scanner.current), stream)
    | (.error error, stream) => (some (.error error), { stream with finished := true })

/-- What a number of requests for the next item gave: the items, each with the place of
    the cursor after it, and whether there was a request that gave none. -/
structure Run where
  items : List (Item × Text.Location)
  ended : Bool
  stream : Stream

/-- Asks for items until there is none, but not more than `requests` times. -/
def run : Nat → Stream → Run
  | 0, stream => ⟨[], false, stream⟩
  | requests + 1, stream =>
    match stream.next with
    | (none, stream) => ⟨[], true, stream⟩
    | (some item, stream) =>
      let rest := run requests stream
      ⟨(item, stream.scanner.location) :: rest.items, rest.ended, rest.stream⟩

/-- Asks for all items. Every token takes up a byte at least, so there cannot be more
    than the text has bytes; one more request may give a fault and the last one gives
    nothing. -/
def runAll (stream : Stream) : Run := stream.run (stream.scanner.sourceLength + 2)

end Stream

end EcmaLexer
