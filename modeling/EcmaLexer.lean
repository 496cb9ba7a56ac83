import EcmaLexer.Main
import EcmaLexer.Proofs.Scanner.Rewinding
import EcmaLexer.Proofs.Scanner.SegmentText
import EcmaLexer.Proofs.Scanner.SessionLines
import EcmaLexer.Proofs.Scanner.Slicing
import EcmaLexer.Proofs.Stream.Accounting
import EcmaLexer.Proofs.Stream.LineEndings
import EcmaLexer.Proofs.Stream.Respacing
import EcmaLexer.Proofs.Stream.Strictness
import EcmaLexer.Token.Category
import EcmaLexer.Unicode.Survey
import EcmaLexer.Proofs.Stream.Joining
import EcmaLexer.Proofs.Stream.LineBreaks
import EcmaLexer.Proofs.CommandLine
import EcmaLexer.Proofs.Number.Grammar
import EcmaLexer.Proofs.Number.Reading
import EcmaLexer.Proofs.Number.Literal
import EcmaLexer.Proofs.Scanner.Numbers
import EcmaLexer.Proofs.Escape.Words
import EcmaLexer.Proofs.Scanner.Gaps
import EcmaLexer.Proofs.Scanner.Names
import EcmaLexer.Proofs.Scanner.Strings
import EcmaLexer.Proofs.Scanner.Punctuators
import EcmaLexer.Proofs.Scanner.NumberEnds
import EcmaLexer.Proofs.Scanner.CodeUnits
import EcmaLexer.Proofs.Text.LineMap
import EcmaLexer.Proofs.Diagnostic.Substitution
