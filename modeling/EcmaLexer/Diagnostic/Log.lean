import EcmaLexer.Diagnostic.Basic

namespace EcmaLexer.Diagnostic

/-- Diagnostics in the order in which they were reported. -/
abbrev Log := List Diagnostic

namespace Log

def add (log : Log) (diagnostic : Diagnostic) : Log := log ++ [diagnostic]

/-- Drops everything after the first `count` diagnostics. -/
def truncate (log : Log) (count : Nat) : Log := log.take count

/-- The diagnostic reported last. -/
def last? (log : Log) : Option Diagnostic := log.getLast?

end Log

end EcmaLexer.Diagnostic
