import EcmaLexer.CommandLine

namespace EcmaLexer.CommandLine

/-- The bytes of a file, if it can be read. -/
def fileBytes? (name : String) : IO (Option ByteArray) := do
  try
    let bytes ← IO.FS.readBinFile name
    return some bytes
  catch _ => return none

/-- The bytes of the file that the arguments name. -/
def namedBytes? (args : List String) : IO (Option ByteArray) :=
  match (Settings.read {} args).bind (·.file) with
  | none => pure none
  | some name => fileBytes? name

end EcmaLexer.CommandLine

/-- Prints the tokens of a file. -/
def main (args : List String) : IO UInt32 := do
  let bytes ← EcmaLexer.CommandLine.namedBytes? args
  let outcome := EcmaLexer.CommandLine.run (fun _ => bytes) args
  if let some output := outcome.output? then IO.print output
  else IO.eprintln "usage: [--strict] [--raw] [--no-hashbang] FILE"
  if let some report := outcome.report? then IO.eprintln report
  if let some help := outcome.help? then IO.eprintln help
  return outcome.exitCode.toUInt32
