import EcmaLexer.Stream

namespace EcmaLexer.CommandLine

/-- What the arguments ask for. -/
structure Settings where
  file : Option String := none
  strict : Bool := false
  /-- Whether the raw text of every token is shown after its value. -/
  raw : Bool := false
  noHashbang : Bool := false
deriving DecidableEq

namespace Settings

/-- Exactly one file may be named, and its name may not be empty. -/
def addFile (settings : Settings) (name : String) : Option Settings :=
  if name = "" || settings.file.isSome then none else some { settings with file := some name }

/-- A flag may be given once. -/
def addFlag (settings : Settings) (flag : String) : Option Settings :=
  if flag = "--strict" && !settings.strict then some { settings with strict := true }
  else if flag = "--raw" && !settings.raw then some { settings with raw := true }
  else if flag = "--no-hashbang" && !settings.noHashbang then
    some { settings with noHashbang := true }
  else none

/-- Reads arguments from left to right. An argument with a dash before other characters
    is a flag, unless a lone `--` came before. -/
def read (settings : Settings) : List String → Option Settings
  | [] => some settings
  | arg :: args =>
    if arg = "--" then args.foldlM addFile settings
    else if arg.startsWith "-" && arg != "-" then
      (settings.addFlag arg).bind fun settings => settings.read args
    else (settings.addFile arg).bind fun settings => settings.read args

def options (settings : Settings) : Options := ⟨settings.strict, !settings.noHashbang⟩

end Settings

/-- What is printed of the value of a token. The raw text comes after it when it is
    asked for, and always when the value was abandoned. -/
def valueFields (raw : Bool) (scanned : ScannedToken) : List (List Char) :=
  match scanned.value, raw with
  | some value, false => [Text.doubleQuoted value]
  | some value, true => [Text.doubleQuoted value, Text.doubleQuoted scanned.raw]
  | none, _ => ["<invalid escape>".toList, Text.doubleQuoted scanned.raw]

/-- What is printed of a token: where it starts, what it is, its value. -/
def tokenFields (map : Text.LineMap) (raw : Bool) (scanned : ScannedToken) : List (List Char) :=
  (map.locationOf scanned.range.first).display.toList :: scanned.token.display.toList ::
    valueFields raw scanned

/-- The line for one token, its fields divided by tabs. -/
def tokenLine (map : Text.LineMap) (raw : Bool) (scanned : ScannedToken) : List Char :=
  ['\t'].intercalate (tokenFields map raw scanned) ++ ['\n']

/-- The tokens among the items of a stream. -/
def tokensOf (items : List (Stream.Item × Text.Location)) : List ScannedToken :=
  items.filterMap fun (item, _) => item.toOption

/-- How the program ends. -/
inductive Outcome where
  /-- The arguments make no sense. -/
  | misused
  /-- There is nothing to scan. -/
  | unusable (report : String)
  /-- Every token was printed. -/
  | scanned (output : String)
  /-- The tokens before a fault were printed. -/
  | faulty (output report help : String)

namespace Outcome

def exitCode : Outcome → Nat
  | misused => 2
  | unusable _ | faulty _ _ _ => 1
  | scanned _ => 0

/-- The printed tokens. A program that was misused prints none. -/
def output? : Outcome → Option String
  | misused => none
  | unusable _ => some ""
  | scanned output | faulty output _ _ => some output

def report? : Outcome → Option String
  | unusable report | faulty _ report _ => some report
  | _ => none

def help? : Outcome → Option String
  | faulty _ _ help => some help
  | _ => none

end Outcome

/-- Prints the tokens of a text up to the first fault. The report on a fault is the
    diagnostic recorded last. -/
def dump (settings : Settings) (source : List Char) : Outcome :=
  let run := (Stream.ofSource source settings.options).runAll
  let map := Text.LineMap.ofText source
  let output := String.ofList ((tokensOf run.items).flatMap (tokenLine map settings.raw))
  match run.items.getLast? with
  | some (.error error, _) =>
    let report :=
      match run.stream.scanner.diagnostics.last? with
      | some diagnostic => diagnostic.headline
      | none => "ES0: " ++ error.fault.describe
    .faulty output report error.display
  | _ => .scanned output

/-- The whole program: `readFile` gives the bytes of a named file, if it can be read. -/
def run (readFile : String → Option ByteArray) (args : List String) : Outcome :=
  match Settings.read {} args with
  | none => .misused
  | some settings =>
    match settings.file with
    | none => .misused
    | some name =>
      match readFile name with
      | none => .unusable ("failed to read " ++ name)
      | some bytes =>
        match String.fromUTF8? bytes with
        | none => .unusable (name ++ " is not valid UTF-8")
        | some source => dump settings source.toList

end EcmaLexer.CommandLine
