namespace EcmaLexer

/-- The grammar context a token is asked for in. -/
structure Context where
  /-- Strict mode: legacy octal numbers and escapes are faults. -/
  strict : Bool := false
  /-- A template here is the argument of a tag, so an invalid escape abandons its
      cooked value instead of failing the scan. -/
  tagged : Bool := false
deriving DecidableEq

namespace Context

/-- The context in which everything of either context holds. -/
def union (left right : Context) : Context :=
  ⟨left.strict || right.strict, left.tagged || right.tagged⟩

/-- The context as a number: 1 for strict, 2 for tagged. -/
def bits (context : Context) : Nat := context.strict.toNat + 2 * context.tagged.toNat

/-- The context in which exactly what is named holds. -/
def ofNames (names : List String) : Context :=
  ⟨names.contains "STRICT", names.contains "TAGGED_TEMPLATE"⟩

end Context

/-- What stays fixed while one text is scanned. -/
structure Options where
  strict : Bool := false
  /-- A `#!` line at the very start of the text is skipped like a comment. -/
  skipHashbang : Bool := true
deriving DecidableEq

namespace Options

/-- The options for strict mode code. -/
def strictMode : Options := { strict := true }

/-- The context that every token is asked for in. -/
def context (options : Options) : Context := { strict := options.strict }

end Options

end EcmaLexer
