namespace EcmaLexer

/-- The reserved words, and the contextual words a parser asks about. -/
inductive Keyword where
  | asKw | asyncKw | awaitKw | breakKw | caseKw | catchKw | classKw | constKw | continueKw
  | debuggerKw | defaultKw | deleteKw | doKw | elseKw | enumKw | exportKw | extendsKw | falseKw
  | finallyKw | forKw | fromKw | functionKw | getKw | ifKw | implementsKw | importKw | inKw
  | instanceofKw | interfaceKw | letKw | newKw | nullKw | ofKw | packageKw | privateKw | protectedKw
  | publicKw | returnKw | setKw | staticKw | superKw | switchKw | thisKw | throwKw | trueKw | tryKw
  | typeofKw | varKw | voidKw | whileKw | withKw | yieldKw
deriving DecidableEq

namespace Keyword

/-- Every keyword, in alphabetical order. -/
def all : List Keyword :=
  [.asKw, .asyncKw, .awaitKw, .breakKw, .caseKw, .catchKw, .classKw, .constKw, .continueKw,
   .debuggerKw, .defaultKw, .deleteKw, .doKw, .elseKw, .enumKw, .exportKw, .extendsKw, .falseKw,
   .finallyKw, .forKw, .fromKw, .functionKw, .getKw, .ifKw, .implementsKw, .importKw, .inKw,
   .instanceofKw, .interfaceKw, .letKw, .newKw, .nullKw, .ofKw, .packageKw, .privateKw,
   .protectedKw, .publicKw, .returnKw, .setKw, .staticKw, .superKw, .switchKw, .thisKw, .throwKw,
   .trueKw, .tryKw, .typeofKw, .varKw, .voidKw, .whileKw, .withKw, .yieldKw]

/-- How a keyword is spelled. -/
def text : Keyword → String
  | .asKw => "as"
  | .asyncKw => "async"
  | .awaitKw => "await"
  | .breakKw => "break"
  | .caseKw => "case"
  | .catchKw => "catch"
  | .classKw => "class"
  | .constKw => "const"
  | .continueKw => "continue"
  | .debuggerKw => "debugger"
  | .defaultKw => "default"
  | .deleteKw => "delete"
  | .doKw => "do"
  | .elseKw => "else"
  | .enumKw => "enum"
  | .exportKw => "export"
  | .extendsKw => "extends"
  | .falseKw => "false"
  | .finallyKw => "finally"
  | .forKw => "for"
  | .fromKw => "from"
  | .functionKw => "function"
  | .getKw => "get"
  | .ifKw => "if"
  | .implementsKw => "implements"
  | .importKw => "import"
  | .inKw => "in"
  | .instanceofKw => "instanceof"
  | .interfaceKw => "interface"
  | .letKw => "let"
  | .newKw => "new"
  | .nullKw => "null"
  | .ofKw => "of"
  | .packageKw => "package"
  | .privateKw => "private"
  | .protectedKw => "protected"
  | .publicKw => "public"
  | .returnKw => "return"
  | .setKw => "set"
  | .staticKw => "static"
  | .superKw => "super"
  | .switchKw => "switch"
  | .thisKw => "this"
  | .throwKw => "throw"
  | .trueKw => "true"
  | .tryKw => "try"
  | .typeofKw => "typeof"
  | .varKw => "var"
  | .voidKw => "void"
  | .whileKw => "while"
  | .withKw => "with"
  | .yieldKw => "yield"

/-- The name of a keyword: its text with a capital first letter. -/
def name (keyword : Keyword) : String := keyword.text.capitalize

/-- The keyword that is spelled exactly so. -/
def ofText? (text : List Char) : Option Keyword := all.find? (·.text.toList == text)

end Keyword

end EcmaLexer
