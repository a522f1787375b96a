import BlockSafe.Rule.Violation
import BlockSafe.Text.Pattern

/-!
# Forbidden constructs

The constructs that have no block, each with the pattern that finds it.  `syntaxRules` are looked
for in the program as it stands, `literalRules` in the program without the contents of its
strings, where `null` in a text is harmless.  Both are tables in the order of the report.
-/

namespace BlockSafe

open Pattern

/-- A violation and the pattern whose occurrence is reported as that violation. -/
structure ConstructRule where
  pattern : Pattern
  violation : Violation

/-- The violations of a table whose patterns occur in `s`, in the order of the table. -/
def occurringRules (rules : List ConstructRule) (s : Text) : List Violation :=
  (rules.filter (·.pattern.occurs s)).map (·.violation)

/-! ## Tables -/

/-- The array methods that take a function. -/
def higherOrderNames : List Text := ["map", "forEach", "filter", "reduce", "find", "some", "every"]

/-- The assignment operators that have no block. -/
def compoundOperators : List Text := ["*=", "/=", "%=", "|=", "&=", "^=", "<<=", ">>=", ">>>="]

/-- The characters between the angle brackets of a type argument list. -/
def isTypeArgument (c : Char) : Bool := isIdentPart c || c == ',' || isSpace c

/-- Constructs looked for in the program as it stands. -/
def syntaxRules : List ConstructRule :=
  [⟨lit "=>", .arrowFunctions⟩,
   ⟨chain [wordStart "class", gap], .classes⟩,
   ⟨chain [wordStart "new", gap, one isIdentStart], .newConstructor⟩,
   ⟨anyOf [word "Promise", word "async", word "await"], .promises⟩,
   ⟨anyOf [chain [wordStart "import", one isSpace], chain [wordStart "export", one isSpace]],
    .imports⟩,
   ⟨chain [lit "$\x7b", many1 (· != '}'), lit "\x7d"], .interpolation⟩,
   ⟨chain [lit ".", spaces, anyOf (higherOrderNames.map lit), spaces, lit "("],
    .higherOrderMethods⟩,
   ⟨anyOf [word "namespace", word "module"], .namespaces⟩,
   ⟨anyOf [word "enum", word "interface", chain [wordStart "type", gap, one isIdentStart]],
    .typeDeclarations⟩,
   ⟨chain [lit "<", many1 isTypeArgument, lit ">"], .generics⟩,
   ⟨anyOf [chain [lit "setTimeout", spaces, lit "("], chain [lit "setInterval", spaces, lit "("]],
    .timers⟩,
   ⟨lit "console.", .consoleCalls⟩,
   ⟨chain [test Cursor.atLineStart, spaces, lit "//"], .lineComments⟩,
   ⟨chain [lit "/*", many (fun _ => true), lit "*/"], .blockComments⟩,
   ⟨chain [wordStart "randint", spaces, lit "("], .randint⟩,
   ⟨anyOf (compoundOperators.map lit), .compoundAssignments⟩]

/-- Constructs looked for outside the contents of strings. -/
def literalRules : List ConstructRule :=
  [⟨word "null", .nullLiteral⟩,
   ⟨word "undefined", .undefinedLiteral⟩,
   ⟨chain [wordStart "as", gap, one isIdentStart], .casts⟩]

/-! ## Single rules -/

/-- A lone operator sign: neither doubled nor followed by an equals sign. -/
def loneSign (sign : Char) : Pattern :=
  chain [either (test Cursor.atLineStart) (one (· != sign)), one (· == sign),
    either (one fun c => c != sign && c != '=') (test Cursor.atLineEnd)]

/-- The operators on bits: shifts, exclusive or, and the lone bar and ampersand. -/
def bitwisePattern : Pattern :=
  anyOf [lit "<<", lit ">>", lit "^", loneSign '|', loneSign '&']

/-- A loop over keys. -/
def forInPattern : Pattern :=
  chain [wordStart "for", spaces, lit "(", many (· != ')'), word "in", many (· != ')'), lit ")"]

/-- Tab, line feed, carriage return and the printable ASCII characters. -/
def isPlainAscii (c : Char) : Bool :=
  c == '\t' || c == '\n' || c == '\r' || (32 ≤ c.toNat && c.toNat < 127)

end BlockSafe
