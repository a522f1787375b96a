import BlockSafe.Rule.ForLoop
import BlockSafe.Rule.Violation
import BlockSafe.Text.Pattern

/-!
# Nesting

Event registrations and function declarations have blocks at top level only.  The program is read
line by line; a line counts as nested if more braces were opened than closed in the lines before
it, where closing braces that close nothing are ignored at the end of each line.
-/

namespace BlockSafe

open Pattern

/-! ## Lines -/

/-- A call that registers an event handler. -/
def registrationPattern : Pattern :=
  let handlers (space : Text) : Pattern := seq (lit (space ++ ".on".toList)) (many isWord)
  chain [wordEdge,
    anyOf [lit "basic.forever", lit "loops.forever", handlers "input", handlers "radio",
      handlers "pins", chain [lit "controller.", many isWord, lit ".onEvent"],
      handlers "controller", handlers "sprites", handlers "scene", handlers "game",
      handlers "info", lit "control.inBackground"],
    spaces, lit "("]

/-- The parameters of a function declaration that fills the start of a line. -/
def functionParameters? (line : Text) : Option Text := do
  let rest ← afterGap? (← Text.after? "function" line)
  let (_, rest) ← identAt? rest
  let inner ← Text.after? "(" (Text.trimStart rest)
  if inner.any (· == ')') then some (inner.takeWhile (· != ')')) else none

/-- A declaration without a value, with or without a type, that fills a line. -/
def bareLetPattern : Pattern :=
  chain [lit "let", gap, ident,
    either (chain [spaces, lit ":", spaces, many1 fun c => c != '=' && c != ';']) nothing,
    spaces, either (lit ";") nothing, test Cursor.atEnd]

/-- The violations of one trimmed line; `nested` tells whether it stands inside braces. -/
def checkLine (nested : Bool) (line : Text) : List Violation :=
  (if nested && registrationPattern.occurs line then [.nestedRegistration] else [])
    ++ (match functionParameters? line with
      | some parameters =>
        (if nested then [.nestedFunction] else [])
          ++ if parameters.any (fun c => c == '?' || c == '=') then [.defaultParameters] else []
      | none => [])
    ++ if bareLetPattern.matchesAt (Cursor.start line) then [.missingInitializer] else []

/-! ## Depth -/

/-- The brace depth after a line that starts at `depth`. -/
def depthAfterLine (depth : Nat) (line : Text) : Nat :=
  depth + line.count '{' - line.count '}'

/-- The violations of lines that start at a brace depth. -/
def checkLinesFrom (depth : Nat) : List Text → List Violation
  | [] => []
  | line :: rest =>
    checkLine (depth > 0) (Text.trim line) ++ checkLinesFrom (depthAfterLine depth line) rest

/-- The violations of all lines, in order. -/
def checkLines (code : Text) : List Violation := checkLinesFrom 0 (Text.lines code)

/-- The brace depth after the last line. -/
def depthAfterLines (code : Text) : Nat := (Text.lines code).foldl depthAfterLine 0

end BlockSafe
