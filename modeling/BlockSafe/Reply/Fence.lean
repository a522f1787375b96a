import BlockSafe.Reply.Canonical
import BlockSafe.Text.Pattern

/-!
# Fenced blocks

A fenced block opens with three backquotes and ends at the next three.  Two kinds are looked for:
a block of code, whose opening line may carry any words, and a block of data, which may carry the
word `json` and need not start a new line.  Of several blocks the first counts.
-/

namespace BlockSafe

/-- The text before the next fence. -/
def beforeFence? (s : Text) : Option Text := (Text.cut? fence s).map (·.1)

/-- The body of a code block that opens here: all between the end of the opening line and the
next fence. -/
def codeBlockAt? (s : Text) : Option Text :=
  match Text.after? fence s with
  | none => none
  | some info =>
    match info.dropWhile (fun c => c != '\n' && c != '\x60') with
    | '\n' :: body => beforeFence? body
    | _ => none

/-- The body of the first code block. -/
def codeBlock? (s : Text) : Option Text := findFirst codeBlockAt? s

/-- What follows `word` in any mixture of cases, if the text starts with it. -/
def afterAnyCase? : Text → Text → Option Text
  | [], s => some s
  | p :: ps, c :: cs => if foldLetter c = foldLetter p then afterAnyCase? ps cs else none
  | _ :: _, [] => none

/-- The body of a data block that opens here, without the word `json` and the white space after
the opening fence. -/
def dataBlockAt? (s : Text) : Option Text :=
  match Text.after? fence s with
  | none => none
  | some rest =>
    beforeFence? (Text.trimStart ((afterAnyCase? "json" rest).getD rest))

/-- The body of the first data block. -/
def dataBlock? (s : Text) : Option Text := findFirst dataBlockAt? s

/-- The program in a reply: the first code block, or all of it if there is none, in canonical
form. -/
def programOf (reply : Text) : Text := canonical ((codeBlock? reply).getD reply)

end BlockSafe
