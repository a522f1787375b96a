import BlockSafe.Prompt.Excerpt
import BlockSafe.Request

/-!
# User prompts

The user prompt of a request: the instruction, then a marked block for each of the diagnostics,
the dialog and the program in the editor, an empty line between neighbours.  It is the same for
every attempt of one generation.
-/

namespace BlockSafe

/-- Lines between an opening and a closing marker. -/
def markedBlock (name : Text) (lines : List Text) : Text :=
  Text.join ['\n']
    (["<<<".toList ++ name ++ ">>>".toList] ++ lines
      ++ ["<<<END_".toList ++ name ++ ">>>".toList])

/-- The diagnostics, one a line. -/
def pageErrorsBlock (errors : List Text) : Text :=
  markedBlock "PAGE_ERRORS" (errors.map fun error => "- ".toList ++ error)

/-- The lines of a dialog: one for each part that is not empty. -/
def Dialog.lines (dialog : Dialog) : List Text :=
  (if dialog.title.isEmpty then [] else ["Title: ".toList ++ dialog.title])
    ++ if dialog.description.isEmpty then [] else ["Message: ".toList ++ dialog.description]

/-- The dialog. -/
def dialogBlock (dialog : Dialog) : Text := markedBlock "CONVERSION_DIALOG" dialog.lines

/-- A note on how much of the program is left out. -/
def truncationNote (omitted : Nat) : Text :=
  markedBlock "CURRENT_CODE_NOTE"
    ["Current code was truncated for prompt size. Omitted approx ".toList ++ Text.ofNat omitted
      ++ " chars from the middle.".toList]

/-- The program in the editor, after a note if a part is left out. -/
def codeBlocks (quote : Excerpt) : List Text :=
  if quote.text.isEmpty then []
  else (if quote.truncated then [truncationNote quote.omitted] else [])
    ++ [markedBlock "CURRENT_CODE" [quote.text]]

/-- The blocks of the prompt; `limit` bounds the program. -/
def userBlocks (request : Request) (limit : Int) : List Text :=
  ["USER_REQUEST:\n".toList ++ request.instruction]
    ++ (if request.pageErrors.isEmpty then [] else [pageErrorsBlock request.pageErrors])
    ++ (match request.dialog with
      | some dialog => if dialog.isEmpty then [] else [dialogBlock dialog]
      | none => [])
    ++ codeBlocks (excerpt request.existingCode limit)

/-- The user prompt of a request. -/
def userPrompt (request : Request) (limit : Int) : Text :=
  Text.join "\n\n" (userBlocks request limit)

end BlockSafe
