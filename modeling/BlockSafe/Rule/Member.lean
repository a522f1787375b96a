import BlockSafe.Rule.Violation
import BlockSafe.Target.Microbit
import BlockSafe.Text.Pattern

/-!
# Enum members

A reference to an enum member is two identifiers joined by a point, the first one capitalised, at
the edges of words.  Members of enums that are not known pass.
-/

namespace BlockSafe

/-- The enum and the member of a reference that starts at a position, and what follows. -/
def referenceAt? (cursor : Cursor) : Option ((Text × Text) × Text) :=
  match cursor.rest with
  | [] => none
  | c :: rest =>
    if !cursor.before.any isWord && c.isUpper then
      match rest.dropWhile isIdentPart with
      | '.' :: m :: more =>
        let tail := more.dropWhile isIdentPart
        if isIdentStart m && !tail.head?.any isWord then
          some ((c :: rest.takeWhile isIdentPart, m :: more.takeWhile isIdentPart), tail)
        else none
      | _ => none
    else none

/-- The references of a program, in order. -/
def enumReferences (s : Text) : List (Text × Text) := findAll referenceAt? s

/-- The violation of a reference to a member that a known enum does not have. -/
def checkReference (enumName member : Text) : Option Violation :=
  match Microbit.enums.lookup enumName with
  | some members => if members.contains member then none else some (.unknownMember enumName member)
  | none => none

/-- The violations of all references, in order. -/
def checkMembers (searchable : Text) : List Violation :=
  (enumReferences searchable).filterMap fun (enumName, member) => checkReference enumName member

end BlockSafe
