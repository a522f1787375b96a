import BlockSafe.Json.Reader
import BlockSafe.Json.Writer
import BlockSafe.Path

/-!
# Files

A folder with files at paths.  A path is followed name by name: `..` leads to the folder above,
and every name but the last has to be a folder.
-/

namespace BlockSafe

/-- What a file holds: a text, or data that are written out as a text. -/
inductive FileContent where
  | text (s : Text)
  | data (value : Json)

namespace FileContent

/-- The text of a file, with unified line breaks. -/
def asText : FileContent → Text
  | text s => Text.unifyBreaks s
  | data value => value.pretty

/-- The data in a file, if it holds any; brackets may be nested as deep as the text is long. -/
def asData? : FileContent → Option Json
  | text s => Json.read? s
  | data value => some value

end FileContent

/-- Why a file cannot be opened. -/
inductive FileError where
  | missing
  | isFolder
  | throughFile
deriving DecidableEq, Repr

/-- What is said of a file that cannot be opened. -/
def FileError.message : FileError → Text
  | missing => "No such file or directory"
  | isFolder => "Is a directory"
  | throughFile => "Not a directory"

/-- The files of a folder, each with its path. -/
abbrev Folder := List (Text × FileContent)

namespace Folder

/-- The file at a place, given as the names that lead there. -/
def file? (folder : Folder) (place : List Text) : Option FileContent :=
  (folder.find? fun entry => Path.names entry.1 == place).map (·.2)

/-- Whether a place is a folder: the folder itself, or one on the way to a file. -/
def isFolder (folder : Folder) (place : List Text) : Bool :=
  place.isEmpty
    || folder.any fun entry =>
        let names := Path.names entry.1
        place.isPrefixOf names && place.length < names.length

/-- Follows names from a place on. -/
def follow (folder : Folder) : List Text → List Text → Except FileError (List Text)
  | place, [] => .ok place
  | place, name :: rest =>
    if (folder.file? place).isSome then .error .throughFile
    else if !folder.isFolder place then .error .missing
    else if name.isEmpty || name == ['.'] then follow folder place rest
    else if name == ['.', '.'] then
      if place.isEmpty then .error .missing else follow folder place.dropLast rest
    else follow folder (place ++ [name]) rest

/-- The place that a path leads to.  A path from the root leads out of the folder. -/
def locate (folder : Folder) (path : Text) : Except FileError (List Text) :=
  if path.isEmpty || path.head? == some '/' then .error .missing
  else follow folder [] (Text.split '/' path)

/-- Opens the file at a path. -/
def openFile (folder : Folder) (path : Text) : Except FileError FileContent :=
  match folder.lookup path with
  | some content => .ok content
  | none =>
    match folder.locate path with
    | .error e => .error e
    | .ok place =>
      match folder.file? place with
      | some content => .ok content
      | none => .error (if folder.isFolder place then .isFolder else .missing)

end Folder

end BlockSafe
