import SchemaDelta.Text.Pieces

/-!
# Files

What a command needs of a file system, and a file system in memory that provides it. The files that
matter stand in one directory, from which relative paths start. It lies below the root of a system
that holds the standard directories and the null device; what is written there is not kept.
-/

namespace SchemaDelta.Command

/-- Why a file cannot be read or written. -/
inductive FileError where
  | missing
  | notDirectory
  | isDirectory
  | nameTooLong
  | notText
  | other (text : String)

/-- The text of an error. -/
def FileError.message : FileError → String
  | missing => "No such file or directory (os error 2)"
  | notDirectory => "Not a directory (os error 20)"
  | isDirectory => "Is a directory (os error 21)"
  | nameTooLong => "File name too long (os error 36)"
  | notText => "stream did not contain valid UTF-8"
  | other text => text

/-- The reading and writing of text files. -/
structure Files (m : Type → Type) where
  read : String → m (Except FileError String)
  write : String → String → m (Except FileError Unit)

/-! ## Paths -/

/-- A place in the file system: in the directory, or outside of it, counted from the root. -/
inductive Location where
  | inside (path : List String)
  | outside (path : List String)

namespace Location

/-- The place of a name in this place. -/
def child (l : Location) (name : String) : Location :=
  match l with
  | inside p => inside (p ++ [name])
  | outside p => outside (p ++ [name])

/-- The place one level up. The directory lies below the root, and the root is its own parent. -/
def parent : Location → Location
  | inside [] => outside []
  | inside p => inside p.dropLast
  | outside p => outside p.dropLast

end Location

/-- The most bytes of a name. -/
def maxNameBytes : Nat := 255

/-- The most bytes of a path. -/
def maxPathBytes : Nat := 4095

/-- The names in a path, which a slash or several divide. -/
def pathNames (path : String) : List String :=
  ((path.toList.splitOn '/').map String.ofList).filter (· ≠ "")

/-! ## Files in memory -/

/-- The files of a directory: their paths, as lists of names, and their bytes. -/
structure Directory where
  files : List (List String × ByteArray)

/-- What stands at a place. -/
inductive Entry where
  | file (bytes : ByteArray)
  | directory

/-- What a path leads to: a directory as such, or a name in one. A slash after the name asks for a
directory of that name. -/
inductive Target where
  | directory
  | named (folder : Location) (name : String) (slashed : Bool)

/-- The directories outside that every system has. -/
def systemDirectories : List (List String) := [[], ["dev"], ["tmp"]]

/-- The file that is always empty. -/
def nullDevice : List String := ["dev", "null"]

namespace Directory

/-- The directory with the given files. -/
def ofList (files : List (String × ByteArray)) : Directory :=
  ⟨files.map fun f => ((pathNames f.1).filter (· ≠ "."), f.2)⟩

/-- The bytes of a file. -/
def bytes? (d : Directory) (path : List String) : Option ByteArray :=
  d.files.lookup path

/-- The path is that of the directory itself, or a file lies below it. -/
def hasDirectory (d : Directory) (path : List String) : Bool :=
  path.isEmpty || d.files.any fun f => path.isPrefixOf f.1 && path.length < f.1.length

/-- What stands at a place. -/
def entry? (d : Directory) : Location → Option Entry
  | .inside p =>
    match d.bytes? p with
    | some bytes => some (.file bytes)
    | none => if d.hasDirectory p then some .directory else none
  | .outside p =>
    if systemDirectories.contains p then some .directory
    else if p = nullDevice then some (.file .empty)
    else none

/-- What stands under a name, which must not be too long. -/
def find (d : Directory) (folder : Location) (name : String) : Except FileError (Option Entry) :=
  if maxNameBytes < name.utf8ByteSize then .error .nameTooLong
  else .ok (d.entry? (folder.child name))

/-- One step on a path, into a directory. -/
def enter (d : Directory) (here : Location) (name : String) : Except FileError Location := do
  if name = "." then return here
  if name = ".." then return here.parent
  match ← d.find here name with
  | some .directory => return here.child name
  | some (.file _) => throw .notDirectory
  | none => throw .missing

/-- What a path leads to, with all of its names but the last one entered. -/
def target (d : Directory) (path : String) : Except FileError Target := do
  if path.isEmpty then throw .missing
  if maxPathBytes < path.utf8ByteSize then throw .nameTooLong
  let names := pathNames path
  let start : Location := if Text.startsWith "/" path then .outside [] else .inside []
  let folder ← names.dropLast.foldlM d.enter start
  match names.getLast? with
  | none | some "." | some ".." => return .directory
  | some name => return .named folder name (Text.endsWith "/" path)

/-- The text of the file at a path. -/
def read (d : Directory) (path : String) : Except FileError String := do
  match ← d.target path with
  | .directory => throw .isDirectory
  | .named folder name slashed =>
    match ← d.find folder name with
    | none => throw .missing
    | some .directory => throw .isDirectory
    | some (.file bytes) =>
      if slashed then throw .notDirectory
      match String.fromUTF8? bytes with
      | some text => return text
      | none => throw .notText

/-- The directory with the bytes as the file at a place. Only what lies inside is kept. -/
def put (d : Directory) (place : Location) (bytes : ByteArray) : Directory :=
  match place with
  | .inside p =>
    if (d.bytes? p).isSome then ⟨d.files.map fun f => if f.1 = p then (p, bytes) else f⟩
    else ⟨d.files ++ [(p, bytes)]⟩
  | .outside _ => d

/-- The directory with a text as the file at a path. A path with a slash at its end is never that of
a file. -/
def write (d : Directory) (path text : String) : Except FileError Directory := do
  match ← d.target path with
  | .directory | .named _ _ true => throw .isDirectory
  | .named folder name false =>
    match ← d.find folder name with
    | some .directory => throw .isDirectory
    | _ => return d.put (folder.child name) text.toUTF8

/-- The files of a directory in memory. -/
def inMemory : Files (StateM Directory) where
  read path := do return (← get).read path
  write path text := do
    match (← get).write path text with
    | .ok d => set d; return .ok ()
    | .error e => return .error e

/-- The files that are new or have other bytes than in the directory `before`, by name. -/
def changes (before after : Directory) : List (String × ByteArray) :=
  let changed := after.files.filter fun f => (before.bytes? f.1).map (·.data) != some f.2.data
  (changed.map fun f => (Text.join "/" f.1, f.2)).mergeSort fun a b => a.1 ≤ b.1

end Directory

end SchemaDelta.Command
