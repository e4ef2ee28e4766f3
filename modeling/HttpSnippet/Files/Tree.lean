import HttpSnippet.Files.Path
import HttpSnippet.Text.Quoted
import HttpSnippet.Text.Utf8

/-!
# Trees of files

The files that a command works on. A place is written from the current directory, from a directory
above it, or from the root; how these lie to each other is not known. A file brings the directories
on its way into being.
-/
namespace HttpSnippet

/-- A place that is reached without turning back. -/
structure Place where
  fromRoot : Bool := false
  /-- How many directories above the current one it starts. -/
  levelsUp : Nat := 0
  below : List Text := []
deriving DecidableEq, Repr

namespace Place

/-- The directory that holds a place. The root holds itself. -/
def parent (p : Place) : Place :=
  if p.below.isEmpty then
    if p.fromRoot then p else { p with levelsUp := p.levelsUp + 1 }
  else { p with below := p.below.dropLast }

/-- The place that a part of a path leads to. -/
def follow (p : Place) (part : Text) : Place :=
  if part = "..".toList then p.parent else { p with below := p.below ++ [part] }

/-- Whether a place lies in the directory at `p`, at any depth. -/
def isAbove (p q : Place) : Bool :=
  p.fromRoot = q.fromRoot && p.levelsUp = q.levelsUp && p.below ≠ q.below &&
    p.below.isPrefixOf q.below

def text (p : Place) : Text :=
  (if p.fromRoot then ['/'] else Text.repeated p.levelsUp "../") ++ Text.join "/" p.below

end Place

def Path.start (p : Path) : Place := { fromRoot := !p.root.isEmpty }

inductive FileEntry where
  | file (bytes : List UInt8)
  | directory
deriving DecidableEq, Repr

structure FileTree where
  entries : List (Place × FileEntry) := []
deriving DecidableEq, Repr

/-- Why a file cannot be opened. -/
inductive FileError where
  | notFound
  | notDirectory
  | isDirectory
  | nameTooLong
  /-- The path holds the character that ends paths. -/
  | nulInside
deriving DecidableEq, Repr

/-- The number of the error and its text, with the path in question. -/
def FileError.message (p : Path) (e : FileError) : Text :=
  match e with
  | .notFound => "[Errno 2] No such file or directory: " ++ p.text.display
  | .notDirectory => "[Errno 20] Not a directory: " ++ p.text.display
  | .isDirectory => "[Errno 21] Is a directory: " ++ p.text.display
  | .nameTooLong => "[Errno 36] File name too long: " ++ p.text.display
  | .nulInside => "embedded null byte"

namespace FileTree

/-- The greatest number of bytes in one part of a path. -/
def maxNameBytes : Nat := 255

/-- The greatest number of bytes in a path. -/
def maxPathBytes : Nat := 4095

/-- The entry at a place. A path can always start. -/
def get? (files : FileTree) (place : Place) : Option FileEntry :=
  match files.entries.find? (·.1 = place) with
  | some (_, entry) => some entry
  | none =>
    if place.below.isEmpty || files.entries.any (place.isAbove ·.1) then some .directory else none

/-- One step from a place, which has to be a directory. -/
def step (files : FileTree) (place : Place) (part : Text) : Except FileError Place :=
  match files.get? place with
  | some .directory =>
    if maxNameBytes < (Text.Utf8.encode part).length then .error .nameTooLong
    else .ok (place.follow part)
  | some (.file _) => .error .notDirectory
  | none => .error .notFound

/-- The place of a path. There may be nothing yet. -/
def place (files : FileTree) (p : Path) : Except FileError Place := do
  if p.text.contains '\x00' then throw .nulInside
  if maxPathBytes < (Text.Utf8.encode p.text).length then throw .nameTooLong
  p.parts.foldlM files.step p.start

def find (files : FileTree) (p : Path) : Except FileError FileEntry := do
  match files.get? (← files.place p) with
  | some entry => return entry
  | none => throw .notFound

/-- The bytes of the file at a path. -/
def read (files : FileTree) (p : Path) : Except FileError (List UInt8) := do
  match ← files.find p with
  | .file bytes => return bytes
  | .directory => throw .isDirectory

/-- Sets the entry at a place. -/
def insert (files : FileTree) (place : Place) (entry : FileEntry) : FileTree :=
  if files.entries.any (·.1 = place) then
    { entries := files.entries.map fun e => if e.1 = place then (place, entry) else e }
  else { entries := files.entries ++ [(place, entry)] }

/-- The tree with a file's content set. Its directory has to be there. -/
def write (files : FileTree) (p : Path) (bytes : List UInt8) : Except FileError FileTree := do
  let place ← files.place p
  match files.get? place with
  | some .directory => throw .isDirectory
  | _ => return files.insert place (.file bytes)

/-- The files that are new or have another content than before. -/
def changes (before after : FileTree) : List (Place × List UInt8) :=
  after.entries.filterMap fun (place, entry) =>
    match entry with
    | .file bytes => if before.get? place = some entry then none else some (place, bytes)
    | .directory => none

end FileTree
end HttpSnippet
