import FixtureCheck.Storage.Path
import FixtureCheck.Text.Quoted

/-!
# Files and folders

A `FileTree` is what a working folder holds: the texts of its files by their places, and the folders that were made. A
folder also exists if a file lies in it. `read`, `write` and `makeFolders` follow paths as texts; they fail with a
`FileError`, which names the path as it was given.

They fail only for what a tree has, or lacks, at the places on a path. Names may be of any length, and nothing is
denied: `denied` and `unusable` are causes on other hosts. What is said about runs on trees takes this for granted.
-/

namespace FixtureCheck.Storage

/-- Why a file or folder cannot be used. -/
inductive FileError.Cause where
  | notFound
  | alreadyExists
  | notFolder
  | isFolder
  | denied
  /-- The file cannot be read or written for another reason. -/
  | unusable
  deriving DecidableEq, Repr

/-- A failure to use the file or folder at a path. -/
structure FileError where
  cause : FileError.Cause
  path : String
  deriving DecidableEq, Repr

/-- The message about a failure. -/
def FileError.message (e : FileError) : String :=
  let (number, text) := match e.cause with
    | .notFound => (2, "No such file or directory")
    | .alreadyExists => (17, "File exists")
    | .notFolder => (20, "Not a directory")
    | .isFolder => (21, "Is a directory")
    | .denied => (13, "Permission denied")
    | .unusable => (5, "Input/output error")
  s!"[Errno {number}] {text}: {Text.quoted e.path}"

/-- The place of a file or folder: the names that lead to it. -/
abbrev Place := List String

/-- The files and folders below a working folder. -/
structure FileTree where
  files : List (Place × String) := []
  folders : List Place := []
  deriving DecidableEq, Repr, Inhabited

/-- What is at a place. -/
inductive Entry where
  | file (text : String)
  | folder
  | absent
  deriving DecidableEq, Repr

namespace FileTree

/-- The place that absolute paths start from. -/
def top : Place := ["/"]

/-- What a tree has at a place. The working folder, the folders around it and the one at the top exist always. -/
def entryAt (t : FileTree) (place : Place) : Entry :=
  match t.files.find? (·.1 == place) with
  | some (_, text) => .file text
  | none =>
    if place == top || place.all (· == "..") || t.folders.contains place || t.files.any (place.isPrefixOf ·.1) then
      .folder
    else .absent

/-- The folder around a folder. -/
def above (place : Place) : Place :=
  if place == top then top else if place.all (· == "..") then place ++ [".."] else place.dropLast

/-- The place that names lead to from a folder; all names but the last have to be those of folders. -/
def walk (t : FileTree) (place : Place) : List String → Except FileError.Cause Place
  | [] => .ok place
  | ".." :: rest => walk t (above place) rest
  | [name] => .ok (place ++ [name])
  | name :: rest =>
    match t.entryAt (place ++ [name]) with
    | .folder => walk t (place ++ [name]) rest
    | .file _ => .error .notFolder
    | .absent => .error .notFound

/-- The place of a path. -/
def locate (t : FileTree) (p : Path) : Except FileError.Cause Place :=
  t.walk (if p.root = .here then [] else top) p.names

/-- Does the path end in a slash or a dot, so that only a folder can be meant? -/
def meansFolder (path : String) : Bool :=
  match (pieces path.toList).getLast? with
  | some [] | some ['.'] => true
  | _ => false

/-- What the path leads to. -/
def find (t : FileTree) (path : String) : Except FileError.Cause (Place × Entry) :=
  if path.isEmpty then .error .notFound
  else do
    let place ← t.locate (.ofText path)
    return (place, t.entryAt place)

/-- Is there a file or folder at a path? -/
def has (t : FileTree) (p : Path) : Bool :=
  match t.find p.text with
  | .ok (_, .absent) | .error _ => false
  | _ => true

/-- The text of a file. -/
def read (t : FileTree) (path : String) : Except FileError String :=
  match t.find path with
  | .ok (_, .file text) => if meansFolder path then .error ⟨.notFolder, path⟩ else .ok text
  | .ok (_, .folder) => .error ⟨.isFolder, path⟩
  | .ok (_, .absent) => .error ⟨.notFound, path⟩
  | .error cause => .error ⟨cause, path⟩

/-- Puts a text at a place. -/
def put (text : String) (place : Place) : List (Place × String) → List (Place × String)
  | [] => [(place, text)]
  | (p, old) :: rest => if p == place then (p, text) :: rest else (p, old) :: put text place rest

/-- The tree with a file written; its folder has to exist. -/
def write (t : FileTree) (path text : String) : Except FileError FileTree :=
  match t.find path with
  | .ok (_, .folder) => .error ⟨.isFolder, path⟩
  | .ok (place, .file _) =>
    if meansFolder path then .error ⟨.notFolder, path⟩ else .ok { t with files := put text place t.files }
  | .ok (place, .absent) =>
    if meansFolder path then .error ⟨.isFolder, path⟩ else .ok { t with files := put text place t.files }
  | .error cause => .error ⟨cause, path⟩

/-- The tree with the first `n` folders of a path made. -/
def makeFirst (t : FileTree) (p : Path) : Nat → Except FileError FileTree
  | 0 => .ok t
  | n + 1 => do
    let t ← makeFirst t p n
    match t.locate { p with names := p.names.take (n + 1) } with
    | .error cause => .error ⟨cause, p.text⟩
    | .ok place =>
      match t.entryAt place with
      | .folder => .ok t
      | .file _ => .error ⟨if n + 1 = p.names.length then .alreadyExists else .notFolder, p.text⟩
      | .absent => .ok { t with folders := t.folders ++ [place] }

/-- The tree with a folder and those around it made; those that exist are left alone. -/
def makeFolders (t : FileTree) (p : Path) : Except FileError FileTree := t.makeFirst p p.names.length

end FileTree

end FixtureCheck.Storage
