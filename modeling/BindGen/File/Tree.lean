import BindGen.File.Error
import BindGen.Text.Lines
import BindGen.Text.Utf8

/-!
# File trees

Files and directories below a working directory, and the operations of a run on them. A path is
followed component by component through directories; a double dot steps back to the directory that
holds the current one. An absolute path is one of the tree if it starts with the working directory.
-/

namespace BindGen

/-- What a name stands for. -/
inductive Node where
  | file (content : Bytes)
  | directory

/-- Files and directories, by their components below the working directory. -/
structure Tree where
  /-- the absolute path of the working directory -/
  home : Path
  entries : List (List String × Node)

namespace Tree

/-- What stands at a place; the working directory itself is always there. -/
def node? (t : Tree) (place : List String) : Option Node :=
  if place = [] then some .directory else t.entries.lookup place

/-- The place that components name, seen from a place. The last of them need not be there. -/
def follow (t : Tree) (place : List String) :
    List String → Except FileError.Reason (List String)
  | [] => .ok place
  | c :: rest =>
    let next := if c = ".." then place.dropLast else place ++ [c]
    if Path.longestName < c.utf8ByteSize then .error .nameTooLong else
    match rest with
    | [] => .ok next
    | _ :: _ =>
      match t.node? next with
      | some .directory => follow t next rest
      | some (.file _) => .error .notDirectory
      | none => .error .notFound

/-- The components of a path below the working directory. -/
def componentsBelow? (t : Tree) (p : Path) : Option (List String) :=
  if p.root.isEmpty then some p.parts
  else if p.root = t.home.root && t.home.parts.isPrefixOf p.parts then
    some (p.parts.drop t.home.parts.length)
  else none

/-- The place that a path names. -/
def locate (t : Tree) (p : Path) : Except FileError.Reason (List String) :=
  if p.isUnnameable then .error .unnameable
  else if Path.longestText < p.text.utf8ByteSize then .error .nameTooLong
  else
    match t.componentsBelow? p with
    | some components => t.follow [] components
    | none => .error .notFound

/-- What a path leads to, if it leads anywhere. -/
def find (t : Tree) (p : Path) : Except FileError (Option Node) :=
  match t.locate p with
  | .ok place => .ok (t.node? place)
  | .error reason => if reason.isAbsence then .ok none else .error (.about reason p)

/-- Whether a path leads to something. -/
def has (t : Tree) (p : Path) : Except FileError Bool := do return (← t.find p).isSome

/-- Whether a path leads to a file. -/
def isFile (t : Tree) (p : Path) : Except FileError Bool := do
  match ← t.find p with
  | some (.file _) => return true
  | _ => return false

/-- Whether a path leads to a directory. -/
def isDirectory (t : Tree) (p : Path) : Bool :=
  match t.find p with
  | .ok (some .directory) => true
  | _ => false

/-- Puts something at a place. -/
def put (t : Tree) (place : List String) (n : Node) : Tree :=
  if (t.entries.lookup place).isSome then
    { t with entries := t.entries.map fun (p, old) => if p = place then (p, n) else (p, old) }
  else { t with entries := t.entries ++ [(place, n)] }

/-- The content of the file that a path leads to. -/
def read (t : Tree) (p : Path) : Except FileError Bytes :=
  match t.locate p with
  | .error reason => .error (.about reason p)
  | .ok place =>
    match t.node? place with
    | some (.file content) => .ok content
    | some .directory => .error (.about .isDirectory p)
    | none => .error (.about .notFound p)

/-- Writes a file, in place of the one that is there. -/
def write (t : Tree) (p : Path) (content : Bytes) : Except FileError Tree :=
  match t.locate p with
  | .error reason => .error (.about reason p)
  | .ok place =>
    match t.node? place with
    | some .directory => .error (.about .isDirectory p)
    | _ => .ok (t.put place (.file content))

/-- Adds to the end of a file, which need not be there. -/
def append (t : Tree) (p : Path) (content : Bytes) : Except FileError Tree :=
  match t.read p with
  | .ok old => t.write p (old ++ content)
  | .error ⟨.notFound, _⟩ => t.write p content
  | .error e => .error e

/-- Makes a directory in one that is there. -/
def makeDirectory (t : Tree) (p : Path) : Except FileError Tree :=
  match t.locate p with
  | .error reason => .error (.about reason p)
  | .ok place =>
    match t.node? place with
    | some _ => .error (.about .exists p)
    | none => .ok (t.put place .directory)

/-- Makes a directory unless it is there. -/
def ensureDirectory (t : Tree) (p : Path) : Except FileError Tree :=
  match t.makeDirectory p with
  | .ok made => .ok made
  | .error e =>
    if e.reason = .notFound then .error e
    else if t.isDirectory p then .ok t
    else .error e

/-- Makes the directory of a root and components, given in reverse, and those on the way to it. The
tree reached is there also if the last one cannot be made. -/
def makeDirectoriesFrom (t : Tree) (root : String) : List String → Tree × Option FileError
  | [] =>
    match t.ensureDirectory ⟨root, []⟩ with
    | .ok made => (made, none)
    | .error e => (t, some e)
  | c :: rest =>
    let p : Path := ⟨root, (c :: rest).reverse⟩
    match t.ensureDirectory p with
    | .ok made => (made, none)
    | .error e =>
      if e.reason = .notFound then
        match makeDirectoriesFrom t root rest with
        | (made, none) =>
          match made.ensureDirectory p with
          | .ok last => (last, none)
          | .error e => (made, some e)
        | failed => failed
      else (t, some e)

/-- Makes a directory and those on the way to it. -/
def makeDirectories (t : Tree) (p : Path) : Tree × Option FileError :=
  t.makeDirectoriesFrom p.root p.parts.reverse

/-- The text of bytes, with a line feed at every line end. -/
def textOf? (content : Bytes) : Option (List Char) :=
  (Utf8.decode? content).map Text.unifyLineEnds

/-- The absolute path with its double dots resolved. -/
def resolve (t : Tree) (p : Path) : Path :=
  let full := t.home.append p
  ⟨full.root, full.parts.foldl (fun done c => if c = ".." then done.dropLast else done ++ [c]) []⟩

end Tree
end BindGen
