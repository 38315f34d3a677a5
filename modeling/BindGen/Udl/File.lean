import BindGen.File.Tree
import BindGen.Udl.Reader

/-!
# Interface definition files

An item of a crate may name an interface definition file among the sources of the crate. What the
file declares is read from there. A crate has at most one such file, and it has to be there.
-/

namespace BindGen

/-- Why the interface definition file of a crate is not read. -/
inductive UdlFileError where
  | several (count : Nat) (crate : Value)
  | notFound (file : Path)
  | notText
  | unreadable (e : FileError)
  | invalid (e : UdlError)

namespace UdlFileError

/-- The wording of an error. -/
def message : UdlFileError → String
  | several count crate => s!"{count} UDL files found for {crate.display}"
  | notFound file => s!"{file.text} not found"
  | notText => "the file is not a text"
  | unreadable e => e.message
  | invalid e => e.message

end UdlFileError

namespace Udl

/-- The interface definition files that items name. -/
def filesNamed (items : List Item) : List UdlFileDecl :=
  items.filterMap fun
    | .udlFile d => some d
    | _ => none

/-- Where the file with a stem stands in the directory of a crate. -/
def fileIn (root : Path) (d : UdlFileDecl) : Path :=
  (root.below "src").below (d.fileStub.display ++ ".udl")

/-- The group that an interface definition file declares for a crate. -/
def readFile (files : Tree) (file : Path) (crate : Value) : Except UdlFileError Group :=
  match files.isFile file with
  | .error e => .error (.unreadable e)
  | .ok false => .error (.notFound file)
  | .ok true =>
    match files.read file with
    | .error e => .error (.unreadable e)
    | .ok content =>
      match Tree.textOf? content with
      | some text => (read (String.ofList text) crate).mapError .invalid
      | none => .error .notText

/-- The group that the interface definition file of a crate declares, if its items name one. Models
`load_udl_metadata`. -/
def groupFor (files : Tree) (items : List Item) (root : Path) (crate : Value) :
    Except UdlFileError (Option Group) :=
  match filesNamed items with
  | [] => .ok none
  | [d] => (readFile files (fileIn root d) crate).map some
  | several => .error (.several several.length crate)

end Udl
end BindGen
