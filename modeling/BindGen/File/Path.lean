import BindGen.Text.Blank

/-!
# Paths

Names of files: an optional root and the components below it. Empty components and single dots are
left out when a path is read, so a text such as `a//b/./c` names the same path as `a/b/c`; double
dots stay. The empty path names the working directory and is written as a single dot.
-/

namespace BindGen

/-- A path. The root is empty for a relative path; exactly two leading slashes are a root of their
own. -/
structure Path where
  root : String
  parts : List String
deriving DecidableEq

namespace Path

/-- The root that the slashes at the start of a text stand for. -/
def slashes (s : List Char) : String :=
  match s with
  | '/' :: '/' :: '/' :: _ => "/"
  | '/' :: '/' :: _ => "//"
  | '/' :: _ => "/"
  | _ => ""

/-- The components that a text names. -/
def components (s : String) : List String :=
  ((Text.cut (· == '/') s.toList).filter fun c => c != [] && c != ['.']).map String.ofList

/-- The path that a text names. -/
def ofText (s : String) : Path := ⟨slashes s.toList, components s⟩

/-- The working directory. -/
def here : Path := ⟨"", []⟩

/-- Whether a path starts at a root. -/
def isAbsolute (p : Path) : Bool := !p.root.isEmpty

/-- The text of a path. -/
def text (p : Path) : String :=
  if p.root.isEmpty && p.parts.isEmpty then "." else p.root ++ "/".intercalate p.parts

/-- The second path seen from the first one. -/
def append (p q : Path) : Path := if q.isAbsolute then q else ⟨p.root, p.parts ++ q.parts⟩

/-- What a text names below a path. -/
def below (p : Path) (s : String) : Path := p.append (ofText s)

/-- The path without its last component. -/
def parent (p : Path) : Path := ⟨p.root, p.parts.dropLast⟩

/-- The last component, or nothing. -/
def name (p : Path) : String := p.parts.getLastD ""

/-- The end of a name from its last dot on, unless the dot comes first or last. -/
def suffixOf (name : List Char) : List Char :=
  let (front, back) := Text.splitTail (· != '.') name
  if back.isEmpty || front.length < 2 then [] else '.' :: back

/-- The suffix of the last component. -/
def suffix (p : Path) : String := String.ofList (suffixOf p.name.toList)

/-- The greatest number of bytes in the name of a file. -/
def longestName : Nat := 255

/-- The greatest number of bytes in the text of a path. -/
def longestText : Nat := 4095

/-- Whether some component has a character that no name of a file has. -/
def isUnnameable (p : Path) : Bool := p.parts.any fun c => c.toList.contains '\x00'

/-- Whether a relative path starts in the home directory of a user. -/
def startsAtHome (p : Path) : Bool :=
  p.root.isEmpty && ((p.parts.headD "").toList.head? == some '~')

end Path
end BindGen
