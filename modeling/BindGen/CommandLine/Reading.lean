import BindGen.CommandLine.Grammar
import BindGen.Text.Blank
import BindGen.Text.Numeral

/-!
# Reading command lines

The words of a command line are sorted into switches and plain words, and then taken one after the
other. A long switch may be cut short as long as it stays clear which one is meant; short switches
may share a hyphen; an argument may be attached. Behind a double hyphen all words are plain. A
switch that asks for help ends the reading when its turn comes.
-/

namespace BindGen.CommandLine

/-- A word of a command line. -/
inductive Word where
  | plain (text : String)
  /-- the double hyphen behind which all words are plain -/
  | divider
  | switch (text : String) (s : Switch) (name : String) (attached : Option String)
  /-- what looks like a switch but is none -/
  | unknown (text : String)

namespace Word

/-- A word as it was written. -/
def text : Word → String
  | plain s => s
  | divider => "--"
  | switch s _ _ _ => s
  | unknown s => s

end Word

/-- What a command line was found to hold: the switches with their arguments, the operands, and the
words that nothing takes. -/
structure Findings where
  switches : List (Switch × String)
  operands : List String
  extras : List String

namespace Findings

/-- Findings of a reading that has seen nothing yet. -/
def empty : Findings := ⟨[], [], []⟩

/-- The arguments of the switch with a name, in order. -/
def arguments (f : Findings) (name : String) : List String :=
  (f.switches.filter fun (s, _) => s.names.contains name).map (·.2)

/-- The last argument of the switch with a name. -/
def argument? (f : Findings) (name : String) : Option String := (f.arguments name).getLast?

/-- Whether the switch with a name was given. -/
def has (f : Findings) (name : String) : Bool := !(f.arguments name).isEmpty

end Findings

/-- Why reading ends early. -/
inductive Stop where
  | help (g : Grammar)
  | misuse (g : Grammar) (m : Misuse)

namespace Grammar

/-- A text in front of its first equals sign, and what follows that. -/
def cutAtEquals (s : String) : String × Option String :=
  let cs := s.toList
  match cs.dropWhile (· != '=') with
  | [] => (s, none)
  | _ :: rest => (String.ofList (cs.takeWhile (· != '=')), some (String.ofList rest))

/-- Whether a text starts with another one. -/
def startsWith (start s : String) : Bool := (Text.afterPrefix? start.toList s.toList).isSome

/-- The switches that a word may stand for: long ones that it abbreviates, or the short one that it
starts with. -/
def candidates (g : Grammar) (s : String) : List (Switch × String × Option String) :=
  if startsWith "--" s then
    let (stem, attached) := cutAtEquals s
    (g.names.filter fun (name, _) => startsWith stem name).map fun (name, switch) =>
      (switch, name, attached)
  else
    let short := String.ofList (s.toList.take 2)
    g.names.filterMap fun (name, switch) =>
      if name = short then some (switch, name, some (String.ofList (s.toList.drop 2)))
      else if startsWith s name then some (switch, name, none)
      else none

/-- Sorts a word that starts with a hyphen but is no name of a switch. -/
def sortMarked (g : Grammar) (s : String) : Except Misuse Word :=
  match g.candidates s with
  | [] =>
    if Text.looksNegative s.toList || s.toList.contains ' ' then .ok (.plain s)
    else .ok (.unknown s)
  | [(switch, name, attached)] => .ok (.switch s switch name attached)
  | several => .error (.ambiguous s (several.map fun (_, name, _) => name))

/-- Sorts a word. -/
def sort (g : Grammar) (s : String) : Except Misuse Word :=
  if !startsWith "-" s then .ok (.plain s)
  else
    match g.find? s with
    | some switch => .ok (.switch s switch s none)
    | none =>
      if s = "-" then .ok (.plain s)
      else
        let (name, attached) := cutAtEquals s
        match attached, g.find? name with
        | some a, some switch => .ok (.switch s switch name (some a))
        | _, _ => g.sortMarked s

/-- Sorts the words of a command line. -/
def sortAll (g : Grammar) : List String → Except Misuse (List Word)
  | [] => .ok []
  | s :: rest =>
    if s = "--" then .ok (.divider :: rest.map .plain)
    else do return (← g.sort s) :: (← g.sortAll rest)

/-- Switches that share a hyphen: those without an argument, then perhaps one that has its argument
or still needs it. -/
structure Cluster where
  flags : List Switch
  last : Option (Switch × Option String)

/-- A switch by itself. -/
def Cluster.single (s : Switch) : Cluster :=
  if s.argument.isSome then ⟨[], some (s, none)⟩ else ⟨[s], none⟩

/-- The switches of a word, from one of them on with what is attached to it. Behind a short switch
without an argument, every further letter has to be a switch. -/
def cluster (g : Grammar) (s : Switch) (isShort : Bool) (attached : List Char) :
    Except Misuse Cluster :=
  let text := String.ofList attached
  if s.argument.isSome then .ok ⟨[], some (s, some text)⟩
  else
    match attached with
    | [] => .error (.needlessArgument s text)
    | c :: rest =>
      match isShort, g.find? (String.ofList ['-', c]) with
      | true, some next => do
        let found ← if rest.isEmpty then pure (Cluster.single next) else g.cluster next true rest
        return { found with flags := s :: found.flags }
      | _, _ => .error (.needlessArgument s text)

/-- The switches of a word. -/
def clusterOf (g : Grammar) (s : Switch) (name : String) (attached : Option String) :
    Except Misuse Cluster :=
  match attached with
  | some text => g.cluster s (!startsWith "--" name) text.toList
  | none => .ok (Cluster.single s)

/-- Takes a switch with its argument. -/
def take (g : Grammar) (found : Findings) (s : Switch) (argument : String) :
    Except Stop Findings :=
  if s.isHelp then .error (.help g)
  else if s.argument.any (fun a => a.kind = .integer)
      && (Text.integer? argument.toList).isNone then
    .error (.misuse g (.notInteger s argument))
  else .ok { found with switches := found.switches ++ [(s, argument)] }

/-- Takes the switches of a word. -/
def takeCluster (g : Grammar) (found : Findings) (c : Cluster) (argument : Option String) :
    Except Stop Findings := do
  let found ← c.flags.foldlM (fun found s => g.take found s "") found
  match c.last, argument with
  | some (s, _), some a => g.take found s a
  | _, _ => return found

/-- Whether an operand is still to be found. -/
def wantsOperand (g : Grammar) (found : Findings) : Bool :=
  g.operands.name?.isSome && found.operands.isEmpty

/-- Takes words one after the other. -/
def takeAll (g : Grammar) (found : Findings) : List Word → Except Stop Findings
  | [] => .ok found
  | .unknown s :: rest => g.takeAll { found with extras := found.extras ++ [s] } rest
  | .switch _ s name attached :: rest =>
    match g.clusterOf s name attached with
    | .error m => .error (.misuse g m)
    | .ok c =>
      match c.last, rest with
      | some (_, none), .plain a :: rest => do g.takeAll (← g.takeCluster found c (some a)) rest
      | some (last, none), _ => .error (.misuse g (.noArgument last))
      | some (_, some a), rest => do g.takeAll (← g.takeCluster found c (some a)) rest
      | none, rest => do g.takeAll (← g.takeCluster found c none) rest
  | .plain s :: rest =>
    if g.wantsOperand found then
      match g.operands, rest with
      | .command .., rest => .ok { found with operands := s :: rest.map Word.text }
      | _, .divider :: rest => g.takeAll { found with operands := [s] } rest
      | _, rest => g.takeAll { found with operands := [s] } rest
    else g.takeAll { found with extras := found.extras ++ [s] } rest
  | .divider :: rest =>
    if g.wantsOperand found then
      match g.operands, rest with
      | _, [] => .ok { found with extras := found.extras ++ ["--"] }
      | .command .., rest => .ok { found with operands := "--" :: rest.map Word.text }
      | _, w :: rest => g.takeAll { found with operands := [w.text] } rest
    else g.takeAll { found with extras := found.extras ++ ["--"] } rest

/-- What has to be there and is not. -/
def missing (g : Grammar) (found : Findings) : List String :=
  (if found.operands.isEmpty then g.operands.name?.toList else [])
    ++ (g.required.filter fun s => !(found.switches.any fun (t, _) => s = t)).map Switch.label

/-- What a command line holds, and that nothing is missing. -/
def read (g : Grammar) (line : List String) : Except Stop Findings := do
  let ws ← (g.sortAll line).mapError (.misuse g)
  let found ← g.takeAll .empty ws
  match g.missing found with
  | [] => return found
  | names => throw (.misuse g (.missing names))

end Grammar
end BindGen.CommandLine
