import BindGen.Language.Layout

/-!
# Patterns

Texts with named slots in braces, such as `List<{inner}>`. Doubled braces stand for single ones.
Behind its name a slot may pick a character of what fills it, name a conversion and ask for a
layout; a layout may have slots of its own. A slot with a number, or with nothing for the first one,
asks for a filling by place; fillings have names only.
-/

namespace BindGen.Pattern

/-- What fills the slots of a pattern, by name. -/
abbrev Slots := List (String × List Char)

/-- A slot as a pattern writes it. -/
structure Slot where
  /-- the name of the slot, with what is picked from the filling -/
  field : List Char
  conversion : Option Char
  layout : List Char

private def invalid {α : Type} (reason : String) : Except Fault α := .error (.invalid reason)

/-- Takes the field of a slot, the character that ends it and what stands behind. A field in
brackets may have any characters. -/
def takeField : Bool → List Char → Except Fault (List Char × Char × List Char)
  | _, [] => .error .unclosedSlot
  | bracketed, c :: rest =>
    if !bracketed && c == '\x7b' then .error .nestedSlot
    else if !bracketed && ['\x7d', ':', '!'].contains c then .ok ([], c, rest)
    else do
      let (field, stop, behind) ← takeField (if bracketed then c != ']' else c == '[') rest
      return (c :: field, stop, behind)

/-- Takes a layout that stands in a number of braces of its own, and what stands behind it. -/
def takeLayout : Nat → List Char → Except Fault (List Char × List Char)
  | _, [] => invalid "unmatched '\x7b' in format spec"
  | 0, '\x7d' :: rest => .ok ([], rest)
  | depth, c :: rest => do
    let depth := if c = '\x7b' then depth + 1 else if c = '\x7d' then depth - 1 else depth
    let (layout, behind) ← takeLayout depth rest
    return (c :: layout, behind)

/-- Takes a slot behind its opening brace, and what stands behind it. -/
def takeSlot (s : List Char) : Except Fault (Slot × List Char) := do
  let (field, stop, rest) ← takeField false s
  let withLayout (conversion : Option Char) (rest : List Char) : Except Fault (Slot × List Char) := do
    let (layout, behind) ← takeLayout 0 rest
    return (⟨field, conversion, layout⟩, behind)
  if stop = '\x7d' then return (⟨field, none, []⟩, rest)
  else if stop = ':' then withLayout none rest
  else
    match rest with
    | [] => invalid "end of string while looking for conversion specifier"
    | c :: '\x7d' :: rest => return (⟨field, some c, []⟩, rest)
    | [c] => withLayout (some c) []
    | c :: ':' :: rest => withLayout (some c) rest
    | _ => invalid "expected ':' after conversion specifier"

/-- What fills the slot of a name. -/
def Slots.find (slots : Slots) (name : List Char) : Except Fault (List Char) := do
  match ← Text.takePlace name with
  | (some place, []) => throw (.unfilledPlace place)
  | _ =>
    if name.isEmpty then throw (.unfilledPlace 0)
    match slots.lookup (String.ofList name) with
    | some s => return s
    | none => throw (.missingKey (String.ofList name))

/-- What is picked from a filling behind the name of a slot. Every pick leaves a text. The fuel
bounds the number of picks. -/
def pick : Nat → List Char → List Char → Except Fault (List Char)
  | 0, s, _ => .ok s
  | _ + 1, s, [] => .ok s
  | fuel + 1, s, '[' :: rest =>
    match rest.span (· != ']') with
    | (_, []) => invalid "Missing ']' in format string"
    | (index, _ :: behind) => do
      let place ← Text.takePlace index
      if index.isEmpty then invalid "Empty attribute in format string"
      match place with
      | (some n, []) =>
        match s[n]? with
        | some c => pick fuel [c] behind
        | none => throw .emptyText
      | _ => throw .textIndexed
  | _ + 1, _, '.' :: rest =>
    match rest.takeWhile fun c => c != '.' && c != '[' with
    | [] => invalid "Empty attribute in format string"
    | name => .error (.noOperation "str" (String.ofList name))
  | _ + 1, _, _ => invalid "Only '.' or '[' may follow ']' in format field specifier"

/-- What the field of a slot asks for. -/
def Slots.filling (slots : Slots) (field : List Char) : Except Fault (List Char) := do
  let (name, picks) := field.span fun c => c != '.' && c != '['
  pick (picks.length + 1) (← slots.find name) picks

/-- A text after a conversion. -/
def converted (conversion : Option Char) (s : List Char) : Except Fault (List Char) :=
  match conversion with
  | none | some 's' => .ok s
  | some 'r' => .ok (Text.quoted s)
  | some 'a' => .ok (Text.inAscii (Text.quoted s))
  | some c =>
    let shown := if 32 < c.toNat ∧ c.toNat < 127 then [c] else '\\' :: 'x' :: hexDigits 1 c.toNat
    invalid ("Unknown conversion specifier " ++ String.ofList shown)

/-- The text of a slot, where the layout may have to be filled itself. -/
def slotText (slots : Slots) (expand : List Char → Except Fault (List Char)) (slot : Slot) :
    Except Fault (List Char) := do
  let filling ← converted slot.conversion (← slots.filling slot.field)
  let layout ← if slot.layout.contains '\x7b' then expand slot.layout else pure slot.layout
  Layout.laidOut layout filling

/-- Fills a pattern. The fuel bounds the length. -/
def fillFrom (slots : Slots) (expand : List Char → Except Fault (List Char)) :
    Nat → List Char → Except Fault (List Char)
  | 0, _ => .ok []
  | _ + 1, [] => .ok []
  | fuel + 1, '\x7b' :: '\x7b' :: rest => do return '\x7b' :: (← fillFrom slots expand fuel rest)
  | fuel + 1, '\x7d' :: '\x7d' :: rest => do return '\x7d' :: (← fillFrom slots expand fuel rest)
  | _ + 1, '\x7d' :: _ => .error .strayEnd
  | _ + 1, ['\x7b'] => .error .strayBrace
  | fuel + 1, '\x7b' :: rest => do
    let (slot, behind) ← takeSlot rest
    return (← slotText slots expand slot) ++ (← fillFrom slots expand fuel behind)
  | fuel + 1, c :: rest => do return c :: (← fillFrom slots expand fuel rest)

/-- Fills a pattern whose layouts have slots to a depth. -/
def fillWithin (slots : Slots) : Nat → List Char → Except Fault (List Char)
  | 0, _ => invalid "Max string recursion exceeded"
  | depth + 1, s => fillFrom slots (fillWithin slots depth) (s.length + 1) s

/-- The pattern with its slots filled. Layouts have slots, and those have none. -/
def fill (pattern : String) (slots : Slots) : Except Fault (List Char) :=
  fillWithin slots 2 pattern.toList

end BindGen.Pattern
