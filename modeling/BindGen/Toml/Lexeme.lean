import BindGen.Text.Blank
import BindGen.Text.Numeral
import BindGen.Value.Fault

/-!
# Lexemes of TOML

Keys, quoted texts, blanks and comments. Every reader takes the text from where its lexeme starts
and gives what the lexeme writes together with what follows it.
-/

namespace BindGen.Toml

/-- The failure of a text that breaks the rules. -/
def malformed {α : Type} : Except ReadProblem α := .error .malformed

/-- Whether a character is a blank inside a line. -/
def isBlank (c : Char) : Bool := c == ' ' || c == '\t'

/-- Whether a character may not stand in comments and texts as it is. -/
def isControl (c : Char) : Bool := (c.toNat < 32 && c != '\t') || c.toNat == 127

/-- Whether a character may stand in a key without quotes. -/
def isBare (c : Char) : Bool :=
  ('a' ≤ c && c ≤ 'z') || ('A' ≤ c && c ≤ 'Z') || c.isDigit || c == '-' || c == '_'

/-- The text behind its leading blanks. -/
def skipBlanks (s : List Char) : List Char := s.dropWhile isBlank

/-- What follows a comment, if one starts here. -/
def skipComment (s : List Char) : Except ReadProblem (List Char) :=
  match s with
  | '#' :: rest =>
    if (rest.takeWhile (· != '\n')).any isControl then malformed
    else .ok (rest.dropWhile (· != '\n'))
  | s => .ok s

/-- The text behind blanks, line ends and comments. -/
def skipFiller (inComment : Bool) : List Char → Except ReadProblem (List Char)
  | [] => .ok []
  | c :: rest =>
    if c = '\n' then skipFiller false rest
    else if inComment then if isControl c then malformed else skipFiller true rest
    else if isBlank c then skipFiller false rest
    else if c = '#' then skipFiller true rest
    else .ok (c :: rest)

/-- The text in front of a mark, and what follows the mark. -/
def upTo (mark : List Char) : List Char → Option (List Char × List Char)
  | [] => none
  | c :: rest =>
    match Text.afterPrefix? mark (c :: rest) with
    | some after => some ([], after)
    | none => (upTo mark rest).map fun (front, after) => (c :: front, after)

/-- A text in single quotes, which stands for itself. -/
def literalText (s : List Char) : Except ReadProblem (List Char × List Char) :=
  match upTo ['\''] s with
  | some (body, after) => if body.any isControl then malformed else .ok (body, after)
  | none => malformed

/-- The character that a letter stands for behind a backslash. -/
def escaped? : Char → Option Char
  | 'b' => some '\x08'
  | 't' => some '\t'
  | 'n' => some '\n'
  | 'f' => some '\x0c'
  | 'r' => some '\r'
  | '"' => some '"'
  | '\\' => some '\\'
  | _ => none

/-- The character whose code point hexadecimal digits write. -/
def hexChar? (digits : List Char) : Option Char := do
  let n ← digits.foldlM (fun n d => do return n * 16 + (← hexValue? d)) 0
  if n.isValidChar then some (Char.ofNat n) else none

/-- What stands behind the characters read so far. -/
inductive QuoteState where
  /-- nothing to remember -/
  | plain
  /-- a backslash -/
  | escape
  /-- a backslash with `u` or `U`, the number of digits that miss and those read -/
  | hex (missing : Nat) (digits : List Char)
  /-- a backslash at the end of a line, with blanks read -/
  | lineEnd
  /-- the same, with the line end read -/
  | joined

/-- The text in double quotes whose body starts here. Over several lines a backslash at the end of a
line swallows the line end and all blanks behind it, and three quotes end the text. -/
def basicText (lines : Bool) : QuoteState → List Char → Except ReadProblem (List Char × List Char)
  | _, [] => malformed
  | .plain, c :: rest =>
    if c = '"' then
      if !lines then .ok ([], rest)
      else
        match rest with
        | '"' :: '"' :: after => .ok ([], after)
        | _ => (basicText lines .plain rest).map fun (s, after) => ('"' :: s, after)
    else if c = '\\' then basicText lines .escape rest
    else if isControl c && !(lines && c = '\n') then malformed
    else (basicText lines .plain rest).map fun (s, after) => (c :: s, after)
  | .escape, c :: rest =>
    if lines && c = '\n' then basicText lines .joined rest
    else if lines && isBlank c then basicText lines .lineEnd rest
    else if c = 'u' then basicText lines (.hex 4 []) rest
    else if c = 'U' then basicText lines (.hex 8 []) rest
    else
      match escaped? c with
      | some e => (basicText lines .plain rest).map fun (s, after) => (e :: s, after)
      | none => malformed
  | .hex missing digits, c :: rest =>
    match missing with
    | 0 | 1 =>
      match hexChar? (digits ++ [c]) with
      | some e => (basicText lines .plain rest).map fun (s, after) => (e :: s, after)
      | none => malformed
    | n + 2 => basicText lines (.hex (n + 1) (digits ++ [c])) rest
  | .lineEnd, c :: rest =>
    if c = '\n' then basicText lines .joined rest
    else if isBlank c then basicText lines .lineEnd rest
    else malformed
  | .joined, c :: rest =>
    if c = '\n' || isBlank c then basicText lines .joined rest
    else if c = '"' then
      match rest with
      | '"' :: '"' :: after => .ok ([], after)
      | _ => (basicText lines .plain rest).map fun (s, after) => ('"' :: s, after)
    else if c = '\\' then basicText lines .escape rest
    else if isControl c then malformed
    else (basicText lines .plain rest).map fun (s, after) => (c :: s, after)

/-- Up to two quotes that stand directly behind the end of a text of several lines belong to it. -/
def extraQuotes (quote : Char) (s : List Char) : List Char × List Char :=
  match s with
  | c :: d :: rest =>
    if c = quote then if d = quote then ([c, d], rest) else ([c], d :: rest) else ([], s)
  | [c] => if c = quote then ([c], []) else ([], s)
  | [] => ([], [])

/-- The text of several lines whose body starts here; a line end that comes first is left out. -/
def longText (quote : Char) (s : List Char) : Except ReadProblem (List Char × List Char) := do
  let s := match s with
    | '\n' :: rest => rest
    | s => s
  let (body, after) ←
    if quote = '"' then basicText true .plain s
    else
      match upTo (List.replicate 3 quote) s with
      | some (body, after) =>
        if body.any fun c => isControl c && c != '\n' then malformed else .ok (body, after)
      | none => malformed
  let (extra, after) := extraQuotes quote after
  return (body ++ extra, after)

/-- A part of a key. -/
def keyPart (s : List Char) : Except ReadProblem (String × List Char) :=
  match s with
  | '\'' :: rest => (literalText rest).map fun (k, after) => (String.ofList k, after)
  | '"' :: rest => (basicText false .plain rest).map fun (k, after) => (String.ofList k, after)
  | s =>
    if (s.takeWhile isBare).isEmpty then malformed
    else .ok (String.ofList (s.takeWhile isBare), s.dropWhile isBare)

/-- The further parts of a key, each behind a dot; the fuel bounds their number. -/
def moreKeyParts : Nat → List Char → Except ReadProblem (List String × List Char)
  | 0, s => .ok ([], s)
  | fuel + 1, s =>
    match skipBlanks s with
    | '.' :: rest => do
      let (part, rest) ← keyPart (skipBlanks rest)
      let (more, rest) ← moreKeyParts fuel rest
      return (part :: more, rest)
    | s => .ok ([], s)

/-- A key with dots between its parts, and what follows it and the blanks behind it. -/
def key (s : List Char) : Except ReadProblem (List String × List Char) := do
  let (part, rest) ← keyPart s
  let (more, rest) ← moreKeyParts rest.length rest
  return (part :: more, rest)

end BindGen.Toml
