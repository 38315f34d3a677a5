import BindGen.Run.Workspace
import BindGen.Settings.Basic
import BindGen.Template.Render

/-!
# Emitters

An emitter writes the bindings of one interface in one language and runs a formatter on the files.
Most emitters are styles: they say which templates to render into which files, how the language
spells types and names, and which formatter to run.
-/

namespace BindGen

/-- Why an emitter fails. -/
inductive EmitError where
  | unwritable (language crate : String) (directory : Path) (e : FileError)
  | missingTemplate (template language : String)
  | unrenderable (template language unknown : String)
  | file (e : FileError)
  | fault (f : Fault)

namespace EmitError

/-- The wording of an error. -/
def message : EmitError → String
  | unwritable language crate directory e =>
    s!"Failed to write {language} bindings for {crate} to {directory.text}: {e.message}"
  | missingTemplate template language => s!"Missing template {template} for {language}"
  | unrenderable template language unknown =>
    s!"Failed to render {template} for {language}: '{unknown}' is undefined"
  | file e => e.message
  | fault f => f.message

/-- The failure to write the bindings of a crate to a directory. -/
def unwritten (language crate : String) (directory : Path) (e : FileError) : EmitError :=
  if e.reason.isSystem then unwritable language crate directory e else file e

end EmitError

/-- What an emitter is asked to do. -/
structure EmitTask where
  interface : Interface
  settings : Settings
  directory : Path
  format : Bool

/-- An emitter. Models `BindingEmitter`. -/
structure Emitter where
  language : String
  /-- whether its bindings need a dynamic library -/
  requiresCdylib : Bool
  /-- writes bindings and gives the paths of the files -/
  write : EmitTask → Run EmitError (List Path)

/-- An emitter that renders templates. Models `TemplateEmitter`. -/
structure Style where
  language : String
  requiresCdylib : Bool
  /-- the templates by name, with the patterns of the names of the files -/
  templates : List (String × String)
  /-- the command that formats files, or nothing -/
  formatter : List String
  spelling : Spelling
  /-- whether files go into a directory for each package -/
  packaged : Bool
  cTypes : Template.CHeader.CTypes

namespace Style

/-- The package that settings lead to: the one that is set, else one for the module or the crate.
Models `KotlinEmitter.package_name`. -/
def packageName (settings : Table Value) : Except Fault String :=
  let find (key : String) : Value := (Table.find? settings key).getD .null
  if (find "package_name").isTruthy then (find "package_name").shown
  else do
    let last := ((find "module_name").orElse (find "crate_name")).orElse "bindings"
    return "ffigen." ++ (← last.shown)

/-- The directory of a package: one below the other for each part of its name. Models
`KotlinEmitter.output_dir`. -/
def packageDirectory (directory : Path) (package : String) : Path :=
  (Text.cut (· == '.') package.toList).foldl (fun d part => d.below (String.ofList part)) directory

/-- The package of a style that has packages, or nothing. -/
def packageOf (s : Style) (settings : Table Value) : Except Fault String :=
  if s.packaged then packageName settings else .ok ""

/-- The directory that files of a package are written into. Models `TemplateEmitter.output_dir`. -/
def targetDirectory (s : Style) (directory : Path) (package : String) : Path :=
  if s.packaged then packageDirectory directory package else directory

/-- The text that a template makes of an outline. Models `TemplateEmitter._render`. -/
def textOf (s : Style) (template : String) (o : Outline) : Except EmitError String :=
  match Template.ofName? template with
  | none => .error (.missingTemplate template s.language)
  | some t =>
    match t.render s.spelling s.cTypes o with
    | .ok document => .ok (if o.compact then Document.compact document.text else document.text)
    | .error (.fault f) => .error (.fault f)
    | .error .noCTypes => .error (.unrenderable template s.language "c_type")

/-- The part of the program that messages of a style come from. -/
def part (s : Style) : String := "bindings." ++ s.language

/-- Writes one file. -/
def writeFile (s : Style) (i : Interface) (o : Outline) (directory : Path)
    (template pattern : String) : Run EmitError Path := do
  let text ← Run.ofExcept (s.textOf template o)
  let name ← Run.orElse .fault (Pattern.fill pattern [("module", o.moduleName.toList)])
  let path := directory.below (String.ofList name)
  let crate := i.crateName.display
  Run.lift (EmitError.unwritten s.language crate directory) (Run.writeText path text)
  Run.log s.part .info s!"Wrote {s.language} bindings for {crate} to {path.text}"
  return path

/-- Runs the formatter on files. Its failure is noted and does no harm. Models
`TemplateEmitter._format`. -/
def formatFiles (s : Style) (paths : List Path) : Run EmitError Unit := do
  match s.formatter with
  | [] => return
  | program :: _ =>
    if paths.isEmpty then return
    let command := s.formatter ++ paths.map (·.text)
    let complain (reason : String) : Run EmitError Unit :=
      Run.log s.part .warning
        s!"Unable to auto-format {s.language} bindings using {program}: {reason}"
    match ← Run.start command with
    | .finished _ => return
    | .missing => complain (Command.missing program).message
    | .failed status _ => complain (Command.failure command status)

/-- Writes the bindings of an interface. Models `TemplateEmitter.write_bindings`. -/
def write (s : Style) (t : EmitTask) : Run EmitError (List Path) := do
  let settings ← Run.orElse .fault (t.settings.bindingsFor s.language)
  let outline ← Run.orElse .fault (Outline.ofInterface t.interface settings (s.packageOf settings))
  let directory := s.targetDirectory t.directory outline.packageName
  Run.lift (EmitError.unwritten s.language t.interface.crateName.display directory)
    (Run.makeDirectories directory)
  let written ← s.templates.mapM fun (template, pattern) =>
    s.writeFile t.interface outline directory template pattern
  if t.format then s.formatFiles written
  return written

/-- The emitter of a style. -/
def emitter (s : Style) : Emitter where
  language := s.language
  requiresCdylib := s.requiresCdylib
  write := s.write

end Style
end BindGen
