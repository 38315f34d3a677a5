import BindGen.Proofs.Emitter.Outputs
import BindGen.Proofs.Run.Fold
import BindGen.Proofs.Value.Order

/-!
# The main file of bindings

Whatever an interface declares, the main file of its bindings starts with a heading that names the
crate. It declares a module: the package in Kotlin, else what the file is named for. And it imports
the modules of other crates that its outline lists, one line for each of them.
-/

namespace BindGen

namespace Language

/-- The template that the main file of a language is rendered from. -/
def mainTemplate : Language → Template
  | kotlin => .kotlin
  | swift => .swift
  | python => .python
  | ruby => .ruby

/-- The mark of a comment. -/
def commentMark : Language → String
  | kotlin | swift => "//"
  | python | ruby => "#"

/-- How code refers to a module that is recorded under a name. -/
def reference (l : Language) (module : String) : String :=
  match l with
  | kotlin => "ffigen." ++ module
  | _ => module

/-- The line that imports the module of a crate. -/
def importLine (l : Language) (crate reference : String) : Line :=
  match l with
  | kotlin => plainLine s!"import {reference}.*"
  | swift => plainLine s!"import {reference}"
  | python => plainLine s!"from . import {reference}  # noqa: F401  (crate `{crate}`)"
  | ruby => plainLine s!"require_relative '{reference}'"

/-- The line that puts Kotlin bindings into a package. -/
def packageLine (package : String) : Line := plainLine s!"package {package}"

/-- The module that the main file of bindings declares. -/
def declaredModule (l : Language) (o : Outline) : String :=
  match l with
  | kotlin => o.packageName
  | _ => o.moduleName

/-- The module that an interface and what a language sees of the settings lead to. -/
def moduleOf (l : Language) (i : Interface) (settings : Table Value) : Except Fault String :=
  match l with
  | kotlin => Style.packageName settings
  | _ => Outline.moduleNameOf i settings

/-- A document of a language that has been rendered from an outline. -/
structure Renders (l : Language) (o : Outline) (d : Document) : Prop where
  heading : ∃ rest, d = Template.heading l.commentMark o ++ rest
  imports : ∃ externals, o.externalsInOrder = .ok externals ∧
    ∀ crate module : String, (.text crate, .text module) ∈ externals →
      l.importLine crate (l.reference module) ∈ d
  package : l = kotlin → packageLine o.packageName ∈ d

end Language

namespace Template

/-- The lines for each member are among the lines for all of them. -/
theorem mem_of_forEach {α : Type} {items : List α} {render : α → Except Fault Document}
    {d lines : Document} {a : α} {line : Line} (h : forEach items render = .ok d) (ha : a ∈ items)
    (hr : render a = .ok lines) (hl : line ∈ lines) : line ∈ d := by
  obtain ⟨each, heach, rfl⟩ := exists_of_map_eq_ok h
  obtain ⟨lines', hmem, hr'⟩ := exists_mem_of_mapM heach ha
  rw [hr] at hr'
  obtain rfl := Except.ok.inj hr'
  exact List.mem_flatten.mpr ⟨lines, hmem, hl⟩

variable {l : Language} {s : Spelling} {c : CHeader.CTypes} {o : Outline} {d : Document}

-- What is put together from a heading, the imports and further lines has the heading and the
-- imports.
private theorem renders_of_bind {importOf : Scalar × Value → Except Fault Document}
    {body : Document → Except Fault Document}
    (h : (do
      let externals ← o.externalsInOrder
      let imports ← forEach externals importOf
      body imports) = .ok d)
    (himport : ∀ crate module : String,
      importOf (.text crate, .text module) = .ok [l.importLine crate (l.reference module)])
    (hbody : ∀ imports, body imports = .ok d → ∃ front back,
      d = heading l.commentMark o ++ (front ++ (imports ++ back)) ∧
        (l = .kotlin → Language.packageLine o.packageName ∈ front)) : l.Renders o d := by
  obtain ⟨externals, hexternals, h⟩ := exists_of_bind_eq_ok h
  obtain ⟨imports, himports, h⟩ := exists_of_bind_eq_ok h
  obtain ⟨front, back, rfl, hpackage⟩ := hbody imports h
  refine ⟨⟨_, rfl⟩, ⟨externals, hexternals, fun crate module he => ?_⟩, fun hl => ?_⟩
  · have hline := mem_of_forEach himports he (himport crate module) List.mem_cons_self
    exact List.mem_append_right _ (List.mem_append_right _ (List.mem_append_left _ hline))
  · exact List.mem_append_right _ (List.mem_append_left _ (hpackage hl))

private theorem Kotlin.renders (h : Kotlin.render s o = .ok d) : Language.kotlin.Renders o d := by
  refine renders_of_bind h (fun _ module => ?_) fun imports h => ?_
  · change Except.ok [plainLine ("import ffigen." ++ module ++ ".*")] =
      .ok [plainLine ("import " ++ ("ffigen." ++ module) ++ ".*")]
    rw [← String.append_assoc]
    rfl
  obtain ⟨library, -, h⟩ := exists_of_bind_eq_ok h
  obtain ⟨customTypes, -, h⟩ := exists_of_bind_eq_ok h
  obtain ⟨records, -, h⟩ := exists_of_bind_eq_ok h
  obtain ⟨enums, -, h⟩ := exists_of_bind_eq_ok h
  obtain ⟨objects, -, h⟩ := exists_of_bind_eq_ok h
  obtain ⟨callbackInterfaces, -, h⟩ := exists_of_bind_eq_ok h
  obtain ⟨functions, -, h⟩ := exists_of_bind_eq_ok h
  obtain rfl := Except.ok.inj h
  simp only [List.append_assoc]
  exact ⟨_, _, rfl, fun _ => List.mem_cons_of_mem _ List.mem_cons_self⟩

private theorem Swift.renders (h : Swift.render s o = .ok d) : Language.swift.Renders o d := by
  refine renders_of_bind h (fun _ _ => rfl) fun imports h => ?_
  obtain ⟨customTypes, -, h⟩ := exists_of_bind_eq_ok h
  obtain ⟨records, -, h⟩ := exists_of_bind_eq_ok h
  obtain ⟨enums, -, h⟩ := exists_of_bind_eq_ok h
  obtain ⟨objects, -, h⟩ := exists_of_bind_eq_ok h
  obtain ⟨callbackInterfaces, -, h⟩ := exists_of_bind_eq_ok h
  obtain ⟨functions, -, h⟩ := exists_of_bind_eq_ok h
  obtain rfl := Except.ok.inj h
  simp only [List.append_assoc]
  exact ⟨_, _, rfl, fun hl => by cases hl⟩

/-- What the Python template renders is a rendering for that language. -/
theorem Python.renders (h : Python.render s o = .ok d) : Language.python.Renders o d := by
  refine renders_of_bind h (fun _ _ => rfl) fun imports h => ?_
  obtain ⟨loader, -, h⟩ := exists_of_bind_eq_ok h
  obtain ⟨customTypes, -, h⟩ := exists_of_bind_eq_ok h
  obtain ⟨records, -, h⟩ := exists_of_bind_eq_ok h
  obtain ⟨enums, -, h⟩ := exists_of_bind_eq_ok h
  obtain ⟨objects, -, h⟩ := exists_of_bind_eq_ok h
  obtain ⟨callbackInterfaces, -, h⟩ := exists_of_bind_eq_ok h
  obtain ⟨functions, -, h⟩ := exists_of_bind_eq_ok h
  obtain rfl := Except.ok.inj h
  simp only [List.append_assoc]
  exact ⟨_, _, rfl, fun hl => by cases hl⟩

private theorem Ruby.renders (h : Ruby.render s o = .ok d) : Language.ruby.Renders o d := by
  refine renders_of_bind h (fun _ _ => rfl) fun imports h => ?_
  obtain ⟨cdylib, -, h⟩ := exists_of_bind_eq_ok h
  obtain ⟨name, -, h⟩ := exists_of_bind_eq_ok h
  obtain ⟨records, -, h⟩ := exists_of_bind_eq_ok h
  obtain ⟨enums, -, h⟩ := exists_of_bind_eq_ok h
  obtain ⟨objects, -, h⟩ := exists_of_bind_eq_ok h
  obtain ⟨functions, -, h⟩ := exists_of_bind_eq_ok h
  obtain rfl := Except.ok.inj h
  simp only [List.append_assoc]
  exact ⟨_, _, rfl, fun hl => by cases hl⟩

/-- The main file of a language starts with the heading and has the imports. -/
theorem renders_mainTemplate (h : l.mainTemplate.render s c o = .ok d) : l.Renders o d := by
  cases l with
  | kotlin => exact Kotlin.renders (eq_ok_of_mapError h)
  | swift => exact Swift.renders (eq_ok_of_mapError h)
  | python => exact Python.renders (eq_ok_of_mapError h)
  | ruby => exact Ruby.renders (eq_ok_of_mapError h)

end Template

namespace Outline

/-- The parts of an outline that are decided by the settings. -/
theorem of_ofInterface {i : Interface} {settings : Table Value} {package : Except Fault String}
    {o : Outline} (h : ofInterface i settings package = .ok o) :
    moduleNameOf i settings = .ok o.moduleName ∧ package = .ok o.packageName ∧
      o.externalModules =
        ((Table.find? settings "external_modules").bind Value.table?).getD [] := by
  obtain ⟨moduleName, hm, h⟩ := exists_of_bind_eq_ok h
  obtain ⟨checksum, -, h⟩ := exists_of_bind_eq_ok h
  obtain ⟨functions, -, h⟩ := exists_of_bind_eq_ok h
  obtain ⟨records, -, h⟩ := exists_of_bind_eq_ok h
  obtain ⟨enums, -, h⟩ := exists_of_bind_eq_ok h
  obtain ⟨objects, -, h⟩ := exists_of_bind_eq_ok h
  obtain ⟨callbackInterfaces, -, h⟩ := exists_of_bind_eq_ok h
  obtain ⟨customTypes, -, h⟩ := exists_of_bind_eq_ok h
  obtain ⟨packageName, hp, h⟩ := exists_of_bind_eq_ok h
  obtain rfl := Except.ok.inj h
  exact ⟨hm, hp, rfl⟩

end Outline

namespace Language

variable {l : Language} {i : Interface} {settings : Settings} {o : Outline}

/-- The main file among the files that a task leads to: its outline, its document and its path. -/
structure MainFile (l : Language) (t : EmitTask) (files : TextFiles) (o : Outline) (d : Document)
    (p : Path) : Prop where
  outline : l.style.outlineFor t.interface t.settings = .ok o
  document : l.mainTemplate.render l.style.spelling l.style.cTypes o = .ok d
  path : p = (l.style.targetDirectory t.directory o.packageName).below
    (String.ofList (o.moduleName.toList ++ l.mainTemplate.fileEnding))
  written : (p, if o.compact then Document.compact d.text else d.text) ∈ files

private theorem mainTemplate_mem (l : Language) : l.mainTemplate ∈ l.templateList := by
  cases l <;> decide

/-- Bindings have a main file. -/
theorem exists_mainFile {t : EmitTask} {files : TextFiles} (h : l.style.outputs t = .ok files) :
    ∃ o d p, l.MainFile t files o d p := by
  obtain ⟨o, ho, h⟩ := exists_of_bind_eq_ok h
  have hmem : (l.mainTemplate.name, l.mainTemplate.filePattern) ∈ l.style.templates := by
    change _ ∈ l.templates
    rw [templates_eq]
    exact List.mem_map_of_mem (mainTemplate_mem l)
  obtain ⟨f, hf, hout⟩ := exists_mem_of_mapM h hmem
  obtain ⟨text, htext, hout⟩ := exists_of_bind_eq_ok hout
  obtain ⟨name, hname, hout⟩ := exists_of_bind_eq_ok hout
  rw [Template.fill_filePattern] at hname
  obtain rfl := Except.ok.inj hname
  obtain rfl := Except.ok.inj hout
  rw [Style.textOf, Template.ofName?_name] at htext
  dsimp only at htext
  split at htext
  · next d hd =>
    obtain rfl := Except.ok.inj htext
    exact ⟨o, d, _, eq_ok_of_mapError ho, hd, rfl, hf⟩
  · cases htext
  · cases htext

/-- A language with one template makes one file of an outline. -/
theorem outputs_of_render {t : EmitTask} {d : Document} (hl : l.templateList = [l.mainTemplate])
    (ho : l.style.outlineFor t.interface t.settings = .ok o)
    (hd : l.mainTemplate.render l.style.spelling l.style.cTypes o = .ok d) :
    l.style.outputs t =
      .ok [((l.style.targetDirectory t.directory o.packageName).below
          (String.ofList (o.moduleName.toList ++ l.mainTemplate.fileEnding)),
        if o.compact then Document.compact d.text else d.text)] := by
  have htemplates : l.style.templates = [(l.mainTemplate.name, l.mainTemplate.filePattern)] := by
    change l.templates = _
    rw [templates_eq, hl]
    rfl
  rw [Style.outputs, ho, htemplates]
  change ([(l.mainTemplate.name, l.mainTemplate.filePattern)].mapM fun e =>
    l.style.output o (l.style.targetDirectory t.directory o.packageName) e.1 e.2) = _
  rw [List.mapM_cons]
  dsimp only
  rw [Style.output_name _ hd]
  rfl

/-- What the main file declares is what the settings lead to. -/
theorem moduleOf_of_outlineFor {seen : Table Value}
    (hseen : settings.bindingsFor l.name = .ok seen)
    (h : l.style.outlineFor i settings = .ok o) : l.moduleOf i seen = .ok (l.declaredModule o) := by
  obtain ⟨seen', hseen', h⟩ := exists_of_bind_eq_ok h
  obtain rfl := Except.ok.inj (hseen.symm.trans hseen')
  obtain ⟨hm, hp, -⟩ := Outline.of_ofInterface h
  cases l with
  | kotlin => exact hp
  | _ => exact hm

/-- The module depends on three keys of the settings only. -/
theorem moduleOf_congr {t u : Table Value}
    (h : ∀ key ∈ ["module_name", "package_name", "crate_name"],
      Table.find? t (.text key) = Table.find? u (.text key)) : l.moduleOf i t = l.moduleOf i u := by
  have hmodule := h "module_name" (by decide)
  have hpackage := h "package_name" (by decide)
  have hcrate := h "crate_name" (by decide)
  cases l with
  | kotlin =>
    simp only [moduleOf, Style.packageName]
    rw [hmodule, hpackage, hcrate]
  | _ =>
    simp only [moduleOf, Outline.moduleNameOf]
    rw [hmodule]

end Language
end BindGen
