import BindGen.Emitter.BuiltIn
import BindGen.Proofs.Run.Fold
import BindGen.Proofs.Run.Outcome
import BindGen.Proofs.Text.Pieces
import BindGen.Proofs.Value.Order

/-!
# What emitters write

An emitter that renders templates writes one file for each template. The paths and texts of the
files are told by the interface, the settings and the directory alone. The built-in styles give the
files of each template an ending of their own, so files of different templates never stand at one
place.
-/

namespace BindGen

namespace Style

/-- The outline of the bindings of an interface under settings. -/
def outlineFor (s : Style) (i : Interface) (settings : Settings) : Except Fault Outline := do
  let seen ← settings.bindingsFor s.language
  Outline.ofInterface i seen (s.packageOf seen)

/-- The file that a template leads to: its path and its text. -/
def output (s : Style) (o : Outline) (directory : Path) (template pattern : String) :
    Except EmitError (Path × String) := do
  let text ← s.textOf template o
  let name ← (Pattern.fill pattern [("module", o.moduleName.toList)]).mapError EmitError.fault
  return (directory.below (String.ofList name), text)

/-- The files that a task leads to. -/
def outputs (s : Style) (t : EmitTask) : Except EmitError TextFiles := do
  let o ← (s.outlineFor t.interface t.settings).mapError EmitError.fault
  s.templates.mapM fun (template, pattern) =>
    s.output o (s.targetDirectory t.directory o.packageName) template pattern

variable {w w' : Workspace} {s : Style}

/-! ## What a task leaves -/

section Leaves

variable {R : Workspace → Workspace → Prop} [Std.Refl R] [IsTrans Workspace R]
  (hlog : ∀ part level text, Run.Leaves R (Run.log part level text : Run EmitError Unit))
  (hstart : ∀ command, Run.Leaves R (Run.start command : Run EmitError ProgramReply))

include hlog hstart in
/-- A formatter leaves what messages and the start of a program leave. -/
theorem leaves_formatFiles (s : Style) (paths : List Path) :
    Run.Leaves R (s.formatFiles paths) := by
  rw [formatFiles]
  split
  · exact .pure _
  · dsimp only
    split
    · exact .pure _
    · refine (hstart _).bind fun reply => ?_
      cases reply with
      | missing => exact hlog _ _ _
      | finished output => exact .pure _
      | failed status complaint => exact hlog _ _ _

/-- A path that a task leads to. -/
def LeadsTo (s : Style) (t : EmitTask) (p : Path) : Prop :=
  ∃ o, s.outlineFor t.interface t.settings = .ok o ∧ ∃ e ∈ s.templates, ∃ name,
    Pattern.fill e.2 [("module", o.moduleName.toList)] = .ok name ∧
      p = (s.targetDirectory t.directory o.packageName).below (String.ofList name)

include hlog hstart in
/-- However a task ends, it leaves what its steps leave: files are written to its paths only. -/
theorem leaves_write {t : EmitTask} (hmake : ∀ p, Run.Leaves R (Run.makeDirectories p))
    (hwrite : ∀ p text, s.LeadsTo t p → Run.Leaves R (Run.writeText p text)) :
    Run.Leaves R (s.write t) := by
  refine Run.Leaves.orElse_bind fun seen hseen => ?_
  refine Run.Leaves.orElse_bind fun o ho => ?_
  have houtline : s.outlineFor t.interface t.settings = .ok o := by
    rw [outlineFor, hseen, ok_bind, ho]
  refine (hmake _).lift.bind fun _ => ?_
  refine Run.Leaves.bind (Run.Leaves.mapM fun e he => ?_) fun written => ?_
  · refine (Run.Leaves.ofExcept _).bind fun text => ?_
    refine Run.Leaves.orElse_bind fun name hname => ?_
    refine (hwrite _ text ⟨o, houtline, e, he, name, hname, rfl⟩).lift.bind fun _ => ?_
    exact (hlog _ _ _).bind fun _ => .pure _
  · split
    · exact (leaves_formatFiles hlog hstart s written).bind fun _ => .pure written
    · exact .pure written

end Leaves

private theorem writes_writeFile {i : Interface} {o : Outline} {directory p : Path}
    {template pattern : String}
    (h : s.writeFile i o directory template pattern w = (.ok p, w')) :
    ∃ text, s.output o directory template pattern = .ok (p, text) ∧ Writes w [(p, text)] w' := by
  obtain ⟨text, w₁, ht, h⟩ := Run.exists_of_bind h
  obtain ⟨htext, rfl⟩ := Run.eq_of_ofExcept ht
  obtain ⟨name, w₂, hn, h⟩ := Run.exists_of_bind h
  obtain ⟨hname, rfl⟩ := Run.eq_of_ofExcept hn
  obtain ⟨u, w₃, hw, h⟩ := Run.exists_of_bind h
  obtain ⟨u', w₄, hl, h⟩ := Run.exists_of_bind h
  obtain ⟨rfl, rfl⟩ := Run.eq_of_pure h
  refine ⟨text, ?_, ?_⟩
  · rw [output, htext, ok_bind, hname]
    rfl
  · exact (Run.writes_writeText (Run.eq_of_lift hw)).append (.nil (Run.quiet_log hl))

/-- Steps that each write one file write all of them. -/
theorem writes_mapM {α ε ε' : Type} {write : α → Run ε Path}
    {output : α → Except ε' (Path × String)}
    (hstep : ∀ a p w w', write a w = (.ok p, w') →
      ∃ text, output a = .ok (p, text) ∧ Writes w [(p, text)] w')
    {as : List α} {ps : List Path} (h : as.mapM write w = (.ok ps, w')) :
    ∃ files, as.mapM output = .ok files ∧ files.map Prod.fst = ps ∧ Writes w files w' := by
  induction as generalizing w ps with
  | nil =>
    obtain ⟨rfl, rfl⟩ := Run.eq_of_pure h
    exact ⟨[], rfl, rfl, .nil (.refl w)⟩
  | cons a as ih =>
    rw [List.mapM_cons] at h
    obtain ⟨p, w₁, hp, h⟩ := Run.exists_of_bind h
    obtain ⟨rest, w₂, hrest, h⟩ := Run.exists_of_bind h
    obtain ⟨rfl, rfl⟩ := Run.eq_of_pure h
    obtain ⟨text, hout, hwrite⟩ := hstep a p _ _ hp
    obtain ⟨files, hfiles, rfl, hwrites⟩ := ih hrest
    exact ⟨(p, text) :: files, by rw [List.mapM_cons, hout, hfiles]; rfl, rfl,
      hwrite.append hwrites⟩

/-- An emitter writes the files of its task, and nothing else. -/
theorem writes_write {t : EmitTask} {ps : List Path} (h : s.write t w = (.ok ps, w')) :
    ∃ files, s.outputs t = .ok files ∧ files.map Prod.fst = ps ∧ Writes w files w' := by
  obtain ⟨seen, w₁, hs, h⟩ := Run.exists_of_bind h
  obtain ⟨hseen, rfl⟩ := Run.eq_of_ofExcept hs
  obtain ⟨o, w₂, ho, h⟩ := Run.exists_of_bind h
  obtain ⟨houtline, rfl⟩ := Run.eq_of_ofExcept ho
  obtain ⟨u, w₃, hd, h⟩ := Run.exists_of_bind h
  obtain ⟨ps', w₄, hw, h⟩ := Run.exists_of_bind h
  have hformatted : ps' = ps ∧ Quiet w₄ w' := by
    split at h
    · obtain ⟨u', w₅, hformat, h⟩ := Run.exists_of_bind h
      obtain ⟨rfl, rfl⟩ := Run.eq_of_pure h
      have hquiet := leaves_formatFiles (R := Quiet) (fun _ _ _ w => .note w _)
        (fun _ _ => .of_files rfl rfl) s ps'
      exact ⟨rfl, hquiet.of_eq hformat⟩
    · obtain ⟨rfl, rfl⟩ := Run.eq_of_pure h
      exact ⟨rfl, .refl w₄⟩
  obtain ⟨rfl, hquiet⟩ := hformatted
  have hmade := Run.quiet_makeDirectories (Run.eq_of_lift hd)
  have hoff : s.outlineFor t.interface t.settings = .ok o := by
    rw [outlineFor, eq_ok_of_mapError hseen, ok_bind, eq_ok_of_mapError houtline]
  let directory := s.targetDirectory t.directory o.packageName
  have hstep (e : String × String) (p : Path) (w w' : Workspace)
      (he : s.writeFile t.interface o directory e.1 e.2 w = (.ok p, w')) :
      ∃ text, s.output o directory e.1 e.2 = .ok (p, text) ∧ Writes w [(p, text)] w' :=
    writes_writeFile he
  obtain ⟨files, hfiles, hps, hwrites⟩ := writes_mapM hstep hw
  have hall := hwrites.append (.nil hquiet)
  rw [List.append_nil] at hall
  refine ⟨files, ?_, hps, .of_quiet hmade hall⟩
  rw [outputs, hoff]
  exact hfiles

-- Files that can be made are written one after the other, in a workspace that notes warnings only.
private theorem mapM_writeFile {i : Interface} {o : Outline} {directory : Path}
    {templates : List (String × String)} {files : TextFiles}
    (hfiles : templates.mapM (fun e => s.output o directory e.1 e.2) = .ok files)
    (hwrite : (files.forM fun f => Run.writeText f.1 f.2) w = (.ok (), w'))
    (hquiet : Level.info.rank < w.journal.level.rank) :
    templates.mapM (fun e => s.writeFile i o directory e.1 e.2) w =
      (.ok (files.map Prod.fst), w') := by
  induction templates generalizing files w with
  | nil =>
    obtain rfl := Except.ok.inj hfiles
    obtain ⟨-, rfl⟩ := Run.eq_of_pure hwrite
    rfl
  | cons e rest ih =>
    rw [List.mapM_cons] at hfiles
    obtain ⟨file, hfile, hfiles⟩ := exists_of_bind_eq_ok hfiles
    obtain ⟨files, hrest, hfiles⟩ := exists_of_bind_eq_ok hfiles
    obtain rfl := Except.ok.inj hfiles
    obtain ⟨text, htext, hfile⟩ := exists_of_bind_eq_ok hfile
    obtain ⟨name, hname, hfile⟩ := exists_of_bind_eq_ok hfile
    obtain rfl := Except.ok.inj hfile
    rw [List.forM_eq_forM, List.forM_cons] at hwrite
    obtain ⟨u, w₁, hfirst, hwrite⟩ := Run.exists_of_bind hwrite
    have hjournal : w₁.journal = w.journal := (Run.writes_writeText hfirst).journal_eq
    have hnoted : Level.info.rank < w₁.journal.level.rank := by rwa [hjournal]
    have hwritten : s.writeFile i o directory e.1 e.2 w =
        (.ok (directory.below (String.ofList name)), w₁) := by
      rw [writeFile, Run.bind_of_ok (Run.ofExcept_of_ok htext),
        Run.bind_of_ok (Run.orElse_of_ok (eq_ok_of_mapError hname))]
      refine (Run.bind_of_ok (Run.lift_of_ok hfirst)).trans ?_
      rw [Run.bind_of_ok (Run.log_of_lt hnoted)]
      rfl
    rw [List.mapM_cons, Run.bind_of_ok hwritten, Run.bind_of_ok (ih hrest hwrite hnoted)]
    rfl

/-- The run of an emitter in a workspace that notes warnings only. -/
theorem write_of_outputs {t : EmitTask} {o : Outline} {files : TextFiles} {w₁ w₂ : Workspace}
    (hf : t.format = false) (ho : s.outlineFor t.interface t.settings = .ok o)
    (hfiles : s.outputs t = .ok files)
    (hmake : Run.makeDirectories (s.targetDirectory t.directory o.packageName) w = (.ok (), w₁))
    (hwrite : (files.forM fun f => Run.writeText f.1 f.2) w₁ = (.ok (), w₂))
    (hquiet : Level.info.rank < w₁.journal.level.rank) :
    s.write t w = (.ok (files.map Prod.fst), w₂) := by
  rw [outputs, ho] at hfiles
  obtain ⟨seen, hseen, ho⟩ := exists_of_bind_eq_ok ho
  rw [write, Run.bind_of_ok (Run.orElse_of_ok hseen), Run.bind_of_ok (Run.orElse_of_ok ho)]
  refine (Run.bind_of_ok (Run.lift_of_ok hmake)).trans ?_
  rw [hf]
  exact (Run.bind_of_ok (mapM_writeFile hfiles hwrite hquiet)).trans rfl

/-- The run of an emitter with one template in a workspace that notes warnings only. -/
theorem write_of_single {t : EmitTask} {o : Outline} {template pattern text : String} {p : Path}
    {w₁ w₂ : Workspace} (hs : s.templates = [(template, pattern)]) (hf : t.format = false)
    (ho : s.outlineFor t.interface t.settings = .ok o)
    (hout : s.output o (s.targetDirectory t.directory o.packageName) template pattern =
      .ok (p, text))
    (hmake : Run.makeDirectories (s.targetDirectory t.directory o.packageName) w = (.ok (), w₁))
    (hwrite : Run.writeText p text w₁ = (.ok (), w₂))
    (hquiet : Level.info.rank < w₂.journal.level.rank) : s.write t w = (.ok [p], w₂) := by
  have hfiles : s.outputs t = .ok [(p, text)] := by
    rw [outputs, ho, hs]
    change ([(template, pattern)].mapM fun e =>
      s.output o (s.targetDirectory t.directory o.packageName) e.1 e.2) = _
    rw [List.mapM_cons, hout]
    rfl
  have hjournal : w₂.journal = w₁.journal := (Run.writes_writeText hwrite).journal_eq
  refine write_of_outputs hf ho hfiles hmake ?_ (by rwa [← hjournal])
  rw [List.forM_eq_forM, List.forM_cons]
  exact (Run.bind_of_ok hwrite).trans rfl

end Style

/-! ## Interfaces without declarations -/

/-- An interface that declares nothing. -/
def Interface.bare (crate namespaceName : Value) : Interface :=
  { Interface.empty with namespaceName, crateName := crate }

private theorem dump_nil {α : Type} [Declaration α] :
    Interface.dump ([] : Table α) = .ok (.table []) := by
  rw [Interface.dump, Interface.sorted, sortByKey_nil]
  rfl

private theorem exists_checksum_bare (crate namespaceName : Value) :
    ∃ c, (Interface.bare crate namespaceName).checksum = .ok c := by
  have hcontent : ∃ v, (Interface.bare crate namespaceName).content = .ok v := by
    have hobjects : Interface.sorted (Interface.bare crate namespaceName).objects = .ok [] :=
      sortByKey_nil _
    rw [Interface.content, hobjects]
    simp only [Interface.bare, Interface.empty, dump_nil, ok_bind]
    exact ⟨_, rfl⟩
  obtain ⟨v, hv⟩ := hcontent
  rw [Interface.checksum, Interface.canonicalText, hv]
  exact ⟨_, rfl⟩

private theorem inOrder_nil {α : Type} : Outline.inOrder ([] : Table α) = .ok [] := by
  rw [Outline.inOrder, Interface.sorted, sortByKey_nil]
  rfl

/-- The outline of an interface that declares nothing has no declarations. -/
theorem Outline.ofInterface_bare {crate namespaceName : Value} {settings : Table Value}
    {module : String} (package : String)
    (hm : moduleNameOf (.bare crate namespaceName) settings = .ok module) :
    ∃ checksum, ofInterface (.bare crate namespaceName) settings (.ok package) = .ok
      { crateName := crate
        checksum
        moduleName := module
        packageName := package
        cdylibName := (Table.find? settings "cdylib_name").getD .null
        externalModules := ((Table.find? settings "external_modules").bind Value.table?).getD []
        compact := ((Table.find? settings "render_style").getD .null).same "compact"
        functions := [], records := [], enums := [], objects := [], callbackInterfaces := []
        customTypes := [] } := by
  obtain ⟨checksum, hc⟩ := exists_checksum_bare crate namespaceName
  refine ⟨checksum, ?_⟩
  rw [ofInterface, hm, ok_bind, hc]
  simp only [Interface.bare, Interface.empty, inOrder_nil, ok_bind]
  rfl

/-! ## The names of files -/

namespace Template

/-- The pattern of the names of files that a template is rendered into. -/
def filePattern : Template → String
  | kotlin => "{module}.kt"
  | swift => "{module}.swift"
  | cHeader => "{module}FFI.h"
  | python => "{module}.py"
  | ruby => "{module}.rb"

/-- What the names of files that a template is rendered into end in. -/
def fileEnding : Template → List Char
  | kotlin => ".kt".toList
  | swift => ".swift".toList
  | cHeader => "FFI.h".toList
  | python => ".py".toList
  | ruby => ".rb".toList

/-- A template's pattern, filled in with a module, is the module and the template's ending. -/
theorem fill_filePattern (t : Template) (module : List Char) :
    Pattern.fill t.filePattern [("module", module)] = .ok (module ++ t.fileEnding) := by
  cases t <;> rfl

private theorem take_reverse_fileEnding (t : Template) (module : List Char) :
    (module ++ t.fileEnding).reverse.take 2 = t.fileEnding.reverse.take 2 := by
  rw [List.reverse_append]
  cases t <;> rfl

/-- Names of files for different templates differ. -/
theorem fileEnding_injective {t t' : Template} {a b : List Char}
    (h : a ++ t.fileEnding = b ++ t'.fileEnding) : t = t' := by
  have hlast := take_reverse_fileEnding t a
  rw [h, take_reverse_fileEnding] at hlast
  revert hlast
  cases t <;> cases t' <;> decide

end Template

namespace Style

variable {s : Style} {o : Outline} {t : Template} {d : Document}

/-- The text of a file is what its template makes of the outline. -/
theorem textOf_name (h : t.render s.spelling s.cTypes o = .ok d) :
    s.textOf t.name o = .ok (if o.compact then Document.compact d.text else d.text) := by
  rw [textOf, Template.ofName?_name]
  dsimp only
  rw [h]

/-- The file for a template that can be rendered. -/
theorem output_name (directory : Path) (h : t.render s.spelling s.cTypes o = .ok d) :
    s.output o directory t.name t.filePattern =
      .ok (directory.below (String.ofList (o.moduleName.toList ++ t.fileEnding)),
        if o.compact then Document.compact d.text else d.text) := by
  rw [output, textOf_name h, ok_bind, Template.fill_filePattern]
  rfl

/-- A template tells the path of its file, whatever is rendered. -/
theorem fst_of_output {directory : Path} {f : Path × String}
    (h : s.output o directory t.name t.filePattern = .ok f) :
    f.1 = directory.below (String.ofList (o.moduleName.toList ++ t.fileEnding)) := by
  obtain ⟨text, -, h⟩ := exists_of_bind_eq_ok h
  obtain ⟨name, hname, h⟩ := exists_of_bind_eq_ok h
  rw [Template.fill_filePattern] at hname
  obtain rfl := Except.ok.inj hname
  obtain rfl := Except.ok.inj h
  dsimp only

end Style

namespace Language

/-- The templates of a language. -/
def templateList : Language → List Template
  | kotlin => [.kotlin]
  | swift => [.swift, .cHeader]
  | python => [.python]
  | ruby => [.ruby]

/-- The templates of a language as the table of patterns lists them. -/
theorem templates_eq (l : Language) :
    l.templates = l.templateList.map fun t => (t.name, t.filePattern) := by
  cases l <;> rfl

/-- A template belongs to one language. -/
theorem eq_of_mem_templateList {l l' : Language} {t : Template} (h : t ∈ l.templateList)
    (h' : t ∈ l'.templateList) : l = l' := by
  cases l <;> cases l' <;> simp_all [templateList]

end Language

/-! ## The places of files -/

private theorem getLast?_parts_below (directory : Path) (s : List Char) {e : List Char}
    (hslash : '/' ∉ e) (hlong : 2 ≤ e.length) :
    ∃ x, (directory.below (String.ofList (s ++ e))).parts.getLast? =
      some (String.ofList (x ++ e)) := by
  have hcut := Text.cut_append (p := (· == '/')) s fun c hc =>
    beq_eq_false_iff_ne.mpr (ne_of_mem_of_not_mem hc hslash)
  generalize (Text.cut (· == '/') s).dropLast = pieces,
    (Text.cut (· == '/') s).getLast (Text.cut_ne_nil _ s) = last at hcut
  have hkept : (last ++ e != [] && last ++ e != ['.']) = true := by
    have hlength : 2 ≤ (last ++ e).length := by
      rw [List.length_append]
      omega
    rw [Bool.and_eq_true, bne_iff_ne, bne_iff_ne]
    constructor <;> intro h <;> simp [h] at hlength
  have hlast : (Path.components (String.ofList (s ++ e))).getLast? =
      some (String.ofList (last ++ e)) := by
    rw [Path.components, String.toList_ofList, hcut, List.filter_append,
      List.filter_cons_of_pos (p := fun c => c != [] && c != ['.']) hkept, List.map_append]
    exact List.getLast?_concat
  refine ⟨last, ?_⟩
  rw [Path.below, Path.append]
  split
  · exact hlast
  · change (directory.parts ++ Path.components _).getLast? = _
    rw [List.getLast?_append, hlast, Option.some_or]

namespace Template

/-- The last part of the path to a file for a template has the ending of the template. -/
theorem exists_fileEnding (t : Template) (directory : Path) (module : List Char) :
    ∃ x, (directory.below (String.ofList (module ++ t.fileEnding))).parts.getLast? =
      some (String.ofList (x ++ t.fileEnding)) := by
  refine getLast?_parts_below directory module ?_ ?_
  · cases t <;> decide
  · cases t <;> decide

/-- No file that a template names is the parent directory. -/
theorem ofList_fileEnding_ne (t : Template) (x : List Char) :
    String.ofList (x ++ t.fileEnding) ≠ ".." := by
  intro h
  have hlast := take_reverse_fileEnding t x
  rw [← @String.toList_ofList (x ++ t.fileEnding), h] at hlast
  revert hlast
  cases t <;> decide

end Template

namespace Language

variable {l l' : Language} {t t' : EmitTask} {files files' : TextFiles} {f f' : Path × String}
  {tree : Tree} {q : List String}

-- Each file of a task comes from a template of the language, and stands under a name that has the
-- ending of the template.
private theorem exists_template (h : l.style.outputs t = .ok files) (hf : f ∈ files)
    (hq : tree.locate f.1 = .ok q) (hne : q ≠ []) :
    ∃ template ∈ l.templateList,
      (do
        let o ← (l.style.outlineFor t.interface t.settings).mapError EmitError.fault
        l.style.output o (l.style.targetDirectory t.directory o.packageName) template.name
          template.filePattern) = .ok f ∧
      q.getLast? = f.1.parts.getLast? ∧
      ∃ x, q.getLast? = some (String.ofList (x ++ template.fileEnding)) := by
  obtain ⟨o, ho, h⟩ := exists_of_bind_eq_ok h
  obtain ⟨⟨name, pattern⟩, hmem, hout⟩ := exists_of_mem_mapM h hf
  change (name, pattern) ∈ l.templates at hmem
  rw [templates_eq] at hmem
  obtain ⟨template, ht, he⟩ := List.mem_map.mp hmem
  obtain ⟨rfl, rfl⟩ := Prod.mk.inj he
  refine ⟨template, ht, ?_, ?_⟩
  · rw [ho]
    exact hout
  obtain ⟨x, hx⟩ := template.exists_fileEnding
    (l.style.targetDirectory t.directory o.packageName) o.moduleName.toList
  rw [← Style.fst_of_output hout] at hx
  have hlast := Tree.getLast?_of_locate hq hx (template.ofList_fileEnding_ne x) hne
  exact ⟨hlast.trans hx.symm, x, hlast⟩

/-- Files at one place have one name and are made in one language. Those of one task are the same.
-/
theorem eq_of_locate (h : l.style.outputs t = .ok files) (hf : f ∈ files)
    (h' : l'.style.outputs t' = .ok files') (hf' : f' ∈ files') (hq : tree.locate f.1 = .ok q)
    (hq' : tree.locate f'.1 = .ok q) (hne : q ≠ []) :
    l = l' ∧ f.1.name = f'.1.name ∧ (t = t' → f = f') := by
  obtain ⟨template, ht, hout, hname, x, hx⟩ := exists_template h hf hq hne
  obtain ⟨template', ht', hout', hname', x', hx'⟩ := exists_template h' hf' hq' hne
  obtain rfl := Template.fileEnding_injective
    (String.ofList_injective (Option.some.inj (hx.symm.trans hx')))
  obtain rfl := eq_of_mem_templateList ht ht'
  refine ⟨rfl, ?_, ?_⟩
  · rw [Path.name, Path.name, List.getLastD_eq_getLast?, List.getLastD_eq_getLast?, ← hname,
      ← hname']
  · rintro rfl
    exact Except.ok.inj (hout.symm.trans hout')

end Language

end BindGen
