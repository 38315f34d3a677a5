import BindGen.Emitter.BuiltIn
import BindGen.Proofs.Interface.Ties
import BindGen.Proofs.Run.Outcome
import BindGen.Proofs.Template.Python
import BindGen.Proofs.Text.Utf8
import BindGen.Proofs.Emitter.Outputs

/-!
# Bindings and the order of folding

All built-in languages write the same for interfaces with one content, unless members of one object
whose names differ in case only were folded in different orders. These members are tied for the
templates, which list them as they were folded. Ties show in the file of a Python module, so that
the condition is exact.
-/

namespace BindGen

namespace Interface

variable {i i' : Interface}

/-- What templates see of an interface whose declarations can be put in order. -/
def outline (i : Interface) (settings : Table Value) (moduleName packageName : String) :
    Outline where
  crateName := i.crateName
  checksum := Sha256.hexDigest (Utf8.encode (Json.write i.view))
  moduleName
  packageName
  cdylibName := (Table.find? settings "cdylib_name").getD .null
  externalModules := ((Table.find? settings "external_modules").bind Value.table?).getD []
  compact := ((Table.find? settings "render_style").getD .null).same "compact"
  functions := Table.values (sortOn Prod.fst i.functions)
  records := Table.values (sortOn Prod.fst i.records)
  enums := Table.values (sortOn Prod.fst i.enums)
  objects := Table.values (sortOn Prod.fst i.objects)
  callbackInterfaces := Table.values (sortOn Prod.fst i.callbackInterfaces)
  customTypes := Table.values (sortOn Prod.fst i.customTypes)

private theorem inOrder_eq {α : Type} {t : Table α} (h : t.TextKeyed) :
    Outline.inOrder t = .ok (Table.values (sortOn Prod.fst t)) := by
  rw [Outline.inOrder, sorted, sortByKey_of_words h.worded]
  rfl

/-- Only the names in the settings can keep an interface from having an outline. -/
theorem WellFiled.ofInterface_eq (h : i.WellFiled) (settings : Table Value)
    (package : Except Fault String) :
    Outline.ofInterface i settings package = (do
      let moduleName ← Outline.moduleNameOf i settings
      return i.outline settings moduleName (← package)) := by
  rw [Outline.ofInterface, h.checksum_eq, inOrder_eq h.functions.textKeyed,
    inOrder_eq h.objects.textKeyed, inOrder_eq h.records.textKeyed, inOrder_eq h.enums.textKeyed,
    inOrder_eq h.callbackInterfaces.textKeyed, inOrder_eq h.customTypes.textKeyed]
  rfl

/-- Outlines of interfaces of one surface differ at most in how members of objects are kept. -/
theorem SameSurface.outline_eq (hs : i.SameSurface i') (h : i.WellFiled) (h' : i'.WellFiled)
    (settings : Table Value) (moduleName packageName : String) :
    i'.outline settings moduleName packageName =
      { i.outline settings moduleName packageName with
        objects := Table.values (sortOn Prod.fst i'.objects) } := by
  have hsorted {α : Type} [Declaration α] [TypedDeclaration α] {t t' : Table α}
      (ht : Table.Filed t) (ht' : Table.Filed t')
      (hf : ∀ key, Table.find? t key = Table.find? t' key) :
      sortOn Prod.fst t' = sortOn Prod.fst t :=
    (Table.sortOn_eq_of_find? ht.distinct ht'.distinct ht.textKeyed.worded
      ht'.textKeyed.worded hf).symm
  rw [outline, outline, hs.crateName, h.view_eq h' hs,
    hsorted h.functions h'.functions hs.functions, hsorted h.records h'.records hs.records,
    hsorted h.enums h'.enums hs.enums,
    hsorted h.callbackInterfaces h'.callbackInterfaces hs.callbackInterfaces,
    hsorted h.customTypes h'.customTypes hs.customTypes]

end Interface

namespace Style

variable {s : Style} {o : Outline} {objects : List ObjectDefinition} {i i' : Interface}

private theorem textOf_congr (h : List.Forall₂ ObjectDefinition.ShownAlike o.objects objects)
    (template : String) : s.textOf template o = s.textOf template { o with objects } := by
  rw [textOf, textOf]
  split
  · rfl
  · next t _ => rw [t.render_congr s.spelling s.cTypes h]

private theorem writeFile_congr (h : List.Forall₂ ObjectDefinition.ShownAlike o.objects objects)
    (hc : i.crateName = i'.crateName) (directory : Path) (template pattern : String) :
    s.writeFile i o directory template pattern =
      s.writeFile i' { o with objects } directory template pattern := by
  rw [writeFile, writeFile, textOf_congr h, hc]

/-- A style writes one text for interfaces of one surface, if ties are alike. -/
theorem write_congr (hs : i.SameSurface i') (h : i.WellFiled) (h' : i'.WellFiled)
    (ht : i.TiedAlike i') (settings : Settings) (directory : Path) (format : Bool) :
    s.write ⟨i, settings, directory, format⟩ = s.write ⟨i', settings, directory, format⟩ := by
  have hmodule (seen : Table Value) :
      Outline.moduleNameOf i' seen = Outline.moduleNameOf i seen := by
    rw [Outline.moduleNameOf, Outline.moduleNameOf, hs.namespaceName, hs.crateName]
  rw [write, write]
  refine congrArg (_ >>= ·) (funext fun seen => ?_)
  rw [h.ofInterface_eq, h'.ofInterface_eq, hmodule]
  funext w
  cases Outline.moduleNameOf i seen with
  | error e =>
    rw [error_bind, error_bind, Run.bind_of_error (Run.orElse_of_error rfl),
      Run.bind_of_error (Run.orElse_of_error rfl)]
  | ok moduleName =>
    cases s.packageOf seen with
    | error e =>
      rw [ok_bind, ok_bind, error_bind, error_bind, Run.bind_of_error (Run.orElse_of_error rfl),
        Run.bind_of_error (Run.orElse_of_error rfl)]
    | ok packageName =>
      have hobjects := (hs.forall₂_shownAlike_iff h h').mpr ht
      have hfile (directory : Path) (template pattern : String) :=
        writeFile_congr (s := s) (o := i.outline seen moduleName packageName) hobjects hs.crateName
          directory template pattern
      have hok (o : Outline) :
          (Run.orElse EmitError.fault (pure o) : Run EmitError Outline) w = (.ok o, w) :=
        Run.orElse_of_ok rfl
      rw [ok_bind, ok_bind, ok_bind, ok_bind, Run.bind_of_ok (hok _), Run.bind_of_ok (hok _),
        hs.outline_eq h h']
      simp only [hfile, hs.crateName]

end Style

namespace Interface

variable {i i' : Interface}

-- Settings that name the module and nothing else.
private def nameOnly : Settings := ⟨none, [("module_name", "bindings")], [], #[], [], false⟩

-- A workspace without files.
private def blank : Workspace :=
  ⟨⟨⟨"/", ["work"]⟩, []⟩, fun _ => .missing, [], [], Journal.initial "", []⟩

-- The outline that these settings lead to.
private def plainOutline (i : Interface) : Outline := i.outline nameOnly.shared "bindings" ""

-- The task to write a Python module into the current directory.
private def pythonTask (i : Interface) : EmitTask := ⟨i, nameOnly, ⟨"", []⟩, false⟩

-- The workspace in which a Python module was written.
private def pythonFile (text : String) : Workspace :=
  { blank with files.entries := [(["bindings.py"], .file (Utf8.encode text.toList))] }

private theorem write_pythonTask (h : i.WellFiled) {d : Document}
    (hd : Template.Python.render Language.python.spelling i.plainOutline = .ok d) :
    Language.python.style.write i.pythonTask blank =
      (.ok [⟨"", ["bindings.py"]⟩], pythonFile d.text) := by
  have ho : Language.python.style.outlineFor i nameOnly = .ok i.plainOutline := by
    rw [Style.outlineFor, Settings.bindingsFor_plain _ _ rfl, ok_bind, h.ofInterface_eq]
    rfl
  have hfull : Template.python.render Language.python.style.spelling
      Language.python.style.cTypes i.plainOutline = .ok d :=
    congrArg (Except.mapError Template.CHeader.Gap.fault) hd
  have htext : Language.python.style.textOf Template.python.name i.plainOutline = .ok d.text :=
    Style.textOf_name hfull
  have hmodule : i.plainOutline.moduleName = "bindings" := rfl
  have hname : Pattern.fill "{module}.py" [("module", i.plainOutline.moduleName.toList)] =
      .ok "bindings.py".toList := by
    rw [hmodule]
    rfl
  have hout : Language.python.style.output i.plainOutline ⟨"", []⟩ Template.python.name
      "{module}.py" = .ok (⟨"", ["bindings.py"]⟩, d.text) := by
    rw [Style.output, htext, ok_bind, hname]
    rfl
  have hmake : Run.makeDirectories ⟨"", []⟩ blank = (.ok (), blank) := rfl
  have hwrite : Run.writeText ⟨"", ["bindings.py"]⟩ d.text blank = (.ok (), pythonFile d.text) :=
    rfl
  have hquiet : Level.info.rank < (pythonFile d.text).journal.level.rank := by
    change Level.info.rank < (Journal.initial "").level.rank
    decide
  have htemplates : Language.python.style.templates = [(Template.python.name, "{module}.py")] := rfl
  exact Style.write_of_single htemplates rfl ho hout hmake hwrite hquiet

private theorem exists_render_plainOutline (h : i.WellFiled) :
    ∃ d, Template.Python.render Language.python.spelling i.plainOutline = .ok d := by
  have ho : Outline.ofInterface i nameOnly.shared
      (Language.python.style.packageOf nameOnly.shared) = .ok i.plainOutline := by
    rw [h.ofInterface_eq]
    rfl
  refine Template.Python.render_isOk (Language.fills_spelling .python)
    ((Outline.declares_of_ofInterface ho).writable h ?_)
  exact Outline.linkable_of_texts nofun nofun rfl

-- A Python module tells how ties among the members of each object were folded.
private theorem tiedAlike_of_write (hs : i.SameSurface i') (h : i.WellFiled) (h' : i'.WellFiled)
    (hw : Language.python.style.write i.pythonTask blank =
      Language.python.style.write i'.pythonTask blank) : i.TiedAlike i' := by
  obtain ⟨d, hd⟩ := exists_render_plainOutline h
  obtain ⟨d', hd'⟩ := exists_render_plainOutline h'
  rw [write_pythonTask h hd, write_pythonTask h' hd'] at hw
  have hbytes : Utf8.encode d.text.toList = Utf8.encode d'.text.toList := by
    have hentries := congrArg (fun x => x.2.files.entries) hw
    simpa [pythonFile] using hentries
  have htext : Document.chars d = Document.chars d' := by
    have hread := congrArg Utf8.decode? hbytes
    rw [Utf8.decode?_encode, Utf8.decode?_encode] at hread
    exact Option.some.inj hread
  rw [plainOutline, hs.outline_eq h h'] at hd'
  refine (hs.forall₂_shownAlike_iff h h').mp
    (Template.Python.shownAlike_of_render ((hs.forall₂_objects_iff h h').mpr ?_) hd hd' htext)
  exact fun name o o' ho ho' => ⟨hs.sameSurface_of_find? ho ho',
    h.objects.wellFiled_of_find? ho, h'.objects.wellFiled_of_find? ho'⟩

/-- Interfaces of typed groups with one content lead to the same bindings, in every language and
under all settings, exactly if members of one object whose names differ in case only were folded in
one order. -/
theorem write_eq_iff (h : Reachable i) (h' : Reachable i') (hc : i.content = i'.content) :
    (∀ (l : Language) (settings : Settings) (directory : Path) (format : Bool),
      l.style.write ⟨i, settings, directory, format⟩ =
        l.style.write ⟨i', settings, directory, format⟩) ↔ i.TiedAlike i' := by
  have hw := h.wellFiled
  have hw' := h'.wellFiled
  have hs : i.SameSurface i' := by
    rw [hw.content_eq_view, hw'.content_eq_view, Except.ok.injEq] at hc
    exact hw.sameSurface_of_view hw' (congrArg Value.inOrder hc)
  constructor
  · intro hall
    exact tiedAlike_of_write hs hw hw' (congrFun (hall .python nameOnly ⟨"", []⟩ false) blank)
  · intro ht l settings directory format
    exact Style.write_congr hs hw hw' ht settings directory format

/-- Two methods whose names differ in case only lead to other bindings in the other order. -/
theorem write_eq_iff_cased : Reachable (shape ["area", "Area"]) ∧
    Reachable (shape ["Area", "area"]) ∧
    (shape ["area", "Area"]).content = (shape ["Area", "area"]).content ∧
    ¬∀ (l : Language) (settings : Settings) (directory : Path) (format : Bool),
      l.style.write ⟨shape ["area", "Area"], settings, directory, format⟩ =
        l.style.write ⟨shape ["Area", "area"], settings, directory, format⟩ := by
  have h : Reachable (shape ["area", "Area"]) := reachable_shape (by decide) rfl
  have h' : Reachable (shape ["Area", "area"]) := reachable_shape (by decide) rfl
  have hs := sameSurface_shape (by decide : ["area", "Area"].Nodup) (.swap _ _ _)
  have hc : (shape ["area", "Area"]).content = (shape ["Area", "area"]).content := by
    rw [h.wellFiled.content_eq_view, h'.wellFiled.content_eq_view,
      h.wellFiled.view_eq h'.wellFiled hs]
  refine ⟨h, h', hc, fun hall => ?_⟩
  obtain ⟨-, hmethods⟩ := (write_eq_iff h h' hc).mp hall "Shape" _ _ rfl rfl
  have harea := hmethods "area"
  revert harea
  decide

end Interface

end BindGen
