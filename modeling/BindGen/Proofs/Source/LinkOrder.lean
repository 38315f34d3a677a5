import BindGen.Proofs.Metadata.Wire
import BindGen.Proofs.Package.Listing
import BindGen.Proofs.Source.Alike
import BindGen.Proofs.Source.Inputs
import BindGen.Proofs.Udl.Typed
import BindGen.Source.Load

/-!
# Loading does not depend on the order of linking

Two libraries that carry the same typed items in different orders, and listings that name the same
packages in different orders, load alike: both loads fail, or both give sources that are the same
apart from the order in which their interfaces keep declarations. The steps of the two loads are
followed side by side, on workspaces that are twins: they differ in the bytes of the library and in
the listing only.
-/

namespace BindGen.Source

/-- The files other than the library that a load may read: the interface definition files that items
name in the directories of packages, the settings files there, and the file laid over those. -/
inductive Consults (r : LoadRequest) (files : Tree) (items : List Item) (packages : List Package) :
    Path → Prop where
  | definition {p : Package} {d : UdlFileDecl} (hp : p ∈ packages) (hd : .udlFile d ∈ items) :
    Consults r files items packages (Udl.fileIn p.root d)
  | settings {p : Package} {root : Path} {name : String} (hp : p ∈ packages)
    (hr : Settings.rootOf files p.root = .ok root) (hn : name ∈ Settings.fileNames) :
    Consults r files items packages (root.below name)
  | override {file : Path} (h : r.override = some file) : Consults r files items packages file

/-- Two workspaces in which a library carries the same typed items in two orders, and in which
packages are listed in two orders. Everything else is the same, and no file that a load consults and
no log file is the library. -/
structure Relinked (r : LoadRequest) (items : List Item) (w w' : Workspace) : Prop where
  twins : ∃ place left right items', w.files.locate r.library = .ok place ∧
    Tree.Twins w.files place left right w.files w'.files ∧ Wire.extract left = .ok items ∧
    Wire.extract right = .ok items' ∧ items.Perm items'
  typed : ∀ item ∈ items, item.isTyped = true
  listing : Package.SameListing (w.programs (Package.listingCommand r.manifest))
    (w'.programs (Package.listingCommand r.manifest))
  consulted : ∀ packages,
    Package.ofReply (w.programs (Package.listingCommand r.manifest)) = .ok packages →
      ∀ p, Consults r w.files items packages p → w.files.locate p ≠ w.files.locate r.library
  journal : w.journal = w'.journal
  logs : ∀ level p, Sink.file level p ∈ w.journal.sinks →
    w.files.locate p ≠ w.files.locate r.library

-- The workspaces of two loads, while they run side by side.
private structure Twin (r : LoadRequest) (origin : Tree) (place : List String) (left right : Bytes)
    (reply reply' : ProgramReply) (w w' : Workspace) : Prop where
  files : Tree.Twins origin place left right w.files w'.files
  reply : w.programs (Package.listingCommand r.manifest) = reply
  reply' : w'.programs (Package.listingCommand r.manifest) = reply'
  journal : w.journal = w'.journal
  logs : ∀ level p, Sink.file level p ∈ w.journal.sinks → origin.locate p ≠ .ok place

section Steps

variable {r : LoadRequest} {origin : Tree} {place : List String} {left right : Bytes}
  {reply reply' : ProgramReply} {ε ε' : Type}

private theorem Twin.accept {w w' : Workspace}
    (h : Twin r origin place left right reply reply' w w')
    {d : Delivery} (hd : ∀ p line, d = .file p line → origin.locate p ≠ .ok place) :
    Twin r origin place left right reply reply' (w.accept d) (w'.accept d) := by
  cases d with
  | console line => exact ⟨h.files, h.reply, h.reply', h.journal, h.logs⟩
  | file p line =>
    rw [Workspace.accept, Workspace.accept]
    rcases h.files.append (hd p line rfl) (Utf8.encode (line ++ "\n").toList) with
      ⟨e, he, he'⟩ | ⟨u, u', hu, hu', hfiles⟩
    · rw [he, he']
      exact h
    · rw [hu, hu']
      exact ⟨hfiles, h.reply, h.reply', h.journal, h.logs⟩

private theorem Twin.note {w w' : Workspace} (h : Twin r origin place left right reply reply' w w')
    (m : Message) : Twin r origin place left right reply reply' (w.note m) (w'.note m) := by
  have hds : ∀ d ∈ w.journal.deliveries m, ∀ p line, d = .file p line →
      origin.locate p ≠ .ok place := by
    rintro d hd p line rfl
    rw [Journal.deliveries] at hd
    split at hd
    · cases hd
    · obtain ⟨sink, hs, he⟩ := List.mem_map.mp hd
      cases sink with
      | console level => cases he
      | file level q =>
        cases he
        exact h.logs level _ (List.mem_filter.mp hs).1
  rw [Workspace.note, Workspace.note, ← h.journal]
  generalize w.journal.deliveries m = ds at hds
  induction ds generalizing w w' with
  | nil => exact h
  | cons d ds ih =>
    exact ih (h.accept (hds d List.mem_cons_self)) fun e he => hds e (List.mem_cons_of_mem d he)

private theorem inStep_log (part : String) (level : Level) (text : String) :
    Run.InStep (Twin r origin place left right reply reply') Eq
      (Run.log part level text : Run ε Unit) (Run.log part level text : Run ε' Unit) :=
  fun _ _ h => ⟨.ok rfl, h.note _⟩

private theorem inStep_logIf {α β : Type} {R : α → β → Prop} {x : Run ε α} {y : Run ε' β} (c : Prop)
    [Decidable c] (text : String)
    (h : Run.InStep (Twin r origin place left right reply reply') R x y) :
    Run.InStep (Twin r origin place left right reply reply') R
      (if c then (do Run.log part .debug text; x) else x)
      (if c then (do Run.log part .debug text; y) else y) := by
  split
  · exact (inStep_log _ _ _).bind fun _ _ _ => h
  · exact h

private theorem inStep_files :
    Run.InStep (Twin r origin place left right reply reply') (Tree.Twins origin place left right)
      (Run.files : Run ε Tree) (Run.files : Run ε' Tree) :=
  fun _ _ h => ⟨.ok h.files, h⟩

-- Packages are listed side by side.
private theorem inStep_listed (hl : Package.SameListing reply reply') :
    Run.InStep (Twin r origin place left right reply reply')
      (fun packages packages' => packages.Perm packages' ∧ Package.ofReply reply = .ok packages)
      (Package.listed r.manifest) (Package.listed r.manifest) := by
  rw [Package.listed]
  refine (inStep_log _ _ _).bind fun _ _ _ => ?_
  refine Run.InStep.bind (R := fun x y => x = reply ∧ y = reply') ?_ ?_
  · intro w w' h
    exact ⟨.ok ⟨h.reply, h.reply'⟩, ⟨h.files, h.reply, h.reply', h.journal, h.logs⟩⟩
  · rintro x y ⟨rfl, rfl⟩ w w' h
    exact ⟨(Package.ofReply_sameListing hl).with_left, h⟩

-- The items of the library are read side by side.
private theorem inStep_readItems {items items' : List Item}
    (hplace : origin.locate r.library = .ok place) (hl : Wire.extract left = .ok items)
    (hr : Wire.extract right = .ok items') (hp : items.Perm items') :
    Run.InStep (Twin r origin place left right reply reply') (fun x y => x = items ∧ y = items')
      (readItems r.library) (readItems r.library) := by
  have hitems : Corresponds (fun x y => x = items ∧ y = items') (itemsOf r.library left)
      (itemsOf r.library right) := by
    rw [itemsOf, itemsOf, hl, hr]
    cases items with
    | nil =>
      rw [List.nil_perm.mp hp]
      exact .error _ _
    | cons a as =>
      cases items' with
      | nil => exact absurd (List.perm_nil.mp hp) (List.cons_ne_nil a as)
      | cons b bs => exact .ok ⟨rfl, rfl⟩
  rw [readItems]
  refine inStep_files.bind fun t t' h => ?_
  have hlocate := (h.locate_ok_iff r.library place).mpr hplace
  have hread : t.read r.library = .ok left := by
    rw [Tree.read, hlocate]
    dsimp only
    rw [h.left]
  have hread' : t'.read r.library = .ok right := by
    rw [Tree.read, ← h.locate_eq, hlocate]
    dsimp only
    rw [h.right]
  rw [hread, hread']
  refine Run.InStep.bind (R := fun x y => x = left ∧ y = right) ?_ ?_
  · exact .orElse (.ok ⟨rfl, rfl⟩) _ _
  · rintro x y ⟨rfl, rfl⟩
    refine Run.InStep.bind (R := fun x y => x = items ∧ y = items') ?_ ?_
    · exact fun _ _ hw => ⟨hitems, hw⟩
    · rintro x y ⟨rfl, rfl⟩
      rw [hp.length_eq]
      exact (inStep_log _ _ _).bind fun _ _ _ => .pure ⟨rfl, rfl⟩

-- Sources are made of rearranged groups side by side.
private theorem inStep_ofGroup {items : List Item} {packages packages' : List Package}
    (hp : packages.Perm packages')
    (hc : ∀ p, Consults r origin items packages p → origin.locate p ≠ .ok place) {g g' : Group}
    (hg : g.Rearranged g') (hi : g.items ⊆ items) :
    Run.InStep (Twin r origin place left right reply reply') Alike (ofGroup r packages g)
      (ofGroup r packages' g') := by
  have hname : g'.crateName = g.crateName := congrArg NamespaceDecl.crateName hg.declared.symm
  have htext : g.crateName.isText = true := by
    have := (Group.isTyped_iff.mp hg.typed).1
    rw [NamespaceDecl.isTyped, Bool.and_eq_true] at this
    exact this.1
  rw [ofGroup, ofGroup]
  dsimp only
  rw [hname]
  refine Run.InStep.bind (.orElse (Package.exposing_perm hp g.crateName) _ _) ?_
  rintro package _ ⟨rfl, hmem⟩
  refine inStep_files.bind fun t t' h => ?_
  -- The definition and the settings are read from files that loads consult: not from the library.
  have hdeclared : Corresponds (fun x y => x = y ∧ ∀ f ∈ x, f.isTyped = true)
      (Udl.groupFor t g.items package.root g.crateName)
      (Udl.groupFor t' g'.items package.root g.crateName) := by
    rw [← Udl.groupFor_perm hg.items, ← h.groupFor_eq g.crateName fun d hd =>
      hc _ (.definition hmem (hi hd))]
    refine (Corresponds.refl (R := Eq) (fun _ => rfl) _).with_left.mono ?_
    rintro x _ ⟨rfl, hx⟩
    refine ⟨rfl, ?_⟩
    rintro f rfl
    exact Udl.isTyped_groupFor htext hx
  refine Run.InStep.bind (.orElse hdeclared _ _) ?_
  rintro declared _ ⟨rfl, htyped⟩
  refine inStep_logIf _ _ ?_
  have hfold : Corresponds Interface.Alike (interfaceOf declared g) (interfaceOf declared g') :=
    Interface.foldlM_rearranged (fun f hf => htyped f (Option.mem_toList.mp hf)) hg
  refine Run.InStep.bind (.orElse hfold _ _) fun i i' halike => ?_
  have hsettings :
      Settings.load t package.root r.override = Settings.load t' package.root r.override :=
    h.loadSettings_eq (fun root hr name hn => hc _ (.settings hmem hr hn))
      fun file hf => hc _ (.override hf)
  rw [← hsettings]
  refine Run.InStep.bind (.orElse (Corresponds.refl (R := Eq) (fun _ => rfl) _) _ _) ?_
  rintro settings _ rfl
  refine .pure ⟨rfl, rfl, halike, ?_⟩
  simp only [named, Settings.fromInterface, halike.crateName, halike.namespaceName]

-- The sources of all crates are found side by side.
private theorem inStep_find {items items' : List Item} (ht : ∀ a ∈ items, a.isTyped = true)
    (hplace : origin.locate r.library = .ok place) (hl : Wire.extract left = .ok items)
    (hr : Wire.extract right = .ok items') (hi : items.Perm items')
    {packages packages' : List Package} (hp : packages.Perm packages')
    (hc : ∀ p, Consults r origin items packages p → origin.locate p ≠ .ok place) :
    Run.InStep (Twin r origin place left right reply reply') (List.Forall₂ Alike)
      (find r packages) (find r packages') := by
  rw [find, find]
  refine (inStep_readItems hplace hl hr hi).bind ?_
  rintro _ _ ⟨rfl, rfl⟩
  refine Run.InStep.bind (.orElse (Grouping.groups_perm hi ht) _ _) fun gs gs' hgs => ?_
  rw [hgs.length_eq]
  exact (inStep_log _ _ _).bind fun _ _ _ =>
    .mapM hgs fun g g' hg => inStep_ofGroup hp hc hg.1 hg.2

-- Sources are loaded side by side.
private theorem inStep_load {items items' : List Item} (ht : ∀ a ∈ items, a.isTyped = true)
    (hplace : origin.locate r.library = .ok place) (hl : Wire.extract left = .ok items)
    (hr : Wire.extract right = .ok items') (hi : items.Perm items')
    (hs : Package.SameListing reply reply')
    (hc : ∀ packages, Package.ofReply reply = .ok packages →
      ∀ p, Consults r origin items packages p → origin.locate p ≠ .ok place) :
    Run.InStep (Twin r origin place left right reply reply') (List.Forall₂ Alike)
      (load r) (load r) := by
  rw [load]
  dsimp only
  refine (inStep_log _ _ _).bind fun _ _ _ => ?_
  refine Run.InStep.bind ((inStep_listed hs).lift _ _) ?_
  rintro packages packages' ⟨hp, hlisted⟩
  rw [← hp.length_eq]
  refine (inStep_log _ _ _).bind fun _ _ _ => ?_
  refine inStep_logIf _ _ ?_
  refine Run.InStep.bind (inStep_find ht hplace hl hr hi hp (hc packages hlisted)) ?_
  intro found found' hfound
  refine Run.InStep.bind (.orElse (inheritAll_alike hfound) _ _) fun sources sources' hsources => ?_
  refine Run.InStep.bind (.orElse (select_alike hsources _ _) _ _) ?_
  intro selected selected' hselected
  rw [hsources.length_eq, hselected.length_eq]
  exact (inStep_log _ _ _).bind fun _ _ _ => .pure hselected

end Steps

/-- Loading from workspaces that differ in the order of linking and of listing only fails in both,
or gives, crate by crate, sources with the same package, settings, content and checksum in both. -/
theorem load_relinked {r : LoadRequest} {items : List Item} {w w' : Workspace}
    (h : Relinked r items w w') :
    Corresponds (List.Forall₂ Alike) (load r w).1 (load r w').1 := by
  obtain ⟨place, left, right, items', hplace, htwins, hl, hr, hp⟩ := h.twins
  have hc : ∀ packages, Package.ofReply (w.programs (Package.listingCommand r.manifest)) =
      .ok packages → ∀ p, Consults r w.files items packages p → w.files.locate p ≠ .ok place := by
    intro packages hpackages p hcons
    rw [← hplace]
    exact h.consulted packages hpackages p hcons
  have hw : Twin r w.files place left right (w.programs (Package.listingCommand r.manifest))
      (w'.programs (Package.listingCommand r.manifest)) w w' := by
    refine ⟨htwins, rfl, rfl, h.journal, fun level p hs => ?_⟩
    rw [← hplace]
    exact h.logs level p hs
  exact (inStep_load h.typed hplace hl hr hp h.listing hc w w' hw).1

private def shape : Item := .object ⟨"core::shapes", "Shape", "A shape."⟩

private theorem hasJsonFields_shape : shape.HasJsonFields 985 := by
  refine List.forall_mem_cons.mpr ⟨.scalar trivial, List.forall_mem_cons.mpr ⟨.scalar trivial,
    List.forall_mem_cons.mpr ⟨.scalar trivial, ?_⟩⟩⟩
  exact List.forall_mem_nil _

private theorem write_shape : Json.write (.table shape.payload) =
    ("\x7b\"docstring\":\"A shape.\",\"kind\":\"object\"," ++
      "\"module_path\":\"core::shapes\",\"name\":\"Shape\"\x7d").toList := by
  rw [Json.write_table shape.worded_payload,
    Table.sortOn_eq_of_pairwise shape.distinct_payload shape.worded_payload
      (@List.perm_append_comm _ [_, _] [_, _]) (by decide)]
  rfl

private theorem length_shape :
    (Utf8.encode (Json.write (.table shape.payload))).length < 2 ^ 32 := by
  rw [write_shape]
  decide

-- A workspace with a library of such bytes, in which packages of such names are listed.
private def workspace (library : Bytes) (names : List String) : Workspace :=
  ⟨⟨⟨"/", ["work"]⟩, [(["libcore.so"], .file library)]⟩,
    fun _ => .finished (Package.listing (names.map fun name => (name, []))), [], [],
    ⟨.debug, [.console .debug], false, ""⟩, []⟩

private def request : LoadRequest := ⟨⟨"", ["libcore.so"]⟩, none, none, none⟩

private def linked : Workspace :=
  workspace (Wire.encodeItem Wire.coreNamespace ++ Wire.encodeItem shape) ["core", "util"]

private def relinked : Workspace :=
  workspace (Wire.encodeItem shape ++ Wire.encodeItem Wire.coreNamespace) ["util", "core"]

private theorem twins_workspace (left right : Bytes) (names names' : List String) :
    Tree.Twins (workspace left names).files ["libcore.so"] left right
      (workspace left names).files (workspace right names').files := by
  refine ⟨rfl, rfl, fun _ => Iff.rfl, fun q hq => ?_, rfl, rfl⟩
  simp [Tree.node?, workspace, List.lookup_cons, beq_eq_false_iff_ne.mpr hq]

private theorem extract_core_shape :
    Wire.extract (Wire.encodeItem Wire.coreNamespace ++ Wire.encodeItem shape) =
      .ok [Wire.coreNamespace, shape] := by
  have h := Wire.extract_pair Wire.hasJsonFields_coreNamespace hasJsonFields_shape
    Wire.length_coreNamespace length_shape
  simpa [Wire.coreNamespace, shape, Item.inOrder, Value.inOrder_scalar] using h

private theorem extract_shape_core :
    Wire.extract (Wire.encodeItem shape ++ Wire.encodeItem Wire.coreNamespace) =
      .ok [shape, Wire.coreNamespace] := by
  have h := Wire.extract_pair hasJsonFields_shape Wire.hasJsonFields_coreNamespace length_shape
    Wire.length_coreNamespace
  simpa [Wire.coreNamespace, shape, Item.inOrder, Value.inOrder_scalar] using h

private theorem ofReply_linked :
    Package.ofReply (linked.programs (Package.listingCommand request.manifest)) =
      .ok (["core", "util"].map fun name =>
        ⟨name, "0.0.0", ⟨"", [name, "Cargo.toml"]⟩, [], [⟨name, []⟩]⟩) := by
  exact Package.ofOutput_listing [("core", []), ("util", [])]

private theorem locate_ne_of_consults {packages : List Package} {p : Path}
    (hpackages : Package.ofReply (linked.programs (Package.listingCommand request.manifest)) =
      .ok packages) (h : Consults request linked.files [Wire.coreNamespace, shape] packages p) :
    linked.files.locate p ≠ .ok ["libcore.so"] := by
  rw [ofReply_linked] at hpackages
  obtain rfl := Except.ok.inj hpackages
  cases h with
  | definition _ hd => simp [Wire.coreNamespace, shape] at hd
  | override ho => cases ho
  | @settings q root name hq hr hn =>
    have hlocate : linked.files.locate (root.below name) = .error .notFound := by
      simp only [List.map_cons, List.map_nil, List.mem_cons, List.not_mem_nil, or_false] at hq
      simp only [Settings.fileNames, List.mem_cons, List.not_mem_nil, or_false] at hn
      obtain rfl | rfl := hq <;> cases hr <;> obtain rfl | rfl | rfl := hn <;> rfl
    rw [hlocate]
    exact fun hplace => by cases hplace

private theorem relinked_swapped :
    Relinked request [Wire.coreNamespace, shape] linked relinked := by
  refine ⟨?_, by decide, ?_, ?_, ?_, ?_⟩
  · exact ⟨_, _, _, _, rfl, twins_workspace _ _ _ _, extract_core_shape, extract_shape_core,
      .swap _ _ _⟩
  · exact .permuted (Package.read_listing [("core", []), ("util", [])])
      (Package.read_listing [("util", []), ("core", [])]) rfl rfl (.swap _ _ _)
  · intro packages hpackages p hp
    exact locate_ne_of_consults hpackages hp
  · rw [linked, relinked, workspace, workspace]
  · intro level p hs
    simp [linked, workspace] at hs

/-- A namespace and an object in both orders, and two packages in both orders. -/
theorem load_relinked_swapped :
    Corresponds (List.Forall₂ Alike) (load request linked).1 (load request relinked).1 :=
  load_relinked relinked_swapped

end BindGen.Source
