import BindGen.Package.Graph
import BindGen.Proofs.Run.Corresponds
import BindGen.Proofs.Json.Value
import BindGen.Proofs.Run.Fold

/-!
# Listings of packages

What a listing of packages says about them, in whichever order it names them, and what is read from
a listing that was written out.
-/

/-!
## Listings in another order

The order in which a listing names the packages decides neither whether it can be read nor which
package a crate belongs to.
-/

namespace BindGen.Package

/-- Replies that are the same, or listings of the same packages in some order. -/
inductive SameListing : ProgramReply → ProgramReply → Prop where
  | same (reply : ProgramReply) : SameListing reply reply
  | permuted {output output' : String} {entries entries' : Table Value}
    {packages packages' : List Value}
    (read : Json.read output = .ok (.table entries))
    (read' : Json.read output' = .ok (.table entries'))
    (find? : Table.find? entries "packages" = some (.list packages))
    (find?' : Table.find? entries' "packages" = some (.list packages'))
    (perm : packages.Perm packages') : SameListing (.finished output) (.finished output')

private theorem listOf_packages {entries : Table Value} {packages : List Value}
    (h : Table.find? entries "packages" = some (.list packages)) :
    listOf (.table entries) = packages.mapM fun entry =>
      (ofEntry entry).mapError fun f =>
        if f.kind = .operation then GraphError.fault f else .malformed f := by
  rw [listOf, h]

/-- Replies with the same listing describe the same packages in some order. -/
theorem ofReply_sameListing {x y : ProgramReply} (h : SameListing x y) :
    Corresponds List.Perm (ofReply x) (ofReply y) := by
  cases h with
  | same => exact .refl (fun l => List.Perm.refl l) _
  | permuted read read' find? find?' perm =>
    rw [ofReply, ofReply, ofOutput, ofOutput, read, read']
    dsimp only
    rw [listOf_packages find?, listOf_packages find?']
    exact .mapM_perm perm _

/-- The package of a crate does not depend on the order of the packages. -/
theorem exposing_perm {packages packages' : List Package} (hp : packages.Perm packages')
    (crate : Value) :
    Corresponds (fun p p' => p = p' ∧ p ∈ packages) (exposing packages crate)
      (exposing packages' crate) := by
  have hf : (packages.filter (·.exposes crate)).Perm (packages'.filter (·.exposes crate)) :=
    hp.filter _
  rw [exposing, exposing]
  match h : packages.filter (·.exposes crate), h' : packages'.filter (·.exposes crate) with
  | [], l =>
    rw [h, h', List.nil_perm] at hf
    rw [h, h', hf]
    exact .error _ _
  | [p], l =>
    rw [h, h', List.singleton_perm] at hf
    have hp : p ∈ packages.filter (·.exposes crate) := by simp [h]
    rw [h, h', ← hf]
    exact .ok ⟨rfl, (List.mem_filter.mp hp).1⟩
  | a :: b :: l, [] =>
    rw [h, h', List.perm_nil] at hf
    cases hf
  | a :: b :: l, [d] =>
    rw [h, h', List.perm_singleton] at hf
    cases hf
  | a :: b :: l, c :: d :: k =>
    rw [h, h']
    exact .error _ _

end BindGen.Package

/-!
## Listings that are written out

A listing of packages that each have one target of their own name, and what is read from it.
-/

namespace BindGen.Package

/-- How a package with one target of its own name is listed, with the packages that it depends
on. -/
def entry (name : String) (dependencies : List String) : Value :=
  .table [("dependencies", .list (dependencies.map fun d => .table [("name", .text d)])),
    ("manifest_path", .text (name ++ "/Cargo.toml")), ("name", .text name),
    ("targets", .list [.table [("name", .text name)]])]

/-- A listing with such entries. -/
def listing (packages : List (String × List String)) : String :=
  String.ofList (Json.write (.table [("packages", .list (packages.map fun p => entry p.1 p.2))]))

private theorem isJson_named (name : String) : Json.IsJson 1 (.table [("name", .text name)]) :=
  .table (by simp [Table.Distinct]) (by simp [Table.Worded])
    (List.forall_mem_singleton.mpr (.scalar trivial))

private theorem inOrder_named (name : String) :
    (Value.table [("name", .text name)]).inOrder = .table [("name", .text name)] := by
  refine Value.inOrder_table_of_perm (by simp [Table.Distinct]) (by simp [Table.Worded]) ?_
    (List.pairwise_singleton _ _)
  simp [Table.mapValues, Value.inOrder_scalar]

private theorem isJson_entry (name : String) (dependencies : List String) :
    Json.IsJson 3 (entry name dependencies) := by
  refine .table (by simp [Table.Distinct]) (by simp [Table.Worded]) ?_
  refine List.forall_mem_cons.mpr ⟨.list fun v hv => ?_, List.forall_mem_cons.mpr ⟨.scalar trivial,
    List.forall_mem_cons.mpr ⟨.scalar trivial, List.forall_mem_singleton.mpr (.list ?_)⟩⟩⟩
  · obtain ⟨d, -, rfl⟩ := List.mem_map.mp hv
    exact isJson_named d
  · exact List.forall_mem_singleton.mpr (isJson_named name)

private theorem inOrder_entry (name : String) (dependencies : List String) :
    (entry name dependencies).inOrder = entry name dependencies := by
  refine Value.inOrder_table_of_perm (by simp [Table.Distinct]) (by simp [Table.Worded]) ?_ ?_
  · simp [Table.mapValues, Value.inOrder_scalar, Value.inOrder_list, inOrder_named,
      Function.comp_def]
  · simp only [List.pairwise_cons, List.forall_mem_cons, List.not_mem_nil, List.Pairwise.nil,
      false_implies, implies_true, and_true]
    decide

/-- A listing of packages is read as it was written. -/
theorem read_listing (packages : List (String × List String)) :
    Json.read (listing packages) =
      .ok (.table [("packages", .list (packages.map fun p => entry p.1 p.2))]) := by
  generalize hentries : (packages.map fun p => entry p.1 p.2) = entries
  have hshape : ∀ v ∈ entries, Json.IsJson 3 v ∧ v.inOrder = v := by
    intro v hv
    rw [← hentries] at hv
    obtain ⟨p, -, rfl⟩ := List.mem_map.mp hv
    exact ⟨isJson_entry p.1 p.2, inOrder_entry p.1 p.2⟩
  have hd : Table.Distinct [(("packages" : Scalar), Value.list entries)] := by
    simp [Table.Distinct]
  have hk : Table.Worded [(("packages" : Scalar), Value.list entries)] := by
    simp [Table.Worded]
  have hjson : Json.IsJson 5 (.table [("packages", .list entries)]) :=
    .table hd hk (List.forall_mem_singleton.mpr (.list fun v hv => (hshape v hv).1))
  have horder : (Value.table [("packages", .list entries)]).inOrder =
      .table [("packages", .list entries)] := by
    refine Value.inOrder_table_of_perm hd hk ?_ (List.pairwise_singleton _ _)
    have hmap : entries.map Value.inOrder = entries :=
      (List.map_congr_left fun v hv => (hshape v hv).2).trans (List.map_id _)
    simp only [Table.mapValues, List.map_cons, List.map_nil, Value.inOrder_list, hmap]
    exact List.Perm.refl _
  rw [Json.read, listing, hentries, String.toList_ofList, Json.ofTokens_write hjson (by decide),
    horder]

/-- The package that such an entry describes. -/
def ofNames (name : String) (dependencies : List String) : Package :=
  ⟨name, "0.0.0", Path.ofText (name ++ "/Cargo.toml"), dependencies.map fun d => ⟨d, .null⟩,
    [⟨name, []⟩]⟩

private theorem ofEntry_entry (name : String) (dependencies : List String) :
    ofEntry (entry name dependencies) = .ok (ofNames name dependencies) := by
  have hnamed : (dependencies.map fun d => Value.table [("name", .text d)]).mapM dependencyOf =
      .ok (dependencies.map fun d => ⟨d, .null⟩) := mapM_map fun d _ => rfl
  have helements (l : List Value) : ((Value.list l).orElse (.list [])).elements = .ok l := by
    cases l <;> rfl
  have hfound : (entry name dependencies).optionalPart "dependencies" =
      .ok (.list (dependencies.map fun d => .table [("name", .text d)])) := rfl
  unfold ofEntry
  rw [hfound, ok_bind, helements, ok_bind, hnamed, ok_bind]
  rfl

/-- A listing describes the packages that were written into it. -/
theorem ofOutput_listing (packages : List (String × List String)) :
    ofOutput (listing packages) = .ok (packages.map fun p => ofNames p.1 p.2) := by
  rw [ofOutput, read_listing]
  refine mapM_map fun p _ => ?_
  rw [ofEntry_entry]
  rfl

end BindGen.Package
