import BindGen.Proofs.Value.Growth
import BindGen.Proofs.Yaml.Nodes
import BindGen.Yaml.Value

/-!
# Links in values of YAML

The value of a node is a scalar or a link with the node's own number, and what the link stands for
has links to parts of the node only. Merge keys give a mapping the parts of its parts, which lie as
far on. So all labels are of nodes, and without aliases, where parts come later, no link is left. No
link stands for another one, and the keys of a table are pairwise different.
-/

namespace BindGen.Yaml

open Value

namespace NodeContent

private theorem forall_parts_mapping {P : Nat → Prop} {entries : List (Nat × Nat)} :
    (∀ part ∈ (mapping entries).parts, P part) ↔ ∀ e ∈ entries, P e.1 ∧ P e.2 := by
  simp only [parts, List.mem_flatMap, List.mem_cons, List.not_mem_nil, or_false]
  constructor
  · exact fun h e he => ⟨h e.1 ⟨e, he, .inl rfl⟩, h e.2 ⟨e, he, .inr rfl⟩⟩
  · rintro h part ⟨e, he, rfl | rfl⟩
    · exact (h e he).1
    · exact (h e he).2

end NodeContent

/-- What a link may stand for: no other link, and with pairwise different keys if it is a table. -/
structure Proper (v : Value) : Prop where
  keyed : Keyed v
  unlinked : ∀ label kind, v ≠ .link label kind

private theorem proper_null : Proper .null where
  keyed := .other rfl
  unlinked := by
    intro label kind h
    cases h

private theorem proper_list (items : List Value) : Proper (.list items) := ⟨.other rfl, nofun⟩

namespace Builder

variable {aliased : Bool} {size number : Nat} {α β : Type}

/-- The value of a node has the number of the node for its label, and stands for its parts if it has
any. -/
structure Known (number : Nat) (v : Value) : Prop where
  labels : Labels (· = number) v
  other : v.isTable = false

/-- Nodes have parts that they may have, values are known by the numbers of their nodes, and what
links stand for has links to possible parts only. -/
structure Sound (aliased : Bool) (size : Nat) (b : Builder) : Prop where
  nodes : b.nodes.size = size
  parts : PartsLead aliased b.nodes
  values : ∀ number v, b.values[number]? = some (some v) → Known number v
  links : b.links.size = size
  contents : ∀ label < size, Labels (Leads aliased size label) (b.links.content label)
  proper : ∀ label, Proper (b.links.content label)

/-- A step keeps the builder sound, and what it gives, if it gives anything, has a property. -/
def Builds (aliased : Bool) (size : Nat) (m : BuildStep α) (Q : α → Prop) : Prop :=
  ∀ b a b', b.Sound aliased size → m b = .ok (a, b') → b'.Sound aliased size ∧ Q a

namespace Builds

variable {m : BuildStep α} {f : α → BuildStep β} {P : α → Prop} {Q : β → Prop}

private theorem bind (hm : Builds aliased size m P) (hf : ∀ a, P a → Builds aliased size (f a) Q) :
    Builds aliased size (m >>= f) Q := by
  intro b c b' hb h
  obtain ⟨a, b₁, ha, hc⟩ := exists_of_step_eq_ok h
  obtain ⟨hb₁, hp⟩ := hm b a b₁ hb ha
  exact hf a hp b₁ c b' hb₁ hc

/-- A step of whose result nothing has to be known. -/
theorem next (hm : Builds aliased size m P) (hf : ∀ a, Builds aliased size (f a) Q) :
    Builds aliased size (m >>= f) Q :=
  hm.bind fun a _ => hf a

private theorem pure {a : α} (h : P a) : Builds aliased size (Pure.pure a) P := by
  intro b a' b' hb ha
  obtain ⟨rfl, rfl⟩ := Prod.mk.inj (Except.ok.inj ha)
  exact ⟨hb, h⟩

private theorem imp {R : α → Prop} (h : Builds aliased size m P) (hpr : ∀ a, P a → R a) :
    Builds aliased size m R := by
  intro b a b' hb hm
  exact (h b a b' hb hm).imp_right (hpr a)

private theorem throw (e : ReadProblem) : Builds aliased size (throw e : BuildStep α) P := by
  intro b a b' _ h
  cases h

private theorem fail : Builds aliased size (Builder.fail : BuildStep α) P := throw _

/-- Reading a scalar. -/
theorem lift (x : Except ReadProblem α) :
    Builds aliased size (liftM x : BuildStep α) fun _ => True := by
  intro b a b' hb h
  cases x with
  | error e => cases h
  | ok x =>
    obtain ⟨rfl, rfl⟩ := Prod.mk.inj (Except.ok.inj h)
    exact ⟨hb, trivial⟩

private theorem get : Builds aliased size (get : BuildStep Builder) (Sound aliased size) := by
  intro b a b' hb h
  obtain ⟨rfl, rfl⟩ := Prod.mk.inj (Except.ok.inj h)
  exact ⟨hb, hb⟩

private theorem modify {change : Builder → Builder}
    (h : ∀ b, b.Sound aliased size → (change b).Sound aliased size) :
    Builds aliased size (modify change : BuildStep Unit) fun _ => True := by
  intro b a b' hb hm
  obtain ⟨-, rfl⟩ := Prod.mk.inj (Except.ok.inj hm)
  exact ⟨h b hb, trivial⟩

private theorem ite {c : Prop} [Decidable c] {x y : BuildStep α} (hx : Builds aliased size x P)
    (hy : Builds aliased size y P) : Builds aliased size (if c then x else y) P := by
  split
  · exact hx
  · exact hy

private theorem mapM {as : List α} (h : ∀ a ∈ as, Builds aliased size (f a) Q) :
    Builds aliased size (as.mapM f) fun bs => ∀ b ∈ bs, Q b := by
  induction as with
  | nil => exact .pure fun _ hb => absurd hb List.not_mem_nil
  | cons a rest ih =>
    rw [List.mapM_cons]
    refine (h a List.mem_cons_self).bind fun b hb => ?_
    refine (ih fun a ha => h a (List.mem_cons_of_mem _ ha)).bind fun bs hbs => .pure ?_
    exact List.forall_mem_cons.mpr ⟨hb, hbs⟩

private theorem foldlM {as : List α} {g : β → α → BuildStep β} {b : β}
    (h : ∀ a ∈ as, ∀ b, Q b → Builds aliased size (g b a) Q) (hb : Q b) :
    Builds aliased size (as.foldlM g b) Q := by
  induction as generalizing b with
  | nil => exact .pure hb
  | cons a rest ih =>
    rw [List.foldlM_cons]
    exact (h a List.mem_cons_self b hb).bind fun b hb =>
      ih (fun a ha => h a (List.mem_cons_of_mem _ ha)) hb

private theorem forM {as : List α} {g : α → BuildStep Unit}
    (h : ∀ a, Builds aliased size (g a) fun _ => True) :
    Builds aliased size (as.forM g) fun _ => True := by
  induction as with
  | nil => exact .pure trivial
  | cons a rest ih => exact (h a).next fun _ => ih

/-- Choosing items gives some of them. -/
theorem filterM {as : List α} {g : α → BuildStep Bool}
    (h : ∀ a, Builds aliased size (g a) fun _ => True) :
    Builds aliased size (as.filterM g) fun kept => ∀ a ∈ kept, a ∈ as := by
  have haux (rest chosen : List α) : Builds aliased size (List.filterAuxM g rest chosen)
      fun kept => ∀ a ∈ kept, a ∈ rest ∨ a ∈ chosen := by
    induction rest generalizing chosen with
    | nil => exact .pure fun _ ha => .inr ha
    | cons a rest ih =>
      refine (h a).next fun keep b kept b' hb hkept => ?_
      obtain ⟨hb', hmem⟩ := ih (cond keep (a :: chosen) chosen) b kept b' hb hkept
      refine ⟨hb', fun x hx => ?_⟩
      cases keep <;> have := hmem x hx <;> grind
  exact (haux as []).bind fun kept hkept => .pure fun a ha =>
    (hkept a (List.mem_reverse.mp ha)).resolve_right List.not_mem_nil

end Builds

/-! ## Nodes -/

/-- Both parts of an entry are such as a node may have. -/
def EntryLeads (aliased : Bool) (size number : Nat) (e : Nat × Nat) : Prop :=
  Leads aliased size number e.1 ∧ Leads aliased size number e.2

private theorem builds_nodeAt (number : Nat) : Builds aliased size (nodeAt number)
    fun node => ∀ part ∈ node.content.parts, Leads aliased size number part := by
  refine Builds.get.bind fun b hb => ?_
  split
  · next node hnode =>
    refine .pure fun part hpart => ?_
    have hlead := hb.parts number node hnode part hpart
    rwa [hb.nodes] at hlead
  · exact .fail

private theorem builds_changeNode {change : Node → Node} (h : ∀ node : Node,
    (∀ part ∈ node.content.parts, Leads aliased size number part) →
      ∀ part ∈ (change node).content.parts, Leads aliased size number part) :
    Builds aliased size (changeNode number change) fun _ => True := by
  refine .modify fun b hb => { hb with
    nodes := by simpa using hb.nodes
    parts := hb.parts.modify fun node hnode part hpart => ?_ }
  rw [hb.nodes]
  refine h node (fun part hpart => ?_) part hpart
  have hlead := hb.parts number node hnode part hpart
  rwa [hb.nodes] at hlead

private theorem builds_entriesAt (number : Nat) : Builds aliased size (entriesAt number)
    fun entries => ∀ e ∈ entries, EntryLeads aliased size number e := by
  refine (builds_nodeAt number).bind fun node hparts => ?_
  split
  · next entries hcontent =>
    rw [hcontent] at hparts
    exact .pure (NodeContent.forall_parts_mapping.mp hparts)
  · exact .fail

private theorem builds_keyHasTag (name : String) (entry : Nat × Nat) :
    Builds aliased size (keyHasTag name entry) fun _ => True :=
  (builds_nodeAt _).next fun _ => .pure trivial

private theorem builds_settleKey (entry : Nat × Nat) :
    Builds aliased size (settleKey entry) fun _ => True := by
  refine (builds_keyHasTag _ _).next fun found => .ite ?_ (.pure trivial)
  exact builds_changeNode fun _ h => h

/-! ## Merge keys -/

/-- Merging with some fuel gives a node entries that it may have. -/
structure Merges (aliased : Bool) (size fuel : Nat) : Prop where
  into : ∀ number, Builds aliased size (mergeInto fuel number) fun _ => True
  entries : ∀ number, Builds aliased size (mergedFrom fuel number)
    fun entries => ∀ e ∈ entries, EntryLeads aliased size number e

/-- A node may have the entries that a part of it may have. -/
theorem Builds.below {inner : Nat} {m : BuildStep (List (Nat × Nat))}
    (hm : Builds aliased size m fun es => ∀ e ∈ es, EntryLeads aliased size inner e)
    (h : Leads aliased size number inner) :
    Builds aliased size m fun es => ∀ e ∈ es, EntryLeads aliased size number e :=
  hm.imp fun _ hes e he => ⟨h.trans (hes e he).1, h.trans (hes e he).2⟩

private theorem builds_setEntries {entries : List (Nat × Nat)}
    (h : ∀ e ∈ entries, EntryLeads aliased size number e) :
    Builds aliased size (changeNode number fun n => { n with content := .mapping entries })
      fun _ => True :=
  builds_changeNode fun _ _ => NodeContent.forall_parts_mapping.mpr h

private theorem merges (fuel : Nat) : Merges aliased size fuel := by
  induction fuel with
  | zero => exact ⟨fun _ => .fail, fun _ => .fail⟩
  | succ fuel ih =>
    refine ⟨fun number => ?_, fun number => ?_⟩
    · unfold mergeInto
      refine (builds_entriesAt number).bind fun entries hentries => ?_
      refine (Builds.filterM (builds_keyHasTag _)).bind fun merging hmerging => ?_
      refine (Builds.filterM fun e => (builds_keyHasTag _ e).next fun _ => .pure trivial).bind
        fun own hown => ?_
      have hown : ∀ e ∈ own, EntryLeads aliased size number e := fun e he => hentries e (hown e he)
      refine (Builds.forM builds_settleKey).next fun _ => (builds_setEntries hown).next fun _ => ?_
      refine (Builds.mapM (Q := fun es => ∀ e ∈ es, EntryLeads aliased size number e) fun e he =>
        (ih.entries e.2).below (hentries e (hmerging e he)).2).bind fun merged hmerged =>
          builds_setEntries ?_
      exact List.forall_mem_append.mpr ⟨List.forall_mem_flatten.mpr hmerged, hown⟩
    · unfold mergedFrom
      refine (builds_nodeAt number).bind fun node hparts => ?_
      split
      · exact (ih.into number).next fun _ => builds_entriesAt number
      · next items hitems =>
        rw [hitems] at hparts
        have hmerged : Builds aliased size (items.mapM fun item => do
              let _ ← entriesAt item
              mergeInto fuel item
              entriesAt item)
            fun parts => ∀ es ∈ parts, ∀ e ∈ es, EntryLeads aliased size number e := by
          refine .mapM fun item hitem => .below ?_ (hparts item hitem)
          exact (builds_entriesAt item).next fun _ => (ih.into item).next fun _ =>
            builds_entriesAt item
        refine hmerged.bind fun parts hparts => .pure (List.forall_mem_flatten.mpr fun es hes => ?_)
        exact hparts es (List.mem_reverse.mp hes)
      · exact .fail

/-! ## Values -/

private theorem builds_textUnder (fuel number : Nat) :
    Builds aliased size (textUnder fuel number) fun _ => True := by
  induction fuel generalizing number with
  | zero => exact .fail
  | succ fuel ih =>
    unfold textUnder
    refine (builds_nodeAt number).next fun node => ?_
    split
    · exact .pure trivial
    · refine (Builds.filterM (builds_keyHasTag _)).next fun chosen => ?_
      split
      · exact ih _
      · exact .fail
    · exact .fail

private theorem builds_scalarAt (number : Nat) (kind : ScalarKind) :
    Builds aliased size (scalarAt number kind) fun _ => True := by
  refine Builds.get.next fun b => (builds_textUnder _ _).next fun s => ?_
  refine (builds_nodeAt number).next fun node => ?_
  split
  · exact .throw _
  · exact .lift _

/-- The value of a node is a scalar or a link with the number of the node. -/
theorem builds_valueAt (number : Nat) :
    Builds aliased size (valueAt number) (Known number) := by
  unfold valueAt
  refine Builds.get.bind fun b hb => ?_
  split
  · next v hv =>
    exact .pure (hb.values number v (Option.join_eq_some_iff.mp hv))
  · refine (builds_nodeAt number).next fun node => ?_
    have hstore (v : Value) (hv : Known number v) : Builds aliased size (do
        modify fun b : Builder => { b with values := b.values.setIfInBounds number (some v) }
        return v) (Known number) := by
      refine .next (.modify fun b hb => { hb with values := fun n w hw => ?_ }) fun _ => .pure hv
      rw [Array.getElem?_setIfInBounds] at hw
      split at hw
      · next hsame =>
        subst hsame
        split at hw
        · obtain rfl : v = w := by simpa using hw
          exact hv
        · cases hw
      · exact hb.values n w hw
    dsimp only
    split
    · exact (builds_scalarAt _ _).next fun s => .bind (.pure ⟨.scalar s, rfl⟩) hstore
    · refine .next (.modify fun b hb => { hb with }) fun _ => ?_
      exact .bind (.pure ⟨.link _ rfl, rfl⟩) hstore
    · exact Builds.fail.bind hstore

/-- The value of a part has links that what it is a part of may have. -/
theorem builds_partValue {part : Nat} (h : Leads aliased size number part) :
    Builds aliased size (valueAt part)
      fun v => Labels (Leads aliased size number) v ∧ v.isTable = false :=
  (builds_valueAt part).imp fun _ hv => ⟨hv.labels.imp fun _ hlabel => hlabel ▸ h, hv.other⟩

private theorem builds_itemsAt (number : Nat) : Builds aliased size (itemsAt number)
    fun items => ∀ item ∈ items, Leads aliased size number item := by
  refine (builds_nodeAt number).bind fun node hparts => ?_
  split
  · next items hcontent =>
    rw [hcontent] at hparts
    exact .pure hparts
  · exact .fail

private theorem builds_tableAt (number : Nat) : Builds aliased size (tableAt number)
    fun t => Labels (Leads aliased size number) (.table t) ∧ Keyed (.table t) := by
  refine (builds_entriesAt number).next fun _ => Builds.get.next fun b => ?_
  refine ((merges _).into number).next fun _ => ?_
  refine (builds_entriesAt number).bind fun entries hentries => ?_
  refine .foldlM (fun e he t ht => ?_) ⟨.empty, .empty⟩
  refine (builds_partValue (hentries e he).1).next fun key => ?_
  split
  · next key =>
    exact (builds_partValue (hentries e he).2).bind fun v hv =>
      .pure ⟨ht.1.put key hv.1, ht.2.put key (.other hv.2)⟩
  · exact .fail

private theorem builds_pairAt {item : Nat} (h : Leads aliased size number item) :
    Builds aliased size (pairAt item) (Labels (Leads aliased size number)) := by
  refine (builds_entriesAt item).bind fun entries hentries => ?_
  split
  · next k v =>
    obtain ⟨hk, hv⟩ := List.forall_mem_singleton.mp hentries
    exact (builds_partValue (h.trans hk)).bind fun first hfirst =>
      (builds_partValue (h.trans hv)).bind fun second hsecond => .pure (.pair hfirst.1 hsecond.1)
  · exact .fail

/-- What a node with parts holds has links to its parts only, and to those of merged ones. -/
theorem builds_contentAt (number : Nat) : Builds aliased size (contentAt number)
    fun v => Labels (Leads aliased size number) v ∧ Proper v := by
  refine (builds_nodeAt number).next fun node => .ite ?_ (.ite ?_ (.ite ?_ ?_))
  · refine (builds_itemsAt number).bind fun items hitems => ?_
    exact (Builds.mapM fun item hitem => builds_partValue (hitems item hitem)).bind fun vs hvs =>
      .pure ⟨.list fun v hv => (hvs v hv).1, proper_list vs⟩
  · exact (builds_tableAt number).bind fun t ht => .pure ⟨ht.1, ht.2, nofun⟩
  · exact (builds_tableAt number).next fun t => .pure ⟨.set _, .other rfl, nofun⟩
  · refine (builds_itemsAt number).bind fun items hitems => ?_
    exact (Builds.mapM fun item hitem => builds_pairAt (hitems item hitem)).bind fun vs hvs =>
      .pure ⟨.list hvs, proper_list vs⟩

private theorem builds_fillAll (fuel : Nat) : Builds aliased size (fillAll fuel) fun _ => True := by
  induction fuel with
  | zero => exact .pure trivial
  | succ fuel ih =>
    unfold fillAll
    refine Builds.get.next fun b => ?_
    split
    · exact .pure trivial
    · next number rest _ =>
      refine .next (.modify fun b hb => { hb with }) fun _ => ?_
      refine (builds_contentAt number).bind fun content hcontent => .next (.modify fun b hb => ?_)
        fun _ => ih
      refine { hb with
        links := by simpa using hb.links
        contents := fun label hlabel => ?_
        proper := fun label => ?_ }
      · rw [Links.content_setIfInBounds]
        split
        · next hsame => exact hsame.1 ▸ hcontent.1
        · exact hb.contents label hlabel
      · rw [Links.content_setIfInBounds]
        split
        · exact hcontent.2
        · exact hb.proper label

/-! ## Documents -/

private theorem sound_start {g : NodeGraph} (h : g.Sound) :
    (start g).Sound g.aliased g.nodes.size where
  nodes := rfl
  parts := h.parts
  values := by
    intro number v hv
    rw [start, Array.getElem?_replicate] at hv
    split at hv <;> cases hv
  links := by simp [start]
  contents := by
    intro label hlabel
    simp [start, Links.content, hlabel]
    exact .scalar .null
  proper := by
    intro label
    have hnull : (start g).links.content label = .null := by
      rw [start, Links.content, Array.getElem?_replicate]
      split <;> rfl
    rw [hnull]
    exact proper_null

private theorem builds_build (g : NodeGraph) :
    Builds aliased size (build g) (Known g.root) :=
  (builds_valueAt g.root).bind fun _ hv => (builds_fillAll _).next fun _ => .pure hv

end Builder

/-- All links in what a text writes are there. -/
theorem closed_read (s : List Char) :
    Yields (fun r => r.2.Closed ∧ Bounded r.2.size r.1) (read s) := by
  refine (NodeGraph.sound_ofText? s).bind fun g? hg => ?_
  split
  · exact .ok ⟨Links.closed_empty, .scalar .null⟩
  · next g =>
    intro r h
    obtain ⟨⟨v, b⟩, hbuild, h⟩ := exists_of_bind_eq_ok h
    have hsound := hg g rfl
    obtain ⟨hb, hv⟩ := Builder.builds_build g _ v b (Builder.sound_start hsound) hbuild
    have hbounded : Bounded b.links.size v := by
      refine hv.labels.imp fun label hlabel => ?_
      rw [hlabel, hb.links]
      exact hsound.root
    obtain rfl := Except.ok.inj h
    split
    · refine ⟨fun label hlabel => ?_, hbounded⟩
      rw [hb.links] at hlabel ⊢
      exact (hb.contents label hlabel).imp fun _ hlead => hlead.1
    · next hplain =>
      have hrising : b.links.Rising := by
        intro label hlabel
        rw [hb.links] at hlabel ⊢
        exact (hb.contents label hlabel).imp fun _ hlead =>
          ⟨hlead.2 (Bool.eq_false_iff.mpr hplain), hlead.1⟩
      exact ⟨Links.closed_empty, hrising.bounded_resolve hbounded⟩

/-- No link in what a text writes stands for another one, and the keys of tables are pairwise
different. -/
theorem proper_read (s : List Char) :
    Yields (fun r => (∀ label, Proper (r.2.content label)) ∧ Keyed r.1) (read s) := by
  have hnull (label : Nat) : Proper (Links.content #[] label) := by
    rw [Links.content_of_ge (Nat.zero_le label)]
    exact proper_null
  refine (NodeGraph.sound_ofText? s).bind fun g? hg => ?_
  split
  · exact .ok ⟨hnull, .other rfl⟩
  · next g =>
    intro r h
    obtain ⟨⟨v, b⟩, hbuild, h⟩ := exists_of_bind_eq_ok h
    obtain ⟨hb, hv⟩ := Builder.builds_build g _ v b (Builder.sound_start (hg g rfl)) hbuild
    obtain rfl := Except.ok.inj h
    split
    · exact ⟨hb.proper, .other hv.other⟩
    · exact ⟨hnull, Links.keyed_resolve (fun label => (hb.proper label).keyed) (.other hv.other)⟩

end BindGen.Yaml
