import BindGen.Proofs.Run.Fold
import BindGen.Yaml.Node

/-!
# Parts of nodes

The parts of a node are nodes of the same document. Without aliases every part is numbered after
what it is a part of, so no node is inside of itself. A collection gets its number before its parts
are read, which is why the later ones come from inside of it.
-/

namespace BindGen.Yaml

/-- The numbers of the parts of a node. -/
def NodeContent.parts : NodeContent → List Nat
  | .scalar _ => []
  | .sequence items => items
  | .mapping entries => entries.flatMap fun e => [e.1, e.2]

/-- Whether a node may be a part of another one: it is there, and without aliases it comes later. -/
def Leads (aliased : Bool) (size number part : Nat) : Prop :=
  part < size ∧ (aliased = false → number < part)

/-- Nodes that lead from one to the next lead to the last. -/
theorem Leads.trans {aliased : Bool} {size a b c : Nat} (h : Leads aliased size a b)
    (h' : Leads aliased size b c) : Leads aliased size a c :=
  ⟨h'.1, fun hplain => Nat.lt_trans (h.2 hplain) (h'.2 hplain)⟩

/-- All parts of nodes are nodes, and without aliases later ones. -/
def PartsLead (aliased : Bool) (nodes : Array Node) : Prop :=
  ∀ number node, nodes[number]? = some node →
    ∀ part ∈ node.content.parts, Leads aliased nodes.size number part

namespace PartsLead

variable {aliased : Bool} {nodes : Array Node}

private theorem empty : PartsLead aliased #[] := fun _ _ h => by simp at h

/-- With aliases less is asked of parts. -/
theorem withAlias (h : PartsLead aliased nodes) : PartsLead true nodes :=
  fun number node hn part hpart => ⟨(h number node hn part hpart).1, nofun⟩

/-- A node without parts may be added. -/
theorem push (h : PartsLead aliased nodes) {node : Node} (hnode : node.content.parts = []) :
    PartsLead aliased (nodes.push node) := by
  intro number other hother part hpart
  rw [Array.getElem?_push] at hother
  split at hother
  · obtain rfl := Option.some.inj hother
    rw [hnode] at hpart
    cases hpart
  · have hlead := h number other hother part hpart
    rw [Array.size_push]
    exact ⟨Nat.lt_succ_of_lt hlead.1, hlead.2⟩

/-- A node may be changed if its new parts are such as it may have. -/
theorem modify (h : PartsLead aliased nodes) {number : Nat} {change : Node → Node}
    (hchange : ∀ node, nodes[number]? = some node →
      ∀ part ∈ (change node).content.parts, Leads aliased nodes.size number part) :
    PartsLead aliased (nodes.modify number change) := by
  intro other node hnode part hpart
  rw [Array.size_modify]
  rw [Array.getElem?_modify] at hnode
  split at hnode
  · next hsame =>
    subst hsame
    obtain ⟨before, hbefore, rfl⟩ := Option.map_eq_some_iff.mp hnode
    exact hchange before hbefore part hpart
  · exact h other node hnode part hpart

end PartsLead

namespace NodeReader

variable {r r' r'' : NodeReader} {α β : Type} {n : Nat}

/-- The nodes that were read lead to nodes, and so do anchors. -/
structure Sound (r : NodeReader) : Prop where
  nodes : PartsLead r.aliased r.nodes
  anchors : ∀ e ∈ r.anchors, e.2 < r.nodes.size

/-- Reading goes on: there are more nodes, and an alias is not forgotten. -/
structure Onward (r r' : NodeReader) : Prop where
  sound : r'.Sound
  size : r.nodes.size ≤ r'.nodes.size
  aliased : r'.aliased = false → r.aliased = false

private theorem Onward.refl (h : r.Sound) : Onward r r := ⟨h, Nat.le_refl _, id⟩

private theorem Onward.trans (h : Onward r r') (h' : Onward r' r'') : Onward r r'' :=
  ⟨h'.sound, Nat.le_trans h.size h'.size, h.aliased ∘ h'.aliased⟩

/-- A node that is there later, and without aliases was not there before. -/
def Added (r r' : NodeReader) (n : Nat) : Prop :=
  n < r'.nodes.size ∧ (r'.aliased = false → r.nodes.size ≤ n)

private theorem Added.later (h : Added r r' n) (hr : Onward r' r'') : Added r r'' n :=
  ⟨Nat.lt_of_lt_of_le h.1 hr.size, fun hplain => h.2 (hr.aliased hplain)⟩

private theorem Added.earlier (h : Added r' r'' n) (hr : Onward r r') : Added r r'' n :=
  ⟨h.1, fun hplain => Nat.le_trans hr.size (h.2 hplain)⟩

/-- Steps keep nodes sound. Of the numbers that a result holds all are of added nodes, apart from
those that were known before. -/
def Reads (known : List Nat) (m : NodeStep α) (parts : α → List Nat) : Prop :=
  ∀ r a r', r.Sound → m r = .ok (a, r') →
    Onward r r' ∧ ∀ n ∈ parts a, n ∈ known ∨ Added r r' n

namespace Reads

variable {known : List Nat} {m : NodeStep α} {f : α → NodeStep β} {parts : α → List Nat}
  {parts' : β → List Nat}

private theorem bind (hm : Reads known m parts) (hf : ∀ a, Reads (parts a ++ known) (f a) parts') :
    Reads known (m >>= f) parts' := by
  intro r b r' hr h
  obtain ⟨a, r₁, ha, hb⟩ := exists_of_step_eq_ok h
  obtain ⟨hfirst, hparts⟩ := hm r a r₁ hr ha
  obtain ⟨hsecond, hparts'⟩ := hf a r₁ b r' hfirst.sound hb
  refine ⟨hfirst.trans hsecond, fun n hn => ?_⟩
  rcases hparts' n hn with hmem | hadded
  · rcases List.mem_append.mp hmem with hmem | hmem
    · exact (hparts n hmem).imp_right fun hadded => hadded.later hsecond
    · exact .inl hmem
  · exact .inr (hadded.earlier hfirst)

private theorem pure {a : α} (h : ∀ n ∈ parts a, n ∈ known) : Reads known (Pure.pure a) parts := by
  intro r b r' hr hb
  obtain ⟨rfl, rfl⟩ := Prod.mk.inj (Except.ok.inj hb)
  exact ⟨.refl hr, fun n hn => .inl (h n hn)⟩

/-- A result without numbers. -/
theorem nothing (a : α) : Reads known (Pure.pure a) fun _ => [] := .pure nofun

private theorem throw (e : ReadProblem) : Reads known (throw e : NodeStep α) parts := by
  intro r a r' _ h
  cases h

private theorem fail : Reads known (NodeReader.fail : NodeStep α) parts := throw _

private theorem ite {c : Prop} [Decidable c] {x y : NodeStep α} (hx : Reads known x parts)
    (hy : Reads known y parts) : Reads known (if c then x else y) parts := by
  split
  · exact hx
  · exact hy

/-- A check in front of a step. -/
theorem check {c : Prop} [Decidable c] {y : NodeStep Unit} {k : Unit → NodeStep β}
    (hy : Reads known y fun _ => []) (h : Reads known (k ()) parts') :
    Reads known (if c then y >>= k else k ()) parts' := by
  split
  · exact hy.bind fun _ => h
  · exact h

/-- One of two steps in front of a third one. -/
theorem either {c : Prop} [Decidable c] {x y : NodeStep α} (hx : Reads known x parts)
    (hy : Reads known y parts) (hf : ∀ a, Reads (parts a ++ known) (f a) parts') :
    Reads known (if c then x >>= f else y >>= f) parts' :=
  ite (hx.bind hf) (hy.bind hf)

/-- A step that changes nothing but what is still to be read and what is known of tags. -/
theorem aside (h : ∀ r a r', m r = .ok (a, r') →
    r'.nodes = r.nodes ∧ r'.anchors = r.anchors ∧ r'.aliased = r.aliased)
    (hparts : ∀ a, parts a = []) : Reads known m parts := by
  intro r a r' hr hm
  obtain ⟨hnodes, hanchors, haliased⟩ := h r a r' hm
  refine ⟨⟨⟨?_, ?_⟩, ?_, ?_⟩, fun n hn => ?_⟩
  · rw [hnodes, haliased]
    exact hr.nodes
  · rw [hanchors, hnodes]
    exact hr.anchors
  · exact Nat.le_of_eq (congrArg Array.size hnodes.symm)
  · rw [haliased]
    exact id
  · rw [hparts] at hn
    cases hn

private theorem get : Reads known (get : NodeStep NodeReader) fun _ => [] := by
  refine aside (fun r a r' h => ?_) fun _ => rfl
  obtain ⟨rfl, rfl⟩ := Prod.mk.inj (Except.ok.inj h)
  exact ⟨rfl, rfl, rfl⟩

private theorem modify {change : NodeReader → NodeReader} (h : ∀ r, (change r).nodes = r.nodes ∧
    (change r).anchors = r.anchors ∧ (change r).aliased = r.aliased) :
    Reads known (modify change : NodeStep Unit) fun _ => [] := by
  refine aside (fun r a r' hr => ?_) fun _ => rfl
  obtain ⟨-, rfl⟩ := Prod.mk.inj (Except.ok.inj hr)
  exact h r

end Reads

variable {known : List Nat}

/-! ## Tokens -/

private theorem reads_peek : Reads known peek fun _ => [] := by
  refine Reads.get.bind fun r => ?_
  dsimp only
  split
  · exact .nothing _
  · exact .throw _
  · exact .nothing _

private theorem reads_skip : Reads known skip fun _ => [] := .modify fun _ => ⟨rfl, rfl, rfl⟩

private theorem reads_skipIf (t : Token) : Reads known (skipIf t) fun _ => [] := by
  refine reads_peek.bind fun next => ?_
  split
  · exact reads_skip.bind fun _ => .nothing _
  · exact .nothing _

private theorem reads_expect (t : Token) : Reads known (expect t) fun _ => [] := by
  refine (reads_skipIf t).bind fun found => ?_
  split
  · exact .fail
  · exact .nothing _

private theorem reads_isNext (ts : List Token) : Reads known (isNext ts) fun _ => [] :=
  reads_peek.bind fun _ => .nothing _

private theorem reads_fullTag (handle : Option String) (text : String) :
    Reads known (fullTag handle text) fun _ => [] := by
  unfold fullTag
  split
  · exact .nothing _
  · refine Reads.get.bind fun r => ?_
    split
    · exact .nothing _
    · exact .fail

private theorem reads_anchor? : Reads known anchor? fun _ => [] := by
  refine reads_peek.bind fun next => ?_
  split
  · exact reads_skip.bind fun _ => .nothing _
  · exact .nothing _

private theorem reads_tag? : Reads known tag? fun _ => [] := by
  refine reads_peek.bind fun next => ?_
  split
  · exact reads_skip.bind fun _ => .nothing _
  · exact .nothing _

private theorem reads_properties : Reads known properties fun _ => [] := by
  refine reads_anchor?.bind fun first => reads_tag?.bind fun tag => ?_
  have hanchor {k : Option String → NodeStep Properties}
      (hk : ∀ known anchor, Reads known (k anchor) fun _ => []) :
      Reads known (if first.isSome then pure first >>= k
        else if tag.isSome then anchor? >>= k else pure none >>= k) fun _ => [] :=
    .ite ((Reads.nothing first).bind (hk _)) (.either reads_anchor? (.nothing none) (hk _))
  refine hanchor fun known anchor => ?_
  split
  · exact (reads_fullTag _ _).bind fun _ => .nothing _
  · exact .nothing _

/-! ## Adding nodes -/

section Adding

variable {node : Node}

/-- Adding a node without parts adds its number. -/
theorem reads_add (h : node.content.parts = []) : Reads known (add node) fun n => [n] := by
  intro r n r' hr hadd
  obtain ⟨rfl, rfl⟩ := Prod.mk.inj (Except.ok.inj hadd)
  refine ⟨⟨⟨hr.nodes.push h, fun e he => ?_⟩, ?_, id⟩, ?_⟩
  · exact Nat.lt_of_lt_of_le (hr.anchors e he) (by simp)
  · simp
  · exact List.forall_mem_singleton.mpr (.inr ⟨by simp, fun _ => Nat.le_refl _⟩)

private theorem reads_emptyNode : Reads known emptyNode fun n => [n] := reads_add rfl

/-- Adding a node and noting it under an anchor adds its number. -/
theorem reads_anchored (h : node.content.parts = []) (name : String) :
    Reads known (do
      let number ← add node
      modify fun r => { r with anchors := (name, number) :: r.anchors }
      return number) fun n => [n] := by
  intro r n r' hr hrun
  obtain ⟨rfl, rfl⟩ := Prod.mk.inj (Except.ok.inj hrun)
  obtain ⟨honward, hadded⟩ := (reads_add h : Reads known _ _) r _ _ hr rfl
  refine ⟨⟨⟨honward.sound.nodes, ?_⟩, honward.size, honward.aliased⟩, hadded⟩
  exact List.forall_mem_cons.mpr ⟨by simp, honward.sound.anchors⟩

private theorem reads_named (h : node.content.parts = []) (p : Properties) :
    Reads known (named p node) fun n => [n] := by
  unfold named
  split
  · exact reads_add h
  · exact Reads.get.bind fun r => .check .fail (reads_anchored h _)

private theorem reads_emptyWith (p : Properties) : Reads known (emptyWith p) fun n => [n] := by
  rw [emptyWith]
  split
  · exact .fail
  · exact reads_named rfl p

/-- An alias stands for a node that is there. -/
theorem reads_nodeUnder (name : String) : Reads known (nodeUnder name) fun n => [n] := by
  intro r n r' hr h
  unfold nodeUnder at h
  obtain ⟨_, _, hget, h⟩ := exists_of_step_eq_ok h
  obtain ⟨rfl, rfl⟩ := Prod.mk.inj (Except.ok.inj hget)
  cases hlookup : r.anchors.lookup name with
  | none =>
    rw [hlookup] at h
    cases h
  | some number =>
    rw [hlookup] at h
    obtain ⟨rfl, rfl⟩ := Prod.mk.inj (Except.ok.inj h)
    obtain ⟨before, rest, hanchors, -⟩ := List.lookup_eq_some_iff.mp hlookup
    have hnumber : number < r.nodes.size := hr.anchors (name, number) (by rw [hanchors]; simp)
    refine ⟨⟨⟨hr.nodes.withAlias, hr.anchors⟩, Nat.le_refl _, nofun⟩, ?_⟩
    exact List.forall_mem_singleton.mpr (.inr ⟨hnumber, nofun⟩)

end Adding

/-! ## Collections -/

section Collections

variable {items : NodeStep α} {content : α → NodeContent} {parts : α → List Nat}

private theorem reads_inside (h : Reads known items parts) : Reads known (inside items) parts := by
  refine Reads.get.bind fun r => .check (.throw _) ?_
  refine .bind (.modify fun _ => ⟨rfl, rfl, rfl⟩) fun _ => h.bind fun a => ?_
  refine .bind (.modify fun _ => ⟨rfl, rfl, rfl⟩) fun _ => .pure fun n hn => ?_
  exact List.mem_append_left known hn

/-- A collection gets its number before its parts get theirs. -/
theorem reads_collection (p : Properties) (tag : String) {start : NodeContent}
    (hstart : start.parts = []) (h : Reads [] items fun a => (content a).parts) :
    Reads known (do
      let number ← named p ⟨tag, start⟩
      setContent number (content (← inside items))
      return number) fun n => [n] := by
  intro r n r' hr hrun
  obtain ⟨number, r₁, hnamed, hrun⟩ := exists_of_step_eq_ok hrun
  obtain ⟨a, r₂, hitems, hrun⟩ := exists_of_step_eq_ok hrun
  obtain ⟨rfl, rfl⟩ := Prod.mk.inj (Except.ok.inj hrun)
  obtain ⟨hfirst, hnumber⟩ := (reads_named hstart p : Reads [] _ _) r _ _ hr hnamed
  obtain ⟨hsecond, hparts⟩ := reads_inside h r₁ a r₂ hfirst.sound hitems
  have hnumber : Added r r₁ number := (List.forall_mem_singleton.mp hnumber).resolve_left nofun
  have hwritten : Onward r₂ { r₂ with nodes := r₂.nodes.modify number fun node =>
      { node with content := content a } } := by
    refine ⟨⟨hsecond.sound.nodes.modify fun _ _ part hpart => ?_, ?_⟩, by simp, id⟩
    · have hadded : Added r₁ r₂ part := (hparts part hpart).resolve_left nofun
      exact ⟨hadded.1, fun hplain => Nat.lt_of_lt_of_le hnumber.1 (hadded.2 hplain)⟩
    · simpa using hsecond.sound.anchors
  exact ⟨hfirst.trans (hsecond.trans hwritten),
    List.forall_mem_singleton.mpr (.inr (hnumber.later (hsecond.trans hwritten)))⟩

/-- Reading a sequence adds its number. -/
theorem reads_sequenceOf (p : Properties) {items : NodeStep (List Nat)}
    (h : Reads [] items fun ns => (NodeContent.sequence ns).parts) :
    Reads known (sequenceOf p items) fun n => [n] :=
  reads_collection p _ rfl h

/-- Reading a mapping adds its number. -/
theorem reads_mappingOf (p : Properties) {entries : NodeStep (List (Nat × Nat))}
    (h : Reads [] entries fun es => (NodeContent.mapping es).parts) :
    Reads known (mappingOf p entries) fun n => [n] :=
  reads_collection p _ rfl h

end Collections

/-! ## Documents -/

/-- Reading with some fuel adds the numbers of what is read. -/
structure ReadsWith (fuel : Nat) : Prop where
  node : ∀ {known} place, Reads known (node fuel place) fun n => [n]
  nodeUnless : ∀ {known} ends place, Reads known (nodeUnless fuel ends place) fun n => [n]
  blockItems : ∀ {known}, Reads known (blockItems fuel) fun ns => (NodeContent.sequence ns).parts
  looseEntries : ∀ {known},
    Reads known (looseEntries fuel) fun ns => (NodeContent.sequence ns).parts
  blockEntries : ∀ {known}, Reads known (blockEntries fuel) fun es => (NodeContent.mapping es).parts
  flowItems : ∀ {known} first,
    Reads known (flowItems fuel first) fun ns => (NodeContent.sequence ns).parts
  flowEntries : ∀ {known} first,
    Reads known (flowEntries fuel first) fun es => (NodeContent.mapping es).parts

variable {fuel : Nat}

private theorem ReadsWith.read_node (h : ReadsWith fuel) (place : Place) :
    Reads known (NodeReader.node (fuel + 1) place) fun n => [n] := by
  unfold NodeReader.node
  refine reads_peek.bind fun next => ?_
  split
  · exact reads_skip.bind fun _ => reads_nodeUnder _
  · refine reads_properties.bind fun p => reads_peek.bind fun next => ?_
    split
    · split
      · exact reads_emptyWith p
      · exact reads_sequenceOf p h.looseEntries
    · exact reads_skip.bind fun _ => reads_named rfl p
    · exact reads_skip.bind fun _ => reads_sequenceOf p (h.flowItems true)
    · exact reads_skip.bind fun _ => reads_mappingOf p (h.flowEntries true)
    · split
      · exact reads_emptyWith p
      · exact reads_skip.bind fun _ => reads_sequenceOf p h.blockItems
    · split
      · exact reads_emptyWith p
      · exact reads_skip.bind fun _ => reads_mappingOf p h.blockEntries
    · exact reads_emptyWith p

private theorem ReadsWith.read_nodeUnless (h : ReadsWith fuel) (ends : List Token) (place : Place) :
    Reads known (NodeReader.nodeUnless (fuel + 1) ends place) fun n => [n] := by
  unfold NodeReader.nodeUnless
  refine (reads_isNext ends).bind fun ended => ?_
  split
  · exact reads_emptyNode
  · exact h.node place

/-- The numbers of an item and of what comes behind it. -/
theorem mem_sequence_cons {item : Nat} {rest : List Nat} :
    ∀ n ∈ (NodeContent.sequence (item :: rest)).parts,
      n ∈ (NodeContent.sequence rest).parts ++ ([item] ++ known) := by
  simp [NodeContent.parts]
  grind

private theorem mem_mapping_cons {k v : Nat} {rest : List (Nat × Nat)} :
    ∀ n ∈ (NodeContent.mapping ((k, v) :: rest)).parts,
      n ∈ (NodeContent.mapping rest).parts ++ ([v] ++ ([k] ++ known)) := by
  simp [NodeContent.parts]
  grind

private theorem ReadsWith.read_blockItems (h : ReadsWith fuel) :
    Reads known (NodeReader.blockItems (fuel + 1))
      fun ns => (NodeContent.sequence ns).parts := by
  unfold NodeReader.blockItems
  refine (reads_skipIf _).bind fun found => ?_
  split
  · exact (h.nodeUnless _ _).bind fun item => h.blockItems.bind fun rest =>
      .pure mem_sequence_cons
  · exact (reads_expect _).bind fun _ => .pure nofun

private theorem ReadsWith.read_looseEntries (h : ReadsWith fuel) :
    Reads known (NodeReader.looseEntries (fuel + 1))
      fun ns => (NodeContent.sequence ns).parts := by
  unfold NodeReader.looseEntries
  refine (reads_skipIf _).bind fun found => ?_
  split
  · exact (h.nodeUnless _ _).bind fun item => h.looseEntries.bind fun rest =>
      .pure mem_sequence_cons
  · exact .pure nofun

private theorem ReadsWith.read_blockEntries (h : ReadsWith fuel) :
    Reads known (NodeReader.blockEntries (fuel + 1))
      fun es => (NodeContent.mapping es).parts := by
  unfold NodeReader.blockEntries
  refine (reads_skipIf _).bind fun found => ?_
  split
  · refine (h.nodeUnless _ _).bind fun k => (reads_skipIf _).bind fun hasValue => ?_
    exact .either (h.nodeUnless _ _) reads_emptyNode fun v => h.blockEntries.bind fun rest =>
      .pure mem_mapping_cons
  · exact (reads_expect _).bind fun _ => .pure nofun

private theorem ReadsWith.read_flowItems (h : ReadsWith fuel) (first : Bool) :
    Reads known (NodeReader.flowItems (fuel + 1) first)
      fun ns => (NodeContent.sequence ns).parts := by
  unfold NodeReader.flowItems
  refine (reads_skipIf _).bind fun ended => ?_
  split
  · exact .pure nofun
  · refine .check (reads_expect _) ((reads_skipIf _).bind fun ended => ?_)
    split
    · exact .pure nofun
    · refine (reads_skipIf _).bind fun paired => ?_
      split
      · refine (reads_mappingOf _ ?_).bind fun item => (h.flowItems false).bind fun rest =>
          .pure mem_sequence_cons
        refine (h.nodeUnless _ _).bind fun k => (reads_skipIf _).bind fun hasValue => ?_
        exact .either (h.nodeUnless _ _) reads_emptyNode fun v => .pure mem_mapping_cons
      · exact (h.node _).bind fun item => (h.flowItems false).bind fun rest =>
          .pure mem_sequence_cons

private theorem ReadsWith.read_flowEntries (h : ReadsWith fuel) (first : Bool) :
    Reads known (NodeReader.flowEntries (fuel + 1) first)
      fun es => (NodeContent.mapping es).parts := by
  unfold NodeReader.flowEntries
  refine (reads_skipIf _).bind fun ended => ?_
  split
  · exact .pure nofun
  · refine .check (reads_expect _) ((reads_skipIf _).bind fun ended => ?_)
    split
    · exact .pure nofun
    · refine (reads_skipIf _).bind fun keyed => ?_
      split
      · refine (h.nodeUnless _ _).bind fun k => (reads_skipIf _).bind fun hasValue => ?_
        exact .either (h.nodeUnless _ _) reads_emptyNode fun v =>
          (h.flowEntries false).bind fun rest => .pure mem_mapping_cons
      · exact (h.node _).bind fun k => reads_emptyNode.bind fun v =>
          (h.flowEntries false).bind fun rest => .pure mem_mapping_cons

private theorem readsWith (fuel : Nat) : ReadsWith fuel := by
  induction fuel with
  | zero =>
    constructor <;> intros <;> exact .fail
  | succ fuel ih =>
    exact ⟨ih.read_node, ih.read_nodeUnless, ih.read_blockItems, ih.read_looseEntries,
      ih.read_blockEntries, ih.read_flowItems, ih.read_flowEntries⟩

private theorem reads_directives (fuel : Nat) (versioned : Bool) (handles : List String) :
    Reads known (directives fuel versioned handles) fun _ => [] := by
  induction fuel generalizing known versioned handles with
  | zero => exact .fail
  | succ fuel ih =>
    unfold directives
    refine reads_peek.bind fun next => ?_
    split
    · exact .check .fail (reads_skip.bind fun _ => (ih _ _).bind fun _ => .nothing _)
    · refine .check .fail (reads_skip.bind fun _ => ?_)
      exact .bind (.modify fun _ => ⟨rfl, rfl, rfl⟩) fun _ => (ih _ _).bind fun _ => .nothing _
    · exact reads_skip.bind fun _ => (ih _ _).bind fun _ => .nothing _
    · exact .nothing _

private theorem reads_skipEnds (fuel : Nat) : Reads known (skipEnds fuel) fun _ => [] := by
  induction fuel generalizing known with
  | zero => exact .nothing _
  | succ fuel ih =>
    unfold skipEnds
    refine (reads_skipIf _).bind fun ended => ?_
    split
    · exact ih
    · exact .nothing _

private theorem reads_finish (fuel : Nat) : Reads known (document.finish fuel) fun _ => [] := by
  refine (reads_skipEnds fuel).bind fun _ => reads_peek.bind fun next => ?_
  split
  · exact .fail
  · exact .nothing _

/-- The outermost node of a document is one of those that were read. -/
theorem reads_document (fuel : Nat) : Reads known (document fuel) Option.toList := by
  unfold document
  have hfinish (known : List Nat) (n : Nat) :
      Reads ([n] ++ known) (do document.finish fuel; return some n) Option.toList :=
    (reads_finish fuel).bind fun _ => .pure (by simp)
  have hnode {known : List Nat} : Reads known (node fuel .block) fun n => [n] :=
    (readsWith fuel).node _
  refine reads_peek.bind fun next => .ite (hnode.bind (hfinish _)) ?_
  refine (reads_skipEnds fuel).bind fun _ => reads_peek.bind fun next => .ite (.pure nofun) ?_
  refine (reads_directives _ _ _).bind fun _ => (reads_expect _).bind fun _ => ?_
  exact reads_peek.bind fun next => .either hnode reads_emptyNode (hfinish _)

end NodeReader

/-- The outermost node is there, and so are all parts of nodes. -/
structure NodeGraph.Sound (g : NodeGraph) : Prop where
  root : g.root < g.nodes.size
  parts : PartsLead g.aliased g.nodes

/-- The nodes of a text are sound. -/
theorem NodeGraph.sound_ofText? (s : List Char) :
    Yields (fun g? => ∀ g ∈ g?, g.Sound) (NodeGraph.ofText? s) := by
  intro g? h
  unfold NodeGraph.ofText? at h
  obtain ⟨⟨root, after⟩, hrun, h⟩ := exists_of_bind_eq_ok h
  obtain rfl := Except.ok.inj h
  obtain ⟨honward, hroot⟩ := (NodeReader.reads_document _ : NodeReader.Reads [] _ _) _ _ _
    ⟨.empty, fun _ he => absurd he List.not_mem_nil⟩ hrun
  intro g hg
  obtain ⟨number, rfl, rfl⟩ := Option.map_eq_some_iff.mp hg
  exact ⟨((hroot number (by simp)).resolve_left nofun).1, honward.sound.nodes⟩

end BindGen.Yaml
