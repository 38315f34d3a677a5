import BindGen.Proofs.Interface.Folding
import BindGen.Proofs.Interface.InPlace

/-!
# What folding leaves alone

An interface is a list of entries: declarations, each at a place that its kind and name tell, a
member's under its object. Adding an item leaves all entries in place but the one at the place that
the item designates, which may be new. An item that does not fit changes nothing, so a group that
does not fit leaves the interface with the items in front of the first that fails.
-/

namespace BindGen

namespace Table

variable {α : Type}

/-- A key that is found has an entry, which a write replaces. -/
theorem exists_put_of_find?_some {t : Table α} {key : Scalar} {old : α}
    (h : find? t key = some old) :
    ∃ front k back, t = front ++ (k, old) :: back ∧ k.same key = true ∧
      ∀ v, put t key v = front ++ (k, v) :: back := by
  induction t with
  | nil => cases h
  | cons e rest ih =>
    obtain ⟨k, w⟩ := e
    unfold find? at h
    by_cases hk : k.same key
    · rw [if_pos hk] at h
      cases h
      exact ⟨[], k, rest, rfl, hk, fun v => by rw [put, if_pos hk]; rfl⟩
    · rw [if_neg hk] at h
      obtain ⟨front, k', back, rfl, hk', hput⟩ := ih h
      exact ⟨(k, w) :: front, k', back, rfl, hk', fun v => by rw [put, if_neg hk, hput]; rfl⟩

end Table

namespace Interface

/-! ## Places and entries -/

/-- Where an interface files a declaration: under a key of the table of its kind, a member under its
object and its own key. -/
inductive Place where
  | function (name : Scalar)
  | record (name : Scalar)
  | enum (name : Scalar)
  | callbackInterface (name : Scalar)
  | customType (name : Scalar)
  | object (name : Scalar)
  | constructor (object name : Scalar)
  | method (object name : Scalar)

/-- The entries of a table. -/
def filed {α : Type} (place : Scalar → Place) (item : α → Item) (t : Table α) :
    List (Place × Item) :=
  t.map fun e => (place e.1, item e.2)

/-- The declaration of an object, then its members. -/
def objectEntries (e : Scalar × ObjectDefinition) : List (Place × Item) :=
  (.object e.1, .object e.2.declaration) ::
    (filed (.constructor e.1) .constructor e.2.constructors
      ++ filed (.method e.1) .method e.2.methods)

/-- The entries of the table that keeps a kind; members are kept in that of their objects. -/
def entriesOf (i : Interface) : Kind → List (Place × Item)
  | .function => filed .function .function i.functions
  | .record => filed .record .record i.records
  | .enum => filed .enum .enum i.enums
  | .callbackInterface => filed .callbackInterface .callbackInterface i.callbackInterfaces
  | .customType => filed .customType .customType i.customTypes
  | .object => i.objects.flatMap objectEntries
  | _ => []

/-- All that is declared in an interface, table by table in the order of the keys. -/
def allEntries (i : Interface) : List (Place × Item) :=
  [.function, .record, .enum, .callbackInterface, .customType, .object].flatMap i.entriesOf

end Interface

/-- Whether a key is the one that a value is. -/
def Value.isKey (v : Value) (key : Scalar) : Bool := v.scalar?.any key.same

/-- Whether a place is the one that an item designates by its kind and name, and by the name of its
object if it is a member. -/
def Item.designates : Item → Interface.Place → Bool
  | function d, .function key => d.name.isKey key
  | record d, .record key => d.name.isKey key
  | enum d, .enum key => d.name.isKey key
  | callbackInterface d, .callbackInterface key => d.name.isKey key
  | customType d, .customType key => d.name.isKey key
  | object d, .object key => d.name.isKey key
  | constructor d, .constructor owner key => d.selfName.isKey owner && d.name.isKey key
  | method d, .method owner key => d.selfName.isKey owner && d.name.isKey key
  | _, _ => false

/-- The kind whose table an item goes to. -/
def Item.tableKind : Item → Kind
  | constructor _ => .object
  | method _ => .object
  | item => item.kind

namespace Interface

variable {α : Type} {p : Place → Bool} {i i' : Interface} {item : Item}

/-! ## Changes at a place -/

/-- No entry stands at a place of a class. -/
def Without (p : Place → Bool) (entries : List (Place × Item)) : Prop :=
  ∀ e ∈ entries, p e.1 = false

/-- What changes of entries, if anything: one more stands at a place of a class that held none, or
the one at such a place is replaced. -/
inductive ChangesAt (p : Place → Bool) (before after : List (Place × Item)) : Prop where
  | kept (h : after = before)
  | added (front back : List (Place × Item)) (place : Place) (a : Item) (hp : p place = true)
    (hnew : Without p before) (hbefore : before = front ++ back)
    (hafter : after = front ++ (place, a) :: back)
  | replaced (front back : List (Place × Item)) (place : Place) (old new : Item)
    (hp : p place = true) (hbefore : before = front ++ (place, old) :: back)
    (hafter : after = front ++ (place, new) :: back)

private theorem without_append {l r : List (Place × Item)} :
    Without p (l ++ r) ↔ Without p l ∧ Without p r := List.forall_mem_append

private theorem without_filed {place : Scalar → Place} (h : ∀ key, p (place key) = false)
    (item : α → Item) (t : Table α) : Without p (filed place item t) := by
  intro e he
  obtain ⟨x, -, rfl⟩ := List.mem_map.mp he
  exact h x.1

private theorem without_objectEntries {key : Scalar} (hobject : p (.object key) = false)
    (hconstructor : ∀ c, p (.constructor key c) = false)
    (hmethod : ∀ m, p (.method key m) = false) (o : ObjectDefinition) :
    Without p (objectEntries (key, o)) := by
  unfold objectEntries
  rw [← List.singleton_append, without_append, without_append]
  exact ⟨List.forall_mem_singleton.mpr hobject, without_filed hconstructor _ _,
    without_filed hmethod _ _⟩

private theorem without_objects {t : Table ObjectDefinition}
    (h : ∀ e ∈ t, Without p (objectEntries e)) : Without p (t.flatMap objectEntries) := by
  intro e he
  obtain ⟨x, hx, he⟩ := List.mem_flatMap.mp he
  exact h x hx e he

namespace ChangesAt

variable {before after : List (Place × Item)}

/-- A change behind other entries. -/
theorem append_left (h : ChangesAt p before after) (front : List (Place × Item))
    (hfront : Without p front) : ChangesAt p (front ++ before) (front ++ after) := by
  cases h with
  | kept h => exact .kept (by rw [h])
  | added f b place a hp hnew hbefore hafter =>
    apply added (front ++ f) b place a hp (without_append.mpr ⟨hfront, hnew⟩)
    · rw [hbefore, List.append_assoc]
    · rw [hafter, List.append_assoc]
  | replaced f b place old new hp hbefore hafter =>
    apply replaced (front ++ f) b place old new hp
    · rw [hbefore, List.append_assoc]
    · rw [hafter, List.append_assoc]

/-- A change in front of other entries. -/
theorem append_right (h : ChangesAt p before after) {back : List (Place × Item)}
    (hback : Without p back) : ChangesAt p (before ++ back) (after ++ back) := by
  cases h with
  | kept h => exact .kept (by rw [h])
  | added f b place a hp hnew hbefore hafter =>
    apply added f (b ++ back) place a hp (without_append.mpr ⟨hnew, hback⟩)
    · rw [hbefore, List.append_assoc]
    · rw [hafter, List.append_assoc, List.cons_append]
  | replaced f b place old new hp hbefore hafter =>
    apply replaced f (b ++ back) place old new hp
    · rw [hbefore, List.append_assoc, List.cons_append]
    · rw [hafter, List.append_assoc, List.cons_append]

/-- A change in one of several lists. -/
theorem flatMap {κ : Type} {f f' : κ → List (Place × Item)} {one : κ}
    (h : ChangesAt p (f one) (f' one)) (hother : ∀ k, k ≠ one → Without p (f k) ∧ f' k = f k)
    {ks : List κ} (hks : ks.Nodup) : ChangesAt p (ks.flatMap f) (ks.flatMap f') := by
  induction ks with
  | nil => exact .kept rfl
  | cons k rest ih =>
    obtain ⟨hk, hrest⟩ := List.nodup_cons.mp hks
    rw [List.flatMap_cons, List.flatMap_cons]
    by_cases he : k = one
    · subst he
      have hsame : rest.flatMap f' = rest.flatMap f :=
        List.flatMap_congr fun l hl => (hother l (ne_of_mem_of_not_mem hl hk)).2
      have hnone : Without p (rest.flatMap f) := by
        intro e hm
        obtain ⟨l, hl, hm⟩ := List.mem_flatMap.mp hm
        exact (hother l (ne_of_mem_of_not_mem hl hk)).1 e hm
      rw [hsame]
      exact h.append_right hnone
    · rw [(hother k he).2]
      exact (ih hrest).append_left (f k) (hother k he).1

end ChangesAt

/-! ## Tables of declarations -/

private theorem isKey_of_asKey {v : Value} {key : Scalar} (h : orFault v.asKey = .ok key)
    (k : Scalar) :
    v.isKey k = k.same key := by
  rw [eq_scalar_of_asKey h]
  rfl

/-- A write to a table changes the entry of its key. -/
theorem changesAt_put {place : Scalar → Place} {key : Scalar}
    (hp : ∀ k, p (place k) = k.same key) (item : α → Item) (t : Table α) (d : α) :
    ChangesAt p (filed place item t) (filed place item (t.put key d)) := by
  cases hf : t.find? key with
  | none =>
    apply ChangesAt.added (filed place item t) [] (place key) (item d)
    · rw [hp, Scalar.same_refl]
    · intro e he
      obtain ⟨x, hx, rfl⟩ := List.mem_map.mp he
      rw [hp]
      exact Table.find?_eq_none_iff.mp hf x hx
    · rw [List.append_nil]
    · rw [Table.put_of_find?_none hf]
      simp [filed]
  | some old =>
    obtain ⟨front, k, back, rfl, hk, hput⟩ := Table.exists_put_of_find?_some hf
    apply ChangesAt.replaced (filed place item front) (filed place item back) (place k) (item old)
      (item d)
    · rw [hp, hk]
    · simp [filed]
    · simp [filed, hput]

/-- A declaration changes the entry of its name in the table. -/
theorem changesAt_declare [Declaration α] {t t' : Table α} {name : Value} {d : α} {label : String}
    (place : Scalar → Place) (hp : ∀ k, p (place k) = name.isKey k) (item : α → Item)
    (h : declare t name d label = .ok t') :
    ChangesAt p (filed place item t) (filed place item t') := by
  unfold declare at h
  obtain ⟨key, hkey, h⟩ := exists_of_bind_eq_ok h
  have hplace (k : Scalar) : p (place k) = k.same key := (hp k).trans (isKey_of_asKey hkey k)
  cases hf : t.find? key with
  | none =>
    rw [hf] at h
    cases h
    exact changesAt_put hplace item t d
  | some existing =>
    rw [hf] at h
    dsimp only at h
    cases hm : Declaration.merge? existing d with
    | none =>
      rw [hm] at h
      cases h
    | some merged =>
      rw [hm] at h
      cases h
      exact changesAt_put hplace item t merged

/-! ## Tables of objects -/

/-- The entries of objects change as those of the object under a key do. -/
theorem changesAt_objects {t : Table ObjectDefinition} {key : Scalar} {o o' : ObjectDefinition}
    (hd : t.Distinct) (hf : t.find? key = some o)
    (hother : ∀ k x, k.same key = false → Without p (objectEntries (k, x)))
    (hown : ∀ k, k.same key = true → ChangesAt p (objectEntries (k, o)) (objectEntries (k, o'))) :
    ChangesAt p (t.flatMap objectEntries) ((t.put key o').flatMap objectEntries) := by
  obtain ⟨front, k, back, rfl, hk, hput⟩ := Table.exists_put_of_find?_some hf
  obtain ⟨-, hpair, hcross⟩ := List.pairwise_append.mp hd
  have hfront : ∀ e ∈ front, e.1.same key = false := by
    intro e he
    rw [Scalar.same_comm, ← Scalar.same_congr_left hk, Scalar.same_comm]
    exact hcross e he (k, o) List.mem_cons_self
  have hback : ∀ e ∈ back, e.1.same key = false := by
    intro e he
    rw [Scalar.same_comm, ← Scalar.same_congr_left hk]
    exact List.rel_of_pairwise_cons hpair he
  simp only [hput, List.flatMap_append, List.flatMap_cons]
  apply ChangesAt.append_left
  · apply (hown k hk).append_right
    exact without_objects fun e he => hother e.1 e.2 (hback e he)
  · exact without_objects fun e he => hother e.1 e.2 (hfront e he)

/-- Declaring an object changes its own entry. -/
theorem changesAt_declareObject {t t' : Table ObjectDefinition} {d : ObjectDecl}
    (hd : t.Distinct) (h : declareObject t d = .ok t') :
    ChangesAt (Item.object d).designates (t.flatMap objectEntries)
      (t'.flatMap objectEntries) := by
  unfold declareObject at h
  obtain ⟨key, hkey, h⟩ := exists_of_bind_eq_ok h
  have hname := isKey_of_asKey hkey
  have hother (k : Scalar) (x : ObjectDefinition) (hk : k.same key = false) :
      Without (Item.object d).designates (objectEntries (k, x)) := by
    apply without_objectEntries
    · exact (hname k).trans hk
    · exact fun _ => rfl
    · exact fun _ => rfl
  cases hf : t.find? key with
  | none =>
    rw [hf] at h
    cases h
    apply ChangesAt.added (t.flatMap objectEntries) [] (.object key) (.object d)
    · exact (hname key).trans (Scalar.same_refl key)
    · exact without_objects fun e he => hother e.1 e.2 (Table.find?_eq_none_iff.mp hf e he)
    · rw [List.append_nil]
    · rw [Table.put_of_find?_none hf]
      simp [objectEntries, filed]
  | some o =>
    rw [hf] at h
    dsimp only at h
    cases hm : Declaration.merge? o.declaration d with
    | none =>
      rw [hm] at h
      cases h
    | some merged =>
      rw [hm] at h
      cases h
      apply changesAt_objects hd hf hother
      intro k hk
      exact .replaced [] _ (.object k) _ (.object merged) ((hname k).trans hk) rfl rfl

/-- Replacing the constructors of an object changes what they change. -/
theorem changesAt_constructors {key : Scalar} {o : ObjectDefinition} {t : Table ConstructorDecl}
    (h : ChangesAt p (filed (.constructor key) .constructor o.constructors)
      (filed (.constructor key) .constructor t))
    (hobject : p (.object key) = false) (hmethod : ∀ m, p (.method key m) = false) :
    ChangesAt p (objectEntries (key, o)) (objectEntries (key, { o with constructors := t })) := by
  have hmembers := h.append_right (without_filed hmethod .method o.methods)
  exact hmembers.append_left [(.object key, .object o.declaration)]
    (List.forall_mem_singleton.mpr hobject)

/-- Replacing the methods of an object changes what they change. -/
theorem changesAt_methods {key : Scalar} {o : ObjectDefinition} {t : Table MethodDecl}
    (h : ChangesAt p (filed (.method key) .method o.methods) (filed (.method key) .method t))
    (hobject : p (.object key) = false) (hconstructor : ∀ c, p (.constructor key c) = false) :
    ChangesAt p (objectEntries (key, o)) (objectEntries (key, { o with methods := t })) := by
  have hmembers := h.append_left _ (without_filed hconstructor .constructor o.constructors)
  exact hmembers.append_left [(.object key, .object o.declaration)]
    (List.forall_mem_singleton.mpr hobject)

/-! ## Adding an item -/

/-- An item designates no place in a table of another kind. -/
theorem without_entriesOf {kind : Kind} (h : kind ≠ item.tableKind) :
    Without item.designates (i.entriesOf kind) := by
  have hfiled {α : Type} {place : Scalar → Place} {made : α → Item} {t : Table α}
      (h : ∀ key, item.designates (place key) = false) :
      Without item.designates (filed place made t) := without_filed h made t
  have hobjects (hobject : ∀ key, item.designates (.object key) = false)
      (hconstructor : ∀ key c, item.designates (.constructor key c) = false)
      (hmethod : ∀ key m, item.designates (.method key m) = false) :
      Without item.designates (i.objects.flatMap objectEntries) :=
    without_objects fun e _ =>
      without_objectEntries (hobject e.1) (hconstructor e.1) (hmethod e.1) e.2
  cases kind with
  | function =>
    apply hfiled
    intro key
    cases item <;> first | rfl | exact absurd rfl h
  | record =>
    apply hfiled
    intro key
    cases item <;> first | rfl | exact absurd rfl h
  | enum =>
    apply hfiled
    intro key
    cases item <;> first | rfl | exact absurd rfl h
  | callbackInterface =>
    apply hfiled
    intro key
    cases item <;> first | rfl | exact absurd rfl h
  | customType =>
    apply hfiled
    intro key
    cases item <;> first | rfl | exact absurd rfl h
  | object =>
    apply hobjects <;> intros <;> cases item <;> first | rfl | exact absurd rfl h
  | _ => exact List.forall_mem_nil _

/-- Adding an item leaves the tables of other kinds as they are. -/
theorem entriesOf_addItem {kind : Kind} (hk : kind ≠ item.tableKind)
    (h : i.addItem item = .ok i') : i'.entriesOf kind = i.entriesOf kind := by
  cases adds_of_addItem h <;> cases kind <;> first | rfl | exact absurd rfl hk

-- Changing the members of an object changes the entries of that object.
private theorem changesAt_owner {key : Scalar} {o o' : ObjectDefinition} {selfName : Value}
    {member : String} (hd : i.objects.Distinct) (ho : i.owner selfName member = .ok (key, o))
    (hobject : ∀ k, p (.object k) = false)
    (hconstructor : ∀ k c, p (.constructor k c) = true → selfName.isKey k = true)
    (hmethod : ∀ k m, p (.method k m) = true → selfName.isKey k = true)
    (hown : ∀ k, selfName.isKey k = true →
      ChangesAt p (objectEntries (k, o)) (objectEntries (k, o'))) :
    ChangesAt p (i.objects.flatMap objectEntries)
      ((i.objects.put key o').flatMap objectEntries) := by
  obtain ⟨rfl, hf⟩ := find?_of_owner_eq_ok ho
  apply changesAt_objects hd hf _ hown
  intro k x hk
  have hnot : ¬ (Value.scalar key).isKey k = true := Bool.eq_false_iff.mp hk
  apply without_objectEntries (hobject k)
  · exact fun c => Bool.eq_false_iff.mpr fun h => hnot (hconstructor k c h)
  · exact fun m => Bool.eq_false_iff.mpr fun h => hnot (hmethod k m h)

-- Adding an item changes the entry at the place that it designates, in the table of its kind.
private theorem changesAt_entriesOf (hd : i.objects.Distinct) (h : i.addItem item = .ok i') :
    ChangesAt item.designates (i.entriesOf item.tableKind) (i'.entriesOf item.tableKind) := by
  cases adds_of_addItem h with
  | namespaceDecl d => exact .kept rfl
  | udlFile d => exact .kept rfl
  | function hdeclare => exact changesAt_declare .function (fun _ => rfl) .function hdeclare
  | record hdeclare => exact changesAt_declare .record (fun _ => rfl) .record hdeclare
  | enum hdeclare => exact changesAt_declare .enum (fun _ => rfl) .enum hdeclare
  | callbackInterface hdeclare =>
    exact changesAt_declare .callbackInterface (fun _ => rfl) .callbackInterface hdeclare
  | customType hdeclare => exact changesAt_declare .customType (fun _ => rfl) .customType hdeclare
  | object hdeclare => exact changesAt_declareObject hd hdeclare
  | constructor ho hdeclare =>
    apply changesAt_owner hd ho
    · exact fun _ => rfl
    · exact fun k c hk => (Bool.and_eq_true_iff.mp hk).1
    · exact fun k m hk => absurd hk Bool.false_ne_true
    · intro k hk
      apply changesAt_constructors
      · apply changesAt_declare (.constructor k) _ .constructor hdeclare
        intro c
        show (Value.isKey _ k && Value.isKey _ c) = _
        rw [hk, Bool.true_and]
      · rfl
      · exact fun _ => rfl
  | method ho hdeclare =>
    apply changesAt_owner hd ho
    · exact fun _ => rfl
    · exact fun k c hk => absurd hk Bool.false_ne_true
    · exact fun k m hk => (Bool.and_eq_true_iff.mp hk).1
    · intro k hk
      apply changesAt_methods
      · apply changesAt_declare (.method k) _ .method hdeclare
        intro m
        show (Value.isKey _ k && Value.isKey _ m) = _
        rw [hk, Bool.true_and]
      · rfl
      · exact fun _ => rfl

/-- Adding an item leaves all entries but the one at the place that it designates. -/
theorem changesAt_addItem (hd : i.objects.Distinct) (h : i.addItem item = .ok i') :
    ChangesAt item.designates i.allEntries i'.allEntries := by
  apply ChangesAt.flatMap (changesAt_entriesOf hd h)
  · exact fun kind hk => ⟨without_entriesOf hk, entriesOf_addItem hk h⟩
  · decide

/-- Adding an item keeps objects apart. -/
theorem distinct_objects_addItem (hd : i.objects.Distinct) (h : i.addItem item = .ok i') :
    i'.objects.Distinct := by
  cases adds_of_addItem h with
  | object hdeclare =>
    unfold declareObject at hdeclare
    obtain ⟨key, -, hdeclare⟩ := exists_of_bind_eq_ok hdeclare
    cases hf : i.objects.find? key with
    | none =>
      rw [hf] at hdeclare
      cases hdeclare
      exact Table.distinct_put hd key _
    | some o =>
      rw [hf] at hdeclare
      dsimp only at hdeclare
      split at hdeclare
      · cases hdeclare
        exact Table.distinct_put hd key _
      · cases hdeclare
  | constructor => exact Table.distinct_put hd _ _
  | method => exact Table.distinct_put hd _ _
  | _ => exact hd

/-! ## A group that does not fit -/

/-- Items that do not fit have a first that does not. -/
theorem exists_failing_of_addItems {items : List Item} {e : ConflictError}
    (h : i.addItems items = (i', some e)) :
    ∃ before failing after, items = before ++ failing :: after ∧
      i.addItems before = (i', none) ∧ i'.addItem failing = .error e := by
  induction items generalizing i with
  | nil => cases h
  | cons item rest ih =>
    rw [addItems] at h
    cases hadd : i.addItem item with
    | error e' =>
      rw [hadd] at h
      cases h
      exact ⟨[], item, rest, rfl, rfl, hadd⟩
    | ok next =>
      rw [hadd] at h
      obtain ⟨before, failing, after, rfl, hbefore, hfails⟩ := ih h
      refine ⟨item :: before, failing, after, rfl, ?_, hfails⟩
      rw [addItems, hadd]
      exact hbefore

/-- Names that do not fit change nothing. -/
theorem setNamespace_eq_error {d : NamespaceDecl} {e : ConflictError}
    (h : i.setNamespace d = .error e) :
    i.namespaceName.isNull = false ∧ i.namespaceName.equals d.name = false ∧
      e = .namespaceMismatch d.crateName i.namespaceName d.name := by
  unfold setNamespace at h
  by_cases hnull : i.namespaceName.isNull
  · rw [if_pos hnull] at h
    cases h
  · rw [if_neg hnull] at h
    by_cases hsame : i.namespaceName.equals d.name
    · rw [if_pos hsame] at h
      cases h
    · rw [if_neg hsame] at h
      cases h
      exact ⟨Bool.eq_false_iff.mpr hnull, Bool.eq_false_iff.mpr hsame, rfl⟩

private theorem addItem_of_run_eq_error {e : ConflictError}
    (h : (takeItem item).run i = .error e i') : i' = i ∧ i.addItem item = .error e := by
  rw [run_takeItem] at h
  cases hadd : i.addItem item with
  | ok next =>
    rw [hadd] at h
    cases h
  | error e' =>
    rw [hadd] at h
    cases h
    exact ⟨rfl, rfl⟩

private theorem addItem_of_run_eq_ok (h : (takeItem item).run i = .ok () i') :
    i.addItem item = .ok i' := by
  rw [run_takeItem] at h
  cases hadd : i.addItem item with
  | ok next =>
    rw [hadd] at h
    cases h
    rfl
  | error e' =>
    rw [hadd] at h
    cases h

private theorem addGroup_of_run_eq_error {g : Group} {e : ConflictError}
    (h : (takeGroup g).run i = .error e i') : i.addGroup g = (i', some e) := by
  rw [run_takeGroup] at h
  cases hgroup : i.addGroup g with
  | mk reached stop =>
    rw [hgroup] at h
    cases stop with
    | none => cases h
    | some e' =>
      cases h
      rfl

/-- What folding changes in place. An item that does not fit changes nothing. An item that fits
changes no name, leaves objects apart, and changes at most the entry of the place that it
designates. A group that does not fit is of another namespace and changes nothing, or leaves the
interface that has taken the names and, with success, the items in front of the first that fails in
fold order. -/
theorem take_frame (i : Interface) :
    (∀ item e i', (takeItem item).run i = .error e i' → i' = i ∧ i.addItem item = .error e) ∧
      (i.objects.Distinct → ∀ item i', (takeItem item).run i = .ok () i' →
        i.addItem item = .ok i' ∧
          i'.namespaceName = i.namespaceName ∧ i'.crateName = i.crateName ∧ i'.objects.Distinct ∧
          ChangesAt item.designates i.allEntries i'.allEntries) ∧
      ∀ g e i', (takeGroup g).run i = .error e i' →
        i.addGroup g = (i', some e) ∧
          ((i.namespaceName.isNull = false ∧ i.namespaceName.equals g.declared.name = false ∧
              e = .namespaceMismatch g.declared.crateName i.namespaceName g.declared.name ∧
              i' = i) ∨
            ∃ named before item after, (takeNames g.declared).run i = .ok () named ∧
              inFoldOrder g.items = before ++ item :: after ∧
              (forM before takeItem).run named = .ok () i' ∧
              (takeItem item).run i' = .error e i') := by
  refine ⟨?_, ?_, ?_⟩
  · intro item e i' h
    exact addItem_of_run_eq_error h
  · intro hd item i' h
    have hadd := addItem_of_run_eq_ok h
    obtain ⟨hname, hcrate⟩ := names_addItem hadd
    exact ⟨hadd, hname, hcrate, distinct_objects_addItem hd hadd, changesAt_addItem hd hadd⟩
  · intro g e i' h
    have hgroup := addGroup_of_run_eq_error h
    refine ⟨hgroup, ?_⟩
    unfold addGroup at hgroup
    cases hnames : i.setNamespace g.declared with
    | error e' =>
      rw [hnames] at hgroup
      cases hgroup
      obtain ⟨hnull, hdiffers, he⟩ := setNamespace_eq_error hnames
      exact .inl ⟨hnull, hdiffers, he, rfl⟩
    | ok named =>
      rw [hnames] at hgroup
      obtain ⟨before, item, after, horder, hbefore, hfails⟩ := exists_failing_of_addItems hgroup
      refine .inr ⟨named, before, item, after, ?_, horder, ?_, ?_⟩
      · rw [run_takeNames, hnames]
        rfl
      · rw [run_forM_takeItem, hbefore]
        rfl
      · rw [run_takeItem, hfails]
        rfl

/-- A method without arguments. -/
def methodItem (object name result : String) : Item :=
  .method ⟨.text "demo", .text object, .text name, [], .text result, .null, .bool false, .null⟩

/-- An interface with an object that has a method. -/
def withShape : Interface :=
  { empty with
    namespaceName := .text "demo"
    crateName := .text "demo"
    objects := [(.text "Shape", ⟨⟨.text "demo", .text "Shape", .null⟩, [],
      [(.text "area", ⟨.text "demo", .text "Shape", .text "area", [], .text "f64", .null,
        .bool false, .null⟩)]⟩)] }

/-- A group with a method of an unknown object, in front of a record that is folded before it. -/
def withStranger : Group :=
  ⟨⟨.text "demo", .text "demo"⟩,
    [methodItem "Other" "area" "f64", .record ⟨.text "demo", .text "Point", [], .null⟩]⟩

/-- A method that conflicts leaves the interface as it was, and one that is new changes its own
entry alone. A group with a method of an unknown object fails there and has taken what stands before
it. -/
theorem take_frame_withShape :
    (∃ e i', (takeItem (methodItem "Shape" "area" "i32")).run withShape = .error e i' ∧
        i' = withShape) ∧
      (∃ i', (takeItem (methodItem "Shape" "name" "string")).run withShape = .ok () i' ∧
        ChangesAt (methodItem "Shape" "name" "string").designates withShape.allEntries i'.allEntries) ∧
      ∃ e i', (takeGroup withStranger).run withShape = .error e i' ∧
        withShape.namespaceName.equals withStranger.declared.name = true ∧
        ∃ named before item after, (takeNames withStranger.declared).run withShape = .ok () named ∧
          inFoldOrder withStranger.items = before ++ item :: after ∧
          (forM before takeItem).run named = .ok () i' ∧ (takeItem item).run i' = .error e i' := by
  obtain ⟨hfails, hfits, hgroup⟩ := take_frame withShape
  have hunfit : ∃ e i', (takeItem (methodItem "Shape" "area" "i32")).run withShape = .error e i' :=
    ⟨_, _, rfl⟩
  have hfit : ∃ i', (takeItem (methodItem "Shape" "name" "string")).run withShape = .ok () i' :=
    ⟨_, rfl⟩
  have hstranger : ∃ e i', (takeGroup withStranger).run withShape = .error e i' := ⟨_, _, rfl⟩
  obtain ⟨e, i', herror⟩ := hunfit
  obtain ⟨fitted, hok⟩ := hfit
  obtain ⟨e', stopped, hstop⟩ := hstranger
  have hone : withShape.objects.Distinct := List.pairwise_singleton _ _
  have hsame : withShape.namespaceName.equals withStranger.declared.name = true := by decide
  refine ⟨⟨e, i', herror, (hfails _ e i' herror).1⟩, ⟨fitted, hok, ?_⟩, e', stopped, hstop, hsame, ?_⟩
  · exact (hfits hone _ fitted hok).2.2.2.2
  · rcases (hgroup withStranger e' stopped hstop).2 with ⟨-, hdiffers, -⟩ | hstops
    · rw [hsame] at hdiffers
      cases hdiffers
    · exact hstops

end Interface
end BindGen
