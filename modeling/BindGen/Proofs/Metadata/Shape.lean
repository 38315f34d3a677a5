import BindGen.Proofs.Metadata.Payload
import BindGen.Proofs.Value.Parts

/-!
# The shape of payloads

A payload is read exactly if it has the shape of its kind: the kind is one of the known ones, the
other keys are those of the kind and all that it requires are there, and what stands under the keys
of lists is a list of entries that have their names and types. What has another shape is refused
because of a value that is wrong, a key that is missing, or a value of a wrong type, and for no
other reason.
-/

namespace BindGen

/-- What stands under a key, if anything does, is a list of values that have a property. -/
def Payload.Lists (values : Table Value) (key : String) (P : Value → Prop) : Prop :=
  ∀ v, Table.find? values key = some v → v.IsListOf P

/-- A table that has keys of a kind only, and all that the kind requires. -/
structure Payload.HasKeys (kind : Kind) (values : Table Value) : Prop where
  known : ∀ key ∈ Table.keys values, ∃ known ∈ kind.keys, key = .text known
  required : ∀ key ∈ kind.requiredKeys, Table.has values (.text key) = true

/-- A named and typed slot. -/
def Field.IsPayload (v : Value) : Prop :=
  ∃ entries, v = .table entries ∧ Table.has entries "name" = true ∧
    Table.has entries "type" = true

/-- A named alternative that may have fields. -/
def Variant.IsPayload (v : Value) : Prop :=
  ∃ entries, v = .table entries ∧ Table.has entries "name" = true ∧
    Payload.Lists entries "fields" Field.IsPayload

/-- A function without a kind. -/
def FunctionDecl.IsPayload (v : Value) : Prop :=
  ∃ values, v = .table values ∧ Payload.HasKeys .function values ∧
    Payload.Lists values "inputs" Field.IsPayload

/-- A table without a kind that has the shape of a kind. -/
structure Item.HasShape (kind : Kind) (values : Table Value) : Prop
    extends Payload.HasKeys kind values where
  inputs : Payload.Lists values "inputs" Field.IsPayload
  fields : Payload.Lists values "fields" Field.IsPayload
  variants : Payload.Lists values "variants" Variant.IsPayload
  methods : Payload.Lists values "methods" FunctionDecl.IsPayload

/-- A table that names its kind and has the shape of that kind. -/
def Item.IsPayload (payload : Table Value) : Prop :=
  ∃ kind : Kind, Table.find? payload "kind" = some (.text kind.tag) ∧
    Item.HasShape kind (Table.remove payload "kind")

/-- An error for which a payload is refused: a wrong value, a missing key, or a value of a wrong
type. -/
def PayloadError.IsRefusal : PayloadError → Prop
  | .fault f => f.IsMisfit
  | _ => True

variable {P : Value → Prop} {v : Value} {values : Table Value} {kind : Kind} {key : String}

/-! ## Parts and lists -/

namespace Value

private theorem refusal_part :
    FailsWith PayloadError.IsRefusal ((v.part key).mapError PayloadError.fault) :=
  part_failsWith.mapError fun _ h => h

private theorem listItems_failsWith : FailsWith PayloadError.IsRefusal v.listItems := by
  rw [listItems.eq_def]
  split
  · exact .ok _
  · exact .ok _
  · exact .error trivial

/-- A list is read exactly if each of its items can be. -/
theorem mapM_listItems_isOk_iff {α : Type} {read : Value → Except PayloadError α}
    (hread : ∀ v, (∃ a, read v = .ok a) ↔ P v) :
    (∃ as, (v.listItems >>= fun items => items.mapM read) = .ok as) ↔ v.IsListOf P := by
  rw [bind_isOk_iff, listItems.eq_def, IsListOf.eq_def]
  split
  · simp [mapM_isOk_iff, hread]
  · simp [mapM_isOk_iff, hread]
  · simp_all

end Value

open Payload

namespace Field

private theorem ofPayload_eq (v : Value) : ofPayload v = (do
    let name ← (v.part "name").mapError PayloadError.fault
    let type ← (v.part "type").mapError PayloadError.fault
    return ⟨name.wording, type.wording⟩) := rfl

/-- A field is read exactly from a named and typed slot. -/
theorem ofPayload_isOk_iff : (∃ f, ofPayload v = .ok f) ↔ IsPayload v := by
  rw [ofPayload_eq]
  simp only [bind_isOk_iff, mapError_eq_ok_iff]
  constructor
  · rintro ⟨name, hname, type, htype, -⟩
    obtain ⟨entries, rfl, hn⟩ := Value.part_isOk_iff.mp ⟨name, hname⟩
    obtain ⟨_, heq, ht⟩ := Value.part_isOk_iff.mp ⟨type, htype⟩
    cases heq
    exact ⟨entries, rfl, hn, ht⟩
  · rintro ⟨entries, hv, hn, ht⟩
    obtain ⟨name, hname⟩ := Value.part_isOk_iff.mpr ⟨entries, hv, hn⟩
    obtain ⟨type, htype⟩ := Value.part_isOk_iff.mpr ⟨entries, hv, ht⟩
    exact ⟨name, hname, type, htype, _, rfl⟩

private theorem listOfPayload_isOk_iff : (∃ fs, listOfPayload v = .ok fs) ↔ v.IsListOf IsPayload :=
  Value.mapM_listItems_isOk_iff fun _ => ofPayload_isOk_iff

private theorem listOfPayload_failsWith : FailsWith PayloadError.IsRefusal (listOfPayload v) := by
  apply Value.listItems_failsWith.bind
  intro items _
  apply FailsWith.mapM
  intro w _
  rw [ofPayload_eq]
  apply Value.refusal_part.bind
  intro name _
  apply Value.refusal_part.bind
  intro type _
  exact .ok _

end Field

namespace Payload

private theorem listUnder_isOk_iff {α : Type} {read : Value → Except PayloadError (List α)}
    (hread : ∀ v, (∃ as, read v = .ok as) ↔ v.IsListOf P) :
    (∃ as, listUnder values key read = .ok as) ↔ Lists values key P := by
  rw [listUnder, Lists]
  cases h : Table.find? values (Scalar.text key) with
  | none => simp
  | some v => simp [hread]

private theorem listUnder_failsWith {α : Type} {read : Value → Except PayloadError (List α)}
    (hread : ∀ v, FailsWith PayloadError.IsRefusal (read v)) :
    FailsWith PayloadError.IsRefusal (listUnder values key read) := by
  rw [listUnder]
  split
  · exact hread _
  · exact .ok _

private theorem checkKeys_eq_ok_iff : checkKeys kind values = .ok () ↔
    ∀ key ∈ Table.keys values, ∃ known ∈ kind.keys, key = .text known := by
  have hnone : ((Table.keys values).filter fun k => !(kind.keys.any fun known => k.same known)) = [] ↔
      ∀ key ∈ Table.keys values, ∃ known ∈ kind.keys, key = .text known := by
    rw [List.filter_eq_nil_iff]
    refine forall₂_congr fun k _ => ?_
    rw [Bool.not_eq_true', Bool.not_eq_false, List.any_eq_true]
    refine exists_congr fun known => and_congr_right fun _ => ?_
    constructor
    · exact Scalar.eq_text_of_same
    · rintro rfl
      exact Scalar.same_refl _
  rw [checkKeys, ← hnone]
  split
  · next h => simpa using h
  · next h => simpa using h

private theorem checkRequired_eq_ok_iff : checkRequired kind values = .ok () ↔
    ∀ key ∈ kind.requiredKeys, Table.has values (.text key) = true := by
  have hnone : (kind.requiredKeys.filter fun (k : String) => !Table.has values (.text k)) = [] ↔
      ∀ key ∈ kind.requiredKeys, Table.has values (.text key) = true := by
    simp [List.filter_eq_nil_iff]
  rw [checkRequired, ← hnone]
  split
  · next h => simpa using h
  · next h => simpa using h

private theorem checkKeys_failsWith : FailsWith PayloadError.IsRefusal (checkKeys kind values) := by
  rw [checkKeys]
  split
  · exact .ok _
  · exact .error trivial

private theorem checkRequired_failsWith :
    FailsWith PayloadError.IsRefusal (checkRequired kind values) := by
  rw [checkRequired]
  split
  · exact .ok _
  · exact .error trivial

/-- Nothing stands under a key that the kind does not have. -/
theorem HasKeys.find?_eq_none (h : HasKeys kind values) (hkey : key ∉ kind.keys) :
    Table.find? values key = none := by
  cases hf : Table.find? values (Scalar.text key) with
  | none => rfl
  | some v =>
    obtain ⟨k, hmem, hsame⟩ := Table.mem_of_find? hf
    obtain ⟨known, hknown, heq⟩ := h.known k (List.mem_map_of_mem hmem)
    have htext : k = .text key := Scalar.eq_text_of_same hsame
    rw [heq] at htext
    exact absurd (Scalar.text.inj htext ▸ hknown) hkey

private theorem HasKeys.lists (h : HasKeys kind values) (hkey : key ∉ kind.keys) :
    Lists values key P := by
  intro v hv
  rw [h.find?_eq_none hkey] at hv
  cases hv

end Payload

namespace Variant

private theorem ofPayload_table (entries : Table Value) : ofPayload (.table entries) = (do
    let name ← ((Value.table entries).part "name").mapError PayloadError.fault
    let fields ← listUnder entries "fields" Field.listOfPayload
    return ⟨name.wording, fields⟩) := by
  rw [ofPayload, listUnder]
  dsimp only
  cases Table.find? entries (Scalar.text "fields") with
  | none => rfl
  | some given => rfl

-- What has a name is a table.
private theorem exists_table_of_ofPayload {w : Variant} (h : ofPayload v = .ok w) :
    ∃ entries, v = .table entries := by
  obtain ⟨name, hname, -⟩ := exists_of_bind_eq_ok h
  obtain ⟨entries, rfl, -⟩ := Value.part_isOk_iff.mp ⟨name, eq_ok_of_mapError hname⟩
  exact ⟨entries, rfl⟩

/-- A variant is read exactly from a named alternative. -/
theorem ofPayload_isOk_iff : (∃ w, ofPayload v = .ok w) ↔ IsPayload v := by
  have htable (entries : Table Value) : (∃ w, ofPayload (.table entries) = .ok w) ↔
      Table.has entries "name" = true ∧ Lists entries "fields" Field.IsPayload := by
    rw [ofPayload_table]
    simp only [bind_isOk_iff, mapError_eq_ok_iff,
      ← listUnder_isOk_iff fun _ => Field.listOfPayload_isOk_iff]
    constructor
    · rintro ⟨name, hname, fields, hfields, -⟩
      obtain ⟨_, heq, hn⟩ := Value.part_isOk_iff.mp ⟨name, hname⟩
      cases heq
      exact ⟨hn, fields, hfields⟩
    · rintro ⟨hn, fields, hfields⟩
      obtain ⟨name, hname⟩ := Value.part_isOk_iff.mpr ⟨entries, rfl, hn⟩
      exact ⟨name, hname, fields, hfields, _, rfl⟩
  constructor
  · rintro ⟨w, hw⟩
    obtain ⟨entries, rfl⟩ := exists_table_of_ofPayload hw
    exact ⟨entries, rfl, (htable entries).mp ⟨w, hw⟩⟩
  · rintro ⟨entries, rfl, h⟩
    exact (htable entries).mpr h

private theorem listOfPayload_isOk_iff : (∃ ws, listOfPayload v = .ok ws) ↔ v.IsListOf IsPayload :=
  Value.mapM_listItems_isOk_iff fun _ => ofPayload_isOk_iff

private theorem ofPayload_failsWith : FailsWith PayloadError.IsRefusal (ofPayload v) := by
  rw [ofPayload]
  apply Value.refusal_part.bind
  intro name _
  dsimp only
  split
  · split
    · exact Field.listOfPayload_failsWith.bind fun fields _ => .ok _
    · exact .ok _
  · exact .ok _

private theorem listOfPayload_failsWith : FailsWith PayloadError.IsRefusal (listOfPayload v) := by
  apply Value.listItems_failsWith.bind
  intro items _
  apply FailsWith.mapM
  intro w _
  exact ofPayload_failsWith

end Variant

/-! ## Items -/

namespace Payload

-- A payload without lists is read exactly if it has the keys of its kind.
private theorem plain_isOk_iff {α : Type} {a : α} :
    (∃ b, (do checkKeys kind values; checkRequired kind values; return a) = Except.ok b) ↔
      HasKeys kind values := by
  simp only [bind_isOk_iff]
  constructor
  · rintro ⟨_, hknown, _, hrequired, -⟩
    exact ⟨checkKeys_eq_ok_iff.mp hknown, checkRequired_eq_ok_iff.mp hrequired⟩
  · intro h
    exact ⟨_, checkKeys_eq_ok_iff.mpr h.known, _, checkRequired_eq_ok_iff.mpr h.required, a, rfl⟩

-- A payload with a list is read exactly if it has the keys of its kind and the list can be read.
private theorem listed_isOk_iff {α β : Type} {read : Value → Except PayloadError (List α)}
    {f : List α → β} (hread : ∀ v, (∃ as, read v = .ok as) ↔ v.IsListOf P) :
    (∃ b, (do checkKeys kind values
              let as ← listUnder values key read
              checkRequired kind values
              return f as) = Except.ok b) ↔ HasKeys kind values ∧ Lists values key P := by
  rw [← listUnder_isOk_iff hread]
  simp only [bind_isOk_iff]
  constructor
  · rintro ⟨_, hknown, as, has, _, hrequired, -⟩
    exact ⟨⟨checkKeys_eq_ok_iff.mp hknown, checkRequired_eq_ok_iff.mp hrequired⟩, as, has⟩
  · rintro ⟨h, as, has⟩
    exact ⟨_, checkKeys_eq_ok_iff.mpr h.known, as, has, _, checkRequired_eq_ok_iff.mpr h.required,
      f as, rfl⟩

private theorem plain_failsWith {α : Type} {a : α} : FailsWith PayloadError.IsRefusal
    (do checkKeys kind values; checkRequired kind values; return a) := by
  apply checkKeys_failsWith.bind
  intro _ _
  apply checkRequired_failsWith.bind
  intro _ _
  exact .ok a

private theorem listed_failsWith {α β : Type} {read : Value → Except PayloadError (List α)}
    {f : List α → β} (hread : ∀ v, FailsWith PayloadError.IsRefusal (read v)) :
    FailsWith PayloadError.IsRefusal
      (do checkKeys kind values
          let as ← listUnder values key read
          checkRequired kind values
          return f as) := by
  apply checkKeys_failsWith.bind
  intro _ _
  apply (listUnder_failsWith hread).bind
  intro as _
  apply checkRequired_failsWith.bind
  intro _ _
  exact .ok (f as)

end Payload

namespace FunctionDecl

private theorem ofFields_isOk_iff : (∃ d, ofFields values = .ok d) ↔
    HasKeys .function values ∧ Lists values "inputs" Field.IsPayload :=
  listed_isOk_iff fun _ => Field.listOfPayload_isOk_iff

/-- A function is read exactly from a table without a kind that has its keys. -/
theorem ofPayload_isOk_iff : (∃ d, ofPayload v = .ok d) ↔ IsPayload v := by
  rw [ofPayload.eq_def]
  split
  · next values =>
    rw [ofFields_isOk_iff]
    constructor
    · intro h
      exact ⟨values, rfl, h⟩
    · rintro ⟨_, heq, h⟩
      cases heq
      exact h
  · next hother =>
    constructor
    · rintro ⟨d, hd⟩
      cases hd
    · rintro ⟨values, rfl, -⟩
      exact absurd rfl (hother values)

private theorem listOfPayload_isOk_iff : (∃ ds, listOfPayload v = .ok ds) ↔ v.IsListOf IsPayload :=
  Value.mapM_listItems_isOk_iff fun _ => ofPayload_isOk_iff

private theorem ofFields_failsWith : FailsWith PayloadError.IsRefusal (ofFields values) :=
  listed_failsWith fun _ => Field.listOfPayload_failsWith

private theorem listOfPayload_failsWith : FailsWith PayloadError.IsRefusal (listOfPayload v) := by
  apply Value.listItems_failsWith.bind
  intro items _
  apply FailsWith.mapM
  intro w _
  rw [ofPayload.eq_def]
  split
  · exact ofFields_failsWith
  · exact .error trivial

end FunctionDecl

namespace Item

-- A kind without lists asks for its keys only.
private theorem hasShape_iff_hasKeys
    (h : ∀ key ∈ ["inputs", "fields", "variants", "methods"], key ∉ kind.keys) :
    HasShape kind values ↔ HasKeys kind values := by
  simp only [List.forall_mem_cons] at h
  obtain ⟨hinputs, hfields, hvariants, hmethods, -⟩ := h
  constructor
  · exact HasShape.toHasKeys
  · intro hk
    exact ⟨hk, hk.lists hinputs, hk.lists hfields, hk.lists hvariants, hk.lists hmethods⟩

-- A kind with arguments asks for its keys and for them.
private theorem hasShape_iff_inputs
    (h : ∀ key ∈ ["fields", "variants", "methods"], key ∉ kind.keys) :
    HasShape kind values ↔ HasKeys kind values ∧ Lists values "inputs" Field.IsPayload := by
  simp only [List.forall_mem_cons] at h
  obtain ⟨hfields, hvariants, hmethods, -⟩ := h
  constructor
  · intro hs
    exact ⟨hs.toHasKeys, hs.inputs⟩
  · rintro ⟨hk, hinputs⟩
    exact ⟨hk, hinputs, hk.lists hfields, hk.lists hvariants, hk.lists hmethods⟩

/-- A table is read as an item of a kind exactly if it has the shape of that kind. -/
theorem ofFields_isOk_iff : (∃ item, ofFields kind values = .ok item) ↔ HasShape kind values := by
  cases kind with
  | namespaceDecl => exact plain_isOk_iff.trans (hasShape_iff_hasKeys (by decide)).symm
  | udlFile => exact plain_isOk_iff.trans (hasShape_iff_hasKeys (by decide)).symm
  | object => exact plain_isOk_iff.trans (hasShape_iff_hasKeys (by decide)).symm
  | customType => exact plain_isOk_iff.trans (hasShape_iff_hasKeys (by decide)).symm
  | function =>
    rw [hasShape_iff_inputs (by decide), ← FunctionDecl.ofFields_isOk_iff]
    exact isOk_map_iff
  | constructor =>
    rw [hasShape_iff_inputs (by decide)]
    exact listed_isOk_iff fun _ => Field.listOfPayload_isOk_iff
  | method =>
    rw [hasShape_iff_inputs (by decide)]
    exact listed_isOk_iff fun _ => Field.listOfPayload_isOk_iff
  | record =>
    refine (listed_isOk_iff fun _ => Field.listOfPayload_isOk_iff).trans ⟨?_, ?_⟩
    · rintro ⟨hk, hfields⟩
      exact ⟨hk, hk.lists (by decide), hfields, hk.lists (by decide), hk.lists (by decide)⟩
    · intro hs
      exact ⟨hs.toHasKeys, hs.fields⟩
  | enum =>
    refine (listed_isOk_iff fun _ => Variant.listOfPayload_isOk_iff).trans ⟨?_, ?_⟩
    · rintro ⟨hk, hvariants⟩
      exact ⟨hk, hk.lists (by decide), hk.lists (by decide), hvariants, hk.lists (by decide)⟩
    · intro hs
      exact ⟨hs.toHasKeys, hs.variants⟩
  | callbackInterface =>
    refine (listed_isOk_iff fun _ => FunctionDecl.listOfPayload_isOk_iff).trans ⟨?_, ?_⟩
    · rintro ⟨hk, hmethods⟩
      exact ⟨hk, hk.lists (by decide), hk.lists (by decide), hk.lists (by decide), hmethods⟩
    · intro hs
      exact ⟨hs.toHasKeys, hs.methods⟩

private theorem ofFields_failsWith : FailsWith PayloadError.IsRefusal (ofFields kind values) := by
  cases kind with
  | namespaceDecl | udlFile | object | customType => exact plain_failsWith
  | function =>
    apply FunctionDecl.ofFields_failsWith.bind
    intro d _
    exact .ok _
  | constructor | method | record => exact listed_failsWith fun _ => Field.listOfPayload_failsWith
  | enum => exact listed_failsWith fun _ => Variant.listOfPayload_failsWith
  | callbackInterface => exact listed_failsWith fun _ => FunctionDecl.listOfPayload_failsWith

-- A payload names a kind with the tag of that kind under the key of kinds.
private theorem tag_eq_some_iff {payload : Table Value} :
    ((Table.find? payload "kind").getD .null).text?.bind Kind.ofTag? = some kind ↔
      Table.find? payload "kind" = some (.text kind.tag) := by
  constructor
  · intro h
    obtain ⟨tag, htext, htag⟩ := Option.bind_eq_some_iff.mp h
    have hname : kind.tag = tag := by simpa using List.find?_some htag
    cases hf : Table.find? payload (Scalar.text "kind") with
    | none =>
      rw [hf] at htext
      cases htext
    | some given =>
      rw [hf, Option.getD_some, Value.text?.eq_def] at htext
      split at htext
      · obtain rfl := Option.some.inj htext
        rw [hname]
      · cases htext
  · intro h
    rw [h]
    exact kind.ofTag?_tag

/-- A payload is read exactly if it names its kind and has the shape of that kind. -/
theorem ofPayload_isOk_iff {payload : Table Value} :
    (∃ item, ofPayload payload = .ok item) ↔ IsPayload payload := by
  rw [ofPayload]
  constructor
  · rintro ⟨item, h⟩
    split at h
    · next kind hkind => exact ⟨kind, tag_eq_some_iff.mp hkind, ofFields_isOk_iff.mp ⟨item, h⟩⟩
    · cases h
  · rintro ⟨kind, hkind, hshape⟩
    rw [tag_eq_some_iff.mpr hkind]
    exact ofFields_isOk_iff.mpr hshape

/-- A payload that is not read is refused. -/
theorem ofPayload_failsWith {payload : Table Value} :
    FailsWith PayloadError.IsRefusal (ofPayload payload) := by
  rw [ofPayload]
  split
  · exact ofFields_failsWith
  · exact .error trivial

end Item

end BindGen
