import BindGen.Metadata.Wire
import BindGen.Proofs.Metadata.Payload
import BindGen.Proofs.Text.Utf8

/-!
# Extracting what was embedded

Items that were embedded one after the other, with other data around them, are extracted as they
were. Each marker is found behind the data in front of it, as these do not hold a marker before its
start, and the scan goes on behind the body, so neither the length nor the body is taken for a
marker.
-/

namespace BindGen.Wire

variable {filler body rest : Bytes}

/-- Whether the marker stands at an index of data. -/
def MarkerAt (data : Bytes) (index : Nat) : Prop := marker <+: data.drop index

/-- Data that starts with the marker has it at its first place. -/
theorem startsWithMarker_iff {data : Bytes} :
    startsWithMarker data = true ↔ MarkerAt data 0 := by
  rw [startsWithMarker, MarkerAt, List.drop_zero, List.isPrefixOf_iff_prefix]

/-- A marker is found behind the data in front of it. -/
theorem findMarker_append (h : ∀ i < filler.length, ¬MarkerAt (filler ++ marker) i) (rest : Bytes) :
    findMarker (filler ++ (marker ++ rest)) = some (filler.length, rest) := by
  induction filler with
  | nil =>
    have hstart : startsWithMarker (marker ++ rest) = true :=
      startsWithMarker_iff.mpr (List.prefix_append marker rest)
    have hcons : marker ++ rest = 0x00 :: (marker.tail ++ rest) := rfl
    rw [List.nil_append, hcons, findMarker, ← hcons, if_pos hstart, List.drop_left]
    rfl
  | cons b filler ih =>
    have hstart : ¬startsWithMarker (b :: (filler ++ (marker ++ rest))) = true := by
      rw [startsWithMarker_iff, MarkerAt, List.drop_zero]
      intro hp
      -- A marker that starts here is not longer than the filler and the marker behind it.
      refine h 0 (Nat.zero_lt_succ _) (List.prefix_of_prefix_length_le hp ?_ ?_)
      · rw [← List.append_assoc]
        exact List.prefix_append _ rest
      · rw [List.length_drop, List.length_append]
        omega
    have htail : ∀ i < filler.length, ¬MarkerAt (filler ++ marker) i := fun i hi =>
      h (i + 1) (Nat.succ_lt_succ hi)
    rw [List.cons_append, findMarker, if_neg hstart, ih htail]
    rfl

/-- No marker is found in data without one. -/
theorem findMarker_eq_none {data : Bytes} (h : ∀ i, ¬MarkerAt data i) : findMarker data = none := by
  induction data with
  | nil => rfl
  | cons b data ih =>
    have hstart : ¬startsWithMarker (b :: data) = true := fun hs => h 0 (startsWithMarker_iff.mp hs)
    rw [findMarker, if_neg hstart, ih fun i => h (i + 1)]
    rfl

/-- The length of a body is read as it was written. -/
theorem decodeLength_encodeLength {n : Nat} (h : n < 2 ^ 32) :
    decodeLength (encodeLength n) = n := by
  have hbyte (k : Nat) : k.toUInt8.toNat = k % 0x100 := UInt8.toNat_ofNat'
  simp only [encodeLength, decodeLength, hbyte]
  omega

/-- The scan of an embedded body, behind data without a marker before it. -/
theorem scanFrom_frame (offset : Nat) (h : ∀ i < filler.length, ¬MarkerAt (filler ++ marker) i)
    (hb : body.length < 2 ^ 32) (rest : Bytes) :
    ∃ behind, scanFrom offset (filler ++ frame body ++ rest) =
      ⟨⟨offset + filler.length, body⟩ :: (scanFrom behind rest).windows,
        (scanFrom behind rest).cut⟩ := by
  refine ⟨offset + filler.length + marker.length + lengthSize + body.length, ?_⟩
  have hfind := findMarker_append h (encodeLength body.length ++ (body ++ rest))
  have hdata : filler ++ frame body ++ rest =
      filler ++ (marker ++ (encodeLength body.length ++ (body ++ rest))) := by
    simp only [frame, List.append_assoc]
  have hsize : (encodeLength body.length).length = lengthSize := rfl
  have htake : (encodeLength body.length ++ (body ++ rest)).take lengthSize =
      encodeLength body.length := List.take_left' hsize
  have hdrop : (encodeLength body.length ++ (body ++ rest)).drop lengthSize = body ++ rest :=
    List.drop_left' hsize
  have hheader : ¬(encodeLength body.length ++ (body ++ rest)).length < lengthSize := by
    rw [List.length_append, hsize]
    omega
  have hrecord : ¬(body ++ rest).length < body.length := by
    rw [List.length_append]
    omega
  rw [hdata, scanFrom, hfind]
  dsimp only
  rw [if_neg hheader, htake, hdrop, decodeLength_encodeLength hb, if_neg hrecord, List.take_left,
    List.drop_left]

/-- The body of an embedded item holds that item, with the entries of tables in order. -/
theorem item_encode {offset : Nat} {item : Item} {n : Nat} (h : item.HasJsonFields n)
    (hn : n < Json.deepest) :
    Window.item ⟨offset, Utf8.encode (Json.write (.table item.payload))⟩ = .ok item.inOrder := by
  rw [Window.item]
  dsimp only
  rw [Utf8.decode?_encode]
  dsimp only
  rw [Json.ofTokens_write h.payload hn, Value.inOrder_table]
  dsimp only
  rw [Item.ofPayload_inOrder]
  rfl

-- The items behind one another in data, each behind a filler, and a last filler.
private def data (parts : List (Bytes × Item)) (last : Bytes) : Bytes :=
  parts.flatMap (fun (filler, item) => filler ++ encodeItem item) ++ last

private theorem scanFrom_data {parts : List (Bytes × Item)} {last : Bytes} {n : Nat}
    (hn : n < Json.deepest)
    (hitems : ∀ p ∈ parts, p.2.HasJsonFields n)
    (hsize : ∀ p ∈ parts, (Utf8.encode (Json.write (.table p.2.payload))).length < 2 ^ 32)
    (hfillers : ∀ p ∈ parts, ∀ i < p.1.length, ¬MarkerAt (p.1 ++ marker) i)
    (hlast : ∀ i, ¬MarkerAt last i) (offset : Nat) :
    (scanFrom offset (data parts last)).windows.mapM Window.item =
        .ok (parts.map fun p => p.2.inOrder) ∧
      (scanFrom offset (data parts last)).cut = none := by
  induction parts generalizing offset with
  | nil =>
    rw [data, List.flatMap_nil, List.nil_append, scanFrom, findMarker_eq_none hlast]
    exact ⟨rfl, rfl⟩
  | cons p parts ih =>
    obtain ⟨filler, item⟩ := p
    obtain ⟨behind, hscan⟩ := scanFrom_frame offset (hfillers _ List.mem_cons_self)
      (hsize _ List.mem_cons_self) (data parts last)
    obtain ⟨hwindows, hcut⟩ := ih (fun p hp => hitems p (List.mem_cons_of_mem _ hp))
      (fun p hp => hsize p (List.mem_cons_of_mem _ hp))
      (fun p hp => hfillers p (List.mem_cons_of_mem _ hp)) behind
    have hdata : data ((filler, item) :: parts) last =
        filler ++ frame (Utf8.encode (Json.write (.table item.payload))) ++ data parts last := by
      rw [data, List.flatMap_cons, List.append_assoc]
      rfl
    rw [hdata, hscan]
    refine ⟨?_, hcut⟩
    rw [List.mapM_cons, item_encode (hitems _ List.mem_cons_self) hn, hwindows]
    rfl

/-- Items whose fields are values of JSON are extracted from data that they are embedded in. -/
theorem extract_of_hasJsonFields {parts : List (Bytes × Item)} {last : Bytes} {n : Nat}
    (hn : n < Json.deepest) (hitems : ∀ p ∈ parts, p.2.HasJsonFields n)
    (hsize : ∀ p ∈ parts, (Utf8.encode (Json.write (.table p.2.payload))).length < 2 ^ 32)
    (hfillers : ∀ p ∈ parts, ∀ i < p.1.length, ¬MarkerAt (p.1 ++ marker) i)
    (hlast : ∀ i, ¬MarkerAt last i) :
    extract (parts.flatMap (fun (filler, item) => filler ++ encodeItem item) ++ last) =
      .ok (parts.map fun p => p.2.inOrder) := by
  obtain ⟨hwindows, hcut⟩ := scanFrom_data hn hitems hsize hfillers hlast 0
  change extract (data parts last) = _
  rw [extract, scan, hwindows, hcut]
  rfl

/-- Two items that were embedded one behind the other. -/
theorem extract_pair {a b : Item} (ha : a.HasJsonFields 985) (hb : b.HasJsonFields 985)
    (hsa : (Utf8.encode (Json.write (.table a.payload))).length < 2 ^ 32)
    (hsb : (Utf8.encode (Json.write (.table b.payload))).length < 2 ^ 32) :
    extract (encodeItem a ++ encodeItem b) = .ok [a.inOrder, b.inOrder] := by
  have hlast : ∀ i, ¬MarkerAt [] i := by
    intro i hm
    rw [MarkerAt, List.drop_nil, List.prefix_nil] at hm
    cases hm
  have h := @extract_of_hasJsonFields [([], a), ([], b)] [] 985 (by decide)
    (List.forall_mem_cons.mpr ⟨ha, List.forall_mem_cons.mpr ⟨hb, List.forall_mem_nil _⟩⟩)
    (List.forall_mem_cons.mpr ⟨hsa, List.forall_mem_cons.mpr ⟨hsb, List.forall_mem_nil _⟩⟩)
    (by simp) hlast
  simpa using h

/-- Items that are described by values of JSON and were embedded with other data around them are
extracted as they were: all of them, in their order, and the same up to the order of keys in tables.
What is read from a text is such a value by `Json.isJson_of_read`. -/
theorem extract_encodeItem {parts : List (Bytes × Item)} {last : Bytes}
    (hitems : ∀ p ∈ parts, ∃ payload, Json.IsJson Json.deepest (.table payload) ∧
      Item.ofPayload payload = .ok p.2)
    (hsize : ∀ p ∈ parts, (Utf8.encode (Json.write (.table p.2.payload))).length < 2 ^ 32)
    (hfillers : ∀ p ∈ parts, ∀ i < p.1.length, ¬MarkerAt (p.1 ++ marker) i)
    (hlast : ∀ i, ¬MarkerAt last i) :
    extract (parts.flatMap (fun (filler, item) => filler ++ encodeItem item) ++ last) =
        .ok (parts.map fun p => p.2.inOrder) ∧
      ∀ p ∈ parts, p.2.inOrder.same p.2 = true := by
  have hdeepest : Json.deepest = 985 + 1 := rfl
  have hfields : ∀ p ∈ parts, p.2.HasJsonFields 985 := by
    intro p hp
    obtain ⟨payload, hjson, hread⟩ := hitems p hp
    exact Item.hasJsonFields_of_ofPayload (by decide) (hdeepest ▸ hjson) hread
  exact ⟨extract_of_hasJsonFields (by decide) hfields hsize hfillers hlast,
    fun p hp => (hfields p hp).same_inOrder⟩

/-- The namespace of a crate, as it may be embedded. -/
def coreNamespace : Item := .namespaceDecl ⟨"core", "core"⟩

-- The first surrogate of a pair, without the second one.
private def loneSurrogate : BrokenText := ⟨[.ofNat 0xD800], rfl, rfl⟩

private def shapeDoc : Table Value := [("b", .int 2), ("a", .scalar (.broken loneSurrogate))]

private def shapeObject : Item := .object ⟨"core::shapes", "Shape", .table shapeDoc⟩

/-- The namespace `core` is JSON within the depth that the reader allows. -/
theorem hasJsonFields_coreNamespace : coreNamespace.HasJsonFields 985 := by
  refine List.forall_mem_cons.mpr ⟨.scalar trivial, List.forall_mem_cons.mpr ⟨.scalar trivial, ?_⟩⟩
  exact List.forall_mem_nil _

private theorem isJson_shapeDoc : Json.IsJson 985 (.table shapeDoc) := by
  refine .table (by simp [shapeDoc, Table.Distinct]) (by simp [shapeDoc, Table.Worded]) ?_
  refine List.forall_mem_cons.mpr ⟨.scalar ?_, List.forall_mem_cons.mpr ⟨.scalar trivial, ?_⟩⟩
  · change Double.digitCount 2 ≤ Text.digitLimit
    decide
  · exact List.forall_mem_nil _

private theorem hasJsonFields_shapeObject : shapeObject.HasJsonFields 985 := by
  refine List.forall_mem_cons.mpr ⟨.scalar trivial, List.forall_mem_cons.mpr ⟨.scalar trivial,
    List.forall_mem_cons.mpr ⟨isJson_shapeDoc, ?_⟩⟩⟩
  exact List.forall_mem_nil _

private theorem write_coreNamespace : Json.write (.table coreNamespace.payload) =
    "\x7b\"crate_name\":\"core\",\"kind\":\"namespace\",\"name\":\"core\"\x7d".toList := by
  rw [Json.write_table coreNamespace.worded_payload,
    Table.sortOn_eq_of_pairwise coreNamespace.distinct_payload coreNamespace.worded_payload
      ((List.Perm.swap _ _ _).cons _) (by decide)]
  rfl

/-- The bytes that embed the namespace. -/
theorem encodeItem_coreNamespace : encodeItem coreNamespace = frame (Utf8.encode
    "\x7b\"crate_name\":\"core\",\"kind\":\"namespace\",\"name\":\"core\"\x7d".toList) := by
  rw [encodeItem, encode, write_coreNamespace]

/-- The payload of the namespace `core` has a length that the header can tell. -/
theorem length_coreNamespace :
    (Utf8.encode (Json.write (.table coreNamespace.payload))).length < 2 ^ 32 := by
  rw [write_coreNamespace]
  decide

private theorem write_shapeDoc :
    Json.write (.table shapeDoc) = "\x7b\"a\":\"\\ud800\",\"b\":2\x7d".toList := by
  have hd : shapeDoc.Distinct := by simp [shapeDoc, Table.Distinct]
  have hk : shapeDoc.Worded := by simp [shapeDoc, Table.Worded]
  rw [Json.write_table hk, Table.sortOn_eq_of_pairwise hd hk (List.Perm.swap _ _ _) (by decide)]
  rfl

private theorem write_shapeObject : Json.write (.table shapeObject.payload) =
    ("\x7b\"docstring\":\x7b\"a\":\"\\ud800\",\"b\":2\x7d,\"kind\":\"object\"," ++
      "\"module_path\":\"core::shapes\",\"name\":\"Shape\"\x7d").toList := by
  rw [Json.write_table shapeObject.worded_payload,
    Table.sortOn_eq_of_pairwise shapeObject.distinct_payload shapeObject.worded_payload
      (@List.perm_append_comm _ [_, _] [_, _]) (by decide)]
  simp only [List.cons_append, List.nil_append, List.map_cons, List.map_nil, Json.writeEntry]
  rw [write_shapeDoc]
  rfl

private theorem inOrder_shapeDoc :
    (Value.table shapeDoc).inOrder =
      .table [("a", .scalar (.broken loneSurrogate)), ("b", .int 2)] := by
  have hmap : Table.mapValues Value.inOrder shapeDoc = shapeDoc := by
    simp [Table.mapValues, shapeDoc, Value.inOrder_scalar]
  refine Value.inOrder_table_of_perm (by simp [shapeDoc, Table.Distinct])
    (by simp [shapeDoc, Table.Worded]) ?_ (by decide)
  rw [hmap]
  exact .swap _ _ _

private def shapeParts :
    List (Bytes × Item) := [([0x00], coreNamespace), ([0x46, 0x00], shapeObject)]

/-- A namespace and an object with a broken text, behind bytes with which a marker starts and with
others at the end. -/
theorem extract_encodeItem_shapes :
    extract (([0x00] ++ encodeItem coreNamespace) ++ ([0x46, 0x00] ++ encodeItem shapeObject) ++
        [0x00, 0x46]) =
      .ok [coreNamespace,
        .object ⟨"core::shapes", "Shape",
          .table [("a", .scalar (.broken ⟨[.ofNat 0xD800], rfl, rfl⟩)), ("b", .int 2)]⟩] := by
  have hitems : ∀ p ∈ shapeParts,
      ∃ payload, Json.IsJson Json.deepest (.table payload) ∧ Item.ofPayload payload = .ok p.2 := by
    refine List.forall_mem_cons.mpr ⟨⟨_, hasJsonFields_coreNamespace.payload, rfl⟩, ?_⟩
    refine List.forall_mem_cons.mpr ⟨⟨_, hasJsonFields_shapeObject.payload, rfl⟩, ?_⟩
    exact List.forall_mem_nil _
  have hsize : ∀ p ∈ shapeParts,
      (Utf8.encode (Json.write (.table p.2.payload))).length < 2 ^ 32 := by
    refine List.forall_mem_cons.mpr ⟨length_coreNamespace, List.forall_mem_singleton.mpr ?_⟩
    rw [write_shapeObject]
    decide
  have hfillers : ∀ p ∈ shapeParts, ∀ i < p.1.length, ¬MarkerAt (p.1 ++ marker) i := by
    refine List.forall_mem_cons.mpr ⟨?_, List.forall_mem_cons.mpr ⟨?_, List.forall_mem_nil _⟩⟩
    · unfold MarkerAt
      decide
    · unfold MarkerAt
      decide
  have hlast : ∀ i, ¬MarkerAt [0x00, 0x46] i := by
    intro i hm
    have hle := hm.length_le
    rw [List.length_drop, show marker.length = 13 from rfl] at hle
    simp only [List.length_cons, List.length_nil] at hle
    omega
  have h := (extract_encodeItem hitems hsize hfillers hlast).1
  simpa [shapeParts, coreNamespace, shapeObject, Item.inOrder, inOrder_shapeDoc, loneSurrogate,
    Value.inOrder_scalar] using h

end BindGen.Wire
