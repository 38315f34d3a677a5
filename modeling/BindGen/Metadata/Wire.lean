import BindGen.Json.Reader
import BindGen.Json.Writer
import BindGen.Metadata.Payload

/-!
# The embedded form of metadata

Items are embedded anywhere in the data of a compiled library. Each stands behind a marker of
thirteen bytes and the length of its body in four bytes, least significant first; the body is the
UTF-8 text of the payload. Scanning looks for the next marker behind each body, so what looks like a
marker inside a body is not one.
-/

namespace BindGen

namespace Wire

/-- The bytes in front of every embedded item. Models `MARKER`. -/
def marker : Bytes :=
  [0x00, 0x46, 0x46, 0x49, 0x47, 0x45, 0x4E, 0x5F, 0x4D, 0x45, 0x54, 0x41, 0x00]

/-- The number of bytes of a length. -/
def lengthSize : Nat := 4

/-- The bytes of a length, least significant first. -/
def encodeLength (n : Nat) : Bytes :=
  [n.toUInt8, (n / 0x100).toUInt8, (n / 0x10000).toUInt8, (n / 0x1000000).toUInt8]

/-- The length that bytes write, least significant first. -/
def decodeLength : Bytes → Nat
  | [] => 0
  | b :: rest => b.toNat + 0x100 * decodeLength rest

/-- A body with the marker and its length in front. -/
def frame (body : Bytes) : Bytes := marker ++ encodeLength body.length ++ body

/-- The embedded form of a payload. -/
def encode (payload : Value) : Bytes := frame (Utf8.encode (Json.write payload))

/-- Whether the marker starts here. -/
def startsWithMarker (data : Bytes) : Bool := marker.isPrefixOf data

/-- The number of bytes in front of the first marker, and what follows that marker. -/
def findMarker : Bytes → Option (Nat × Bytes)
  | [] => none
  | b :: rest =>
    if startsWithMarker (b :: rest) then some (0, (b :: rest).drop marker.length)
    else (findMarker rest).map fun (skipped, after) => (skipped + 1, after)

/-- A complete embedded body and the offset of its marker. -/
structure Window where
  offset : Nat
  body : Bytes

/-- Data that end inside an embedded item, with the offset of its marker. -/
inductive Cut where
  | header (offset : Nat)
  | record (offset declared available : Nat)
deriving DecidableEq

/-- The embedded items of a byte sequence: the complete ones, and a last one that is cut off. -/
structure Scan where
  windows : List Window
  cut : Option Cut

private theorem findMarker_length {data after : Bytes} {skipped : Nat}
    (h : findMarker data = some (skipped, after)) : after.length < data.length := by
  fun_induction findMarker data generalizing skipped after with
  | case1 => simp at h
  | case2 b rest hm =>
    cases h
    simp only [marker, List.length_drop, List.length_cons, List.length_nil]
    omega
  | case3 b rest hm ih =>
    simp only [Option.map_eq_some_iff, Prod.exists, Prod.mk.injEq] at h
    obtain ⟨n, r, hr, -, rfl⟩ := h
    have := ih hr
    simp
    omega

/-- The scan of data that start at the given offset of a file. -/
def scanFrom (offset : Nat) (data : Bytes) : Scan :=
  match _h : findMarker data with
  | none => ⟨[], none⟩
  | some (skipped, after) =>
    let at_ := offset + skipped
    if after.length < lengthSize then ⟨[], some (.header at_)⟩
    else
      let declared := decodeLength (after.take lengthSize)
      let content := after.drop lengthSize
      if content.length < declared then ⟨[], some (.record at_ declared content.length)⟩
      else
        let behind := at_ + marker.length + lengthSize + declared
        let rest := scanFrom behind (content.drop declared)
        ⟨⟨at_, content.take declared⟩ :: rest.windows, rest.cut⟩
termination_by data.length
decreasing_by
  have := findMarker_length _h
  simp
  omega

/-- The embedded items of a file. -/
def scan (data : Bytes) : Scan := scanFrom 0 data

end Wire

/-- Why the metadata of a library are not read. -/
inductive ExtractionError where
  | truncatedHeader (offset : Nat)
  | truncatedRecord (offset declared available : Nat)
  /-- the body is no UTF-8 text, or that text is no JSON -/
  | invalidPayload (offset : Nat)
  | notTable (offset : Nat)
  | malformed (offset : Nat) (kind : String) (cause : PayloadError)
  | fault (f : Fault)

namespace ExtractionError

/-- The wording of an error, for data of the given origin. -/
def message (origin : String) : ExtractionError → String
  | truncatedHeader offset => s!"Truncated metadata header at offset {offset} in {origin}"
  | truncatedRecord offset declared available =>
    s!"Truncated metadata record at offset {offset} in {origin} "
      ++ s!"({declared} bytes declared, {available} available)"
  | invalidPayload offset => s!"Invalid metadata payload at offset {offset} in {origin}"
  | notTable offset => s!"Metadata payload at offset {offset} in {origin} is not an object"
  | malformed offset kind cause =>
    s!"Malformed {kind} record at offset {offset} in {origin}: {cause.message}"
  | fault f => f.message

end ExtractionError

namespace Wire

/-- The error of a cut. -/
def Cut.error : Cut → ExtractionError
  | header offset => .truncatedHeader offset
  | record offset declared available => .truncatedRecord offset declared available

/-- The item in a window. Models `_decode`. -/
def Window.item (w : Window) : Except ExtractionError Item := do
  let some chars := Utf8.decode? w.body | throw (.invalidPayload w.offset)
  match Json.ofTokens (Json.tokens chars) with
  | .error .malformed => throw (.invalidPayload w.offset)
  | .error (.hugeInteger digits) => throw (.fault (.hugeInteger digits))
  | .error .endless => throw (.fault .endless)
  | .ok (.table payload) =>
    match Item.ofPayload payload with
    | .ok item => return item
    | .error cause =>
      let kind := match Table.find? payload "kind" with
        | some given => given.display
        | none => "unknown"
      throw (.malformed w.offset kind cause)
  | .ok _ => throw (.notTable w.offset)

/-- The items embedded in a byte sequence, in their order. Models `extract_from_bytes`. -/
def extract (data : Bytes) : Except ExtractionError (List Item) := do
  let found := scan data
  let items ← found.windows.mapM Window.item
  match found.cut with
  | some cut => throw cut.error
  | none => return items

/-- The embedded form of an item. Models `encode_record`. -/
def encodeItem (item : Item) : Bytes := encode (.table item.payload)

end Wire
end BindGen
