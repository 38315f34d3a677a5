import BindGen.Proofs.Metadata.Shape
import BindGen.Proofs.Metadata.Windows

/-!
# What is extracted

Extraction reads the windows of a byte sequence one after the other. It succeeds exactly if the last
window is complete and each of them holds a payload of the shape of its kind, and then gives one
item for each window, in their order. Otherwise it ends with an error of its own, unless a text is
one that the reader of JSON gives up on.
-/

namespace BindGen

/-- An error of extraction itself: data that are cut off, a body without a table, or a payload that
is refused. -/
def ExtractionError.IsReported : ExtractionError → Prop
  | .malformed _ _ cause => cause.IsRefusal
  | .fault _ => False
  | _ => True

namespace Wire

/-- The body of a window is the text of a value. -/
def Window.Holds (w : Window) (v : Value) : Prop :=
  ∃ chars, Utf8.decode? w.body = some chars ∧ Json.ofTokens (Json.tokens chars) = .ok v

/-- The body of a window is a text that the reader gives up on: an integer in it has too many
digits, or too many lists and tables stand in each other. -/
def Window.Exceeds (w : Window) : Prop :=
  ∃ chars e, Utf8.decode? w.body = some chars ∧ Json.ofTokens (Json.tokens chars) = .error e ∧
    e ≠ .malformed

/-- A window describes an item. -/
def Window.Describes (w : Window) (item : Item) : Prop :=
  ∃ payload, w.Holds (.table payload) ∧ Item.ofPayload payload = .ok item

variable {data : Bytes} {windows : List Window} {cut : Option Cut} {items : List Item} {w : Window}
  {item : Item}

private theorem Window.item_eq_ok_iff : w.item = .ok item ↔ w.Describes item := by
  constructor
  · intro h
    rw [Window.item] at h
    split at h
    · next chars hchars =>
      split at h
      · cases h
      · cases h
      · cases h
      · next payload hread =>
        split at h
        · next found hitem =>
          cases h
          exact ⟨payload, ⟨chars, hchars, hread⟩, hitem⟩
        · cases h
      · cases h
    · cases h
  · rintro ⟨payload, ⟨chars, hchars, hread⟩, hitem⟩
    rw [Window.item, hchars]
    dsimp only
    rw [hread]
    dsimp only
    rw [hitem]
    rfl

/-- A window without an item is an error of extraction, or its text exceeds what the reader
takes. -/
theorem Window.item_failsWith : FailsWith (fun e => e.IsReported ∨ w.Exceeds) w.item := by
  rw [item]
  split
  · next chars hchars =>
    split
    · exact .error (.inl trivial)
    · next digits hread => exact .error (.inr ⟨chars, _, hchars, hread, by simp⟩)
    · next hread => exact .error (.inr ⟨chars, _, hchars, hread, by simp⟩)
    · next payload hread =>
      split
      · exact .ok _
      · next cause hcause => exact .error (.inl (Item.ofPayload_failsWith cause hcause))
    · exact .error (.inl trivial)
  · exact .error (.inl trivial)

/-- A window describes an item exactly if it holds a payload of the shape of its kind. -/
theorem Window.exists_describes_iff : (∃ item, w.Describes item) ↔
    ∃ payload, w.Holds (.table payload) ∧ Item.IsPayload payload := by
  constructor
  · rintro ⟨item, payload, hholds, hitem⟩
    exact ⟨payload, hholds, Item.ofPayload_isOk_iff.mp ⟨item, hitem⟩⟩
  · rintro ⟨payload, hholds, hshape⟩
    obtain ⟨item, hitem⟩ := Item.ofPayload_isOk_iff.mpr hshape
    exact ⟨item, payload, hholds, hitem⟩

namespace Scans

/-- The items of all windows are read before the cut is reported. -/
theorem extract_eq (h : Scans data 0 ⟨windows, cut⟩) : extract data = (do
    let items ← windows.mapM Window.item
    match cut with
    | some cut => throw cut.error
    | none => return items) := by
  have heq : extract data = (do
      let items ← (scan data).windows.mapM Window.item
      match (scan data).cut with
      | some cut => throw cut.error
      | none => return items) := rfl
  rw [heq, ← scans_iff.mp h]

/-- Extraction succeeds where nothing cuts the windows off and each describes an item. -/
theorem extract_eq_ok_iff (h : Scans data 0 ⟨windows, cut⟩) :
    extract data = .ok items ↔ cut = none ∧ List.Forall₂ Window.Describes windows items := by
  have hitems : windows.mapM Window.item = .ok items ↔
      List.Forall₂ Window.Describes windows items := by
    rw [mapM_eq_ok_iff]
    simp only [Window.item_eq_ok_iff]
  rw [h.extract_eq, ← hitems]
  constructor
  · intro hok
    obtain ⟨found, hfound, hok⟩ := exists_of_bind_eq_ok hok
    cases cut with
    | some cut => cases hok
    | none =>
      cases hok
      exact ⟨rfl, hfound⟩
  · rintro ⟨rfl, hfound⟩
    rw [hfound]
    rfl

private theorem extract_isOk_iff (h : Scans data 0 ⟨windows, cut⟩) :
    (∃ items, extract data = .ok items) ↔
    cut = none ∧ ∀ w ∈ windows, ∃ payload, w.Holds (.table payload) ∧ Item.IsPayload payload := by
  have hitems : (∃ items, List.Forall₂ Window.Describes windows items) ↔
      ∀ w ∈ windows, ∃ item, w.Describes item := by
    have hmap : (∃ items, windows.mapM Window.item = .ok items) ↔ _ := mapM_isOk_iff
    simpa only [mapM_eq_ok_iff, Window.item_eq_ok_iff] using hmap
  simp only [h.extract_eq_ok_iff, exists_and_left, hitems, Window.exists_describes_iff]

/-- A cut behind windows that can be read is what is reported. -/
theorem extract_eq_cut {cut : Cut} (h : Scans data 0 ⟨windows, some cut⟩)
    (hitems : List.Forall₂ Window.Describes windows items) : extract data = .error cut.error := by
  have hfound : windows.mapM Window.item = .ok items := by
    rw [mapM_eq_ok_iff]
    simpa only [Window.item_eq_ok_iff] using hitems
  rw [h.extract_eq, hfound]
  rfl

/-- Extraction fails with an error of its own, or because the text of a window exceeds what the
reader takes. -/
theorem extract_failsWith (h : Scans data 0 ⟨windows, cut⟩) :
    FailsWith (fun e => e.IsReported ∨ ∃ w ∈ windows, w.Exceeds) (extract data) := by
  rw [h.extract_eq]
  apply FailsWith.bind
  · apply FailsWith.mapM
    intro w hw e he
    rcases Window.item_failsWith e he with hreported | hexceeds
    · exact .inl hreported
    · exact .inr ⟨w, hw, hexceeds⟩
  · intro items _
    cases cut with
    | none => exact .ok items
    | some cut => cases cut <;> exact .error (.inl trivial)

end Scans

/-- Items are extracted exactly if no window of the data is cut off and each of them holds a payload
of the shape of its kind, one item for each window in their order. All else ends with an error of
extraction, unless the text of a window exceeds what the reader of JSON takes. -/
theorem extract_windows (data : Bytes) : ∃ windows cut, Scans data 0 ⟨windows, cut⟩ ∧
    ((∃ items, extract data = .ok items) ↔ cut = none ∧
      ∀ w ∈ windows, ∃ payload, w.Holds (.table payload) ∧ Item.IsPayload payload) ∧
    (∀ items, extract data = .ok items → List.Forall₂ Window.Describes windows items) ∧
    ∀ e, extract data = .error e → e.IsReported ∨ ∃ w ∈ windows, w.Exceeds := by
  have hscans := scans_scan data
  refine ⟨_, _, hscans, hscans.extract_isOk_iff, ?_, hscans.extract_failsWith⟩
  intro items hok
  exact (hscans.extract_eq_ok_iff.mp hok).2

end Wire

end BindGen
