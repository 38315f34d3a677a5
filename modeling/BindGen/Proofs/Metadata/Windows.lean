import BindGen.Proofs.Metadata.Wire

/-!
# Windows

The windows of a byte sequence, told by their places in it: from each place the scan goes to the
first marker that stands there or further behind, and from a complete body to the place behind that
body. What is extracted is told by the windows, one after the other, and by the cut at which they
end.
-/

namespace BindGen.Wire

/-- The first marker at or behind a place. -/
structure FirstMarker (data : Bytes) (start index : Nat) : Prop where
  start_le : start ≤ index
  found : MarkerAt data index
  first : ∀ i, start ≤ i → i < index → ¬MarkerAt data i

/-- The number of bytes in front of a body: those of the marker and of the length. -/
def headerSize : Nat := marker.length + lengthSize

/-- The length that stands behind the marker at an index. -/
def declaredAt (data : Bytes) (index : Nat) : Nat :=
  decodeLength ((data.drop (index + marker.length)).take lengthSize)

/-- The window of the marker at an index. -/
def windowAt (data : Bytes) (index : Nat) : Window :=
  ⟨index, (data.drop (index + headerSize)).take (declaredAt data index)⟩

/-- The place behind the body of the marker at an index. -/
def stopAt (data : Bytes) (index : Nat) : Nat := index + headerSize + declaredAt data index

/-- The place behind a window. -/
def Window.stop (w : Window) : Nat := w.offset + headerSize + w.body.length

/-- The windows behind a place, and the cut at which they end. -/
inductive Scans (data : Bytes) : Nat → Scan → Prop where
  | done {start : Nat} (none_behind : ∀ i, start ≤ i → ¬MarkerAt data i) :
    Scans data start ⟨[], none⟩
  | header {start index : Nat} (first : FirstMarker data start index)
    (cut : data.length < index + headerSize) : Scans data start ⟨[], some (.header index)⟩
  | record {start index : Nat} (first : FirstMarker data start index)
    (header : index + headerSize ≤ data.length) (cut : data.length < stopAt data index) :
    Scans data start
      ⟨[], some (.record index (declaredAt data index) (data.length - (index + headerSize)))⟩
  | window {start index : Nat} {rest : Scan} (first : FirstMarker data start index)
    (complete : stopAt data index ≤ data.length) (behind : Scans data (stopAt data index) rest) :
    Scans data start ⟨windowAt data index :: rest.windows, rest.cut⟩

variable {data : Bytes} {start index k : Nat}

/-! ## The scan -/

private theorem markerAt_drop {i : Nat} :
    MarkerAt (data.drop start) i ↔ MarkerAt data (start + i) := by
  rw [MarkerAt, MarkerAt, List.drop_drop]

/-- A marker is not longer than the data that hold it. -/
theorem MarkerAt.le_length (h : MarkerAt data index) : index + marker.length ≤ data.length := by
  have hle := h.length_le
  rw [List.length_drop] at hle
  have hpos : 0 < marker.length := by decide
  omega

/-- No marker is found in data only if there is none. -/
theorem not_markerAt_of_findMarker (h : findMarker data = none) : ∀ i, ¬MarkerAt data i := by
  induction data with
  | nil =>
    intro i hi
    have hle := hi.le_length
    have hpos : 0 < marker.length := by decide
    rw [List.length_nil] at hle
    omega
  | cons b rest ih =>
    rw [findMarker] at h
    split at h
    · cases h
    · next hstart =>
      intro i hi
      cases i with
      | zero => exact hstart (startsWithMarker_iff.mpr hi)
      | succ i => exact ih (Option.map_eq_none_iff.mp h) i hi

/-- The marker that is found in data is the first one. -/
theorem firstMarker_of_findMarker {skipped : Nat} {after : Bytes}
    (h : findMarker data = some (skipped, after)) :
    FirstMarker data 0 skipped ∧ after = data.drop (skipped + marker.length) := by
  induction data generalizing skipped after with
  | nil => cases h
  | cons b rest ih =>
    rw [findMarker] at h
    split at h
    · next hstart =>
      cases h
      refine ⟨⟨Nat.le_refl 0, startsWithMarker_iff.mp hstart, ?_⟩, ?_⟩
      · intro i _ hi
        cases hi
      · rw [Nat.zero_add]
    · next hstart =>
      obtain ⟨⟨n, rest'⟩, hfound, heq⟩ := Option.map_eq_some_iff.mp h
      cases heq
      obtain ⟨hfirst, rfl⟩ := ih hfound
      refine ⟨⟨Nat.zero_le _, hfirst.found, ?_⟩, ?_⟩
      · intro i _ hi
        cases i with
        | zero => exact fun hm => hstart (startsWithMarker_iff.mpr hm)
        | succ i => exact hfirst.first i (Nat.zero_le i) (Nat.lt_of_succ_lt_succ hi)
      · rw [Nat.add_right_comm, List.drop_succ_cons]

private theorem FirstMarker.of_drop (h : FirstMarker (data.drop start) 0 index) :
    FirstMarker data start (start + index) where
  start_le := Nat.le_add_right start index
  found := markerAt_drop.mp h.found
  first i hs hi := by
    have hshift : start + (i - start) = i := by omega
    rw [← hshift, ← markerAt_drop]
    apply h.first
    · exact Nat.zero_le _
    · omega

-- Bytes that stand behind a marker, by their place in all data.
private theorem drop_header (data : Bytes) (index : Nat) :
    (data.drop (index + marker.length)).drop lengthSize = data.drop (index + headerSize) := by
  rw [List.drop_drop, Nat.add_assoc, headerSize]

-- What the scan does at the first marker behind a place: it ends if the data end inside the window,
-- and else it goes on behind it.
private theorem scanFrom_marker {skipped : Nat} {after : Bytes}
    (h : findMarker (data.drop start) = some (skipped, after)) :
    scanFrom start (data.drop start) =
      if data.length < start + skipped + headerSize then ⟨[], some (.header (start + skipped))⟩
      else if data.length < stopAt data (start + skipped) then
        ⟨[], some (.record (start + skipped) (declaredAt data (start + skipped))
          (data.length - (start + skipped + headerSize)))⟩
      else
        let rest := scanFrom (stopAt data (start + skipped))
          (data.drop (stopAt data (start + skipped)))
        ⟨windowAt data (start + skipped) :: rest.windows, rest.cut⟩ := by
  obtain ⟨hfirst, rfl⟩ := firstMarker_of_findMarker h
  have hle := hfirst.of_drop.found.le_length
  have hsize : headerSize = marker.length + lengthSize := rfl
  rw [scanFrom, h]
  dsimp only
  rw [List.drop_drop, ← Nat.add_assoc, drop_header, ← declaredAt, List.length_drop, List.length_drop,
    List.drop_drop]
  have hheader : data.length - (start + skipped + marker.length) < lengthSize ↔
      data.length < start + skipped + headerSize := by omega
  simp only [hheader]
  split
  · rfl
  · next hcomplete =>
    have hrecord : data.length - (start + skipped + headerSize) < declaredAt data (start + skipped) ↔
        data.length < stopAt data (start + skipped) := by
      rw [stopAt]
      omega
    simp only [hrecord]
    rfl

/-- From every place, the scan finds the windows behind it. -/
theorem scans_scanFrom (data : Bytes) (start : Nat) :
    Scans data start (scanFrom start (data.drop start)) := by
  -- Each step of the scan leaves fewer bytes, as it goes on behind a marker.
  induction hn : data.length - start using Nat.strong_induction_on generalizing start with
  | h n ih =>
    cases hfound : findMarker (data.drop start) with
    | none =>
      rw [scanFrom, hfound]
      apply Scans.done
      intro i hi hm
      have hshift : start + (i - start) = i := by omega
      rw [← hshift, ← markerAt_drop] at hm
      exact not_markerAt_of_findMarker hfound _ hm
    | some found =>
      obtain ⟨skipped, after⟩ := found
      have hfirst := (firstMarker_of_findMarker hfound).1.of_drop
      rw [scanFrom_marker hfound]
      split
      · next hcut => exact Scans.header hfirst hcut
      · next hheader =>
        split
        · next hcut => exact Scans.record hfirst (Nat.le_of_not_lt hheader) hcut
        · next hcomplete =>
          apply Scans.window hfirst (Nat.le_of_not_lt hcomplete)
          have hforward : start < stopAt data (start + skipped) := by
            have hpos : 0 < headerSize := by decide
            rw [stopAt]
            omega
          have hle := hfirst.found.le_length
          have hpos : 0 < marker.length := by decide
          apply ih _ _ _ rfl
          omega

/-- The windows of a byte sequence. -/
theorem scans_scan (data : Bytes) : Scans data 0 (scan data) := scans_scanFrom data 0

private theorem FirstMarker.unique {other : Nat} (h : FirstMarker data start index)
    (h' : FirstMarker data start other) : index = other := by
  apply Nat.le_antisymm
  · apply Nat.le_of_not_lt
    exact fun hlt => h.first other h'.start_le hlt h'.found
  · apply Nat.le_of_not_lt
    exact fun hlt => h'.first index h.start_le hlt h.found

/-- There is one way to scan behind a place. -/
theorem Scans.unique {s s' : Scan} (h : Scans data start s) (h' : Scans data start s') : s = s' := by
  induction h generalizing s' with
  | done hnone =>
    cases h' with
    | done => rfl
    | header first | record first | window first =>
      exact absurd first.found (hnone _ first.start_le)
  | header first cut =>
    cases h' with
    | done hnone => exact absurd first.found (hnone _ first.start_le)
    | header first' => rw [first.unique first']
    | record first' header =>
      obtain rfl := first.unique first'
      omega
    | window first' complete =>
      obtain rfl := first.unique first'
      rw [stopAt] at complete
      omega
  | record first header cut =>
    cases h' with
    | done hnone => exact absurd first.found (hnone _ first.start_le)
    | record first' => rw [first.unique first']
    | header first' cut' | window first' cut' =>
      obtain rfl := first.unique first'
      omega
  | window first complete behind ih =>
    cases h' with
    | done hnone => exact absurd first.found (hnone _ first.start_le)
    | window first' complete' behind' =>
      obtain rfl := first.unique first'
      rw [ih behind']
    | header first' cut' =>
      obtain rfl := first.unique first'
      rw [stopAt] at complete
      omega
    | record first' _ cut' =>
      obtain rfl := first.unique first'
      omega

/-- A scan is that of all data exactly if it goes from window to window. -/
theorem scans_iff {s : Scan} : Scans data 0 s ↔ s = scan data := by
  constructor
  · intro h
    exact h.unique (scans_scan data)
  · rintro rfl
    exact scans_scan data

end BindGen.Wire
