import BindGen.Proofs.Metadata.Extraction

/-!
# Data that are cut off

What is extracted from the first bytes of data of which all can be read. If the data end between two
windows, or inside a marker, the items of the windows in front of the end are extracted; if they end
behind a marker and inside its window, that window is reported.
-/

namespace BindGen.Wire

/-- Whether data that end at a place end inside a window, behind its marker. -/
def Window.IsCutAt (w : Window) (k : Nat) : Prop := w.offset + marker.length ≤ k ∧ k < w.stop

/-- Whether a window is cut at a place can be decided. -/
instance (w : Window) (k : Nat) : Decidable (w.IsCutAt k) :=
  inferInstanceAs (Decidable (_ ∧ _))

/-- The cut that data have which end at a place inside a window. -/
def Window.cutAt (w : Window) (k : Nat) : Cut :=
  if k < w.offset + headerSize then .header w.offset
  else .record w.offset w.body.length (k - (w.offset + headerSize))

/-- The windows in front of a place. -/
def windowsBefore (windows : List Window) (k : Nat) : List Window :=
  windows.filter fun w => decide (w.stop ≤ k)

/-- The window that a place is inside of. -/
def windowAround? (windows : List Window) (k : Nat) : Option Window :=
  windows.find? fun w => decide (w.IsCutAt k)

variable {data : Bytes} {start index k : Nat} {s : Scan} {windows : List Window} {w : Window}

/-! ## The order of windows -/

private theorem length_windowAt (h : stopAt data index ≤ data.length) :
    (windowAt data index).body.length = declaredAt data index := by
  rw [stopAt] at h
  rw [windowAt, List.length_take, List.length_drop]
  omega

private theorem stop_windowAt (h : stopAt data index ≤ data.length) :
    (windowAt data index).stop = stopAt data index := by
  rw [Window.stop, length_windowAt h]
  rfl

/-- Windows stand behind the place at which the scan starts. -/
theorem Scans.start_le (h : Scans data start s) : ∀ w ∈ s.windows, start ≤ w.offset := by
  induction h with
  | done | header | record => exact List.forall_mem_nil _
  | @window start index rest first _ _ ih =>
    refine List.forall_mem_cons.mpr ⟨first.start_le, ?_⟩
    intro w hw
    have hbehind := ih w hw
    have hstart := first.start_le
    rw [stopAt] at hbehind
    omega

/-- Each window ends before the ones behind it start. -/
theorem Scans.pairwise (h : Scans data start s) :
    s.windows.Pairwise fun a b => a.stop ≤ b.offset := by
  induction h with
  | done | header | record => exact .nil
  | window first complete behind ih =>
    apply List.Pairwise.cons _ ih
    intro w hw
    rw [stop_windowAt complete]
    exact behind.start_le w hw

/-! ## Cutting data off -/

private theorem markerAt_take :
    MarkerAt (data.take k) index ↔ MarkerAt data index ∧ index + marker.length ≤ k := by
  have hpos : 0 < marker.length := by decide
  rw [MarkerAt, List.drop_take, List.prefix_take_iff, MarkerAt]
  apply and_congr_right
  intro _
  omega

private theorem FirstMarker.take (h : FirstMarker data start index)
    (hk : index + marker.length ≤ k) :
    FirstMarker (data.take k) start index where
  start_le := h.start_le
  found := markerAt_take.mpr ⟨h.found, hk⟩
  first i hs hi hm := h.first i hs hi (markerAt_take.mp hm).1

private theorem declaredAt_take (h : index + headerSize ≤ k) :
    declaredAt (data.take k) index = declaredAt data index := by
  rw [headerSize] at h
  have hle : lengthSize ≤ k - (index + marker.length) := by omega
  rw [declaredAt, List.drop_take, List.take_take, Nat.min_eq_left hle, declaredAt]

private theorem stopAt_take (h : index + headerSize ≤ k) :
    stopAt (data.take k) index = stopAt data index := by
  rw [stopAt, declaredAt_take h, stopAt]

private theorem windowAt_take (h : stopAt data index ≤ k) :
    windowAt (data.take k) index = windowAt data index := by
  rw [stopAt] at h
  have hle : declaredAt data index ≤ k - (index + headerSize) := by omega
  rw [windowAt, declaredAt_take (by omega), List.drop_take, List.take_take, Nat.min_eq_left hle,
    windowAt]

-- Data that end before the marker of a window have nothing behind the windows in front of it.
private theorem not_markerAt_take (first : FirstMarker data start index)
    (hk : k < index + marker.length) : ∀ i, start ≤ i → ¬MarkerAt (data.take k) i := by
  intro i hs hm
  obtain ⟨hm, hi⟩ := markerAt_take.mp hm
  apply first.first i hs _ hm
  omega

-- Data that end inside the first window behind a place end with the cut of that window.
private theorem scans_take_cut (first : FirstMarker data start index)
    (complete : stopAt data index ≤ data.length) (hcut : (windowAt data index).IsCutAt k) :
    Scans (data.take k) start ⟨[], some ((windowAt data index).cutAt k)⟩ := by
  obtain ⟨hmarker, hstop⟩ := hcut
  rw [stop_windowAt complete] at hstop
  have hlength : (data.take k).length = k := by
    rw [List.length_take]
    omega
  have hfirst := first.take hmarker
  rw [Window.cutAt, length_windowAt complete]
  change Scans _ _ ⟨[], some (if k < index + headerSize then .header index
    else .record index (declaredAt data index) (k - (index + headerSize)))⟩
  split
  · next hheader =>
    apply Scans.header hfirst
    rw [hlength]
    exact hheader
  · next hheader =>
    have hheader := Nat.le_of_not_lt hheader
    have hrecord := Scans.record hfirst (by omega) (by rw [stopAt_take hheader]; omega)
    rw [declaredAt_take hheader, hlength] at hrecord
    exact hrecord

-- Data that do not end before the first window behind a place have that window in front of what is
-- behind it.
private theorem scans_take_window (first : FirstMarker data start index)
    (complete : stopAt data index ≤ data.length) (hk : stopAt data index ≤ k)
    (hrest : Scans (data.take k) (stopAt data index) s) :
    Scans (data.take k) start ⟨windowAt data index :: s.windows, s.cut⟩ := by
  have hheader : index + headerSize ≤ k := by
    rw [stopAt] at hk
    omega
  have hmarker : index + marker.length ≤ k := by
    rw [headerSize] at hheader
    omega
  have hlength : stopAt (data.take k) index ≤ (data.take k).length := by
    rw [stopAt_take hheader, List.length_take]
    omega
  rw [← stopAt_take hheader] at hrest
  rw [← windowAt_take hk]
  exact Scans.window (first.take hmarker) hlength hrest

private theorem windowsBefore_cons (h : w.stop ≤ k) :
    windowsBefore (w :: windows) k = w :: windowsBefore windows k := by
  simp [windowsBefore, h]

private theorem windowsBefore_eq_nil (h : ∀ w ∈ windows, k < w.stop) :
    windowsBefore windows k = [] := by
  simpa [windowsBefore] using h

private theorem windowAround?_cons (h : ¬w.IsCutAt k) :
    windowAround? (w :: windows) k = windowAround? windows k := by
  simp [windowAround?, h]

private theorem windowAround?_eq_none (h : ∀ w ∈ windows, ¬w.IsCutAt k) :
    windowAround? windows k = none := by
  simpa [windowAround?] using h

/-- The scan of data that end at a place finds the windows in front of that place, and the cut of
the window that the place is inside of. -/
theorem Scans.take (h : Scans data start s) (hcomplete : s.cut = none) (k : Nat) :
    Scans (data.take k) start
      ⟨windowsBefore s.windows k, (windowAround? s.windows k).map (·.cutAt k)⟩ := by
  induction h with
  | done hnone =>
    apply Scans.done
    intro i hi hm
    exact hnone i hi (markerAt_take.mp hm).1
  | header | record => cases hcomplete
  | @window start index rest first complete behind ih =>
    have hstop := stop_windowAt complete
    by_cases hk : stopAt data index ≤ k
    · have houtside : ¬(windowAt data index).IsCutAt k := by
        rw [Window.IsCutAt, hstop]
        omega
      rw [windowsBefore_cons (hstop ▸ hk), windowAround?_cons houtside]
      exact scans_take_window first complete hk (ih hcomplete)
    · -- The windows behind this one start behind the end of the data.
      have hbehind : ∀ w ∈ rest.windows, k < w.offset := by
        intro w hw
        have hle := behind.start_le w hw
        omega
      have hnone : windowsBefore (windowAt data index :: rest.windows) k = [] := by
        apply windowsBefore_eq_nil
        refine List.forall_mem_cons.mpr ⟨by omega, ?_⟩
        intro w hw
        have hlt := hbehind w hw
        rw [Window.stop]
        omega
      rw [hnone]
      by_cases hmarker : index + marker.length ≤ k
      · have hcut : (windowAt data index).IsCutAt k := ⟨hmarker, by omega⟩
        have haround : windowAround? (windowAt data index :: rest.windows) k =
            some (windowAt data index) := by
          simp [windowAround?, hcut]
        rw [haround]
        exact scans_take_cut first complete hcut
      · have haround : windowAround? (windowAt data index :: rest.windows) k = none := by
          apply windowAround?_eq_none
          refine List.forall_mem_cons.mpr ⟨fun hcut => hmarker hcut.1, ?_⟩
          intro w hw hcut
          have hlt := hbehind w hw
          have hle := hcut.1
          omega
        rw [haround]
        exact Scans.done (not_markerAt_take first (Nat.lt_of_not_le hmarker))

/-! ## What is extracted -/

/-- A place is inside of one window at most. -/
theorem Scans.windowAround?_eq (h : Scans data start s) (hw : w ∈ s.windows) (hcut : w.IsCutAt k) :
    windowAround? s.windows k = some w := by
  have hsome : (windowAround? s.windows k).isSome := by
    rw [windowAround?, List.find?_isSome]
    exact ⟨w, hw, decide_eq_true hcut⟩
  obtain ⟨v, hv⟩ := Option.isSome_iff_exists.mp hsome
  have hvcut : v.IsCutAt k :=
    of_decide_eq_true (List.find?_some (p := fun w : Window => decide (w.IsCutAt k)) hv)
  have hvmem : v ∈ s.windows := List.mem_of_find?_eq_some hv
  have hapart : s.windows.Pairwise fun a b => a.stop ≤ b.offset ∨ b.stop ≤ a.offset :=
    h.pairwise.imp Or.inl
  have hsymm : Std.Symm fun a b : Window => a.stop ≤ b.offset ∨ b.stop ≤ a.offset :=
    ⟨fun _ _ => Or.symm⟩
  by_cases heq : v = w
  · rw [hv, heq]
  · have hboth := hapart.forall hvmem hw heq
    obtain ⟨hstart, hstop⟩ := hcut
    obtain ⟨hvstart, hvstop⟩ := hvcut
    omega

-- The items that satisfy a condition stand in front of all others if each does whenever one behind
-- it does.
private theorem filter_prefix {α : Type} {p : α → Bool} {l : List α}
    (h : l.Pairwise fun a b => p b = true → p a = true) : l.filter p <+: l := by
  induction l with
  | nil => exact List.nil_prefix
  | cons a l ih =>
    obtain ⟨hhead, htail⟩ := List.pairwise_cons.mp h
    by_cases ha : p a = true
    · rw [List.filter_cons_of_pos ha]
      exact (List.prefix_cons_inj a).mpr (ih htail)
    · have hnil : l.filter p = [] := by
        rw [List.filter_eq_nil_iff]
        intro b hb hpb
        exact ha (hhead b hb hpb)
      rw [List.filter_cons_of_neg ha, hnil]
      exact List.nil_prefix

/-- The windows in front of a place are the first ones. -/
theorem Scans.windowsBefore_prefix (h : Scans data start s) (k : Nat) :
    windowsBefore s.windows k <+: s.windows := by
  apply filter_prefix
  apply h.pairwise.imp
  intro a b hab hb
  have hstop := of_decide_eq_true hb
  rw [Window.stop] at hstop
  apply decide_eq_true
  omega

/-- Data of which all items can be extracted give, when they end at a place outside of every window,
the items of the windows in front of that place, which are the first ones; and when they end inside
a window, behind its marker, that window is reported, with a header or a body that is cut off. -/
theorem extract_take {items : List Item} (h : extract data = .ok items) (k : Nat) :
    ∃ windows, Scans data 0 ⟨windows, none⟩ ∧ List.Forall₂ Window.Describes windows items ∧
      ((∀ w ∈ windows, ¬w.IsCutAt k) → ∃ kept, extract (data.take k) = .ok kept ∧ kept <+: items ∧
        List.Forall₂ Window.Describes (windowsBefore windows k) kept) ∧
      ∀ w ∈ windows, w.IsCutAt k → extract (data.take k) = .error (
        if k < w.offset + headerSize then .truncatedHeader w.offset
        else .truncatedRecord w.offset w.body.length (k - (w.offset + headerSize))) := by
  obtain ⟨⟨windows, cut⟩, hscans⟩ : ∃ s, Scans data 0 s := ⟨_, scans_scan data⟩
  obtain ⟨rfl, hitems⟩ := hscans.extract_eq_ok_iff.mp h
  have htake := hscans.take rfl k
  -- The windows in front of the place are as many first ones as the items that are kept.
  have hbefore := List.prefix_iff_eq_take.mp (hscans.windowsBefore_prefix k)
  have hkept := List.forall₂_take (windowsBefore windows k).length hitems
  rw [← hbefore] at hkept
  refine ⟨windows, hscans, hitems, ?_, ?_⟩
  · intro houtside
    rw [windowAround?_eq_none houtside] at htake
    exact ⟨_, htake.extract_eq_ok_iff.mpr ⟨rfl, hkept⟩, List.take_prefix _ _, hkept⟩
  · intro w hw hinside
    rw [hscans.windowAround?_eq hw hinside, Option.map_some] at htake
    rw [htake.extract_eq_cut hkept, Window.cutAt]
    split <;> rfl

-- The bytes of a namespace that was embedded twice.
private def pair : Bytes := encodeItem coreNamespace ++ encodeItem coreNamespace

private theorem windows_pair (h : Scans pair 0 ⟨windows, none⟩) : ∃ body body' : Bytes,
    body.length = 54 ∧ body'.length = 54 ∧ windows = [⟨0, body⟩, ⟨71, body'⟩] := by
  have hplaces : (scan pair).windows.map (fun w => (w.offset, w.body.length)) =
      [(0, 54), (71, 54)] := by
    rw [pair, encodeItem_coreNamespace]
    decide +kernel
  rw [← scans_iff.mp h] at hplaces
  obtain ⟨⟨offset, body⟩, rest, rfl, hfirst, hrest⟩ := List.map_eq_cons_iff.mp hplaces
  obtain ⟨⟨offset', body'⟩, rfl, hsecond⟩ := List.map_eq_singleton_iff.mp hrest
  obtain ⟨rfl, hbody⟩ := Prod.mk.inj hfirst
  obtain ⟨rfl, hbody'⟩ := Prod.mk.inj hsecond
  exact ⟨body, body', hbody, hbody', rfl⟩

/-- A namespace that was embedded twice, and data that end inside of the second marker, right behind
it, and inside of the second body. -/
theorem extract_take_pair :
    extract pair = .ok [coreNamespace, coreNamespace] ∧
      extract (pair.take 75) = .ok [coreNamespace] ∧
      extract (pair.take 84) = .error (.truncatedHeader 71) ∧
      extract (pair.take 90) = .error (.truncatedRecord 71 54 2) := by
  have hextract : extract pair = .ok [coreNamespace, coreNamespace] :=
    extract_pair hasJsonFields_coreNamespace hasJsonFields_coreNamespace length_coreNamespace
      length_coreNamespace
  have hheader : headerSize = 17 := rfl
  have hmarker : marker.length = 13 := rfl
  refine ⟨hextract, ?_, ?_, ?_⟩
  · obtain ⟨windows, hscans, -, houtside, -⟩ := extract_take hextract 75
    obtain ⟨body, body', hbody, hbody', rfl⟩ := windows_pair hscans
    have hbefore : windowsBefore [⟨0, body⟩, ⟨71, body'⟩] 75 = [⟨0, body⟩] := by
      simp [windowsBefore, Window.stop, hheader, hbody, hbody']
    obtain ⟨kept, hkept, hfront, hdescribes⟩ := houtside (by
      simp [Window.IsCutAt, Window.stop, hheader, hmarker, hbody])
    rw [hbefore] at hdescribes
    have hone : kept = [coreNamespace, coreNamespace].take kept.length :=
      List.prefix_iff_eq_take.mp hfront
    rw [← hdescribes.length_eq] at hone
    rw [hkept, hone]
    rfl
  · obtain ⟨windows, hscans, -, -, hinside⟩ := extract_take hextract 84
    obtain ⟨body, body', hbody, hbody', rfl⟩ := windows_pair hscans
    refine (hinside ⟨71, body'⟩ (List.mem_cons_of_mem _ List.mem_cons_self) ?_).trans ?_
    · simp [Window.IsCutAt, Window.stop, hheader, hmarker, hbody']
    · simp [hheader]
  · obtain ⟨windows, hscans, -, -, hinside⟩ := extract_take hextract 90
    obtain ⟨body, body', hbody, hbody', rfl⟩ := windows_pair hscans
    refine (hinside ⟨71, body'⟩ (List.mem_cons_of_mem _ List.mem_cons_self) ?_).trans ?_
    · simp [Window.IsCutAt, Window.stop, hheader, hmarker, hbody']
    · simp [hheader, hbody']

end BindGen.Wire
