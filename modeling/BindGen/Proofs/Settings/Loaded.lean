import BindGen.Proofs.Settings.Growth
import BindGen.Proofs.Toml.Plain
import BindGen.Proofs.Yaml.Values
import BindGen.Settings.Load

/-!
# Loaded settings

All links in settings from files are there, also after one file is laid over another. So what is
shown for settings with such links holds of all that are loaded.
-/

namespace BindGen.Settings

open Value Links

variable {l source : Links} {label : Nat} {t entries : Table Value} {k : Scalar} {v : Value}

/-! ## Overlaying -/

mutual

/-- Overlaying bounded tables gives a bounded one. -/
theorem bounded_overlay {n : Nat} : ∀ {t s : Table Value}, Bounded n (.table t) →
    Bounded n (.table s) → Bounded n (.table (overlay t s))
  | t, [], ht, _ => by
    rw [overlay]
    exact ht
  | t, (k, v) :: rest, ht, hs => by
    have hv : Bounded n v := hs.of_mem List.mem_cons_self
    have hrest : Bounded n (.table rest) := .table fun e he => hs.of_mem (List.mem_cons_of_mem _ he)
    rw [overlay]
    split
    · next inner hk =>
      exact bounded_overlay (ht.put k (bounded_overlayOn (ht.of_find? hk) hv)) hrest
    · exact bounded_overlay (ht.put k hv) hrest

private theorem bounded_overlayOn {n : Nat} : ∀ {inner : Table Value} {v : Value},
    Bounded n (.table inner) → Bounded n v → Bounded n (overlayOn inner v)
  | inner, .table entries, hi, hv => by
    rw [overlayOn]
    exact bounded_overlay hi hv
  | inner, .scalar _, _, hv | inner, .list _, _, hv | inner, .pair _ _, _, hv
  | inner, .set _, _, hv | inner, .link _ _, _, hv => by
    rw [overlayOn]
    · exact hv
    · simp

end

/-- Links with no label that leads nowhere, of which there are at least as many as before. -/
def ClosedAfter (l l' : Links) : Prop := l'.Closed ∧ l.size ≤ l'.size

private theorem ClosedAfter.trans {l' l'' : Links} (h : ClosedAfter l l')
    (h' : ClosedAfter l' l'') :
    ClosedAfter l l'' :=
  ⟨h'.1, Nat.le_trans h.2 h'.2⟩

/-- Putting a copy under a key keeps links closed. -/
theorem closed_putCopy (hl : l.Closed) (hs : source.Closed) (ht : Bounded l.size (.table t))
    (hv : Bounded source.size v) : ClosedAfter l (putCopy source label t k v l) := by
  obtain ⟨hsize, hclosed, hcopy, -⟩ := adopt_spec (l := l) hs hv
  rw [putCopy]
  exact ⟨(hclosed hl).setIfInBounds label ((Bounded.mono ht hsize).put k hcopy), by simpa using hsize⟩

/-- Giving an entry a label keeps links closed, and the label is one of theirs. -/
theorem closed_labelOf (hl : l.Closed) (ht : Bounded l.size (.table t)) (hv : Bounded l.size v) :
    ClosedAfter l (labelOf label t k v l).1 ∧
      (labelOf label t k v l).2 < (labelOf label t k v l).1.size := by
  unfold labelOf
  split
  · cases hv with
    | link _ hlabel => exact ⟨⟨hl, Nat.le_refl _⟩, hlabel⟩
  · have hsize : l.size < (l.push v).size := by simp
    have hput : Bounded (l.push v).size (.table (Table.put t k (.link l.size .table))) :=
      (Bounded.mono ht (Nat.le_of_lt hsize)).put k (.link .table hsize)
    have hpush : Links.Closed (l.push v) := hl.push (hv.mono (Nat.le_succ _))
    exact ⟨⟨hpush.setIfInBounds label hput, by simp⟩, by simp⟩

private theorem closed_mergeAt (clash : Clash) (hs : source.Closed) (depth : Nat) (hl : l.Closed)
    (hlabel : label < l.size) (he : Bounded source.size (.table entries)) :
    Yields (ClosedAfter l) (mergeAt clash source depth label entries l) := by
  induction depth generalizing label entries l with
  | zero =>
    rw [mergeAt]
    exact .error _
  | succ depth ih =>
    rw [mergeAt]
    refine .foldlM (fun e hmem now hnow => ?_) ⟨hl, Nat.le_refl _⟩
    have hvalue : Bounded source.size e.2 := he.of_mem hmem
    have hplace : Bounded now.size (.link label .table) :=
      .link .table (Nat.lt_of_lt_of_le hlabel hnow.2)
    have ht : Bounded now.size (.table ((now.table? (.link label .table)).getD [])) := by
      cases hfound : now.table? (.link label .table) with
      | none => exact .empty
      | some t => exact hnow.1.table? hplace hfound
    have hput : ClosedAfter now (putCopy source label _ e.1 e.2 now) :=
      closed_putCopy hnow.1 hs ht hvalue
    dsimp only
    split
    · exact .ok (hnow.trans hput)
    · next old hold =>
      split
      · next inner hinner =>
        obtain ⟨hlabelled, hinside⟩ : ClosedAfter now (labelOf label _ e.1 old now).1 ∧ _ :=
          closed_labelOf hnow.1 ht (ht.of_find? hold)
        refine fun l' hrun => hnow.trans (hlabelled.trans ?_)
        exact ih hlabelled.1 hinside (hs.table? hvalue hinner) l' hrun
      · split
        · exact .ok hnow
        · exact .ok (hnow.trans hput)

/-- A table with links all of which are there. -/
structure ClosedTable (data : Linked) : Prop where
  links : data.1.Closed
  entries : Bounded data.1.size (.table data.2)

private theorem closed_overlayLinked {target source : Linked} (ht : ClosedTable target)
    (hs : ClosedTable source) : Yields ClosedTable (overlayLinked target source) := by
  rw [overlayLinked]
  split
  · next hempty =>
    obtain ⟨htarget, hsource⟩ : target.1 = #[] ∧ source.1 = #[] := by simpa using hempty
    have hentries := ht.entries
    have hsourced := hs.entries
    rw [htarget] at hentries
    rw [hsource] at hsourced
    exact .ok ⟨closed_empty, bounded_overlay hentries hsourced⟩
  · have hsize : target.1.size < (target.1.push (.table target.2)).size := by simp
    have hboxed : Links.Closed (target.1.push (.table target.2)) :=
      ht.links.push (ht.entries.mono (Nat.le_succ _))
    refine (closed_mergeAt .replace hs.links mergeDepth hboxed hsize hs.entries).bind
      fun merged hmerged => .ok ⟨hmerged.1, ?_⟩
    have hplace : Bounded merged.size (.link target.1.size .table) :=
      .link .table (Nat.lt_of_lt_of_le hsize hmerged.2)
    cases hfound : merged.table? (.link target.1.size .table) with
    | none => exact .empty
    | some t => exact hmerged.1.table? hplace hfound

/-! ## Files -/

/-- A value read from a file is closed with its links. -/
theorem closed_valueIn (file : Path) (text : List Char) :
    Yields (fun r => r.2.Closed ∧ Bounded r.2.size r.1) (valueIn file text) := by
  rw [valueIn]
  split
  · exact (Toml.plain_read text).bind fun t ht => .ok ⟨closed_empty, ht.bounded⟩
  · exact Yaml.closed_read text

private theorem closedTable_empty : ClosedTable (#[], []) := ⟨closed_empty, .empty⟩

private theorem closed_tableIn (file : Path) (text : List Char) :
    Yields ClosedTable (tableIn file text) := by
  rw [tableIn]
  split
  · exact .ok closedTable_empty
  · split
    · exact .ok closedTable_empty
    · next v links _ hv =>
      obtain ⟨hlinks, hbounded⟩ := closed_valueIn file text _ hv
      split
      · next entries hentries => exact .ok ⟨hlinks, hlinks.table? hbounded hentries⟩
      · exact .error _
    · exact .error _
    · exact .error _

private theorem closed_readFile (files : Tree) (file : Path) :
    Yields ClosedTable (readFile files file) := by
  rw [readFile]
  split
  · exact .error _
  · split
    · exact closed_tableIn file _
    · exact .error _

/-! ## Settings -/

private theorem closed_languageTables (hl : l.Closed) (hv : Bounded l.size v) :
    Yields (fun tables => Bounded l.size (.table tables)) (languageTables l v) := by
  unfold languageTables
  split
  · exact .ok .empty
  · split
    · exact .error _
    · next entries hentries =>
      have hbounded : Bounded l.size (.table entries) := hl.table? hv hentries
      refine .foldlM (fun e he tables htables => .next fun name => .check ?_) .empty
      exact .ok (htables.put _ (hbounded.of_mem he))

private theorem closed_ofTable (root : Path) {data : Linked} (h : ClosedTable data) :
    Yields Settings.Closed (ofTable root data) := by
  obtain ⟨links, entries⟩ := data
  have hfound : Bounded links.size ((Table.find? entries "bindings").getD .null) := by
    cases hf : Table.find? entries "bindings" with
    | none => exact .scalar .null
    | some v => exact h.entries.of_find? hf
  exact (closed_languageTables h.links hfound).bind fun tables htables =>
    .ok ⟨h.links, h.entries.remove _, htables⟩

/-- All links in loaded settings are there. -/
theorem closed_load (files : Tree) (crate : Path) (override : Option Path) :
    Yields Settings.Closed (load files crate override) := by
  cases override with
  | none =>
    refine .next fun root => .next fun file? => ?_
    dsimp only
    split
    · exact (closed_readFile files _).bind fun _ => closed_ofTable root
    · exact closed_ofTable root closedTable_empty
  | some override =>
    refine .next fun root => .next fun file? => ?_
    have hlaid (own : Linked) (hown : ClosedTable own) : Yields Settings.Closed (do
        let file ← withoutHome override
        if !(← (files.has file).mapError .file) then throw (.overrideNotFound file.text)
        ofTable root (← (overlayLinked own (← readFile files file)).mapError .fault)) := by
      refine .next fun file => .next fun found => .check ?_
      refine (closed_readFile files file).bind fun laid hfile => ?_
      exact (closed_overlayLinked hown hfile).mapError.bind fun _ => closed_ofTable root
    dsimp only
    split
    · exact (closed_readFile files _).bind hlaid
    · exact hlaid _ closedTable_empty

end BindGen.Settings
