import BindGen.Json.Reader
import BindGen.Proofs.Json.Scalar
import BindGen.Proofs.Value.Order

/-!
# Reading values

A value of JSON is read from its text as it was, with the entries of its tables in the order of
their keys. The machine that reads takes the text of a value from any place where a value may start
to the place behind it, so that lists and tables are read part by part.
-/

namespace BindGen

namespace Value

mutual

/-- A value with the entries of its tables in the order of their keys, at every depth. -/
def inOrder : Value → Value
  | list items => list (itemsInOrder items)
  | table entries => table (sortOn Prod.fst (entriesInOrder entries))
  | v => v

/-- The items of a list, each with its keys in order. -/
def itemsInOrder : List Value → List Value
  | [] => []
  | v :: rest => v.inOrder :: itemsInOrder rest

/-- The values of a table, each with its keys in order. -/
def entriesInOrder : List (Scalar × Value) → List (Scalar × Value)
  | [] => []
  | (k, v) :: rest => (k, v.inOrder) :: entriesInOrder rest

end

/-- A scalar has no keys to put in order. -/
theorem inOrder_scalar (s : Scalar) : inOrder (scalar s) = scalar s := by
  rw [inOrder]
  · intro items h
    cases h
  · intro entries h
    cases h

/-- A list is put in order item by item. -/
theorem inOrder_list (items : List Value) : inOrder (list items) = list (items.map inOrder) := by
  have h : itemsInOrder items = items.map inOrder := by
    induction items with
    | nil => rfl
    | cons v rest ih => rw [itemsInOrder, ih, List.map_cons]
  rw [inOrder, h]

/-- A table is put in order value by value, and then by its keys. -/
theorem inOrder_table (entries : Table Value) :
    inOrder (table entries) = table (sortOn Prod.fst (Table.mapValues inOrder entries)) := by
  have h : entriesInOrder entries = Table.mapValues inOrder entries := by
    induction entries with
    | nil => rfl
    | cons e rest ih => rw [entriesInOrder, ih, Table.mapValues, Table.mapValues, List.map_cons]
  rw [inOrder, h]

/-- A table in order has the entries of the table with their values in order, sorted by their
keys. -/
theorem inOrder_table_of_perm {entries sorted : Table Value} (hd : entries.Distinct)
    (hk : entries.Worded) (h : (Table.mapValues inOrder entries).Perm sorted)
    (hs : sorted.Pairwise fun a b => a.1.le b.1 = true) :
    inOrder (table entries) = table sorted := by
  rw [inOrder_table,
    Table.sortOn_eq_of_pairwise (hd.mapValues inOrder) (hk.mapValues inOrder) h hs]

end Value

namespace Json

/-- The values of JSON with at most so many lists and tables in each other: their scalars have a
form, and the keys of their tables are pairwise different texts. Texts may be broken. -/
inductive IsJson : Nat → Value → Prop where
  | scalar {n : Nat} {s : Scalar} (h : HasForm s) : IsJson n (.scalar s)
  | list {n : Nat} {items : List Value} (h : ∀ v ∈ items, IsJson n v) : IsJson (n + 1) (.list items)
  | table {n : Nat} {entries : Table Value} (hd : entries.Distinct) (hk : entries.Worded)
    (h : ∀ e ∈ entries, IsJson n e.2) : IsJson (n + 1) (.table entries)

variable {n m : Nat} {v : Value} {s rest : List Char} {c : Char} {t : Token}

/-- A value that fits a depth fits a greater one. -/
theorem IsJson.mono (h : IsJson n v) (hm : n ≤ m) : IsJson m v := by
  induction h generalizing m with
  | scalar h => exact .scalar h
  | list _ ih =>
    cases m with
    | zero => cases hm
    | succ m => exact .list fun v hv => ih v hv (Nat.le_of_succ_le_succ hm)
  | table hd hk _ ih =>
    cases m with
    | zero => cases hm
    | succ m => exact .table hd hk fun e he => ih e he (Nat.le_of_succ_le_succ hm)

private theorem sameItems_map {items : List Value} (h : ∀ v ∈ items, v.inOrder.same v = true) :
    Value.sameItems (items.map Value.inOrder) items = true := by
  induction items with
  | nil => rfl
  | cons v items ih =>
    rw [List.map_cons, Value.sameItems, h v List.mem_cons_self,
      ih fun w hw => h w (List.mem_cons_of_mem v hw)]
    rfl

private theorem sameEntries_of_find? {entries others : Table Value}
    (h : ∀ e ∈ entries, ∃ w, Table.find? others e.1 = some w ∧ e.2.same w = true) :
    Value.sameEntries entries others = true := by
  induction entries with
  | nil => rfl
  | cons e entries ih =>
    obtain ⟨w, hw, hs⟩ := h e List.mem_cons_self
    rw [Value.sameEntries, hw, ih fun x hx => h x (List.mem_cons_of_mem e hx)]
    dsimp only
    rw [hs]
    rfl

/-- Putting the entries of tables in order does not change what a value of JSON is the same as. -/
theorem IsJson.same_inOrder (h : IsJson n v) : v.inOrder.same v = true := by
  induction h with
  | scalar h => rw [Value.inOrder_scalar, Value.same_scalar, Scalar.same_refl]
  | list _ ih =>
    rw [Value.inOrder_list, Value.same]
    exact sameItems_map ih
  | @table n entries hd hk _ ih =>
    have hperm : (sortOn Prod.fst (Table.mapValues Value.inOrder entries)).Perm
        (Table.mapValues Value.inOrder entries) := sortOn_perm (hk.mapValues Value.inOrder)
    have hlength :
        (sortOn Prod.fst (Table.mapValues Value.inOrder entries)).length = entries.length := by
      rw [hperm.length_eq, Table.mapValues, List.length_map]
    rw [Value.inOrder_table, Value.same, hlength, beq_self_eq_true, Bool.true_and]
    refine sameEntries_of_find? fun e he => ?_
    obtain ⟨x, hx, rfl⟩ := List.mem_map.mp (hperm.mem_iff.mp he)
    exact ⟨x.2, Table.find?_of_mem hd hx (Scalar.same_refl _), ih x hx⟩

-- The machine goes on from a state over the tokens of a text.
private def run (state : State) (s : List Char) : Except ReadError State :=
  (tokens s).foldlM State.step state

private theorem run_token {state next : State} (h : tokens s = t :: tokens rest)
    (hstep : state.step t = .ok next) : run state s = run next rest := by
  rw [run, h, List.foldlM_cons, hstep]
  rfl

private theorem run_char {state next : State} (hs : isSpace c = false)
    (h : lexeme c rest = some (t, rest)) (hstep : state.step t = .ok next) :
    run state (c :: rest) = run next rest :=
  run_token (tokens_cons hs h) hstep

-- A state in which a value may start, and what is open around that value.
private inductive AtValue : State → List Frame → Prop where
  | value (open_ : List Frame) : AtValue (.value open_) open_
  | firstItem (open_ : List Frame) : AtValue (.firstItem open_) (.list [] :: open_)

private theorem AtValue.step {state : State} {open_ : List Frame} (h : AtValue state open_)
    (ht : t ≠ .listClose) : state.step t = State.start open_ t := by
  cases h with
  | value => rfl
  | firstItem => cases t <;> first | rfl | exact absurd rfl ht

-- A text is read as a value, wherever a value may start.
private def Reads (n : Nat) (s : List Char) (v : Value) : Prop :=
  ∀ (state : State) (open_ : List Frame) (rest : List Char), AtValue state open_ →
    open_.length + n ≤ deepest → EndsValue rest →
      run state (s ++ rest) = run (State.complete v open_) rest

private theorem reads_scalar {x : Scalar} (hx : HasForm x) : Reads n (writeScalar x) (.scalar x) :=
  fun _ _ _ hs _ hr => run_token (tokens_writeScalar hx hr) (hs.step (by simp))

private theorem endsValue_comma (rest : List Char) : EndsValue (',' :: rest) := Or.inl rfl

private theorem endsValue_listClose (rest : List Char) : EndsValue (']' :: rest) :=
  Or.inr (Or.inl rfl)

private theorem endsValue_tableClose (rest : List Char) : EndsValue ('\x7d' :: rest) :=
  Or.inr (Or.inr rfl)

private theorem commaSeparated_cons (piece : List Char) {pieces : List (List Char)}
    (h : pieces ≠ []) :
    commaSeparated (piece :: pieces) = piece ++ ',' :: commaSeparated pieces := by
  cases pieces with
  | nil => exact absurd rfl h
  | cons p ps => rfl

-- The items of a list are read behind those that have been read.
private theorem run_items {items : List Value} (hne : items ≠ [])
    (h : ∀ v ∈ items, Reads n (write v) v.inOrder) {state : State} {open_ : List Frame}
    {done : List Value} (hs : AtValue state (.list done :: open_))
    (hd : open_.length + (n + 1) ≤ deepest) (rest : List Char) :
    run state (commaSeparated (items.map write) ++ ']' :: rest) =
      run (State.complete (.list (done.reverse ++ items.map Value.inOrder)) open_) rest := by
  have hdepth (done : List Value) : (Frame.list done :: open_).length + n ≤ deepest := by
    rw [List.length_cons]
    omega
  induction items generalizing done state with
  | nil => exact absurd rfl hne
  | cons v items ih =>
    have hv (rest : List Char) := h v List.mem_cons_self state _ rest hs (hdepth done)
    have hdone : (v.inOrder :: done).reverse = done.reverse ++ [v.inOrder] := List.reverse_cons
    by_cases hnil : items = []
    · have hclose : (State.afterItem (v.inOrder :: done) open_).step .listClose =
          .ok (State.complete (.list (v.inOrder :: done).reverse) open_) := rfl
      rw [hnil, List.map_singleton, List.map_singleton, ← hdone]
      exact (hv _ (endsValue_listClose rest)).trans (run_char rfl rfl hclose)
    · have hcomma : (State.afterItem (v.inOrder :: done) open_).step .comma =
          .ok (.value (.list (v.inOrder :: done) :: open_)) := rfl
      have hrest := ih hnil (fun u hu => h u (List.mem_cons_of_mem v hu))
        (.value (.list (v.inOrder :: done) :: open_))
      rw [hdone, List.append_assoc, List.singleton_append, ← List.map_cons] at hrest
      rw [← hrest, List.map_cons, commaSeparated_cons _ (by simpa using hnil), List.append_assoc,
        List.cons_append]
      exact (hv _ (endsValue_comma _)).trans (run_char rfl rfl hcomma)

private theorem write_list (items : List Value) :
    write (.list items) = '[' :: commaSeparated (items.map write) ++ [']'] := by
  have h : writeItems items = items.map write := by
    induction items with
    | nil => rfl
    | cons v rest ih => rw [writeItems, ih, List.map_cons]
  rw [write, h]

private theorem enter_eq {open_ : List Frame} (h : open_.length + (n + 1) ≤ deepest)
    (inside : State) :
    State.enter open_ inside = .ok inside := by
  rw [State.enter, if_pos (by omega)]

private theorem reads_list {items : List Value} (h : ∀ v ∈ items, Reads n (write v) v.inOrder) :
    Reads (n + 1) (write (.list items)) (Value.list items).inOrder := by
  intro state open_ rest hs hd hr
  have henter : state.step .listOpen = .ok (.firstItem open_) :=
    (hs.step (by simp)).trans (enter_eq hd _)
  rw [write_list, Value.inOrder_list, List.cons_append, List.cons_append, List.append_assoc,
    run_char rfl rfl henter]
  by_cases hnil : items = []
  · rw [hnil]
    exact run_char rfl rfl rfl
  · exact run_items hnil h (.firstItem open_) hd rest

/-- The text of an entry of a table. -/
def writeEntry (e : Scalar × Value) : List Char := writeKey e.1 ++ ':' :: write e.2

/-- The text of a table has the texts of its entries in the order of their keys. -/
theorem write_table {entries : Table Value} (hk : entries.Worded) :
    write (.table entries) =
      '\x7b' :: commaSeparated ((sortOn Prod.fst entries).map writeEntry) ++ ['\x7d'] := by
  have h : writeEntries entries = entries.map fun e => (e.1, writeEntry e) := by
    induction entries with
    | nil => rfl
    | cons e rest ih =>
      rw [writeEntries, ih fun x hx => hk x (List.mem_cons_of_mem e hx)]
      rfl
  rw [write, inKeyOrder, h, Table.sortOn_map hk fun k v => writeEntry (k, v), List.map_map]
  rfl

-- A state in which a key may start, and the entries that have been read.
private inductive AtKey : State → Table Value → List Frame → Prop where
  | key (entries : Table Value) (open_ : List Frame) : AtKey (.key entries open_) entries open_
  | firstKey (open_ : List Frame) : AtKey (.firstKey open_) [] open_

-- An entry is read up to what follows its value.
private theorem run_entry {state : State} {done : Table Value} {open_ : List Frame}
    (hs : AtKey state done open_) (key : LooseText) (h : Reads n (write v) v.inOrder)
    (hd : open_.length + (n + 1) ≤ deepest) (hr : EndsValue rest) :
    run state (writeEntry (key.scalar, v) ++ rest) =
      run (.afterEntry (Table.put done key.scalar v.inOrder) open_) rest := by
  have hkey : state.step (.scalar key.scalar) = .ok (.colon done key.scalar open_) := by
    cases hs <;> cases key <;> rfl
  have hcolon : (State.colon done key.scalar open_).step .colon =
      .ok (.value (.table done key.scalar :: open_)) := rfl
  have hwritten : writeKey key.scalar = writeText key := by cases key <;> rfl
  have hdepth : (Frame.table done key.scalar :: open_).length + n ≤ deepest := by
    rw [List.length_cons]
    omega
  rw [writeEntry, hwritten, List.append_assoc, List.cons_append,
    run_token (tokens_writeText key _) hkey,
    run_char rfl rfl hcolon, h _ _ rest (.value _) hdepth hr]
  rfl

-- The entries of a table are read behind those that have been read.
private theorem run_entries {entries done : Table Value} (hne : entries ≠ [])
    (hk : entries.Worded) (hdistinct : (done ++ Table.mapValues Value.inOrder entries).Distinct)
    (h : ∀ e ∈ entries, Reads n (write e.2) e.2.inOrder) {state : State} {open_ : List Frame}
    (hs : AtKey state done open_) (hd : open_.length + (n + 1) ≤ deepest) (rest : List Char) :
    run state (commaSeparated (entries.map writeEntry) ++ '\x7d' :: rest) =
      run (State.complete (.table (done ++ Table.mapValues Value.inOrder entries)) open_) rest := by
  induction entries generalizing done state with
  | nil => exact absurd rfl hne
  | cons e entries ih =>
    obtain ⟨k, v⟩ := e
    obtain ⟨key, rfl⟩ := hk _ List.mem_cons_self
    have hsplit : done ++ Table.mapValues Value.inOrder ((key.scalar, v) :: entries) =
        (done ++ [(key.scalar, v.inOrder)]) ++ Table.mapValues Value.inOrder entries := by
      rw [List.append_assoc]
      rfl
    have hput : Table.put done key.scalar v.inOrder = done ++ [(key.scalar, v.inOrder)] := by
      apply Table.put_of_find?_none
      rw [Table.find?_eq_none_iff]
      exact fun e he => (List.pairwise_append.mp hdistinct).2.2 e he (key.scalar, v.inOrder)
        List.mem_cons_self
    have hv (rest : List Char) (hr : EndsValue rest) :=
      run_entry hs key (h _ List.mem_cons_self) hd hr
    rw [hput] at hv
    rw [hsplit] at hdistinct ⊢
    by_cases hnil : entries = []
    · have hclose : (State.afterEntry (done ++ [(key.scalar, v.inOrder)]) open_).step .tableClose =
          .ok (State.complete (.table (done ++ [(key.scalar, v.inOrder)])) open_) := rfl
      rw [hnil, List.map_singleton, Table.mapValues, List.map_nil, List.append_nil]
      exact (hv _ (endsValue_tableClose rest)).trans (run_char rfl rfl hclose)
    · have hcomma : (State.afterEntry (done ++ [(key.scalar, v.inOrder)]) open_).step .comma =
          .ok (.key (done ++ [(key.scalar, v.inOrder)]) open_) := rfl
      have hrest := ih hnil (fun e he => hk e (List.mem_cons_of_mem _ he)) hdistinct
        (fun e he => h e (List.mem_cons_of_mem _ he)) (.key _ _)
      rw [← hrest, List.map_cons, commaSeparated_cons _ (by simpa using hnil), List.append_assoc,
        List.cons_append]
      exact (hv _ (endsValue_comma _)).trans (run_char rfl rfl hcomma)

private theorem reads_table {entries : Table Value} (hd : entries.Distinct) (hk : entries.Worded)
    (h : ∀ e ∈ entries, Reads n (write e.2) e.2.inOrder) :
    Reads (n + 1) (write (.table entries)) (Value.table entries).inOrder := by
  intro state open_ rest hs hdepth hr
  have henter : state.step .tableOpen = .ok (.firstKey open_) :=
    (hs.step (by simp)).trans (enter_eq hdepth _)
  have hperm : (sortOn Prod.fst entries).Perm entries := sortOn_perm hk
  rw [write_table hk, Value.inOrder_table, Table.sortOn_mapValues hk, List.cons_append,
    List.cons_append, List.append_assoc, run_char rfl rfl henter]
  -- An empty table is closed at once, without a key.
  by_cases hnil : sortOn Prod.fst entries = []
  · rw [hnil]
    exact run_char rfl rfl rfl
  · exact run_entries hnil (fun e he => hk e (hperm.mem_iff.mp he))
      ((hd.perm hperm.symm).mapValues _) (fun e he => h e (hperm.mem_iff.mp he)) (.firstKey open_)
      hdepth rest

-- The text of a value of JSON is read as that value, wherever a value may start.
private theorem reads_write (h : IsJson n v) : Reads n (write v) v.inOrder := by
  induction h with
  | scalar hs =>
    rw [write, Value.inOrder_scalar]
    exact reads_scalar hs
  | list _ ih => exact reads_list ih
  | table hd hk _ ih => exact reads_table hd hk ih

/-- Reading undoes writing, up to the order of keys. -/
theorem ofTokens_write (h : IsJson n v) (hn : n ≤ deepest) :
    ofTokens (tokens (write v)) = .ok v.inOrder := by
  have hrun := reads_write h (.value []) [] [] (.value []) (by simpa using hn) trivial
  rw [List.append_nil, run, run, tokens] at hrun
  rw [ofTokens, hrun]
  rfl

end Json
end BindGen
