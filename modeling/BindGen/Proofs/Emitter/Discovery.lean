import BindGen.Emitter.Catalog
import BindGen.Proofs.Run.Fold
import BindGen.Proofs.Text.Case

/-!
# Discovering emitters

A catalog is filled in one pass over the plugins, first the built-in languages and then whatever
name is wanted and not yet taken. So a plugin never stands for a name that was there before it, and
what the catalog holds is told by the first plugin of each name. Names that are asked for and not
found are reported, except that the empty name by itself is not missed.
-/

namespace BindGen

variable {name : String}

private theorem emitterKey_emitterKey (name : String) :
    emitterKey (emitterKey name) = emitterKey name := by
  rw [emitterKey, emitterKey, String.toList_ofList, Text.lower_lower]

private theorem emitterKey_eq_empty : emitterKey name = "" ↔ name = "" := by
  refine ⟨fun h => ?_, fun h => by rw [h]; rfl⟩
  have hlower : Text.lower name.toList = [] := String.ofList_injective h
  exact String.toList_injective (Text.eq_nil_of_lower_append (s := []) hlower)

private theorem Language.emitterKey_name (l : Language) : emitterKey l.name = l.name := by
  cases l <;> rfl

namespace Catalog

/-- The names in a catalog, in the order in which they were added. -/
def keys (c : Catalog) : List String := c.map (·.1)

/-- The names of the built-in emitters. -/
def builtInKeys : List String := Language.all.map Language.name

/-- The names of plugins as they are looked up. -/
def pluginKeys (plugins : List (String × Plugin)) : List String := plugins.map (emitterKey ·.1)

/-- The first plugin of a name. -/
def firstPlugin (plugins : List (String × Plugin)) (key : String) : Option (String × Plugin) :=
  plugins.find? fun p => emitterKey p.1 == key

variable {enabled : Option (List String)} {plugins : List (String × Plugin)} {c c' : Catalog}
  {p : String × Plugin} {key : String}

private theorem has_iff : c.has key = true ↔ key ∈ c.keys := by
  simp [has, keys]

private theorem find?_append (key : String) :
    find? (c ++ c') key = (c.find? key).or (c'.find? key) := List.lookup_append

private theorem find?_eq_none (h : key ∉ c.keys) : c.find? key = none := by
  rw [find?, List.lookup_eq_none_iff]
  intro e he
  rw [bne_iff_ne]
  rintro rfl
  exact h (List.mem_map_of_mem he)

private theorem mem_builtInKeys {key : String} :
    key ∈ builtInKeys ↔ ∃ l : Language, l.name = key := by
  refine ⟨fun h => ?_, ?_⟩
  · obtain ⟨l, -, hl⟩ := List.mem_map.mp h
    exact ⟨l, hl⟩
  · rintro ⟨l, rfl⟩
    exact List.mem_map_of_mem (by cases l <;> decide)

private theorem firstPlugin_eq_none (h : key ∉ pluginKeys plugins) :
    firstPlugin plugins key = none := by
  rw [firstPlugin, List.find?_eq_none]
  intro p hp hkey
  exact h (List.mem_map.mpr ⟨p, hp, by simpa using hkey⟩)

private theorem firstPlugin_append (plugins rest : List (String × Plugin)) (key : String) :
    firstPlugin (plugins ++ rest) key = (firstPlugin plugins key).or (firstPlugin rest key) :=
  List.find?_append

private theorem firstPlugin_concat_of_notMem (h : emitterKey p.1 ∉ pluginKeys plugins) :
    firstPlugin (plugins ++ [p]) (emitterKey p.1) = some p := by
  rw [firstPlugin_append, firstPlugin_eq_none h, Option.none_or]
  simp [firstPlugin]

-- A name is taken for a plugin if it is wanted and not there.
private theorem takes_iff : (wanted enabled key && !has c key) = true ↔
    wanted enabled key = true ∧ key ∉ c.keys := by
  simp only [Bool.and_eq_true, Bool.not_eq_true', Bool.eq_false_iff, ne_eq, has_iff]

/-! ## The pass over the plugins -/

private theorem eraseDups_concat (as : List String) (b : String) :
    (as ++ [b]).eraseDups = if b ∈ as then as.eraseDups else as.eraseDups ++ [b] := by
  rw [List.eraseDups_append, List.removeAll]
  split
  · next hb => simp [hb]
  · next hb => simp [hb, List.eraseDups_cons]

private theorem lookup_languages {languages : List Language} {l : Language} (h : l ∈ languages) :
    (languages.map fun l => (l.name, l.style.emitter)).lookup l.name = some l.style.emitter := by
  induction languages with
  | nil => cases h
  | cons m rest ih =>
    rw [List.map_cons, List.lookup_cons]
    by_cases hname : l.name = m.name
    · rw [Language.name_injective hname, beq_self_eq_true]
    · rw [beq_eq_false_iff_ne.mpr hname]
      refine ih ((List.mem_cons.mp h).resolve_left ?_)
      rintro rfl
      exact hname rfl

/-- What is known of the catalog behind some of the plugins. -/
structure Registered (enabled : Option (List String)) (plugins : List (String × Plugin))
    (c : Catalog) : Prop where
  keys : c.keys = (builtInKeys ++ pluginKeys plugins).eraseDups.filter (wanted enabled)
  builtIn : ∀ l : Language, wanted enabled l.name = true → c.find? l.name = some l.style.emitter
  first : ∀ key ∈ c.keys, key ∉ builtInKeys →
    ∃ name e, firstPlugin plugins key = some (name, .emitter e) ∧ c.find? key = some e
  loaded : ∀ p ∈ plugins, ∀ reason, p.2 ≠ .broken reason

/-- Before the first plugin there are the built-in emitters. -/
theorem registered_builtIn (enabled : Option (List String)) :
    Registered enabled [] (builtIn enabled) where
  keys := by
    have hdistinct : (builtInKeys ++ pluginKeys []).eraseDups = builtInKeys := by decide
    rw [hdistinct, keys, builtIn, builtInKeys, List.map_map, List.filter_map]
    rfl
  builtIn l hl :=
    lookup_languages (List.mem_filter.mpr ⟨by cases l <;> decide, hl⟩)
  first key hkey hnew := by
    obtain ⟨e, he, rfl⟩ := List.mem_map.mp hkey
    obtain ⟨l, -, rfl⟩ := List.mem_map.mp he
    exact absurd (mem_builtInKeys.mpr ⟨l, rfl⟩) hnew
  loaded p hp := by cases hp

namespace Registered

private theorem mem_keys (h : Registered enabled plugins c) :
    key ∈ c.keys ↔ (key ∈ builtInKeys ∨ key ∈ pluginKeys plugins) ∧ wanted enabled key = true := by
  rw [h.keys, List.mem_filter, List.mem_eraseDups, List.mem_append]

private theorem loaded_concat (h : Registered enabled plugins c)
    (hp : ∀ reason, p.2 ≠ .broken reason) :
    ∀ q ∈ plugins ++ [p], ∀ reason, q.2 ≠ .broken reason := by
  intro q hq
  rcases List.mem_append.mp hq with hq | hq
  · exact h.loaded q hq
  · rw [List.mem_singleton.mp hq]
    exact hp

private theorem keys_concat (plugins : List (String × Plugin)) (p : String × Plugin) :
    (builtInKeys ++ pluginKeys (plugins ++ [p])).eraseDups =
      if emitterKey p.1 ∈ builtInKeys ++ pluginKeys plugins then
        (builtInKeys ++ pluginKeys plugins).eraseDups
      else (builtInKeys ++ pluginKeys plugins).eraseDups ++ [emitterKey p.1] := by
  rw [pluginKeys, List.map_append, ← List.append_assoc]
  exact eraseDups_concat _ _

-- A plugin whose name is not wanted or taken changes nothing.
private theorem skip (h : Registered enabled plugins c)
    (hskip : wanted enabled (emitterKey p.1) = true → emitterKey p.1 ∈ c.keys)
    (hp : ∀ reason, p.2 ≠ .broken reason) : Registered enabled (plugins ++ [p]) c where
  keys := by
    rw [keys_concat, h.keys]
    split
    · rfl
    · next hnew =>
      have hunwanted : ¬wanted enabled (emitterKey p.1) = true := fun hw =>
        hnew (List.mem_append.mpr (h.mem_keys.mp (hskip hw)).1)
      rw [List.filter_append, List.filter_cons_of_neg hunwanted, List.filter_nil, List.append_nil]
  builtIn := h.builtIn
  first key hkey hnew := by
    obtain ⟨name, e, hfirst, hfound⟩ := h.first key hkey hnew
    exact ⟨name, e, by rw [firstPlugin_append, hfirst, Option.some_or], hfound⟩
  loaded := h.loaded_concat hp

-- A plugin whose name is wanted and not taken is added at the end.
private theorem push {e : Emitter} (h : Registered enabled plugins c)
    (hwanted : wanted enabled (emitterKey name) = true) (hnew : emitterKey name ∉ c.keys) :
    Registered enabled (plugins ++ [(name, .emitter e)]) (c ++ [(emitterKey name, e)]) where
  keys := by
    have hfresh : emitterKey name ∉ builtInKeys ++ pluginKeys plugins := fun hin =>
      hnew (h.mem_keys.mpr ⟨List.mem_append.mp hin, hwanted⟩)
    rw [keys_concat, if_neg hfresh, List.filter_append, List.filter_cons_of_pos hwanted,
      List.filter_nil, ← h.keys]
    exact List.map_append
  builtIn l hl := by
    rw [find?_append, h.builtIn l hl, Option.some_or]
  first key hkey hnot := by
    rw [Catalog.keys, List.map_append] at hkey
    rcases List.mem_append.mp hkey with hold | hlast
    · obtain ⟨name', e', hfirst, hfound⟩ := h.first key hold hnot
      refine ⟨name', e', ?_, ?_⟩
      · rw [firstPlugin_append, hfirst, Option.some_or]
      · rw [find?_append, hfound, Option.some_or]
    · obtain rfl : key = emitterKey name := List.mem_singleton.mp hlast
      have hunseen : emitterKey name ∉ pluginKeys plugins := fun hin =>
        hnew (h.mem_keys.mpr ⟨.inr hin, hwanted⟩)
      refine ⟨name, e, firstPlugin_concat_of_notMem hunseen, ?_⟩
      rw [find?_append, find?_eq_none hnew, Option.none_or]
      simp [find?]
  loaded := h.loaded_concat fun reason => nofun

/-- One more plugin. -/
theorem add (h : Registered enabled plugins c) (hadd : Catalog.add enabled c p = .ok c') :
    Registered enabled (plugins ++ [p]) c' := by
  obtain ⟨name, plugin⟩ := p
  rw [Catalog.add] at hadd
  dsimp only at hadd
  cases plugin with
  | broken reason => cases hadd
  | notEmitter =>
    dsimp only at hadd
    split at hadd
    · cases hadd
    · next hskip =>
      obtain rfl := Except.ok.inj hadd
      refine h.skip (fun hw => ?_) fun reason => nofun
      simpa [hw, has_iff] using hskip
  | emitter e =>
    dsimp only at hadd
    obtain rfl := Except.ok.inj hadd
    split
    · next hnew =>
      obtain ⟨hwanted, hnew⟩ := takes_iff.mp hnew
      exact h.push hwanted hnew
    · next hskip =>
      refine h.skip (fun hw => ?_) fun reason => nofun
      simpa [hw, has_iff] using hskip

end Registered

/-! ## Success -/

/-- The plugins serve: each of them can be loaded, and the first one of every name that is wanted
and not built in, the one that is run, gives an emitter. -/
structure Serve (enabled : Option (List String)) (plugins : List (String × Plugin)) : Prop where
  loaded : ∀ p ∈ plugins, ∀ reason, p.2 ≠ .broken reason
  emitter : ∀ key, wanted enabled key = true → key ∉ builtInKeys →
    ∀ p, firstPlugin plugins key = some p → ∃ e, p.2 = .emitter e

private theorem serve_nil (enabled : Option (List String)) : Serve enabled [] :=
  ⟨nofun, fun _ _ _ => nofun⟩

private theorem Serve.of_append {rest : List (String × Plugin)}
    (h : Serve enabled (plugins ++ rest)) : Serve enabled plugins where
  loaded p hp := h.loaded p (List.mem_append_left rest hp)
  emitter key hwanted hnew p hp :=
    h.emitter key hwanted hnew p (by rw [firstPlugin_append, hp, Option.some_or])

private theorem Registered.serve (h : Registered enabled plugins c) : Serve enabled plugins where
  loaded := h.loaded
  emitter key hwanted hnew p hp := by
    have hkey : key ∈ pluginKeys plugins := by
      by_contra hno
      rw [firstPlugin_eq_none hno] at hp
      cases hp
    obtain ⟨name, e, hfirst, -⟩ := h.first key (h.mem_keys.mpr ⟨.inr hkey, hwanted⟩) hnew
    obtain rfl := Option.some.inj (hfirst.symm.trans hp)
    exact ⟨e, rfl⟩

-- Where the plugins serve, the last one of them can be added.
private theorem Registered.exists_add (h : Registered enabled plugins c)
    (hs : Serve enabled (plugins ++ [p])) : ∃ c', Catalog.add enabled c p = .ok c' := by
  obtain ⟨name, plugin⟩ := p
  rw [Catalog.add]
  dsimp only
  cases plugin with
  | broken reason =>
    exact absurd rfl (hs.loaded _ (List.mem_append_right _ List.mem_cons_self) reason)
  | emitter e => exact ⟨_, rfl⟩
  | notEmitter =>
    dsimp only
    split
    · next htakes =>
      obtain ⟨hwanted, hnew⟩ := takes_iff.mp htakes
      have hunseen : emitterKey name ∉ pluginKeys plugins := fun hin =>
        hnew (h.mem_keys.mpr ⟨.inr hin, hwanted⟩)
      have hlanguage : emitterKey name ∉ builtInKeys := fun hin =>
        hnew (h.mem_keys.mpr ⟨.inl hin, hwanted⟩)
      obtain ⟨e, he⟩ := hs.emitter _ hwanted hlanguage _ (firstPlugin_concat_of_notMem hunseen)
      cases he
    · exact ⟨c, rfl⟩

-- One more plugin can be added exactly if it serves with those before it.
private theorem Registered.add_exact (h : Registered enabled plugins c) :
    ((∃ c', Catalog.add enabled c p = .ok c') ↔ Serve enabled (plugins ++ [p])) ∧
      ∀ c', Catalog.add enabled c p = .ok c' → Registered enabled (plugins ++ [p]) c' :=
  ⟨⟨fun ⟨_, hadd⟩ => (h.add hadd).serve, h.exists_add⟩, fun _ hadd => h.add hadd⟩

-- The pass over the plugins succeeds exactly if they serve, and then their names are registered.
private theorem foldlM_add (enabled : Option (List String)) (plugins : List (String × Plugin)) :
    ((∃ c, plugins.foldlM (Catalog.add enabled) (builtIn enabled) = .ok c) ↔
        Serve enabled plugins) ∧
      ∀ c, plugins.foldlM (Catalog.add enabled) (builtIn enabled) = .ok c →
        Registered enabled plugins c :=
  foldlM_exact (f := Catalog.add enabled) (fun _ _ _ h _ => Registered.add_exact h)
    (fun _ _ => Serve.of_append) (registered_builtIn enabled) (serve_nil enabled)
    fun _ _ => trivial

-- A plugin fails for a reason of its own.
private theorem add_error {e : CatalogError} (h : Catalog.add enabled c p = .error e)
    (names : List String) : e ≠ .unknownNames names := by
  rintro rfl
  rw [Catalog.add] at h
  split at h
  · cases h
  · split at h <;> cases h
  · cases h

private theorem foldlM_error {e : CatalogError}
    (h : plugins.foldlM (Catalog.add enabled) c = .error e) (names : List String) :
    e ≠ .unknownNames names := by
  obtain ⟨done, p, rest, c', -, -, hadd⟩ := exists_of_foldlM_eq_error h
  exact add_error hadd names

/-! ## The names that are found -/

/-- The enabled names as they are looked up. -/
def enabledKeys (enabled : Option (List String)) : Option (List String) :=
  enabled.map (·.map emitterKey)

/-- What a catalog that was discovered holds. -/
structure Discovered (enabled : Option (List String)) (plugins : List (String × Plugin))
    (c : Catalog) : Prop where
  /-- every name is in lower case -/
  lower : ∀ key ∈ c.keys, emitterKey key = key
  /-- a wanted language has its own emitter, whatever the plugins are called -/
  builtIn : ∀ l : Language, wanted (enabledKeys enabled) l.name = true →
    c.find? l.name = some l.style.emitter
  /-- every other name has the emitter of its first plugin -/
  first : ∀ key ∈ c.keys, key ∉ builtInKeys →
    ∃ name e, firstPlugin plugins key = some (name, .emitter e) ∧ c.find? key = some e
  /-- first the wanted languages, then the wanted new names of plugins, where each appears first -/
  keys : c.keys = builtInKeys.filter (wanted (enabledKeys enabled)) ++
    ((pluginKeys plugins).removeAll builtInKeys).eraseDups.filter (wanted (enabledKeys enabled))

/-- Whether a name is that of a language or a plugin, in any case. -/
def Known (plugins : List (String × Plugin)) (name : String) : Prop :=
  emitterKey name ∈ builtInKeys ∨ emitterKey name ∈ pluginKeys plugins

private theorem Registered.discovered (h : Registered (enabledKeys enabled) plugins c) :
    Discovered enabled plugins c where
  lower key hkey := by
    rcases (h.mem_keys.mp hkey).1 with hbuilt | hplugin
    · obtain ⟨l, rfl⟩ := mem_builtInKeys.mp hbuilt
      exact l.emitterKey_name
    · obtain ⟨p, -, rfl⟩ := List.mem_map.mp hplugin
      exact emitterKey_emitterKey p.1
  builtIn := h.builtIn
  first := h.first
  keys := by
    have hdistinct : builtInKeys.eraseDups = builtInKeys := by decide
    rw [h.keys, List.eraseDups_append, hdistinct, List.filter_append]

-- A name that is missed is enabled, not empty and not known.
private theorem Registered.all_isEmpty_iff (h : Registered (enabledKeys enabled) plugins c) :
    (Scalar.sortTexts (((enabledKeys enabled).getD []).eraseDups.filter fun key =>
        !has c key)).all (·.isEmpty) = true ↔
      ∀ name ∈ enabled.getD [], name = "" ∨ Known plugins name := by
  have hwanted {name : String} (hname : name ∈ enabled.getD []) :
      wanted (enabledKeys enabled) (emitterKey name) = true := by
    cases enabled with
    | none => rfl
    | some names => exact List.contains_iff_mem.mpr (List.mem_map_of_mem hname)
  have hkeys : (enabledKeys enabled).getD [] = (enabled.getD []).map emitterKey := by
    cases enabled <;> rfl
  have hmissed {name : String} (hname : name ∈ enabled.getD []) :
      c.has (emitterKey name) = true ↔ Known plugins name := by
    rw [has_iff, h.mem_keys]
    exact and_iff_left (hwanted hname)
  simp only [Scalar.sortTexts, List.all_eq_true, List.mem_mergeSort, List.mem_filter,
    List.mem_eraseDups, hkeys, List.mem_map, Bool.not_eq_true', String.isEmpty_iff]
  constructor
  · intro hall name hname
    by_cases hhas : c.has (emitterKey name) = true
    · exact .inr ((hmissed hname).mp hhas)
    · exact .inl (emitterKey_eq_empty.mp
        (hall _ ⟨⟨name, hname, rfl⟩, Bool.eq_false_iff.mpr hhas⟩))
  · rintro hall key ⟨⟨name, hname, rfl⟩, hhas⟩
    rcases hall name hname with rfl | hknown
    · rfl
    · rw [(hmissed hname).mpr hknown] at hhas
      cases hhas

/-- Plugins extend the built-in languages and never replace one. A catalog is discovered where the
plugins serve and every enabled name is known or empty; where another enabled name is not known, and
only there, the names that were not found are reported. -/
theorem discover_extends (enabled : Option (List String)) (plugins : List (String × Plugin)) :
    (∀ c, discover enabled plugins = .ok c → Discovered enabled plugins c) ∧
    ((∃ c, discover enabled plugins = .ok c) ↔
      Serve (enabledKeys enabled) plugins ∧
        ∀ name ∈ enabled.getD [], name = "" ∨ Known plugins name) ∧
    ((∃ names, discover enabled plugins = .error (.unknownNames names)) ↔
      Serve (enabledKeys enabled) plugins ∧
        ∃ name ∈ enabled.getD [], name ≠ "" ∧ ¬Known plugins name) := by
  obtain ⟨hserve, hregistered⟩ := foldlM_add (enabledKeys enabled) plugins
  cases hfold : plugins.foldlM (add (enabledKeys enabled)) (builtIn (enabledKeys enabled)) with
  | error e =>
    have hdiscover : discover enabled plugins = .error e := by
      rw [discover, ← enabledKeys, hfold]
      rfl
    have hfails : ¬Serve (enabledKeys enabled) plugins := fun hs => by
      obtain ⟨c, hc⟩ := hserve.mpr hs
      rw [hfold] at hc
      cases hc
    rw [hdiscover]
    refine ⟨nofun, iff_of_false nofun fun h => hfails h.1, iff_of_false ?_ fun h => hfails h.1⟩
    rintro ⟨names, hnames⟩
    exact foldlM_error hfold names (Except.error.inj hnames)
  | ok c =>
    have hc := hregistered c hfold
    have hfound := hc.all_isEmpty_iff
    generalize hmissing : Scalar.sortTexts (((enabledKeys enabled).getD []).eraseDups.filter
      fun key => !has c key) = missing at hfound
    have hdiscover : discover enabled plugins =
        if missing.all (·.isEmpty) then .ok c else .error (.unknownNames missing) := by
      rw [discover, ← enabledKeys, hfold, ← hmissing]
      rfl
    rw [hdiscover]
    by_cases hall : missing.all (·.isEmpty) = true
    · have hknown := hfound.mp hall
      rw [if_pos hall]
      refine ⟨fun c' h => ?_, iff_of_true ⟨c, rfl⟩ ⟨hc.serve, hknown⟩, iff_of_false nofun ?_⟩
      · obtain rfl := Except.ok.inj h
        exact hc.discovered
      · rintro ⟨-, name, hname, hne, hunknown⟩
        exact (hknown name hname).elim hne hunknown
    · have hunknown : ¬∀ name ∈ enabled.getD [], name = "" ∨ Known plugins name :=
        fun h => hall (hfound.mpr h)
      rw [if_neg hall]
      refine ⟨nofun, iff_of_false nofun fun h => hunknown h.2, iff_of_true ⟨missing, rfl⟩ ?_⟩
      refine ⟨hc.serve, ?_⟩
      by_contra hno
      refine hunknown fun name hname => ?_
      by_contra hor
      exact hno ⟨name, hname, not_or.mp hor⟩

-- An emitter that writes nothing.
private def idle : Emitter := ⟨"lua", false, fun _ => pure []⟩

-- Two plugins of one name and one that is called like a language.
private def luaPlugins : List (String × Plugin) :=
  [("Lua", .emitter idle), ("KOTLIN", .emitter idle), ("lua", .notEmitter)]

private theorem firstPlugin_lua :
    firstPlugin luaPlugins "lua" = some ("Lua", .emitter idle) := rfl

private theorem serve_luaPlugins :
    Serve (enabledKeys (some ["LUA", "Kotlin", ""])) luaPlugins where
  loaded p hp reason := by
    rcases hp with _ | ⟨_, _ | ⟨_, _ | ⟨_, ⟨⟩⟩⟩⟩ <;> nofun
  emitter key hwanted hnew p hp := by
    have hkey : key ∈ ["lua", "kotlin", ""] := List.contains_iff_mem.mp hwanted
    rcases hkey with _ | ⟨_, _ | ⟨_, _ | ⟨_, ⟨⟩⟩⟩⟩
    · obtain rfl := Option.some.inj (firstPlugin_lua.symm.trans hp)
      exact ⟨idle, rfl⟩
    · exact absurd (mem_builtInKeys.mpr ⟨.kotlin, rfl⟩) hnew
    · cases hp

/-- The first of the plugins is found, and the language has its own emitter. -/
theorem discover_extends_lua : ∃ c, discover (some ["LUA", "Kotlin", ""]) luaPlugins = .ok c ∧
    c.keys = ["kotlin", "lua"] ∧ c.find? "lua" = some idle ∧
    c.find? "kotlin" = some Language.kotlin.style.emitter := by
  obtain ⟨hdiscovered, hreturns, -⟩ := discover_extends (some ["LUA", "Kotlin", ""]) luaPlugins
  have hnames : ∀ name ∈ ["LUA", "Kotlin", ""], name = "" ∨ Known luaPlugins name := by
    intro name hname
    rcases hname with _ | ⟨_, _ | ⟨_, _ | ⟨_, ⟨⟩⟩⟩⟩
    · exact .inr (.inr (by decide))
    · exact .inr (.inl (by decide))
    · exact .inl rfl
  obtain ⟨c, hc⟩ := hreturns.mpr ⟨serve_luaPlugins, hnames⟩
  have hd := hdiscovered c hc
  have hkeys : c.keys = ["kotlin", "lua"] := hd.keys.trans (by decide)
  refine ⟨c, hc, hkeys, ?_, hd.builtIn .kotlin (by decide)⟩
  obtain ⟨name, e, hfirst, hfound⟩ := hd.first "lua" (by simp [hkeys]) (by decide)
  cases hfirst.symm.trans firstPlugin_lua
  exact hfound

end Catalog
end BindGen
