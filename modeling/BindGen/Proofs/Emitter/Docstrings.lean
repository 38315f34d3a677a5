import BindGen.Emitter.BuiltIn
import BindGen.Proofs.Document.Uses
import BindGen.Proofs.Run.Lockstep
import BindGen.Proofs.Template.Docstrings

/-!
# Bindings and docstrings

Where bindings are compact, docstrings leave one trace in them: the checksum of the interface, which
has a line of its own in every file. Two runs that write the bindings of interfaces that differ in
docstrings end alike, and leave workspaces that differ in these lines only.
-/

namespace BindGen

/-! ## The line with the checksum -/

-- No digit of a hash ends a line.
private theorem isLineEnd_of_mem_hexDigest {message : Bytes} {c : Char}
    (h : c ∈ (Sha256.hexDigest message).toList) : Text.isLineEnd c = false := by
  have hdigit : ∀ n < 16, Text.isLineEnd (Nat.digitChar n) = false := by decide
  rw [Sha256.hexDigest, String.toList_ofList, List.mem_flatMap] at h
  obtain ⟨word, -, hc⟩ := h
  obtain ⟨place, -, rfl⟩ := List.mem_map.mp hc
  exact hdigit _ (Nat.mod_lt _ (by decide))

private theorem isLineEnd_of_checksum {i : Interface} {checksum : String}
    (h : i.checksum = .ok checksum) : ∀ c ∈ checksum.toList, Text.isLineEnd c = false := by
  obtain ⟨text, -, h⟩ := exists_of_bind_eq_ok h
  obtain rfl := Except.ok.inj h
  exact fun c => isLineEnd_of_mem_hexDigest

/-- The line that carries a checksum, behind the mark of a comment. -/
def checksumLine (mark checksum : String) : String :=
  mark ++ s!" Interface checksum: {checksum}"

/-- The same bytes but for one line. -/
def OneLineApart (line line' : String) (a b : Bytes) : Prop :=
  ∃ above below : Bytes, (above = [] ∨ ∃ front, above = front ++ Utf8.encode ['\n']) ∧
    a = above ++ Utf8.encode (line ++ "\n").toList ++ below ∧
    b = above ++ Utf8.encode (line' ++ "\n").toList ++ below

/-- The same bytes, but perhaps for the line that carries the checksum of one interface or the
other. -/
def ChecksumApart (i i' : Interface) (a b : Bytes) : Prop :=
  a = b ∨ ∃ mark c c', i.checksum = .ok c ∧ i'.checksum = .ok c' ∧
    OneLineApart (checksumLine mark c) (checksumLine mark c') a b

private theorem ChecksumApart.append {i i' : Interface} {a b : Bytes} (h : ChecksumApart i i' a b)
    (more : Bytes) : ChecksumApart i i' (a ++ more) (b ++ more) := by
  obtain rfl | ⟨mark, c, c', hc, hc', above, below, hstart, rfl, rfl⟩ := h
  · exact .inl rfl
  · exact .inr ⟨mark, c, c', hc, hc', above, below ++ more, hstart, by simp, by simp⟩

namespace Template

-- The first line of a heading.
private def headline (mark : String) (o : Outline) : String :=
  mark ++ s!" Generated by {productName} {productVersion} for crate "
    ++ s!"`{o.crateName.display}`. Do not edit."

private theorem toList_text_heading (mark : String) (o : Outline) (rest : Document) :
    (Document.text (heading mark o ++ rest)).toList =
      (headline mark o).toList ++ '\n' :: ((checksumLine mark o.checksum).toList ++
        '\n' :: (Document.text rest).toList) := by
  have hline (s : String) : Line.render (plainLine s) = s := by
    simp [Line.render, plainLine, Piece.render]
  change (Document.text (plainLine (headline mark o) :: plainLine (checksumLine mark o.checksum)
    :: rest)).toList = _
  rw [Document.text, List.map_cons, List.map_cons, String.join_cons, String.join_cons, hline,
    hline]
  simp only [String.toList_append, List.append_assoc]
  rfl

private theorem toList_checksumLine (mark checksum : String) :
    (checksumLine mark checksum).toList =
      mark.toList ++ (" Interface checksum: ".toList ++ checksum.toList) := by
  rw [checksumLine, String.toList_append, String.toList_append]
  rfl

private theorem isLineEnd_of_mem {s : String} (h : s.toList.any Text.isLineEnd = false) :
    ∀ c ∈ s.toList, Text.isLineEnd c = false :=
  fun c hc => Bool.eq_false_iff.mpr (List.any_eq_false.mp h c hc)

-- A compact text holds the line with the checksum, between lines that do not depend on the
-- checksum.
private theorem exists_compact_text {mark : String}
    (hmark : ∀ c ∈ mark.toList, Text.isLineEnd c = false) (first : List Char) (rest : Document) :
    ∃ above below : List Char, (above = [] ∨ ∃ front, above = front ++ ['\n']) ∧
      ∀ o : Outline, (headline mark o).toList = first →
        (∀ c ∈ o.checksum.toList, Text.isLineEnd c = false) →
        (Document.compact (Document.text (heading mark o ++ rest))).toList =
          above ++ (checksumLine mark o.checksum ++ "\n").toList ++ below := by
  refine ⟨Text.keptLines (first ++ ['\n']), Text.keptLines (Document.text rest).toList,
    Text.keptLines_ends _, fun o hfirst hchecksum => ?_⟩
  have hmiddle : ∀ c ∈ " Interface checksum: ".toList, Text.isLineEnd c = false :=
    isLineEnd_of_mem (by decide)
  have hline : ∀ c ∈ (checksumLine mark o.checksum).toList, Text.isLineEnd c = false := by
    intro c hc
    rw [toList_checksumLine] at hc
    rcases List.mem_append.mp hc with hc | hc
    · exact hmark c hc
    · exact (List.mem_append.mp hc).elim (hmiddle c) (hchecksum c)
  have hkept : Text.allBlank (checksumLine mark o.checksum).toList = false := by
    have hvisible : Text.allBlank " Interface checksum: ".toList = false := by decide
    rw [toList_checksumLine, Text.allBlank_append, Text.allBlank_append, hvisible,
      Bool.false_and, Bool.and_false]
  have hlines := Text.keptLines_append first
    ((checksumLine mark o.checksum).toList ++ '\n' :: (Document.text rest).toList)
  rw [Text.keptLines_append (checksumLine mark o.checksum).toList, Text.keptLines_line hline hkept,
    ← List.append_assoc, ← hfirst, ← toList_text_heading, hfirst] at hlines
  rw [Document.toList_compact, hlines, String.toList_append]
  · rfl
  · rw [hlines]
    simp

private theorem isLineEnd_of_mem_mark (t : Template) :
    ∀ c ∈ t.mark.toList, Text.isLineEnd c = false :=
  isLineEnd_of_mem (by cases t <;> decide)

-- Documents under headings of one crate have compact texts that are one line apart.
private theorem oneLineApart_compact (t : Template) {o o' : Outline}
    (hcrate : o.crateName = o'.crateName)
    (h : ∀ c ∈ o.checksum.toList, Text.isLineEnd c = false)
    (h' : ∀ c ∈ o'.checksum.toList, Text.isLineEnd c = false) (rest : Document) :
    OneLineApart (checksumLine t.mark o.checksum) (checksumLine t.mark o'.checksum)
      (Utf8.encode (Document.compact (Document.text (heading t.mark o ++ rest))).toList)
      (Utf8.encode (Document.compact (Document.text (heading t.mark o' ++ rest))).toList) := by
  obtain ⟨above, below, hstart, htext⟩ :=
    exists_compact_text t.isLineEnd_of_mem_mark (headline t.mark o).toList rest
  have hfirst : headline t.mark o' = headline t.mark o := by
    rw [headline, headline, hcrate]
  refine ⟨Utf8.encode above, Utf8.encode below, ?_, ?_, ?_⟩
  · rcases hstart with rfl | ⟨front, rfl⟩
    · exact .inl rfl
    · exact .inr ⟨Utf8.encode front, List.flatMap_append⟩
  · rw [htext o rfl h, Utf8.encode, List.flatMap_append, List.flatMap_append]
    rfl
  · rw [htext o' (congrArg String.toList hfirst) h', Utf8.encode, List.flatMap_append,
      List.flatMap_append]
    rfl

end Template

/-- Compact texts of outlines with one skeleton fail alike, or are one line apart. -/
theorem Style.textOf_blind (s : Style) {i i' : Interface} {o o' : Outline}
    (h : o.skeleton = o'.skeleton) (hcompact : o.compact = true)
    (hc : i.checksum = .ok o.checksum) (hc' : i'.checksum = .ok o'.checksum) (template : String) :
    (∃ e, s.textOf template o = .error e ∧ s.textOf template o' = .error e) ∨
      ∃ text text', s.textOf template o = .ok text ∧ s.textOf template o' = .ok text' ∧
        ChecksumApart i i' (Utf8.encode text.toList) (Utf8.encode text'.toList) := by
  have hcrate : o.crateName = o'.crateName := by
    change o.skeleton.crateName = o'.skeleton.crateName
    rw [h]
  have hcompact' : o'.compact = true := by
    change o'.skeleton.compact = true
    rw [← h]
    exact hcompact
  rw [textOf, textOf]
  cases Template.ofName? template with
  | none => exact .inl ⟨_, rfl, rfl⟩
  | some t =>
    have hself := t.render_of_skeleton_eq s.spelling s.cTypes (Eq.refl o.skeleton) hcompact
    have hother := t.render_of_skeleton_eq s.spelling s.cTypes h hcompact
    dsimp only
    rw [hother]
    cases hrender : t.render s.spelling s.cTypes o with
    | error gap => cases gap <;> exact .inl ⟨_, rfl, rfl⟩
    | ok d =>
      rw [hrender] at hself
      have hd : d = Template.headed t.mark o d := Except.ok.inj hself
      refine .inr ⟨_, _, rfl, rfl, .inr ⟨t.mark, _, _, hc, hc', ?_⟩⟩
      rw [if_pos hcompact, if_pos hcompact', hd]
      exact t.oneLineApart_compact hcrate (isLineEnd_of_checksum hc) (isLineEnd_of_checksum hc') _

private theorem ChecksumApart.keptByAppend (i i' : Interface) : KeptByAppend (ChecksumApart i i') :=
  ⟨fun _ => .inl rfl, ChecksumApart.append⟩

/-- Outlines of interfaces that differ in docstrings fail alike, or have one skeleton. -/
theorem Outline.ofInterface_blind {i i' : Interface} (h : i.undocumented = i'.undocumented)
    (settings : Table Value) (package : Except Fault String) :
    (∃ e, ofInterface i settings package = .error e ∧
        ofInterface i' settings package = .error e) ∨
      ∃ o o', ofInterface i settings package = .ok o ∧ ofInterface i' settings package = .ok o' ∧
        o.skeleton = o'.skeleton := by
  have hskeleton := skeleton_ofInterface i settings package
  rw [h, ← skeleton_ofInterface] at hskeleton
  cases hx : ofInterface i settings package with
  | error e =>
    cases hy : ofInterface i' settings package with
    | error e' =>
      rw [hx, hy] at hskeleton
      obtain rfl := Except.error.inj hskeleton
      exact .inl ⟨e, rfl, rfl⟩
    | ok o' =>
      rw [hx, hy] at hskeleton
      cases hskeleton
  | ok o =>
    cases hy : ofInterface i' settings package with
    | error e' =>
      rw [hx, hy] at hskeleton
      cases hskeleton
    | ok o' =>
      rw [hx, hy] at hskeleton
      exact .inr ⟨o, o', rfl, rfl, Except.ok.inj hskeleton⟩

/-! ## Whole runs -/

namespace Style

variable {i i' : Interface}

private theorem formatFiles_lockstep {R : Bytes → Bytes → Prop} (hR : KeptByAppend R) (s : Style)
    (paths : List Path) : Run.Lockstep R (s.formatFiles paths) (s.formatFiles paths) := by
  rw [formatFiles]
  split
  · exact .pure _
  · dsimp only
    split
    · exact .pure _
    · refine (Run.Lockstep.start _).bind fun reply => ?_
      cases reply with
      | missing => exact .log hR _ _ _
      | finished output => exact .pure _
      | failed status complaint => exact .log hR _ _ _

private theorem writeFile_lockstep (s : Style) (hcrate : i.crateName = i'.crateName)
    {o o' : Outline} (h : o.skeleton = o'.skeleton) (hcompact : o.compact = true)
    (hc : i.checksum = .ok o.checksum) (hc' : i'.checksum = .ok o'.checksum) (directory : Path)
    (template pattern : String) :
    Run.Lockstep (ChecksumApart i i') (s.writeFile i o directory template pattern)
      (s.writeFile i' o' directory template pattern) := by
  have hmodule : o.moduleName = o'.moduleName := by
    change o.skeleton.moduleName = o'.skeleton.moduleName
    rw [h]
  rw [writeFile, writeFile, ← hcrate, ← hmodule]
  refine .ofExcept_bind ((s.textOf_blind h hcompact hc hc' template).imp_right ?_)
  rintro ⟨text, text', htext, htext', hapart⟩
  refine ⟨text, text', htext, htext', (Run.Lockstep.ofExcept _).bind fun name => ?_⟩
  refine (Run.Lockstep.lift _ (.writeText _ hapart)).bind fun _ => ?_
  exact (Run.Lockstep.log (ChecksumApart.keptByAppend i i') _ _ _).bind fun _ => .pure _

/-- In compact style docstrings do not show: for interfaces that differ in docstrings only, a style
ends alike, whether it fails or gives the paths of the files, and leaves workspaces that are the
same but for the line with the checksum in a file. -/
theorem write_blind_to_docstrings (s : Style) (h : i.undocumented = i'.undocumented)
    {settings : Settings} {seen : Table Value} (hseen : settings.bindingsFor s.language = .ok seen)
    (hcompact : ((Table.find? seen "render_style").getD .null).same "compact" = true)
    (directory : Path) (format : Bool) (w : Workspace) :
    (s.write ⟨i, settings, directory, format⟩ w).1 =
        (s.write ⟨i', settings, directory, format⟩ w).1 ∧
      Workspace.Alike (ChecksumApart i i') (s.write ⟨i, settings, directory, format⟩ w).2
        (s.write ⟨i', settings, directory, format⟩ w).2 := by
  have hR := ChecksumApart.keptByAppend i i'
  have hcrate : i.crateName = i'.crateName := by
    change i.undocumented.crateName = i'.undocumented.crateName
    rw [h]
  refine Run.Lockstep.ofExcept_bind (.inr ⟨seen, seen, ?_, ?_, ?_⟩) w w (.refl hR w)
  · rw [hseen]
    rfl
  · rw [hseen]
    rfl
  · refine .ofExcept_bind ?_
    obtain ⟨e, hx, hy⟩ | ⟨o, o', hx, hy, hskeleton⟩ :=
      Outline.ofInterface_blind h seen (s.packageOf seen)
    · exact .inl ⟨.fault e, by rw [hx]; rfl, by rw [hy]; rfl⟩
    · refine .inr ⟨o, o', by rw [hx]; rfl, by rw [hy]; rfl, ?_⟩
      obtain ⟨hc, hcompacted⟩ := Outline.checksum_compact_of_ofInterface hx
      obtain ⟨hc', -⟩ := Outline.checksum_compact_of_ofInterface hy
      have hpackage : o.packageName = o'.packageName := by
        change o.skeleton.packageName = o'.skeleton.packageName
        rw [hskeleton]
      dsimp only
      rw [← hcrate, ← hpackage]
      refine (Run.Lockstep.lift _ (.makeDirectories _)).bind fun _ => ?_
      refine (Run.Lockstep.mapM (fun e => ?_) _).bind fun written => ?_
      · exact writeFile_lockstep s hcrate hskeleton (hcompacted.trans hcompact) hc hc' _ _ _
      · split
        · exact (formatFiles_lockstep hR s written).bind fun _ => .pure written
        · exact .pure written

-- An interface with one function.
private def greeting (docstring : Value) : Interface where
  namespaceName := "geo"
  crateName := "geo"
  functions :=
    [("greet", ⟨"geo", "greet", [⟨"name", "string"⟩], "string", .null, .bool false, docstring⟩)]
  objects := []
  records := []
  enums := []
  callbackInterfaces := []
  customTypes := []

-- Settings that ask for compact text.
private def compactSettings : Settings :=
  ⟨none, [("module_name", "geo"), ("render_style", "compact")], [], #[], [], false⟩

-- The task to write a module for this interface into the current directory.
private def greetingTask (docstring : Value) : EmitTask :=
  ⟨greeting docstring, compactSettings, ⟨"", []⟩, false⟩

/-- With and without a docstring one module is written. -/
theorem write_blind_to_docstrings_greeting :
    let w : Workspace :=
      ⟨⟨⟨"/", ["work"]⟩, []⟩, fun _ => .missing, [], [], Journal.initial "", []⟩
    (Language.python.style.write (greetingTask "Says hello.") w).1.toOption =
        some [⟨"", ["geo.py"]⟩] ∧
      (Language.python.style.write (greetingTask "Says hello.") w).1 =
        (Language.python.style.write (greetingTask .null) w).1 ∧
      Workspace.Alike (ChecksumApart (greeting "Says hello.") (greeting .null))
        (Language.python.style.write (greetingTask "Says hello.") w).2
        (Language.python.style.write (greetingTask .null) w).2 := by
  intro w
  have hdocstrings : (greeting "Says hello.").undocumented = (greeting .null).undocumented := rfl
  refine ⟨by decide +kernel, ?_⟩
  exact write_blind_to_docstrings Language.python.style hdocstrings
    (Settings.bindingsFor_plain compactSettings _ rfl) (by decide) ⟨"", []⟩ false w

end Style
end BindGen
