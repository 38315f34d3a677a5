import BindGen.Proofs.File.Growth
import BindGen.Run.Workspace

/-!
# Where messages arrive

A journal may be configured again and again between messages. Each configuration takes the place of
the one before it, so the one in force alone tells where a message arrives. The level of the journal
is that of the console, and it is asked before any sink is: a message below it is dropped, although
the sink of a log file would take it in.
-/

namespace BindGen

/-! ## What a file gets -/

namespace Tree

variable {changed : List String → Prop} {t t' : Tree} {p : Path}

/-- The bytes in the file at a place; none if there is no file. -/
def contentAt (t : Tree) (q : List String) : Bytes :=
  match t.node? q with
  | some (.file content) => content
  | _ => []

private theorem contentAt_of_file {q : List String} {content : Bytes}
    (h : t.node? q = some (.file content)) : t.contentAt q = content := by
  rw [contentAt, h]

private theorem contentAt_of_not_file {q : List String}
    (h : ∀ content, t.node? q ≠ some (.file content)) :
    t.contentAt q = [] := by
  rw [contentAt]
  split
  · next content hq => exact absurd hq (h content)
  · rfl

/-- Growth elsewhere does not change what a file holds. -/
theorem Grows.contentAt_eq (h : Grows changed t t') {q : List String} (hq : ¬changed q) :
    t'.contentAt q = t.contentAt q := by
  by_cases hfile : ∃ content, t'.node? q = some (.file content)
  · obtain ⟨content, hnew⟩ := hfile
    rw [contentAt_of_file hnew, contentAt_of_file (h.fresh q content hnew hq)]
  · rw [not_exists] at hfile
    rw [contentAt_of_not_file hfile, contentAt_of_not_file fun content hold => ?_]
    exact hfile content (h.node?_eq hold hq)

/-- Adding to a file puts bytes behind those that it holds, and nothing anywhere else. -/
theorem append_adds {content : Bytes} (h : t.append p content = .ok t') :
    ∃ q, t.locate p = .ok q ∧ Grows (· = q) t t' ∧
      t'.node? q = some (.file (t.contentAt q ++ content)) := by
  rw [append] at h
  split at h
  · next old hold =>
    obtain ⟨q, hq, hg, hnew⟩ := grows_write h
    refine ⟨q, hq, hg, ?_⟩
    rw [hnew]
    rw [read, hq] at hold
    dsimp only at hold
    split at hold
    · next there =>
      obtain rfl := Except.ok.inj hold
      rw [contentAt_of_file there]
    · cases hold
    · cases hold
  · next hmissing =>
    obtain ⟨q, hq, hg, hnew⟩ := grows_write h
    refine ⟨q, hq, hg, ?_⟩
    rw [hnew, contentAt_of_not_file fun old hold => ?_, List.nil_append]
    rw [read, hq] at hmissing
    dsimp only at hmissing
    rw [hold] at hmissing
    cases hmissing
  · cases h

/-- A file that is there can be added to. -/
theorem exists_append {q : List String} {old : Bytes} (hq : t.locate p = .ok q)
    (hold : t.node? q = some (.file old)) (content : Bytes) :
    ∃ t', t.append p content = .ok t' := by
  have hread : t.read p = .ok old := by
    rw [read, hq]
    dsimp only
    rw [hold]
  refine ⟨t.put q (.file (old ++ content)), ?_⟩
  rw [append, hread]
  dsimp only
  rw [write, hq]
  dsimp only
  rw [hold]

end Tree

/-! ## Configurations and messages -/

/-- How logging is configured. -/
structure LogSettings where
  verbose : Bool
  quiet : Bool
  file : Option Path

/-- The level of the console. -/
def LogSettings.level (s : LogSettings) : Level := Level.chosen s.verbose s.quiet

/-- What is asked of logging: to be configured, or to note a message of a part of the program. -/
inductive LogRequest where
  | configure (s : LogSettings)
  | message (part : Option String) (level : Level) (text : String)

/-- Messages, each with the configuration that is in force when it is noted. -/
abbrev MessagesUnder := List (LogSettings × Message)

/-- The messages among requests, where some configuration is in force before the first request. -/
def LogRequest.messages (s : LogSettings) : List LogRequest → MessagesUnder
  | [] => []
  | configure s' :: rest => messages s' rest
  | message part level text :: rest => (s, ⟨Journal.originOf part, level, text⟩) :: messages s rest

/-- The messages that reach the level of the console. -/
def MessagesUnder.heard (messages : MessagesUnder) : MessagesUnder :=
  messages.filter fun (s, m) => s.level.rank ≤ m.level.rank

/-- The messages under configurations whose log file is at a place. -/
def MessagesUnder.filedAt (messages : MessagesUnder) (t : Tree) (q : List String) : MessagesUnder :=
  messages.filter fun (s, _) => s.file.any fun p => (t.locate p).toOption = some q

/-- The line of a message on the console. -/
def Message.consoleLine (m : Message) : String := s!"[{productName}] {m.level.name} {m.text}"

/-- The line of a message in a log file. -/
def Message.fileLine (m : Message) (stamp : String) : String :=
  s!"{stamp} {m.level.name} {m.origin}: {m.text}"

/-- The bytes of a message in a log file. -/
def Message.fileBytes (m : Message) (stamp : String) : Bytes :=
  Utf8.encode (m.fileLine stamp ++ "\n").toList

/-- The lines of messages on the console, in order. -/
def MessagesUnder.consoleLines (messages : MessagesUnder) : List String :=
  messages.heard.map fun (_, m) => m.consoleLine

/-- The bytes of messages in the log file at a place of a tree, in order. -/
def MessagesUnder.fileBytes (messages : MessagesUnder) (t : Tree) (stamp : String)
    (q : List String) : Bytes :=
  (messages.heard.filedAt t q).flatMap fun (_, m) => m.fileBytes stamp

namespace MessagesUnder

private theorem consoleLines_cons (x : LogSettings × Message) (rest : MessagesUnder) :
    consoleLines (x :: rest) = consoleLines [x] ++ consoleLines rest := by
  rw [consoleLines, consoleLines, consoleLines, ← List.map_append, heard, heard, heard,
    ← List.filter_append, List.singleton_append]

private theorem fileBytes_cons (x : LogSettings × Message) (rest : MessagesUnder) (t : Tree)
    (stamp : String) (q : List String) :
    fileBytes (x :: rest) t stamp q = fileBytes [x] t stamp q ++ fileBytes rest t stamp q := by
  rw [fileBytes, fileBytes, fileBytes, ← List.flatMap_append, filedAt, filedAt, filedAt,
    ← List.filter_append, heard, heard, heard, ← List.filter_append, List.singleton_append]

private theorem consoleLines_singleton (s : LogSettings) (m : Message) :
    consoleLines [(s, m)] =
      if s.level.rank ≤ m.level.rank then [m.consoleLine] else [] := by
  rw [consoleLines, heard, List.filter_cons]
  simp only [decide_eq_true_eq]
  split <;> rfl

private theorem fileBytes_singleton (s : LogSettings) (m : Message) (t : Tree) (stamp : String)
    (q : List String) :
    fileBytes [(s, m)] t stamp q =
      if s.level.rank ≤ m.level.rank ∧
          (s.file.any fun p => (t.locate p).toOption = some q) = true then
        m.fileBytes stamp
      else [] := by
  rw [fileBytes, filedAt, heard, List.filter_cons]
  by_cases hheard : s.level.rank ≤ m.level.rank
  · simp only [hheard, decide_true, if_true, List.filter_nil, List.filter_cons, true_and]
    split <;> simp
  · simp [hheard]

end MessagesUnder

/-- Requests lead from one workspace to another: every configuration among them succeeds. -/
inductive Logs : Workspace → List LogRequest → Workspace → Prop where
  | nil {w : Workspace} : Logs w [] w
  | configure {w w₁ w' : Workspace} {s : LogSettings} {rest : List LogRequest} :
      w.configureLog s.verbose s.quiet s.file = (w₁, none) → Logs w₁ rest w' →
      Logs w (.configure s :: rest) w'
  | message {w w' : Workspace} {part : Option String} {level : Level} {text : String}
      {rest : List LogRequest} :
      Logs (w.note ⟨Journal.originOf part, level, text⟩) rest w' →
      Logs w (.message part level text :: rest) w'

/-! ## One request -/

namespace LogSettings

/-- The sink of a log file asks no more of a message than the console does. -/
theorem debug_le_level (s : LogSettings) : Level.debug.rank ≤ s.level.rank := by
  rw [level, Level.chosen]
  split
  · exact Int.le_refl _
  · split <;> decide

/-- A configuration is in force: the journal is as it left it, and its log file is there. -/
structure InForce (s : LogSettings) (w : Workspace) : Prop where
  journal : w.journal.configure s.verbose s.quiet s.file = w.journal
  file : ∀ p, s.file = some p →
    ∃ q content, w.files.locate p = .ok q ∧ w.files.node? q = some (.file content)

end LogSettings

/-- What a request does to a workspace: the console gets lines, and files grow by bytes. -/
structure Adds (w w' : Workspace) (lines : List String) (bytes : List String → Bytes) : Prop where
  stamp : w'.journal.stamp = w.journal.stamp
  console : w'.console = w.console ++ lines
  files : Tree.Spares (fun _ => True) w.files w'.files
  content : ∀ q, w'.files.contentAt q = w.files.contentAt q ++ bytes q

namespace Adds

variable {w w₁ w' : Workspace} {lines lines' : List String} {bytes bytes' : List String → Bytes}

private theorem refl (w : Workspace) : Adds w w [] fun _ => [] :=
  ⟨rfl, (List.append_nil _).symm, .refl _ _, fun _ => (List.append_nil _).symm⟩

private theorem trans (h : Adds w w₁ lines bytes) (h' : Adds w₁ w' lines' bytes') :
    Adds w w' (lines ++ lines') fun q => bytes q ++ bytes' q where
  stamp := h'.stamp.trans h.stamp
  console := by rw [h'.console, h.console, List.append_assoc]
  files := h.files.trans h'.files
  content q := by rw [h'.content, h.content, List.append_assoc]

end Adds

variable {w w₁ w' : Workspace} {s : LogSettings}

/-- A configuration is in force as soon as it has succeeded, and it adds nothing anywhere. -/
theorem Workspace.configureLog_adds
    (h : w.configureLog s.verbose s.quiet s.file = (w₁, none)) :
    s.InForce w₁ ∧ Adds w w₁ [] fun _ => [] := by
  rw [Workspace.configureLog.eq_def] at h
  split at h
  · next hfile =>
    obtain rfl : _ = w₁ := congrArg Prod.fst h
    refine ⟨⟨by rw [hfile]; rfl, fun p hp => ?_⟩,
      ⟨rfl, (List.append_nil _).symm, .refl _ _, fun _ => (List.append_nil _).symm⟩⟩
    rw [hfile] at hp
    cases hp
  · next path hfile =>
    split at h
    · cases h
    · next made hmade =>
      have hdirectories := w.files.grows_makeDirectories path.parent
      rw [hmade] at hdirectories
      split at h
      · next files happend =>
        obtain rfl : _ = w₁ := congrArg Prod.fst h
        obtain ⟨q, hq, hgrown, hcontent⟩ := Tree.append_adds happend
        rw [List.append_nil] at hcontent
        refine ⟨⟨by rw [hfile]; rfl, fun p hp => ?_⟩, ⟨rfl, (List.append_nil _).symm, ?_, ?_⟩⟩
        · obtain rfl : path = p := Option.some.inj (hfile.symm.trans hp)
          exact ⟨q, _, hgrown.locate_ok hq, hcontent⟩
        · exact (hdirectories.toSpares.mono fun _ => False.elim).trans
            (hgrown.toSpares.mono fun _ _ => trivial)
        · intro x
          rw [List.append_nil, ← hdirectories.contentAt_eq (q := x) id]
          by_cases hx : x = q
          · rw [hx]
            exact Tree.contentAt_of_file hcontent
          · exact hgrown.contentAt_eq hx
      · cases h

namespace LogSettings.InForce

variable {m : Message}

/-- A message below the level of the console leads nowhere, any other one to each sink. -/
theorem deliveries_eq (h : s.InForce w) (m : Message) :
    w.journal.deliveries m =
      if s.level.rank ≤ m.level.rank then
        .console m.consoleLine ::
          s.file.toList.map fun p => .file p (m.fileLine w.journal.stamp)
      else [] := by
  have hlevel : w.journal.level = s.level := by
    rw [← h.journal]
    rfl
  have hsinks : w.journal.sinks = .console s.level :: s.file.toList.map (Sink.file .debug) := by
    rw [← h.journal]
    rfl
  have hconfigured : w.journal.configured = true := by
    rw [← h.journal]
    rfl
  rw [Journal.deliveries, hlevel, hsinks]
  by_cases hheard : s.level.rank ≤ m.level.rank
  · rw [if_neg (Int.not_lt.mpr hheard), if_pos hheard, List.filter_eq_self.mpr ?_, List.map_cons,
      List.map_map]
    · congr 1
      rw [Journal.deliver, hconfigured, if_pos rfl]
      rfl
    · intro sink hsink
      refine decide_eq_true ?_
      rcases List.mem_cons.mp hsink with rfl | hfile
      · exact hheard
      · obtain ⟨p, -, rfl⟩ := List.mem_map.mp hfile
        exact Int.le_trans s.debug_le_level hheard
  · rw [if_pos (Int.not_le.mp hheard), if_neg hheard]

-- Without a log file the console alone hears a message.
private theorem note_console (h : s.InForce w) (hfile : s.file = none)
    (hheard : s.level.rank ≤ m.level.rank) :
    w.note m = { w with console := w.console ++ [m.consoleLine] } := by
  rw [Workspace.note, h.deliveries_eq, if_pos hheard, hfile]
  rfl

-- With a log file a message goes to the console and to the end of that file.
private theorem note_file (h : s.InForce w) {p : Path} (hfile : s.file = some p)
    (hheard : s.level.rank ≤ m.level.rank) :
    ∃ q files, w.files.locate p = .ok q ∧ Tree.Grows (· = q) w.files files ∧
      files.node? q = some (.file (w.files.contentAt q ++ m.fileBytes w.journal.stamp)) ∧
      w.note m = { w with files, console := w.console ++ [m.consoleLine] } := by
  obtain ⟨q, old, hq, hold⟩ := h.file p hfile
  obtain ⟨files, happend⟩ := Tree.exists_append hq hold (m.fileBytes w.journal.stamp)
  obtain ⟨q', hq', hgrown, hcontent⟩ := Tree.append_adds happend
  refine ⟨q', files, hq', hgrown, hcontent, ?_⟩
  rw [Message.fileBytes] at happend
  rw [Workspace.note, h.deliveries_eq, if_pos hheard, hfile, Option.toList_some, List.map_singleton]
  simp only [List.foldl_cons, List.foldl_nil, Workspace.accept, happend]

-- A message below the level of the console changes nothing.
private theorem note_silent (h : s.InForce w) (hsilent : ¬s.level.rank ≤ m.level.rank) :
    w.note m = w := by
  rw [Workspace.note, h.deliveries_eq, if_neg hsilent, List.foldl_nil]

/-- A message keeps the configuration in force and adds its lines: to the console, and to the log
file at the place where it stays in every later tree. -/
theorem note (h : s.InForce w) (m : Message) :
    s.InForce (w.note m) ∧
      ∀ t, Tree.Spares (fun _ => True) (w.note m).files t →
        Adds w (w.note m) (MessagesUnder.consoleLines [(s, m)])
          (MessagesUnder.fileBytes [(s, m)] t w.journal.stamp) := by
  rw [MessagesUnder.consoleLines_singleton]
  by_cases hheard : s.level.rank ≤ m.level.rank
  · rw [if_pos hheard]
    cases hfile : s.file with
    | none =>
      rw [h.note_console hfile hheard]
      refine ⟨⟨h.journal, fun p hp => ?_⟩, fun t _ => ⟨rfl, rfl, .refl _ _, fun q => ?_⟩⟩
      · rw [hfile] at hp
        cases hp
      · rw [MessagesUnder.fileBytes_singleton, hfile, if_neg (by simp), List.append_nil]
    | some p =>
      obtain ⟨q, files, hq, hgrown, hcontent, hnoted⟩ := h.note_file hfile hheard
      rw [hnoted]
      refine ⟨⟨h.journal, fun p' hp' => ?_⟩,
        fun t ht => ⟨rfl, rfl, hgrown.toSpares.mono fun _ _ => trivial, fun x => ?_⟩⟩
      · obtain rfl : p = p' := Option.some.inj (hfile.symm.trans hp')
        exact ⟨q, _, hgrown.locate_ok hq, hcontent⟩
      · have hplace : t.locate p = .ok q := ht.locate_ok (hgrown.locate_ok hq)
        rw [MessagesUnder.fileBytes_singleton, hfile, Option.any_some, hplace]
        by_cases hx : q = x
        · rw [if_pos (by simp [hheard, hx, Except.toOption]), ← hx,
            Tree.contentAt_of_file hcontent]
        · rw [if_neg (by simp [hx, Except.toOption]), List.append_nil,
            hgrown.contentAt_eq (Ne.symm hx)]
  · rw [if_neg hheard, h.note_silent hheard]
    refine ⟨h, fun t _ => ?_⟩
    have hbytes : MessagesUnder.fileBytes [(s, m)] t w.journal.stamp = fun _ => [] := by
      funext q
      rw [MessagesUnder.fileBytes_singleton, if_neg fun hboth => hheard hboth.1]
    rw [hbytes]
    exact .refl w

end LogSettings.InForce

/-! ## Runs -/

namespace Logs

variable {requests : List LogRequest}

/-- Behind a configuration in force, requests add the lines of their messages. -/
theorem adds (h : Logs w requests w') (hs : s.InForce w) :
    Adds w w' (LogRequest.messages s requests).consoleLines
      ((LogRequest.messages s requests).fileBytes w'.files w.journal.stamp) := by
  induction h generalizing s with
  | nil => exact .refl _
  | configure hconfigured _ ih =>
    obtain ⟨hforce, hadds⟩ := Workspace.configureLog_adds hconfigured
    have hrest := hadds.trans (ih hforce)
    rw [hadds.stamp] at hrest
    exact hrest
  | message _ ih =>
    obtain ⟨hforce, hadds⟩ := hs.note _
    have hrest := ih hforce
    have hfirst := hadds _ hrest.files
    have hall := hfirst.trans hrest
    rw [hfirst.stamp] at hall
    rw [LogRequest.messages, MessagesUnder.consoleLines_cons,
      funext (MessagesUnder.fileBytes_cons _ _ _ _)]
    exact hall

/-- Behind a configuration, the console holds one line for each message that reaches the level of
the most recent configuration, and no other; and if that one has a log file, the file holds one line
for each of the same messages. -/
theorem delivers (h : Logs w (.configure s :: requests) w') :
    w'.console = w.console ++ (LogRequest.messages s requests).consoleLines ∧
      ∀ q, w'.files.contentAt q =
        w.files.contentAt q ++
          (LogRequest.messages s requests).fileBytes w'.files w.journal.stamp q := by
  cases h with
  | configure hconfigured hrest =>
    obtain ⟨hforce, hconfigure⟩ := Workspace.configureLog_adds hconfigured
    have hadds := hrest.adds hforce
    refine ⟨?_, fun q => ?_⟩
    · rw [hadds.console, hconfigure.console, List.append_nil]
    · rw [hadds.content, hconfigure.content, List.append_nil, hconfigure.stamp]

-- A quiet run with a log file, which is then made verbose without one.
private def quietThenVerbose : List LogRequest :=
  [.configure ⟨false, true, some ⟨"", ["run.log"]⟩⟩, .message (some "config") .info "read",
    .message (some "config") .warning "odd", .configure ⟨true, false, none⟩,
    .message none .debug "done"]

-- A workspace without files.
private def unlogged : Workspace :=
  ⟨⟨⟨"/", ["work"]⟩, []⟩, fun _ => .missing, [], [], Journal.initial "now", []⟩

/-- The quiet part hears the warning alone, in both places; the verbose one goes to the console. -/
theorem delivers_quietThenVerbose :
    ∃ w', Logs unlogged quietThenVerbose w' ∧
      w'.console = ["[ffigen] WARNING odd", "[ffigen] DEBUG done"] ∧
      w'.files.contentAt ["run.log"] = Utf8.encode "now WARNING ffigen.config: odd\n".toList := by
  have hlogs : ∃ w', Logs unlogged quietThenVerbose w' :=
    ⟨_, .configure rfl (.message (.message (.configure rfl (.message .nil))))⟩
  obtain ⟨w', hw⟩ := hlogs
  obtain ⟨hconsole, hfile⟩ := delivers hw
  have hplace : w'.files.locate ⟨"", ["run.log"]⟩ = .ok ["run.log"] := rfl
  refine ⟨w', hw, hconsole, ?_⟩
  rw [hfile, MessagesUnder.fileBytes]
  change [] ++ List.flatMap _ (MessagesUnder.filedAt [(_, ⟨_, .warning, "odd"⟩),
    (⟨true, false, none⟩, _)] w'.files ["run.log"]) = _
  rw [MessagesUnder.filedAt, List.filter_cons_of_pos (by simp [hplace, Except.toOption]),
    List.filter_cons_of_neg (by simp), List.filter_nil, List.flatMap_singleton]
  rfl

end Logs
end BindGen
