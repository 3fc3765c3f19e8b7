import ScriptDeps.Proofs.Command.Starting
import ScriptDeps.Proofs.Host.Files
import ScriptDeps.Proofs.Host.Traces
import ScriptDeps.Proofs.Text.Utf8

/-!
# Checking, adding and running agree

A check, an addition and a run of one script come to the same packages on different ways: a check
reads the file and reports on it, an addition puts the block into the text it reads, a run names the
packages to the runner. What is written is what the check shows, and what the runner is told of is
what the report lists. Main statement: `agree`.
-/

namespace ScriptDeps

open Machine Attempt

variable {m : Machine} {console : Console} {settings : Settings} {script : String}
  {arguments : List String} {text : List Char} {u : Universe} {events : List Event}
  {calls : List Call}

/-! ## Checking -/

/-- What is found in a text does not depend on its name. -/
theorem Analysis.ofText_fst (u : Universe) (title : String) (source : List Char) :
    (ofText u title source).1 = (ofSource u source).1 := by
  rw [ofSource, ofText, ofText]
  cases Import.ofSource source <;> rfl

namespace Command

/-- The report on a text at a path. -/
def reportOf (m : Machine) (u : Universe) (version path : String) (text : List Char) : Report :=
  let analysis := (Analysis.ofSource u text).1
  ⟨path, version, analysis, String.ofList (analysis.block version), m.clock, toolVersion⟩

private theorem leaves_reportOnFile {version : String} (h : m.textAt script = .ok text) :
    Leaves (reportOnFile console u version script) (m.after events calls)
      (reportOf m u version script text) [] := by
  have hread : Leaves (readText script) (m.after events calls) (.ok text) [] :=
    .of_run (by rw [run_readText, textAt_after, h, after_nil])
  have hfile : Leaves (analyzeFile console u script) (m.after events calls)
      (Analysis.ofSource u text).1 [] := by
    refine hread.bind_quiet fun _ => ?_
    rw [← Analysis.ofText_fst u script]
    exact leaves_analyzeText _ u script text _
  exact hfile.bind_quiet fun _ => .of_run (by rw [after_nil]; rfl)

/-- A script that can be read exists. -/
theorem leaves_checkExists (h : m.textAt script = .ok text) :
    Leaves (checkExists script) (m.after events calls) (.ok ()) [] :=
  .of_run (by rw [run_checkExists, exists?_of_textAt (m := m.after _ _) h, if_pos rfl, after_nil])

/-- A check shows the report on the text of the script. -/
theorem ends_rendered (format : Report.Format) (hscript : isAddress script = false)
    (h : m.textAt script = .ok text) (hu : m.modulesOf settings.interpreter = .ok u) :
    Ends (rendered console settings format script) m
      (.ok ((reportOf m u settings.pythonVersion script text).write format))
      (m.probesOf settings.interpreter) := by
  refine (ends_findScript console hscript m).quiet_bind fun _ =>
    .clearing (release_eq script) ?_
  refine (Ends.attempt (leaves_checkExists h)).quiet_bind fun _ => ?_
  rw [after_after]
  refine (ends_knownModules hu).bind_quiet fun _ => ?_
  rw [after_after]
  exact (Ends.lift (leaves_reportOnFile h)).bind_quiet fun _ => .pure _ _

/-! ## Adding -/

/-- A local script is kept where it is. -/
theorem ends_keep (hscript : isAddress script = false)
    (h : m.files.exists? m.directory script = true) :
    Ends (keep console script) m (.ok ⟨script, none⟩) [] := by
  refine (ends_findScript console hscript m).quiet_bind fun events => ?_
  have hexists : Leaves (checkExists script) (m.after events []) (.ok ()) [] :=
    .of_run (by rw [run_checkExists, after_files, after_directory, h, if_pos rfl, after_nil])
  exact (Ends.lift hexists).quiet_bind fun _ => .pure _ _

/-- A script that cannot be read gets no block. -/
theorem ends_addTo_unread {e : ReadError} {source : Source} (h : m.textAt source.path = .error e) :
    Ends (addTo console settings source) (m.after events calls) (.error (.read source.path e)) [] :=
  (ends_scriptText_error h).bind_error

/-- An interpreter that does not answer keeps a script from getting a block. -/
theorem ends_addTo_unknown {e : ProbeError} {source : Source} (h : m.textAt source.path = .ok text)
    (he : m.modulesOf settings.interpreter = .error e) :
    Ends (addTo console settings source) (m.after events calls) (.error (.probe e))
      (m.probesOf settings.interpreter) := by
  refine (ends_scriptText h).quiet_bind fun _ => ?_
  rw [after_after]
  exact (ends_knownModules_error he).bind_error

/-- An addition goes on with the text of the script and what is found in it. -/
theorem leadsTo_addTo (source : Source) (h : m.textAt source.path = .ok text)
    (hu : m.modulesOf settings.interpreter = .ok u) :
    LeadsTo (addTo console settings source) (m.after events calls)
      (writeBlock console settings source text (Analysis.ofSource u text).1)
      (m.probesOf settings.interpreter) := by
  rw [← List.append_nil (m.probesOf _)]
  refine (ends_scriptText h).leadsTo fun _ => ?_
  rw [after_after]
  refine (ends_knownModules hu).leadsTo fun _ => ?_
  exact (Ends.lift (leaves_analyzeText _ u "script" text _)).leadsTo fun _ =>
    ⟨[], by rw [after_nil]; rfl⟩

/-- Adding to a script goes on with its text and what is found in it. -/
theorem leadsTo_add (hscript : isAddress script = false) (h : m.textAt script = .ok text)
    (hu : m.modulesOf settings.interpreter = .ok u) :
    LeadsTo (add console settings script) m
      (writeBlock console settings ⟨script, none⟩ text (Analysis.ofSource u text).1)
      (m.probesOf settings.interpreter) :=
  (ends_keep hscript (exists?_of_textAt h)).leadsTo fun _ => leadsTo_addTo ⟨script, none⟩ h hu

/-- A user is told what was added. -/
theorem leaves_sayAdded (console : Console) (source : Source) (dependencies : DependencyList)
    (m : Machine) : Leaves (sayAdded console source dependencies) m () [] := by
  have hend (m : Machine) : Leaves
      (do
        say console .success s!"Updated {source.path} with PEP 723 metadata."
        sayDependencies console "Dependencies" dependencies "No external dependencies found.")
      m () [] := (Leaves.say _ _ _ m).bind_quiet fun _ => .say _ _ _ _
  rw [sayAdded]
  cases source.address with
  | none => exact hend m
  | some address =>
    refine (Leaves.say _ _ _ m).bind_quiet fun _ => ?_
    exact (Leaves.say _ _ _ _).bind_quiet fun _ => hend _

/-- A script gets its block if it has it already or can be written. -/
theorem run_writeBlock_eq (console : Console) (settings : Settings) (source : Source)
    {analysis : Analysis} {files : FileSystem}
    (h : (if Block.reconcile text (analysis.block settings.pythonVersion) = text then .ok m.files
      else m.files.write m.directory source.path
        (Text.encode (Block.reconcile text (analysis.block settings.pythonVersion)))) = .ok files) :
    ∃ events, (ExceptT.run (writeBlock console settings source text analysis)).run m =
      (.ok 0, { m with files }.after events []) := by
  have hend (m : Machine) : Ends
      (do
        sayAdded console source analysis.dependencies
        return 0)
      m (.ok 0) [] :=
    (Ends.lift (leaves_sayAdded console source _ m)).quiet_bind fun _ => .pure 0 _
  by_cases hsame : Block.reconcile text (analysis.block settings.pythonVersion) = text
  · rw [if_pos hsame] at h
    obtain rfl := Except.ok.inj h
    simp only [writeBlock, hsame, if_true]
    exact (Ends.lift (.say _ _ _ m)).quiet_bind fun _ => hend _
  · rw [if_neg hsame] at h
    simp only [writeBlock, hsame, if_false]
    rw [run_bind_eq, run_attempt_eq, run_writeText, h]
    exact hend _

/-- A text that has its block already is let be. -/
theorem ends_writeBlock_same {analysis : Analysis}
    (h : Block.reconcile text (analysis.block settings.pythonVersion) = text) (m : Machine) :
    Ends (writeBlock console settings ⟨script, none⟩ text analysis) m (.ok 0) [] :=
  run_writeBlock_eq console settings ⟨script, none⟩ (if_pos h)

/-- A text that cannot be written leaves the files as they are. -/
theorem ends_writeBlock_refused {analysis : Analysis} {e : SystemError}
    (h : Block.reconcile text (analysis.block settings.pythonVersion) ≠ text)
    (he : m.files.write m.directory script
      (Text.encode (Block.reconcile text (analysis.block settings.pythonVersion))) = .error e) :
    Ends (writeBlock console settings ⟨script, none⟩ text analysis) m (.error (.write script e))
      [] := by
  have hwrite : Leaves
      (writeText script (Block.reconcile text (analysis.block settings.pythonVersion))) m (.error e)
      [] := .of_run (by simp only [writeText, run_bind, run_get, he, run_pure, after_nil])
  simp only [writeBlock, h, if_false]
  exact (Ends.attempt_error hwrite).bind_error

/-- A text that gets another block is written. -/
theorem run_writeBlock {analysis : Analysis} {files : FileSystem}
    (h : Block.reconcile text (analysis.block settings.pythonVersion) ≠ text)
    (hfiles : m.files.write m.directory script
      (Text.encode (Block.reconcile text (analysis.block settings.pythonVersion))) = .ok files) :
    ∃ events, (ExceptT.run (writeBlock console settings ⟨script, none⟩ text analysis)).run m =
      (.ok 0, { m with files }.after events []) :=
  run_writeBlock_eq console settings ⟨script, none⟩ ((if_neg h).trans hfiles)

/-! An addition to a script on this machine ends in one of five ways. -/

/-- A script that does not exist, or that is no text, gets no block. -/
theorem ends_add_unread {e : ReadError} (hscript : isAddress script = false)
    (h : m.textAt script = .error e) :
    Ends (add console settings script) m
      (.error (if m.files.exists? m.directory script then .read script e
        else .invalid (.noScript script))) [] := by
  cases hexists : m.files.exists? m.directory script with
  | false =>
    refine Ends.bind_error ((ends_findScript console hscript m).quiet_bind fun events => ?_)
    have hcheck : Leaves (checkExists script) (m.after events [])
        (.error (.noScript script)) [] :=
      .of_run (by rw [run_checkExists, after_files, after_directory, hexists, after_nil]; rfl)
    refine (Ends.lift hcheck).quiet_bind fun _ => ?_
    exact (Ends.lift (.pure () _)).quiet_bind fun _ => .throw _ _
  | true =>
    exact (ends_keep hscript hexists).quiet_bind fun _ => ends_addTo_unread h

/-- An interpreter that does not answer keeps a script from getting a block. -/
theorem ends_add_unknown {e : ProbeError} (hscript : isAddress script = false)
    (h : m.textAt script = .ok text) (he : m.modulesOf settings.interpreter = .error e) :
    Ends (add console settings script) m (.error (.probe e)) (m.probesOf settings.interpreter) :=
  (ends_keep hscript (exists?_of_textAt h)).quiet_bind fun _ => ends_addTo_unknown h he

/-- A script that has its block already is let be. -/
theorem ends_add_same (hscript : isAddress script = false) (h : m.textAt script = .ok text)
    (hu : m.modulesOf settings.interpreter = .ok u)
    (hsame : updated u settings.pythonVersion text = text) :
    Ends (add console settings script) m (.ok 0) (m.probesOf settings.interpreter) :=
  (leadsTo_add hscript h hu).ends fun _ => ends_writeBlock_same hsame _

/-- A script that cannot be written stays as it is. -/
theorem ends_add_refused {e : SystemError} (hscript : isAddress script = false)
    (h : m.textAt script = .ok text) (hu : m.modulesOf settings.interpreter = .ok u)
    (hother : updated u settings.pythonVersion text ≠ text)
    (he : m.files.write m.directory script (Text.encode (updated u settings.pythonVersion text)) =
      .error e) :
    Ends (add console settings script) m (.error (.write script e))
      (m.probesOf settings.interpreter) :=
  (leadsTo_add hscript h hu).ends fun events =>
    ends_writeBlock_refused (m := m.after events _) hother he

/-- Any other script is written. -/
theorem run_add_written {files : FileSystem} (hscript : isAddress script = false)
    (h : m.textAt script = .ok text) (hu : m.modulesOf settings.interpreter = .ok u)
    (hother : updated u settings.pythonVersion text ≠ text)
    (hfiles : m.files.write m.directory script
      (Text.encode (updated u settings.pythonVersion text)) = .ok files) :
    ∃ events calls, (ExceptT.run (add console settings script)).run m =
      (.ok 0, { m with files }.after events calls) := by
  obtain ⟨events, hleads⟩ := leadsTo_add hscript h hu
  obtain ⟨events', hrun⟩ := run_writeBlock (m := m.after events _) hother hfiles
  have hafter : { m.after events (m.probesOf settings.interpreter) with files }.after events' [] =
      { m with files }.after (events ++ events') (m.probesOf settings.interpreter ++ []) :=
    after_after (m := { m with files })
  exact ⟨_, _, hleads.trans (hrun.trans (congrArg (Prod.mk _) hafter))⟩

end Command

/-! ## Agreement -/

/-- What a check, an addition and a run of one script have in common: the block that a check shows
and the packages that it lists. -/
structure Agree (console : Console) (settings : Settings) (script : String) (m : Machine)
    (text : List Char) (block : String) (packages : List String) : Prop where
  /-- A check shows the block. -/
  shown : ∃ events calls, (ExceptT.run (Command.rendered console settings .text script)).run m =
    (.ok block, m.after events calls)
  /-- A check in the JSON format lists the packages. -/
  listed : ∃ report events calls,
    (ExceptT.run (Command.rendered console settings .json script)).run m =
      (.ok (String.ofList (Data.Json.pretty 0 report)), m.after events calls) ∧
    report.field? "dependencies" = some (Data.texts packages)
  /-- After an addition that succeeds the script is the old text with the block. -/
  added : ∀ code m', (ExceptT.run (Command.add console settings script)).run m = (.ok code, m') →
    m'.textAt script = .ok (Block.reconcile text block.toList)
  /-- Nothing is written if the text has the block already. -/
  kept : Block.reconcile text block.toList = text →
    ∃ events calls, (ExceptT.run (Command.add console settings script)).run m =
      (.ok 0, m.after events calls)
  /-- The runner is told of the packages of a script without a block. -/
  named : (Block.split text).hasBlock = false → m.answers settings.runner = true →
    ∀ arguments, ∃ result events,
      (ExceptT.run (Command.run console settings script arguments)).run m =
        (result, m.after events (m.startsOf settings.runner ["--version"] ++
        (m.probesOf settings.interpreter ++ m.startsOf settings.runner
          ("run" :: packages.flatMap (fun package => ["--with", package]) ++ script :: arguments))))

/-- After an addition that succeeds the script is the text with the block. -/
private theorem textAt_of_add {code : Nat} {m' : Machine} (hscript : isAddress script = false)
    (h : m.textAt script = .ok text) (hu : m.modulesOf settings.interpreter = .ok u)
    (hadd : (ExceptT.run (Command.add console settings script)).run m = (.ok code, m')) :
    m'.textAt script = .ok (updated u settings.pythonVersion text) := by
  by_cases hsame : updated u settings.pythonVersion text = text
  · obtain ⟨events, hrun⟩ := Command.ends_add_same hscript h hu hsame
    obtain ⟨-, rfl⟩ := Prod.mk.inj (hrun.symm.trans hadd)
    rw [textAt_after, h, hsame]
  · cases hwrite : m.files.write m.directory script
        (Text.encode (updated u settings.pythonVersion text)) with
    | error e =>
      obtain ⟨events, hrun⟩ := Command.ends_add_refused hscript h hu hsame hwrite
      exact absurd (Prod.mk.inj (hrun.symm.trans hadd)).1 nofun
    | ok files =>
      obtain ⟨events, calls, hrun⟩ := Command.run_add_written hscript h hu hsame hwrite
      obtain ⟨-, rfl⟩ := Prod.mk.inj (hrun.symm.trans hadd)
      obtain ⟨old, hread, -⟩ := textAt_eq_ok_iff.1 h
      exact textAt_eq_ok_iff.2
        ⟨_, FileSystem.read_of_write hread hwrite, Text.decode_encode _⟩

/-- A check, an addition and a run of a script agree. -/
theorem agree (console : Console) (hscript : isAddress script = false)
    (h : m.textAt script = .ok text) (hu : m.modulesOf settings.interpreter = .ok u) :
    ∃ block packages, Agree console settings script m text block packages := by
  have hupdated : Block.reconcile text (String.ofList
      ((Analysis.ofSource u text).1.block settings.pythonVersion)).toList =
      updated u settings.pythonVersion text := by
    rw [String.toList_ofList]
    rfl
  refine ⟨String.ofList ((Analysis.ofSource u text).1.block settings.pythonVersion),
    (Analysis.ofSource u text).1.dependencies.names, ?_, ?_, ?_, ?_, ?_⟩
  · obtain ⟨events, hcheck⟩ := Command.ends_rendered .text hscript h hu
    exact ⟨events, _, hcheck⟩
  · obtain ⟨events, hcheck⟩ := Command.ends_rendered .json hscript h hu
    exact ⟨_, events, _, hcheck, rfl⟩
  · intro code m' hadd
    rw [hupdated]
    exact textAt_of_add hscript h hu hadd
  · intro hsame
    rw [hupdated] at hsame
    obtain ⟨events, hrun⟩ := Command.ends_add_same hscript h hu hsame
    exact ⟨events, _, hrun⟩
  · intro hblock hrunner arguments
    have hends : Ends (Command.run console settings script arguments) m _ _ :=
      Command.ends_run hscript hrunner fun _ _ =>
        Command.ends_runAt_start h fun _ => Command.ends_packagesToName hblock hu
    obtain ⟨events, hrun⟩ := hends
    exact ⟨_, events, hrun⟩

/-- A script that may be read has its text. -/
theorem textAt_hostOf {mode : Mode} (h : mode.readable = true) (text : String) :
    (hostOf mode text).textAt "s.py" = .ok text.toList :=
  textAt_eq_ok_iff.2 ⟨_, FileSystem.read_eq_ok_iff.2 ⟨_, _, locate_hostOf mode text, h⟩,
    Text.decode_encode _⟩

/-- The three agree on a script without a block, on a machine with a runner. -/
theorem agree_requests :
    let m := hostOf .new "import requests\n"
    (Block.split "import requests\n".toList).hasBlock = false ∧ m.answers "uv" = true ∧
      ∃ block packages,
        Agree ⟨false, false⟩ .default "s.py" m "import requests\n".toList block packages :=
  ⟨by decide, by decide +kernel,
    agree ⟨false, false⟩ (by decide) (textAt_hostOf rfl _) (u := .bundled) rfl⟩

end ScriptDeps
