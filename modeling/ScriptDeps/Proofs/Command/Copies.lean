import ScriptDeps.Proofs.Command.Frame
import ScriptDeps.Proofs.Text.Decoding

/-!
# Copies of remote scripts

An addition to a remote script fetches a copy, keeps it, and writes the block into it. What can go
wrong before the copy is made leaves nothing behind. What can go wrong behind that, a copy that is
no text or an interpreter that names no modules, leaves the copy as it was fetched. Main statement:
`clean_add_iff`.
-/

namespace ScriptDeps

open Machine Attempt

variable {m : Machine} {console : Console} {settings : Settings} {script : String} {place : Path}
  {body : List UInt8} {text : List Char} {u : Universe} {events : List Event} {calls : List Call}

namespace Machine

/-- Nothing stands at the path for a copy. -/
def HasFreshCopyPath (m : Machine) : Prop :=
  ∀ place, m.files.target m.directory m.copyPath = .ok place → m.files.find? place = none

/-- The place of the copy of a remote script, and the bytes that were fetched. -/
def copyOf (m : Machine) (address : String) : Except FetchError (Path × List UInt8) :=
  match ((request address).run m).1 with
  | .error e => .error e
  | .ok body =>
    match m.files.target m.directory m.copyPath with
    | .error e => .error (.system e)
    | .ok place => .ok (place, body)

/-- The machine with a copy. -/
def withCopy (m : Machine) (place : Path) (body : List UInt8) : Machine :=
  { m with files := m.files.put place body }

/-- A copy is made whatever happened before. -/
theorem withCopy_after :
    (m.after events calls).withCopy place body = (m.withCopy place body).after events calls := rfl

/-- A copy is put where the machine has a path for it. -/
theorem target_of_copyOf {address : String} (h : m.copyOf address = .ok (place, body)) :
    m.files.target m.directory m.copyPath = .ok place := by
  unfold copyOf at h
  split at h
  · cases h
  · split at h
    · cases h
    next htarget =>
      cases h
      exact htarget

/-- What happened before does not change what copy there will be. -/
@[simp] theorem copyOf_after (address : String) :
    (m.after events calls).copyOf address = m.copyOf address := by
  simp only [copyOf, fst_run_request_after]
  rfl

/-- What is fetched comes to its place, and nothing else changes but what is noted. -/
theorem run_fetch (address : String) (showProgress : Bool) (m : Machine) :
    ∃ events, (fetch address showProgress).run m =
      match m.copyOf address with
      | .error e => (.error e, m.after events [])
      | .ok (place, body) => (.ok m.copyPath, (m.withCopy place body).after events []) := by
  obtain ⟨before, hbefore⟩ := Leaves.note showProgress (.begun s!"Fetching {address}") m
  rw [fetch, run_bind, hbefore, run_bind, run_request, fst_run_request_after, copyOf]
  cases ((request address).run m).1 with
  | error e =>
    cases e with
    | status address code =>
      obtain ⟨behind, hbehind⟩ := Leaves.note showProgress .cleared (m.after before [])
      refine ⟨before ++ behind, ?_⟩
      simp only [run_bind, hbehind, run_pure, after_after, List.append_nil]
    | request | system => exact ⟨before, rfl⟩
  | ok body =>
    have hwrite : (writeCopy body).run (m.after before []) =
        match m.files.target m.directory m.copyPath with
        | .error e => (.error (.system e), m.after before [])
        | .ok place => (.ok m.copyPath, (m.withCopy place body).after before []) :=
      run_writeCopy body _
    simp only [run_bind, hwrite]
    cases m.files.target m.directory m.copyPath with
    | error e => exact ⟨before, rfl⟩
    | ok place =>
      obtain ⟨behind, hbehind⟩ := Leaves.note showProgress
        (.ended s!"Downloaded {body.length} bytes") ((m.withCopy place body).after before [])
      rw [after_after, List.append_nil] at hbehind
      exact ⟨before ++ behind, by simp only [run_bind, hbehind, run_pure]⟩

/-- An address is resolved to the path of its copy. -/
theorem run_resolve_address (sink : Sink) (h : isAddress script = true) (showProgress : Bool)
    (m : Machine) : ∃ events, (resolve sink script showProgress).run m =
      match m.copyOf script with
      | .error e => (.error e, m.after events [])
      | .ok (place, body) =>
        (.ok ⟨m.copyPath, some script⟩, (m.withCopy place body).after events []) := by
  obtain ⟨before, hbefore⟩ := Leaves.say sink .info s!"Downloading script from {script}" m
  obtain ⟨noted, hfetch⟩ := run_fetch script showProgress (m.after before [])
  rw [copyOf_after] at hfetch
  simp only [resolve, h, if_true, run_bind, hbefore, hfetch]
  cases m.copyOf script with
  | error e => exact ⟨before ++ noted, by rw [after_after]; rfl⟩
  | ok copy =>
    obtain ⟨place, body⟩ := copy
    obtain ⟨behind, hbehind⟩ := Leaves.say sink .verbose s!"Saved remote script to {m.copyPath}"
      ((m.withCopy place body).after (before ++ noted) [])
    rw [after_after, List.append_nil] at hbehind
    exact ⟨before ++ noted ++ behind, by
      simp only [withCopy_after, after_after, List.append_nil, after_copyPath, run_bind, hbehind,
        run_pure]⟩

/-- A copy is a new file at its path. -/
theorem locate_withCopy (hfresh : m.HasFreshCopyPath) (h : m.copyOf script = .ok (place, body)) :
    (m.withCopy place body).files.locate m.directory m.copyPath =
      .ok (place, .file body .new) := by
  have hnone := hfresh place (target_of_copyOf h)
  rw [withCopy, FileSystem.put, FileSystem.modeAt_of_none hnone]
  exact FileSystem.locate_set_of_target (target_of_copyOf h) hnone

private theorem read_withCopy (hfresh : m.HasFreshCopyPath)
    (h : m.copyOf script = .ok (place, body)) :
    (m.withCopy place body).files.read m.directory m.copyPath = .ok body :=
  FileSystem.read_eq_ok_iff.2 ⟨place, .new, locate_withCopy hfresh h, rfl⟩

/-- A copy has the text that was fetched. -/
theorem textAt_withCopy (hfresh : m.HasFreshCopyPath)
    (h : m.copyOf script = .ok (place, Text.encode text)) :
    (m.withCopy place (Text.encode text)).textAt m.copyPath = .ok text :=
  textAt_eq_ok_iff.2 ⟨_, read_withCopy hfresh h, Text.decode_encode text⟩

/-- A copy has no text if none was fetched. -/
theorem textAt_withCopy_notText (hfresh : m.HasFreshCopyPath)
    (h : m.copyOf script = .ok (place, body)) (hbody : ∀ text, body ≠ Text.encode text) :
    (m.withCopy place body).textAt m.copyPath = .error .notText := by
  rw [textAt, show (m.withCopy place body).files.read (m.withCopy place body).directory m.copyPath =
    .ok body from read_withCopy hfresh h]
  cases hdecode : Text.decode body with
  | error e => simp only [hdecode]
  | ok text => exact absurd (Text.decode_eq_ok_iff.1 hdecode) (hbody text)

end Machine

namespace Command

/-! ## What an addition does with a copy -/

/-- Without a copy nothing is added. -/
theorem run_add_refused (console : Console) (settings : Settings) {e : FetchError}
    (haddress : isAddress script = true) (h : m.copyOf script = .error e) :
    ∃ events, (ExceptT.run (add console settings script)).run m =
      (.error (.fetch script e), m.after events []) := by
  obtain ⟨events, hresolve⟩ := run_resolve_address console haddress console.verbose m
  rw [h] at hresolve
  refine ⟨events, ?_⟩
  rw [add, keep, run_bind_eq, run_bind_eq, findScript, run_attempt_eq, hresolve]

/-- A copy that was fetched is kept. -/
theorem run_keep_copied (console : Console) (haddress : isAddress script = true)
    (hfresh : m.HasFreshCopyPath) (h : m.copyOf script = .ok (place, body)) :
    ∃ events, (ExceptT.run (keep console script)).run m =
      (.ok ⟨m.copyPath, some script⟩, (m.withCopy place body).after events []) := by
  obtain ⟨events, hresolve⟩ := run_resolve_address console haddress console.verbose m
  rw [h] at hresolve
  have hexists : (m.withCopy place body).files.exists? m.directory m.copyPath = true := by
    rw [FileSystem.exists?, locate_withCopy hfresh h]
    rfl
  have hcheck : Leaves (checkExists m.copyPath) ((m.withCopy place body).after events [])
      (.ok ()) [] :=
    .of_run (by
      rw [run_checkExists, after_nil, after_files, after_directory]
      exact Prod.ext (if_pos hexists) rfl)
  have hends {x : Attempt Source} (hx : Ends x ((m.withCopy place body).after events [])
      (.ok ⟨m.copyPath, some script⟩) []) : ∃ events', (ExceptT.run x).run
        ((m.withCopy place body).after events []) =
      (.ok ⟨m.copyPath, some script⟩, (m.withCopy place body).after events' []) := by
    obtain ⟨events', hrun⟩ := hx
    exact ⟨events ++ events', hrun.trans (by rw [after_after]; rfl)⟩
  rw [keep, run_bind_eq, findScript, run_attempt_eq, hresolve]
  exact hends ((Ends.lift hcheck).quiet_bind fun _ => .pure _ _)

/-- An addition goes on with the copy. -/
theorem run_add_copied (console : Console) (settings : Settings)
    (haddress : isAddress script = true) (hfresh : m.HasFreshCopyPath)
    (h : m.copyOf script = .ok (place, body)) :
    ∃ events, (ExceptT.run (add console settings script)).run m =
      (ExceptT.run (addTo console settings ⟨m.copyPath, some script⟩)).run
        ((m.withCopy place body).after events []) := by
  obtain ⟨events, hkeep⟩ := run_keep_copied console haddress hfresh h
  refine ⟨events, ?_⟩
  rw [add, run_bind_eq, hkeep]

/-- A copy can be written, and what is written is the one change to what there was before it. -/
theorem exists_files_copy (hfresh : m.HasFreshCopyPath)
    (h : m.copyOf script = .ok (place, Text.encode text)) (new : List Char) :
    ∃ files,
      (if new = text then .ok (m.withCopy place (Text.encode text)).files
        else (m.withCopy place (Text.encode text)).files.write m.directory m.copyPath
          (Text.encode new)) = .ok files ∧
      m.files.Replaced files place (Text.encode new) := by
  have htarget := target_of_copyOf h
  have hne : place ≠ [] := FileSystem.target_ne_nil htarget
  have hcopied : m.files.Replaced (m.withCopy place (Text.encode text)).files place
      (Text.encode text) := FileSystem.replaced_put hne
  by_cases hsame : new = text
  · exact ⟨_, if_pos hsame, hsame ▸ hcopied⟩
  · rw [if_neg hsame, FileSystem.write, withCopy,
      FileSystem.target_put_of_target htarget (hfresh place htarget)]
    exact ⟨_, rfl, hcopied.trans (FileSystem.replaced_put hne)⟩

/-- What goes on behind a copy and ends without touching files leaves the copy as it was fetched. -/
theorem exists_run_add {result : Except Failure Nat} (haddress : isAddress script = true)
    (hfresh : m.HasFreshCopyPath) (h : m.copyOf script = .ok (place, body))
    (hends : ∀ events, Ends (addTo console settings ⟨m.copyPath, some script⟩)
      ((m.withCopy place body).after events []) result calls) :
    ∃ m', (ExceptT.run (add console settings script)).run m = (result, m') ∧
      m.files.Replaced m'.files place body := by
  obtain ⟨events, hadd⟩ := run_add_copied console settings haddress hfresh h
  obtain ⟨events', hrun⟩ := hends events
  exact ⟨_, hadd.trans hrun,
    FileSystem.replaced_put (FileSystem.target_ne_nil (target_of_copyOf h))⟩

/-- A copy with a text, and an interpreter that names its modules, end with the block in the
copy. -/
theorem exists_run_add_written (haddress : isAddress script = true) (hfresh : m.HasFreshCopyPath)
    (h : m.copyOf script = .ok (place, Text.encode text))
    (hu : (m.withCopy place (Text.encode text)).modulesOf settings.interpreter = .ok u) :
    ∃ m', (ExceptT.run (add console settings script)).run m = (.ok 0, m') ∧
      m.files.Replaced m'.files place (Text.encode (updated u settings.pythonVersion text)) := by
  obtain ⟨events, hadd⟩ := run_add_copied console settings haddress hfresh h
  obtain ⟨events', hleads⟩ : LeadsTo (addTo console settings ⟨m.copyPath, some script⟩)
      ((m.withCopy place (Text.encode text)).after events []) _ _ :=
    leadsTo_addTo _ (textAt_withCopy hfresh h) hu
  obtain ⟨files, hfiles, hreplaced⟩ :=
    exists_files_copy hfresh h (updated u settings.pythonVersion text)
  rw [after_after] at hleads
  obtain ⟨_, hwrite⟩ := run_writeBlock_eq console settings ⟨m.copyPath, some script⟩
    (m := (m.withCopy place (Text.encode text)).after (events ++ events') _) hfiles
  exact ⟨_, hadd.trans (hleads.trans hwrite), hreplaced⟩

end Command

/-! ## Additions to remote scripts -/

/-- What an addition to a remote script comes to, by what is fetched and by what the interpreter
that is to be asked does where the copy is. -/
structure RemoteAddition (settings : Settings) (script : String) (m : Machine)
    (result : Except Failure Nat) (m' : Machine) : Prop where
  /-- Without a copy it fails, and every file is as it was. -/
  refused : ∀ e, m.copyOf script = .error e →
    result = .error (.fetch script e) ∧ m'.files = m.files
  /-- A copy that is no text stays as it was fetched. -/
  notText : ∀ place body, m.copyOf script = .ok (place, body) → (∀ text, body ≠ Text.encode text) →
    result = .error (.read m.copyPath .notText) ∧ m.files.Replaced m'.files place body
  /-- So does one whose interpreter names no modules. -/
  unknown : ∀ place text e, m.copyOf script = .ok (place, Text.encode text) →
    (m.withCopy place (Text.encode text)).modulesOf settings.interpreter = .error e →
      result = .error (.probe e) ∧ m.files.Replaced m'.files place (Text.encode text)
  /-- Any other copy gets the block for what its text needs. -/
  added : ∀ place text u, m.copyOf script = .ok (place, Text.encode text) →
    (m.withCopy place (Text.encode text)).modulesOf settings.interpreter = .ok u →
      result = .ok 0 ∧ m.files.Replaced m'.files place (Text.encode (Block.reconcile text
        (Block.generate (Analysis.ofSource u text).1.dependencies settings.pythonVersion)))

/-- What is promised of an addition to a remote script. -/
structure Clean (settings : Settings) (script : String) (m : Machine)
    (result : Except Failure Nat) (m' : Machine) : Prop where
  /-- Behind a failure every file is as it was. -/
  failed : ∀ e, result = .error e → ∀ other, m'.files.find? other = m.files.find? other
  /-- Behind a success there is one more, the copy with the block for what its text needs. -/
  added : ∀ code, result = .ok code → ∃ place text u,
    m.copyOf script = .ok (place, Text.encode text) ∧
    (m.withCopy place (Text.encode text)).modulesOf settings.interpreter = .ok u ∧
    m.files.find? place = none ∧
    m.files.Replaced m'.files place (Text.encode (Block.reconcile text
      (Block.generate (Analysis.ofSource u text).1.dependencies settings.pythonVersion)))

/-- There is a copy that gets no block: it is no text, or the interpreter names no modules. -/
def Stranded (settings : Settings) (script : String) (m : Machine) : Prop :=
  ∃ place body, m.copyOf script = .ok (place, body) ∧ ∀ text, body = Text.encode text →
    ∃ e, (m.withCopy place body).modulesOf settings.interpreter = .error e

/-- Every addition to a remote script comes to one of the four. -/
theorem remoteAddition_add (haddress : isAddress script = true) (hfresh : m.HasFreshCopyPath)
    {result : Except Failure Nat} {m' : Machine}
    (h : (ExceptT.run (Command.add console settings script)).run m = (result, m')) :
    RemoteAddition settings script m result m' where
  refused e he := by
    obtain ⟨events, hrun⟩ := Command.run_add_refused console settings haddress he
    obtain ⟨rfl, rfl⟩ := Prod.mk.inj (hrun.symm.trans h)
    exact ⟨rfl, rfl⟩
  notText place body hcopy hbody := by
    obtain ⟨_, hrun, hreplaced⟩ := Command.exists_run_add haddress hfresh hcopy fun _ =>
      Command.ends_addTo_unread (textAt_withCopy_notText hfresh hcopy hbody)
    obtain ⟨rfl, rfl⟩ := Prod.mk.inj (hrun.symm.trans h)
    exact ⟨rfl, hreplaced⟩
  unknown place text e hcopy he := by
    obtain ⟨_, hrun, hreplaced⟩ := Command.exists_run_add haddress hfresh hcopy fun _ =>
      Command.ends_addTo_unknown (textAt_withCopy hfresh hcopy) he
    obtain ⟨rfl, rfl⟩ := Prod.mk.inj (hrun.symm.trans h)
    exact ⟨rfl, hreplaced⟩
  added place text u hcopy hu := by
    obtain ⟨_, hrun, hreplaced⟩ := Command.exists_run_add_written haddress hfresh hcopy hu
    obtain ⟨rfl, rfl⟩ := Prod.mk.inj (hrun.symm.trans h)
    exact ⟨rfl, hreplaced⟩

variable {result : Except Failure Nat} {m' : Machine}

/-- A stranded copy stays behind a failure. -/
theorem RemoteAddition.of_stranded (h : RemoteAddition settings script m result m')
    (hstranded : Stranded settings script m) :
    ∃ place body e, m.copyOf script = .ok (place, body) ∧ result = .error e ∧
      m.files.Replaced m'.files place body := by
  obtain ⟨place, body, hcopy, hno⟩ := hstranded
  by_cases hbody : ∃ text, body = Text.encode text
  · obtain ⟨text, rfl⟩ := hbody
    obtain ⟨e, he⟩ := hno text rfl
    exact ⟨place, _, _, hcopy, h.unknown place text e hcopy he⟩
  · exact ⟨place, body, _, hcopy, h.notText place body hcopy (not_exists.1 hbody)⟩

/-- An addition that strands no copy is clean. -/
theorem RemoteAddition.clean (hfresh : m.HasFreshCopyPath)
    (h : RemoteAddition settings script m result m') (hnot : ¬Stranded settings script m) :
    Clean settings script m result m' := by
  cases hcopy : m.copyOf script with
  | error e =>
    obtain ⟨rfl, hfiles⟩ := h.refused e hcopy
    exact ⟨fun _ _ _ => by rw [hfiles], nofun⟩
  | ok copy =>
    obtain ⟨place, body⟩ := copy
    have hsome : ∃ text, body = Text.encode text ∧
        ∀ e, (m.withCopy place body).modulesOf settings.interpreter ≠ .error e := by
      by_contra hno
      refine hnot ⟨place, body, hcopy, fun text htext => ?_⟩
      by_contra hmodules
      exact hno ⟨text, htext, not_exists.1 hmodules⟩
    obtain ⟨text, rfl, hmodules⟩ := hsome
    cases hu : (m.withCopy place (Text.encode text)).modulesOf settings.interpreter with
    | error e => exact absurd hu (hmodules e)
    | ok u =>
      obtain ⟨rfl, hreplaced⟩ := h.added place text u hcopy hu
      exact ⟨nofun, fun _ _ =>
        ⟨place, text, u, hcopy, hu, hfresh place (target_of_copyOf hcopy), hreplaced⟩⟩

/-- What an addition to a remote script comes to, and that it is clean exactly if it strands no
copy. -/
theorem clean_add_iff (haddress : isAddress script = true) (hfresh : m.HasFreshCopyPath)
    (h : (ExceptT.run (Command.add console settings script)).run m = (result, m')) :
    RemoteAddition settings script m result m' ∧
      (Clean settings script m result m' ↔ ¬Stranded settings script m) := by
  have hall := remoteAddition_add haddress hfresh h
  refine ⟨hall, fun hclean hstranded => ?_, hall.clean hfresh⟩
  obtain ⟨place, body, e, hcopy, rfl, hreplaced⟩ := hall.of_stranded hstranded
  have hnone := hfresh place (target_of_copyOf hcopy)
  rw [← hclean.failed e rfl place, hreplaced.written] at hnone
  cases hnone

/-- A machine without files on which every address is answered with the same bytes. -/
def servingHost (body : List UInt8) : Machine where
  files := ⟨[]⟩
  directory := []
  searchPath := []
  network := fun _ => .ok ⟨200, body⟩
  copyPath := "copy.py"
  clock := ""
  events := []
  calls := []

/-- An addition to a remote script that is no text fails, and what was fetched stays behind. -/
theorem clean_add_iff_notText :
    let m := servingHost [0xFF]
    isAddress "http://h/s.py" = true ∧ m.HasFreshCopyPath ∧
      ∃ m', (ExceptT.run (Command.add ⟨false, false⟩ .default "http://h/s.py")).run m =
          (.error (.read "copy.py" .notText), m') ∧
        m.files.Replaced m'.files ["copy.py"] [0xFF] ∧
        ¬Clean .default "http://h/s.py" m (.error (.read "copy.py" .notText)) m' := by
  intro m
  have haddress : isAddress "http://h/s.py" = true := by decide
  have hfresh : m.HasFreshCopyPath := fun place htarget => by
    rw [FileSystem.find?, if_neg (FileSystem.target_ne_nil htarget)]
    rfl
  have hcopy : m.copyOf "http://h/s.py" = .ok (["copy.py"], [0xFF]) := by decide +kernel
  have hbody : ∀ text, [0xFF] ≠ Text.encode text := fun text htext => by
    cases Text.decode_eq_ok_iff.2 htext
  rcases hrun : (ExceptT.run (Command.add ⟨false, false⟩ .default "http://h/s.py")).run m with
    ⟨result, m'⟩
  obtain ⟨hall, hclean⟩ := clean_add_iff haddress hfresh hrun
  obtain ⟨rfl, hreplaced⟩ := hall.notText _ _ hcopy hbody
  exact ⟨haddress, hfresh, m', rfl, hreplaced,
    hclean.not_left.2 ⟨_, _, hcopy, fun text htext => absurd htext (hbody text)⟩⟩

end ScriptDeps
