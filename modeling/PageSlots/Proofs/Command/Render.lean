import PageSlots.Proofs.Command.Destinations
import PageSlots.Proofs.Page.Agreement

/-!
# What a run leaves behind

Pages are written in turns. A turn can only be taken if the page can be
read and processed in the workspace that the turns before have left, and
its file can be written (`Turn`); a run takes turns until there is no page
left, or until one cannot be taken (`writeAssigned_cases`). What it leaves
behind is told from the turns alone: a turn changes one place, so the
places of all other files are as they were (`Turns.get?_eq`).

That a page is still in its file at the end needs that no later turn
writes to the same place. The destinations are different as paths, and
`locate_ne_of_distinct` makes them different places. It speaks of one
workspace, the destinations are located in many; but turns neither add nor
take away a directory, so each of them is where it was before the first
turn (`Turns.widens`).

Everything else a run does leaves the files alone: loading the settings,
finding two pages with one file, and rendering a page to the output.
-/

namespace PageSlots.Command

open PageSlots.Files PageSlots.Page PageSlots.Settings

variable {w w' w'' created : Workspace} {p : Processor} {s : RenderState} {settings : Settings}
  {dir file page : String} {files pages : List String} {l : Location} {fault : RenderFault}
  {env : Environment} {args : List String} {r : RenderRequest}

/-! ## Telling -/

/-- The state is looked at without changing it. -/
theorem get_bind {α : Type} (f : RenderState → RenderM α) (s : RenderState) :
    ((get : RenderM RenderState) >>= f) s = f s s :=
  rfl

theorem tellLog_eq (log : Log) (s : RenderState) :
    tellLog log s = .ok () { s with messages := s.messages ++ log.map .entry } := by
  unfold tellLog
  induction log generalizing s with
  | nil =>
    rw [List.map_nil, List.append_nil]
    rfl
  | cons e log ih =>
    have hsay : say (.entry e) s = .ok () (s.add (.entry e)) := rfl
    rw [List.forM, bind_of_ok hsay, ih, List.map_cons, RenderState.add, List.append_assoc,
      List.singleton_append]

/-! ## Pages -/

/-- **A page that a file renders to**: the file can be read, and what it
says can be processed. -/
def Renders (p : Processor) (w : Workspace) (file page : String) : Prop :=
  ∃ content, w.readText file = .ok content ∧ (p.process file content).page = .ok page

theorem Renders.unique {page' : String} (h : Renders p w file page) (h' : Renders p w file page') :
    page = page' := by
  obtain ⟨content, hread, hpage⟩ := h
  obtain ⟨content', hread', hpage'⟩ := h'
  obtain rfl := Except.ok.inj (hread.symm.trans hread')
  exact Except.ok.inj (hpage.symm.trans hpage')

theorem readPage_of_ok {content : String} (h : s.workspace.readText file = .ok content) :
    readPage file s = .ok content s := by
  unfold readPage
  rw [get_bind, h]
  rfl

theorem readPage_of_error {fault : FileFault} (h : s.workspace.readText file = .error fault) :
    readPage file s = .error (.unreadable file fault) s := by
  unfold readPage
  rw [get_bind, h]
  rfl

/-- **A page is processed or it is not**, and only messages are left
behind. -/
theorem processPage_cases (p : Processor) (file : String) (s : RenderState) :
    ∃ messages, (∃ page, Renders p s.workspace file page
        ∧ processPage p file s = .ok page { s with messages })
      ∨ (∀ page, ¬ Renders p s.workspace file page)
        ∧ ∃ fault, processPage p file s = .error fault { s with messages } := by
  unfold processPage
  cases hread : s.workspace.readText file with
  | error fault =>
    refine ⟨s.messages, .inr ⟨fun page ⟨content, hcontent, _⟩ => ?_, .unreadable file fault,
      bind_of_error (readPage_of_error hread) _⟩⟩
    cases hread.symm.trans hcontent
  | ok content =>
    refine ⟨s.messages ++ (p.process file content).log.map .entry, ?_⟩
    rw [bind_of_ok (readPage_of_ok hread), bind_of_ok (tellLog_eq _ s)]
    cases hpage : (p.process file content).page with
    | ok page => exact .inl ⟨page, ⟨content, hread, hpage⟩, rfl⟩
    | error fault =>
      refine .inr ⟨fun page ⟨content', hcontent, hpage'⟩ => ?_, .page file fault, rfl⟩
      obtain rfl := Except.ok.inj (hread.symm.trans hcontent)
      cases hpage.symm.trans hpage'

/-! ## Turns -/

/-- **A page gets its file** in a directory. -/
structure Turn (p : Processor) (dir file page : String) (w w' : Workspace) : Prop where
  renders : Renders p w file page
  written : w.writeText (destination dir file) (page ++ "\n") = .ok w'

/-- **Pages get their files, one after the other**: each is read and
processed in the workspace that the turn before has left. -/
inductive Turns (p : Processor) (dir : String) :
    Workspace → List String → List String → Workspace → Prop
  | nil (w : Workspace) : Turns p dir w [] [] w
  | cons {w w' w'' : Workspace} {file page : String} {files pages : List String} :
      Turn p dir file page w w' → Turns p dir w' files pages w'' →
      Turns p dir w (file :: files) (page :: pages) w''

/-- **A turn is taken or it is not**, and then the files are as they
were. -/
theorem writePage_cases (p : Processor) (dir file : String) (s : RenderState) :
    ∃ messages, (∃ page w', Turn p dir file page s.workspace w'
        ∧ writePage p file (destination dir file) s = .ok () { s with workspace := w', messages })
      ∨ (∀ page w', ¬ Turn p dir file page s.workspace w')
        ∧ ∃ fault,
          writePage p file (destination dir file) s = .error fault { s with messages } := by
  unfold writePage
  obtain ⟨messages, ⟨page, hpage, hstep⟩ | ⟨hpage, fault, hstep⟩⟩ := processPage_cases p file s
  · rw [bind_of_ok hstep, get_bind]
    dsimp only
    cases hwrite : s.workspace.writeText (destination dir file) (page ++ "\n") with
    | ok w' =>
      dsimp only
      exact ⟨_, .inl ⟨page, w', ⟨hpage, hwrite⟩, rfl⟩⟩
    | error fault =>
      refine ⟨messages, .inr ⟨fun page' w' hturn => ?_, .unwritable _ fault, rfl⟩⟩
      obtain rfl := hpage.unique hturn.renders
      cases hwrite.symm.trans hturn.written
  · exact ⟨messages, .inr ⟨fun page w' hturn => hpage page hturn.renders, fault,
      bind_of_error hstep _⟩⟩

/-- The step that writes pages to the files they get. -/
def writeAssigned (p : Processor) (dir : String) (files : List String) : RenderM Unit :=
  (files.map (assigned dir)).forM fun (file, target) => writePage p file target

theorem writeAssigned_cons (p : Processor) (dir file : String) (files : List String) :
    writeAssigned p dir (file :: files)
      = (writePage p file (destination dir file) >>= fun _ => writeAssigned p dir files) := by
  rw [writeAssigned, List.map_cons, List.forM]
  rfl

/-- **Turns are taken until one cannot be.** -/
theorem writeAssigned_cases (p : Processor) (dir : String) (files : List String) (s : RenderState) :
    ∃ before rest pages w' messages, files = before ++ rest
      ∧ Turns p dir s.workspace before pages w'
      ∧ (∀ file ∈ rest.head?, ∀ page w'', ¬ Turn p dir file page w' w'')
      ∧ (rest = [] ∧ writeAssigned p dir files s = .ok () { s with workspace := w', messages }
        ∨ rest ≠ [] ∧ ∃ fault,
          writeAssigned p dir files s = .error fault { s with workspace := w', messages }) := by
  induction files generalizing s with
  | nil => exact ⟨[], [], [], s.workspace, s.messages, rfl, .nil _, nofun, .inl ⟨rfl, rfl⟩⟩
  | cons file files ih =>
    rw [writeAssigned_cons]
    obtain ⟨messages, ⟨page, w', hturn, hstep⟩ | ⟨hturn, fault, hstep⟩⟩ :=
      writePage_cases p dir file s
    · obtain ⟨before, rest, pages, w'', messages', rfl, hturns, hstop, hrest⟩ :=
        ih { s with workspace := w', messages }
      refine ⟨file :: before, rest, page :: pages, w'', messages', rfl, .cons hturn hturns,
        hstop, ?_⟩
      rw [bind_of_ok hstep]
      exact hrest
    · refine ⟨[], file :: files, [], s.workspace, messages, rfl, .nil _, ?_,
        .inr ⟨List.cons_ne_nil file files, fault, bind_of_error hstep _⟩⟩
      rintro file' ⟨⟩
      exact hturn

/-! ## What turns change -/

theorem Turn.widens (h : Turn p dir file page w w') :
    Workspace.Widens w w' ∧ Workspace.Widens w' w := by
  obtain ⟨l, -, hdir, rfl⟩ := Workspace.exists_of_writeText h.written
  exact Workspace.widens_put_file hdir _

/-- **Turns neither add nor take away a directory.** -/
theorem Turns.widens (h : Turns p dir w files pages w') :
    Workspace.Widens w w' ∧ Workspace.Widens w' w := by
  induction h with
  | nil w => exact ⟨.refl w, .refl w⟩
  | cons hturn _ ih => exact ⟨hturn.widens.1.trans ih.1, ih.2.trans hturn.widens.2⟩

/-- **A turn changes the place of its file**, and no other. -/
theorem Turn.get?_eq (h : Turn p dir file page w w')
    (hl : w.locate (destination dir file) ≠ .ok l) : w'.tree.get? l = w.tree.get? l := by
  obtain ⟨m, hm, -, rfl⟩ := Workspace.exists_of_writeText h.written
  have hlm : l ≠ m := fun he => hl (he ▸ hm)
  rw [FileTree.get?_put, if_neg hlm]
  split
  · rename_i hroot
    rw [hroot]
    rfl
  · rfl

/-- **Turns change the places of their files**, and no others. -/
theorem Turns.get?_eq (h : Turns p dir w files pages w')
    (hl : ∀ file ∈ files, w.locate (destination dir file) ≠ .ok l) :
    w'.tree.get? l = w.tree.get? l := by
  induction h with
  | nil w => rfl
  | cons hturn _ ih =>
    refine (ih fun file hfile hlocate => ?_).trans (hturn.get?_eq (hl _ List.mem_cons_self))
    exact hl file (List.mem_cons_of_mem _ hfile) (hturn.widens.2.locate hlocate)

/-- **What a page that gets its file needs**: the page has a name, and its
file stands outside of directories. -/
theorem Turn.located (hw : w.Sound) (h : Turn p dir file page w w') :
    ∃ l name, fileName? file = some name ∧ w.locate (destination dir file) = .ok l
      ∧ w.tree.get? l ≠ some .directory ∧ w'.tree.get? l = some (.file (page ++ "\n").toUTF8) := by
  obtain ⟨content, hread, -⟩ := h.renders
  obtain ⟨name, hname⟩ := hw.exists_fileName_of_readText hread
  obtain ⟨l, hl, hdir, rfl⟩ := Workspace.exists_of_writeText h.written
  refine ⟨l, name, hname, hl, hdir, ?_⟩
  rw [FileTree.get?_put, if_neg (Workspace.ne_nil_of_get? hdir), if_pos rfl]

theorem Turns.located (hw : w.Sound) (h : Turns p dir w files pages w') (hfile : file ∈ files) :
    ∃ l name, fileName? file = some name ∧ w.locate (destination dir file) = .ok l
      ∧ w.tree.get? l ≠ some .directory := by
  induction h with
  | nil w => exact absurd hfile List.not_mem_nil
  | cons hturn _ ih =>
    rcases List.mem_cons.1 hfile with rfl | hfile
    · obtain ⟨l, name, hname, hl, hdir, -⟩ := hturn.located hw
      exact ⟨l, name, hname, hl, hdir⟩
    · obtain ⟨l, name, hname, hl, hdir⟩ := ih (hw.of_writeText hturn.written) hfile
      exact ⟨l, name, hname, hturn.widens.2.locate hl,
        fun hd => hdir (hturn.widens.1.directory l hd)⟩

/-- **Every page is in its file** when the turns are over, if no two of
them get the same. -/
theorem Turns.find?_eq (hw : w.Sound) (hdistinct : Distinct dir files)
    (h : Turns p dir w files pages w') : List.Forall₂ (fun file page =>
      w'.find? (destination dir file) = some (.file (page ++ "\n").toUTF8)) files pages := by
  induction h with
  | nil w => exact .nil
  | cons hturn hturns ih =>
    obtain ⟨hhead, htail⟩ := List.pairwise_cons.1 hdistinct
    have hw' := hw.of_writeText hturn.written
    refine .cons ?_ (ih hw' htail)
    obtain ⟨l, name, hname, hl, hdir, hfile⟩ := hturn.located hw
    -- no later page has its file there
    have hkept := hturns.get?_eq (l := l) fun other hother hlocate => by
      obtain ⟨m, name', hname', hm, hmdir⟩ := hturns.located hw' hother
      obtain rfl := Except.ok.inj (hlocate.symm.trans hm)
      refine locate_ne_of_distinct hw hname hname' (hhead other hother) hl hdir
        (hturn.widens.2.locate hlocate) hdir rfl
    unfold Workspace.find?
    rw [(hturn.widens.1.trans hturns.widens.1).locate hl]
    exact hkept.trans hfile

/-! ## What a run leaves behind -/

/-- What the command line says in place of the settings. -/
def overridesOf (r : RenderRequest) : Overrides :=
  { outputDir := r.outDir, gfm := if r.noGfm then some false else none }

/-- **A page alone is rendered to the output**, and the files are as they
were. -/
structure Printed (p : Processor) (file : String) (w : Workspace) (o : Outcome) : Prop where
  workspace_eq : o.workspace = w
  of_renders : ∀ page, Renders p w file page → o.output = page ++ "\n" ∧ o.status.code = 0
  of_not_renders : (∀ page, ¬ Renders p w file page) → o.output = "" ∧ o.status.code = 1

/-- **Two pages would get the same file**: that is the fault, and the files
are as they were. -/
structure Rejected (dir : String) (files : List String) (w : Workspace) (o : Outcome) : Prop where
  workspace_eq : o.workspace = w
  code_eq : o.status.code = 1
  told : ∃ first second, Collide dir files first second
    ∧ o.messages.getLast? = some (.line ("error: "
      ++ (RenderFault.collision (destination dir second) first second).message))

/-- **Pages are written until one cannot be**, in a workspace where the
directory for pages has been created. The pages before that one are in
their files. -/
structure WrittenUntil (p : Processor) (dir : String) (w created : Workspace)
    (before rest pages : List String) (o : Outcome) : Prop where
  /-- Each page comes from what its file said when its turn came. -/
  turns : Turns p dir created before pages o.workspace
  /-- The next page cannot be read, processed or written. -/
  stop : ∀ file ∈ rest.head?, ∀ page w', ¬ Turn p dir file page o.workspace w'
  /-- Each page is in its file at the end. -/
  found : List.Forall₂ (fun file page =>
    o.workspace.find? (destination dir file) = some (.file (page ++ "\n").toUTF8)) before pages
  /-- Only the files of these pages have changed, and directories on the
  way to the one for pages, where nothing was before. -/
  changed : ∀ l, o.workspace.tree.get? l = w.tree.get? l
    ∨ (∃ file ∈ before, o.workspace.locate (destination dir file) = .ok l)
    ∨ (w.tree.get? l = none ∧ o.workspace.tree.get? l = some .directory
      ∧ ∃ path ∈ ancestors dir, o.workspace.locate path = .ok l)
  /-- The directory for pages is there. -/
  there : dir ≠ "" → o.workspace.isDirectory dir = true
  cwd_eq : o.workspace.cwd = w.cwd
  code_eq_zero_iff : o.status.code = 0 ↔ rest = []

theorem run_of_ok (hargs : requestOf? args = some (.render r))
    (h : renderPages env r { workspace := w } = .ok () s) :
    run w env args = s.outcome (filterOf env r.verbose) .success := by
  unfold run
  rw [hargs]
  dsimp only
  rw [h]

theorem run_of_error (hargs : requestOf? args = some (.render r))
    (h : renderPages env r { workspace := w } = .error fault s) :
    run w env args = (s.add (.line ("error: " ++ fault.message))).outcome
      (filterOf env r.verbose) .failure := by
  unfold run
  rw [hargs]
  dsimp only
  rw [h]

/-- The last thing that a run tells is its fault. -/
theorem getLast?_messages_run (hargs : requestOf? args = some (.render r))
    (h : renderPages env r { workspace := w } = .error fault s) :
    (run w env args).messages.getLast? = some (.line ("error: " ++ fault.message)) := by
  rw [run_of_error hargs h]
  show ((s.messages ++ [_]).filter _).getLast? = _
  rw [List.filter_append]
  exact List.getLast?_concat

theorem loadSettings_of_error {fault : SettingsFault}
    (h : load s.workspace env r.config (overridesOf r) = .error fault) :
    loadSettings env r s = .error (.settings fault) s := by
  unfold overridesOf at h
  unfold loadSettings
  rw [get_bind]
  dsimp only
  rw [h]
  rfl

/-- Loading the settings leaves messages behind only. -/
theorem exists_of_loadSettings
    (h : load s.workspace env r.config (overridesOf r) = .ok settings) :
    ∃ messages, loadSettings env r s = .ok settings { s with messages } := by
  unfold overridesOf at h
  unfold loadSettings
  rw [get_bind]
  dsimp only
  rw [h]
  dsimp only
  rw [bind_of_ok (tellLog_eq _ s)]
  cases settings.file with
  | none => exact ⟨_, rfl⟩
  | some file => exact ⟨_, rfl⟩

/-- **A page alone, rendered to the output.** -/
theorem printed_run (hargs : requestOf? args = some (.render r))
    (hload : load w env r.config (overridesOf r) = .ok settings) (hdir : r.outDir = none)
    (hfiles : r.files = [file]) :
    Printed (processorOf settings) file w (run w env args) := by
  obtain ⟨messages, hsettings⟩ := exists_of_loadSettings (s := { workspace := w }) hload
  have hrender : renderPages env r { workspace := w }
      = printPage (processorOf settings) file { workspace := w, messages } := by
    unfold renderPages
    rw [bind_of_ok hsettings, hdir, hfiles]
  obtain ⟨messages', ⟨page, hpage, hstep⟩ | ⟨hpage, fault, hstep⟩⟩ :=
    processPage_cases (processorOf settings) file { workspace := w, messages }
  · have hrun := run_of_ok hargs (hrender.trans (bind_of_ok hstep _))
    rw [hrun]
    refine ⟨rfl, fun page' hpage' => ⟨?_, rfl⟩, fun hnone => absurd hpage (hnone page)⟩
    rw [hpage'.unique hpage]
    show "" ++ page ++ "\n" = page ++ "\n"
    rw [String.empty_append]
  · have hrun := run_of_error hargs (hrender.trans (bind_of_error hstep _))
    rw [hrun]
    exact ⟨rfl, fun page hpage' => absurd hpage' (hpage page), fun _ => ⟨rfl, rfl⟩⟩

theorem renderPages_of_dir (hload : load w env r.config (overridesOf r) = .ok settings)
    (hmode : r.outDir ≠ none ∨ r.files.length ≠ 1) :
    ∃ messages, renderPages env r { workspace := w }
      = writePages (processorOf settings) settings.outputDir r.files
        { workspace := w, messages } := by
  obtain ⟨messages, hsettings⟩ := exists_of_loadSettings (s := { workspace := w }) hload
  refine ⟨messages, ?_⟩
  unfold renderPages
  rw [bind_of_ok hsettings]
  refine congrFun ?_ _
  split
  · rename_i hnone hone
    rw [hnone, hone] at hmode
    exact absurd hmode (by simp)
  · rfl

/-- **Two pages with one file end the run** before anything is written. -/
theorem rejected_run (hargs : requestOf? args = some (.render r))
    (hload : load w env r.config (overridesOf r) = .ok settings)
    (hdistinct : ¬ Distinct settings.outputDir r.files) :
    Rejected settings.outputDir r.files w (run w env args) := by
  have hmode : r.outDir ≠ none ∨ r.files.length ≠ 1 := .inr fun hone => by
    obtain ⟨file, hfile⟩ := List.length_eq_one_iff.1 hone
    exact hdistinct (hfile ▸ List.pairwise_singleton _ file)
  obtain ⟨messages, hrender⟩ := renderPages_of_dir hload hmode
  obtain ⟨first, second, hcollide, hdest⟩ := exists_collide hdistinct
  have hfail : writePages (processorOf settings) settings.outputDir r.files
      { workspace := w, messages }
      = .error (.collision (destination settings.outputDir second) first second)
        { workspace := w, messages } := by
    unfold writePages
    rw [hdest]
    rfl
  have hrun := run_of_error hargs (hrender.trans hfail)
  exact ⟨congrArg Outcome.workspace hrun, congrArg (·.status.code) hrun, first, second, hcollide,
    getLast?_messages_run hargs (hrender.trans hfail)⟩

theorem makeOutputDir_of_none (h : s.workspace.makeDirectories dir = (none, created)) :
    makeOutputDir dir s = .ok () { s with workspace := created } := by
  unfold makeOutputDir
  rw [get_bind, h]
  rfl

/-- What turns change after the directory for pages has been created. -/
theorem Turns.changed (h : Turns p dir created files pages w')
    (hgrown : Workspace.Grown (ancestors dir) w created) (l : Location) :
    w'.tree.get? l = w.tree.get? l
    ∨ (∃ file ∈ files, w'.locate (destination dir file) = .ok l)
    ∨ (w.tree.get? l = none ∧ w'.tree.get? l = some .directory
      ∧ ∃ path ∈ ancestors dir, w'.locate path = .ok l) := by
  by_cases hl : ∃ file ∈ files, created.locate (destination dir file) = .ok l
  · obtain ⟨file, hfile, hl⟩ := hl
    exact .inr (.inl ⟨file, hfile, h.widens.1.locate hl⟩)
  · have hkept := h.get?_eq fun file hfile hlocate => hl ⟨file, hfile, hlocate⟩
    rw [hkept]
    refine (hgrown.changed l).imp_right fun ⟨hnone, hnew, path, hpath, hlocate⟩ => ?_
    exact .inr ⟨hnone, hnew, path, hpath, h.widens.1.locate hlocate⟩

/-- **Pages are written in order**, each to its own file. -/
theorem writtenUntil_run (hw : w.Sound) (hargs : requestOf? args = some (.render r))
    (hload : load w env r.config (overridesOf r) = .ok settings)
    (hmode : r.outDir ≠ none ∨ r.files.length ≠ 1)
    (hdistinct : Distinct settings.outputDir r.files)
    (hcreated : w.makeDirectories settings.outputDir = (none, created)) :
    ∃ before rest pages, r.files = before ++ rest
      ∧ WrittenUntil (processorOf settings) settings.outputDir w created before rest pages
        (run w env args) := by
  obtain ⟨messages, hrender⟩ := renderPages_of_dir hload hmode
  have hgrown : Workspace.Grown (ancestors settings.outputDir) w created := by
    have hchain := Workspace.grown_makeChain (ancestors settings.outputDir) w
    rwa [← Workspace.makeDirectories, hcreated] at hchain
  obtain ⟨before, rest, pages, w', messages', hfiles, hturns, hstop, hend⟩ :=
    writeAssigned_cases (processorOf settings) settings.outputDir r.files
      { workspace := created, messages }
  have hfound := hturns.find?_eq (hgrown.sound hw)
    (hdistinct.sublist (hfiles ▸ List.sublist_append_left before rest))
  have hthere : settings.outputDir ≠ "" → w'.isDirectory settings.outputDir = true := fun hne =>
    hturns.widens.1.isDirectory (Workspace.isDirectory_of_makeDirectories hw hne hcreated)
  have hcwd := hturns.widens.1.cwd_eq.trans hgrown.cwd_eq
  have hwrite : renderPages env r { workspace := w }
      = (writeAssigned (processorOf settings) settings.outputDir r.files >>= fun _ =>
        say (.line (toString r.files.length ++ " "
          ++ (if r.files.length = 1 then "page" else "pages") ++ " written to "
          ++ settings.outputDir))) { workspace := created, messages } := by
    rw [hrender]
    unfold writePages
    rw [(destinations_eq_ok_iff.2 ⟨hdistinct, rfl⟩ :
      destinations settings.outputDir r.files = .ok _)]
    dsimp only
    rw [pure_bind, bind_of_ok (makeOutputDir_of_none hcreated)]
    rfl
  refine ⟨before, rest, pages, hfiles, ?_⟩
  rcases hend with ⟨hrest, hstep⟩ | ⟨hrest, fault, hstep⟩
  · rw [bind_of_ok hstep] at hwrite
    rw [run_of_ok hargs hwrite]
    exact ⟨hturns, hstop, hfound, hturns.changed hgrown, hthere, hcwd, fun _ => hrest, fun _ => rfl⟩
  · rw [bind_of_error hstep] at hwrite
    rw [run_of_error hargs hwrite]
    exact ⟨hturns, hstop, hfound, hturns.changed hgrown, hthere, hcwd,
      fun hcode => absurd hcode Nat.one_ne_zero, fun hnil => absurd hnil hrest⟩

/-- **What a run leaves behind.** Nothing has changed if the settings
cannot be loaded, if two pages would get the same file, or if the page goes
to the output. Otherwise, once the directory for pages has been created,
the pages before the first one that fails are in their files, and nothing
else has changed. -/
theorem run_of_render (hw : w.Sound) (hargs : requestOf? args = some (.render r)) :
    (∀ fault, load w env r.config (overridesOf r) = .error fault →
      (run w env args).workspace = w ∧ (run w env args).status.code = 1)
    ∧ ∀ settings, load w env r.config (overridesOf r) = .ok settings →
      (¬ Distinct settings.outputDir r.files →
        Rejected settings.outputDir r.files w (run w env args))
      ∧ (∀ file, r.outDir = none → r.files = [file] →
        Printed (processorOf settings) file w (run w env args))
      ∧ (r.outDir ≠ none ∨ r.files.length ≠ 1 → Distinct settings.outputDir r.files →
        destinations settings.outputDir r.files
          = .ok (r.files.map fun file => (file, destination settings.outputDir file))
        ∧ ∀ created, w.makeDirectories settings.outputDir = (none, created) →
          ∃ before rest pages, r.files = before ++ rest
            ∧ WrittenUntil (processorOf settings) settings.outputDir w created before rest pages
              (run w env args)) := by
  refine ⟨fun fault hload => ?_, fun settings hload => ⟨rejected_run hargs hload,
    fun file hdir hfiles => printed_run hargs hload hdir hfiles,
    fun hmode hdistinct => ⟨destinations_eq_ok_iff.2 ⟨hdistinct, rfl⟩,
      fun created hcreated => writtenUntil_run hw hargs hload hmode hdistinct hcreated⟩⟩⟩
  have hfail := loadSettings_of_error (s := { workspace := w }) hload
  have hrender : renderPages env r { workspace := w }
      = .error (.settings fault) { workspace := w } := by
    unfold renderPages
    exact bind_of_error hfail _
  rw [run_of_error hargs hrender]
  exact ⟨rfl, rfl⟩

/-- Two pages, of which the second one is not there. -/
theorem run_of_render_missing :
    let w : Workspace := ⟨⟨[(["home"], .directory), (["home", "a.md"], .file "one".toUTF8)]⟩,
      ["home"]⟩
    let args := ["render", "-o", "site", "a.md", "b.md"]
    let r : RenderRequest := { files := ["a.md", "b.md"], outDir := some "site" }
    let settings := (defaults w).override (overridesOf r)
    let created := (w.makeDirectories "site").2
    w.Sound ∧ requestOf? args = some (.render r)
      ∧ load w [] none (overridesOf r) = .ok settings
      ∧ w.makeDirectories "site" = (none, created)
      ∧ ∃ page, WrittenUntil (processorOf settings) "site" w created ["a.md"] ["b.md"] [page]
        (run w [] args) := by
  intro w args r settings created
  have hsound : w.Sound :=
    ⟨FileTree.closed_of_entries (by decide +kernel), rfl⟩
  have hargs : requestOf? args = some (.render r) := by decide +kernel
  have hload : load w [] none (overridesOf r) = .ok settings := by
    have hnone : nearestFile? w = none := by decide +kernel
    unfold load ofPlace
    dsimp only
    rw [hnone]
    rfl
  have hcreated : w.makeDirectories "site" = (none, created) := by
    have hdone : (w.makeDirectories "site").1 = none := by decide +kernel
    exact Prod.ext hdone rfl
  have hdistinct : Distinct "site" r.files := by
    unfold Distinct
    decide +kernel
  refine ⟨hsound, hargs, hload, hcreated, ?_⟩
  obtain ⟨before, rest, pages, hfiles, hwritten⟩ :=
    (((run_of_render hsound hargs).2 settings hload).2.2 (.inl nofun) hdistinct).2 created hcreated
  have hcode : (run w [] args).status.code = 1 := by decide +kernel
  have hthere : (run w [] args).workspace.isThere "site/a.html" = true := by decide +kernel
  have hnew : created.isThere "site/a.html" = false := by decide +kernel
  generalize run w [] args = o at hwritten hcode hthere ⊢
  cases before with
  | nil =>
    have hturns := hwritten.turns
    generalize o.workspace = w' at hturns hthere
    cases hturns
    exact absurd (hthere.symm.trans hnew) Bool.noConfusion
  | cons file before =>
    obtain ⟨rfl, htail⟩ := List.cons.inj hfiles
    cases before with
    | nil =>
      obtain rfl : ["b.md"] = rest := htail
      obtain ⟨page, rfl⟩ := List.length_eq_one_iff.1 hwritten.found.length_eq.symm
      exact ⟨page, hwritten⟩
    | cons file before =>
      have hrest : rest = [] := (List.append_eq_nil_iff.1 (List.cons.inj htail).2.symm).2
      cases hcode.symm.trans (hwritten.code_eq_zero_iff.2 hrest)

end PageSlots.Command
