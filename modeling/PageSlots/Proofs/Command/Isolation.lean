import PageSlots.Proofs.Command.Render
import PageSlots.Proofs.Command.Stems

/-!
# Pages of one run

A run reads and writes in turns, and nothing keeps an input from standing in
the directory for pages. The one guard is that no two pages get the same
file, and it is told by names alone, before anything is read. It is enough
where a page keeps its name when it is rendered itself
(`destination_destination`): an input on which an earlier page is written
has the name of that page, so its own page would be the same file, and the
run would have been rejected (`locate_ne_of_keeps`).

So no turn changes what a later one reads (`Turn.readText_eq`), and every
page of a successful run is what its input was before the run
(`pages_of_run`). A page with a stem like `p.q` does not keep its name – it
would be rendered to `p.html` – and is written over an input without notice
(`exists_page_of_overwritten`).
-/

namespace PageSlots.Command

open PageSlots.Files PageSlots.Page PageSlots.Settings

variable {w w' w'' created : Workspace} {p : Processor} {settings : Settings}
  {dir file other page content a b name : String} {files pages : List String} {l : Location}
  {env : Environment} {args : List String} {r : RenderRequest}

/-! ## Turns of different pages -/

/-- **A page is not written on an input** that gets another page, if it keeps
its own name. -/
theorem locate_ne_of_keeps (hw : w.Sound)
    (hkeeps : destination dir (destination dir a) = destination dir a)
    (hsame : samePath (destination dir a) (destination dir b) = false)
    (hl : w.locate (destination dir a) = .ok l) (hldir : w.tree.get? l ≠ some .directory)
    (hname : fileName? b = some name) : w.locate b ≠ .ok l := by
  intro hb
  have hnamed : ∃ n, fileName? (destination dir a) = some n :=
    Option.ne_none_iff_exists'.1 fun hnone => hldir (hw.get?_of_nameless hnone hl)
  obtain ⟨n, hn⟩ := hnamed
  obtain ⟨k, rfl⟩ := Workspace.exists_of_locate_of_name hl hn
  obtain ⟨j, hj⟩ := Workspace.exists_of_locate_of_name hb hname
  have hnames : n = name := by
    have hlast := congrArg List.getLast? hj
    rwa [List.getLast?_concat, List.getLast?_concat, Option.some.injEq] at hlast
  have hpages : destination dir b = destination dir a := by
    rw [← hkeeps, destination_of_name hname, destination_of_name hn, hnames]
  rw [hpages, samePath_refl] at hsame
  exact Bool.noConfusion hsame

/-- **A turn leaves what another page is read from.** -/
theorem Turn.readText_eq (hw : w.Sound) (h : Turn p dir file page w w')
    (hkeeps : destination dir (destination dir file) = destination dir file)
    (hsame : samePath (destination dir file) (destination dir other) = false)
    (hread : w'.readText other = .ok content) : w.readText other = .ok content := by
  obtain ⟨name, hname⟩ := (hw.of_writeText h.written).exists_fileName_of_readText hread
  obtain ⟨l, bytes, hl, hfile, htext⟩ := Workspace.readText_eq_ok_iff.1 hread
  have hlocate : w.locate other = .ok l := h.widens.2.locate hl
  obtain ⟨m, -, -, hm, hmdir, -⟩ := h.located hw
  have hkept : w'.tree.get? l = w.tree.get? l := h.get?_eq fun hdest => by
    obtain rfl := Except.ok.inj (hm.symm.trans hdest)
    exact locate_ne_of_keeps hw hkeeps hsame hm hmdir hname hlocate
  exact Workspace.readText_eq_ok_iff.2 ⟨l, bytes, hlocate, hkept ▸ hfile, htext⟩

/-- **Every page is what its file renders to before the first turn.** The
induction is on the turns: what a later file says after the first of them,
it says before. -/
theorem Turns.renders (hw : w.Sound) (h : Turns p dir w files pages w')
    (hdistinct : Distinct dir files)
    (hkeeps : ∀ file ∈ files, destination dir (destination dir file) = destination dir file) :
    List.Forall₂ (Renders p w) files pages := by
  induction h with
  | nil w => exact .nil
  | @cons w w' w'' file page files pages hturn _ ih =>
    obtain ⟨hhead, htail⟩ := List.pairwise_cons.1 hdistinct
    obtain ⟨hfile, hfiles⟩ := List.forall_mem_cons.1 hkeeps
    refine .cons hturn.renders ?_
    have hrest := (List.forall₂_and_left _ _).2
      ⟨hhead, ih (hw.of_writeText hturn.written) htail hfiles⟩
    refine hrest.imp fun other page ⟨hsame, content, hread, hpage⟩ => ?_
    exact ⟨content, hturn.readText_eq hw hfile hsame hread, hpage⟩

/-- **No page is written on a later input.** -/
theorem Turns.pairwise_locate_ne (hw : w.Sound) (h : Turns p dir w files pages w')
    (hdistinct : Distinct dir files)
    (hkeeps : ∀ file ∈ files, destination dir (destination dir file) = destination dir file) :
    files.Pairwise fun earlier later => w.locate (destination dir earlier) ≠ w.locate later := by
  have hrenders := h.renders hw hdistinct hkeeps
  refine hdistinct.imp_of_mem fun {earlier later} hearlier hlater hsame he => ?_
  obtain ⟨l, -, -, hl, hldir⟩ := h.located hw hearlier
  obtain ⟨page, -, content, hread, -⟩ := Markup.Tree.exists_mem_of_forall₂ hrenders.flip hlater
  obtain ⟨name, hname⟩ := hw.exists_fileName_of_readText hread
  exact locate_ne_of_keeps hw (hkeeps earlier hearlier) hsame hl hldir hname (he.symm.trans hl)

/-! ## A successful run -/

theorem makeOutputDir_of_some {s : RenderState} {fault : FileFault}
    (h : s.workspace.makeDirectories dir = (some fault, created)) :
    makeOutputDir dir s = .error (.unwritable dir fault) { s with workspace := created } := by
  unfold makeOutputDir
  rw [get_bind, h]
  rfl

/-- **What a successful run has done**: the settings could be loaded, no two
pages got the same file, the directory could be created, and every page had
its turn. -/
theorem exists_of_code_eq_zero (hw : w.Sound) (hargs : requestOf? args = some (.render r))
    (hmode : r.outDir ≠ none ∨ r.files.length ≠ 1) (hok : (run w env args).status.code = 0) :
    ∃ settings created pages, load w env r.config (overridesOf r) = .ok settings
      ∧ Distinct settings.outputDir r.files
      ∧ w.makeDirectories settings.outputDir = (none, created)
      ∧ WrittenUntil (processorOf settings) settings.outputDir w created r.files [] pages
        (run w env args) := by
  cases hload : load w env r.config (overridesOf r) with
  | error fault =>
    have hrender : renderPages env r { workspace := w }
        = .error (.settings fault) { workspace := w } := by
      unfold renderPages
      exact bind_of_error (loadSettings_of_error (s := { workspace := w }) hload) _
    rw [run_of_error hargs hrender] at hok
    cases hok
  | ok settings =>
    have hdistinct : Distinct settings.outputDir r.files := by
      by_contra hcollide
      cases hok.symm.trans (rejected_run hargs hload hcollide).code_eq
    cases hcreated : w.makeDirectories settings.outputDir with
    | mk fault created =>
      cases fault with
      | some fault =>
        obtain ⟨messages, hrender⟩ := renderPages_of_dir hload hmode
        unfold writePages at hrender
        rw [(destinations_eq_ok_iff.2 ⟨hdistinct, rfl⟩ :
          destinations settings.outputDir r.files = .ok _)] at hrender
        dsimp only at hrender
        rw [pure_bind, bind_of_error (makeOutputDir_of_some hcreated)] at hrender
        rw [run_of_error hargs hrender] at hok
        cases hok
      | none =>
        obtain ⟨before, rest, pages, hfiles, hwritten⟩ :=
          writtenUntil_run hw hargs hload hmode hdistinct hcreated
        obtain rfl := hwritten.code_eq_zero_iff.1 hok
        rw [List.append_nil] at hfiles
        exact ⟨settings, created, pages, rfl, hdistinct, hcreated, hfiles ▸ hwritten⟩

/-- **What a file said before a run**, at the place that its path names when
the run is over. Where the path could be followed before the run already,
that is what was read there. -/
structure Said (w w' : Workspace) (file content : String) : Prop where
  held : ∃ l bytes, w'.locate file = .ok l ∧ w.tree.get? l = some (.file bytes)
    ∧ String.fromUTF8? bytes = some content
  read : ∀ l, w.locate file = .ok l → w.readText file = .ok content

/-- What is read once the directory for pages has been created was there
before. -/
theorem said_of_readText {paths : List String} (hgrown : Workspace.Grown paths w created)
    (hwidens : Workspace.Widens created w') (hread : created.readText file = .ok content) :
    Said w w' file content := by
  obtain ⟨l, bytes, hl, hfile, htext⟩ := Workspace.readText_eq_ok_iff.1 hread
  have hheld : w.tree.get? l = some (.file bytes) := by
    rcases hgrown.changed l with heq | ⟨-, hnew, -⟩
    · exact heq ▸ hfile
    · cases hnew.symm.trans hfile
  refine ⟨⟨l, bytes, hwidens.locate hl, hheld, htext⟩, fun m hm => ?_⟩
  obtain rfl := Except.ok.inj (hl.symm.trans (hgrown.widens.locate hm))
  exact Workspace.readText_eq_ok_iff.2 ⟨l, bytes, hm, hheld, htext⟩

/-- **Pages of one run do not influence each other.** If no page has a stem
with an extension of its own, each page of a successful run is what
processing gives for the content that its file had before the run, and no
page is written where a later one is read, also where inputs stand in the
directory for pages. -/
theorem pages_of_run (hw : w.Sound) (hargs : requestOf? args = some (.render r))
    (hmode : r.outDir ≠ none ∨ r.files.length ≠ 1)
    (hstems : ∀ file ∈ r.files, ∃ stem, pageStem? file = some stem ∧ fileStem? stem = some stem)
    (hok : (run w env args).status.code = 0) :
    ∃ settings, load w env r.config (overridesOf r) = .ok settings
      ∧ (∀ file ∈ r.files, ∃ content page, Said w (run w env args).workspace file content
        ∧ ((processorOf settings).process file content).page = .ok page
        ∧ (run w env args).workspace.find? (destination settings.outputDir file)
          = some (.file (page ++ "\n").toUTF8))
      ∧ r.files.Pairwise fun earlier later =>
        (run w env args).workspace.locate (destination settings.outputDir earlier)
          ≠ (run w env args).workspace.locate later := by
  obtain ⟨settings, created, pages, hload, hdistinct, hcreated, hwritten⟩ :=
    exists_of_code_eq_zero hw hargs hmode hok
  have hkeeps : ∀ file ∈ r.files, destination settings.outputDir
      (destination settings.outputDir file) = destination settings.outputDir file := by
    intro file hfile
    obtain ⟨stem, hstem, hself⟩ := hstems file hfile
    exact destination_destination hstem hself settings.outputDir
  have hgrown : Workspace.Grown (ancestors settings.outputDir) w created := by
    have hchain := Workspace.grown_makeChain (ancestors settings.outputDir) w
    rwa [← Workspace.makeDirectories, hcreated] at hchain
  have hsound := hgrown.sound hw
  have hturns := hwritten.turns
  have hrenders := hturns.renders hsound hdistinct hkeeps
  have hwidens := hturns.widens
  refine ⟨settings, hload, fun file hfile => ?_, ?_⟩
  · obtain ⟨i, hi, rfl⟩ := List.mem_iff_getElem.1 hfile
    have hi' : i < pages.length := hrenders.length_eq ▸ hi
    obtain ⟨content, hread, hpage⟩ := hrenders.get hi hi'
    exact ⟨content, pages[i], said_of_readText hgrown hwidens.1 hread, hpage,
      hwritten.found.get hi hi'⟩
  · refine (hturns.pairwise_locate_ne hsound hdistinct hkeeps).imp_of_mem ?_
    intro earlier later hearlier _ hne he
    obtain ⟨l, -, -, hl, -⟩ := hturns.located hsound hearlier
    have hlater := hwidens.2.locate (he.symm.trans (hwidens.1.locate hl))
    exact hne (hl.trans hlater.symm)

/-- A page that is read in the directory for pages, and written there, after
another one. -/
theorem pages_of_run_inside :
    let w : Workspace := ⟨⟨[(["home"], .directory), (["home", "a.html"], .file "one".toUTF8),
      (["home", "site"], .directory), (["home", "site", "b.html"], .file "two".toUTF8)]⟩, ["home"]⟩
    let args := ["render", "-o", "site", "a.html", "site/b.html"]
    let r : RenderRequest := { files := ["a.html", "site/b.html"], outDir := some "site" }
    w.Sound ∧ requestOf? args = some (.render r) ∧ r.outDir ≠ none
    ∧ (∀ file ∈ r.files, ∃ stem, pageStem? file = some stem ∧ fileStem? stem = some stem)
    ∧ (run w [] args).status.code = 0
    ∧ ∃ settings, load w [] none (overridesOf r) = .ok settings
      ∧ ∃ page, ((processorOf settings).process "site/b.html" "two").page = .ok page
        ∧ (run w [] args).workspace.find? (destination settings.outputDir "site/b.html")
          = some (.file (page ++ "\n").toUTF8) := by
  intro w args r
  have hsound : w.Sound := ⟨FileTree.closed_of_entries (by decide +kernel), rfl⟩
  have hargs : requestOf? args = some (.render r) := by decide +kernel
  have hmode : r.outDir ≠ none := nofun
  have hstems : ∀ file ∈ r.files, ∃ stem, pageStem? file = some stem
      ∧ fileStem? stem = some stem := by
    refine List.forall_mem_cons.2 ⟨⟨"a", ?_⟩, List.forall_mem_singleton.2 ⟨"b", ?_⟩⟩
    · decide +kernel
    · decide +kernel
  have hok : (run w [] args).status.code = 0 := by decide +kernel
  refine ⟨hsound, hargs, hmode, hstems, hok, ?_⟩
  obtain ⟨settings, hload, hpages, -⟩ := pages_of_run hsound hargs (.inl hmode) hstems hok
  obtain ⟨content, page, hsaid, hpage, hfound⟩ := hpages "site/b.html" (by decide)
  have hthere : w.locate "site/b.html" = .ok ["home", "site", "b.html"] := by decide +kernel
  have hread : w.readText "site/b.html" = .ok "two" := by decide +kernel
  obtain rfl := Except.ok.inj (hread.symm.trans (hsaid.read _ hthere))
  exact ⟨settings, hload, page, hpage, hfound⟩

/-- **A page can be written over an input that is read later.** The page of
`p.q.r.html` is `p.q.html`; that is the second input, whose own page is
`p.html`. So there is no collision, and the second page is what the first
one left, not what its file said. -/
theorem exists_page_of_overwritten :
    let w : Workspace := ⟨⟨[(["home"], .directory), (["home", "p.q.r.html"], .file "new".toUTF8),
      (["home", "site"], .directory), (["home", "site", "p.q.html"], .file "old".toUTF8)]⟩,
      ["home"]⟩
    let args := ["render", "-o", "site", "p.q.r.html", "site/p.q.html"]
    let r : RenderRequest := { files := ["p.q.r.html", "site/p.q.html"], outDir := some "site" }
    w.Sound ∧ requestOf? args = some (.render r) ∧ (run w [] args).status.code = 0
    ∧ w.readText "site/p.q.html" = .ok "old"
    ∧ ∃ settings, load w [] none (overridesOf r) = .ok settings
      ∧ ((processorOf settings).process "site/p.q.html" "old").page = .ok "old"
      ∧ (run w [] args).workspace.readText (destination settings.outputDir "site/p.q.html")
        = .ok "new\n" := by
  intro w args r
  have hload : load w [] none (overridesOf r) = .ok ((defaults w).override (overridesOf r)) := by
    have hnone : nearestFile? w = none := by decide +kernel
    unfold load ofPlace
    dsimp only
    rw [hnone]
    rfl
  exact ⟨⟨FileTree.closed_of_entries (by decide +kernel), rfl⟩, by decide +kernel,
    by decide +kernel, by decide +kernel, _, hload, by decide +kernel, by decide +kernel⟩

end PageSlots.Command
