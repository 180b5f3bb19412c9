import Mathlib
import ProposalReview.Proofs.Filing.Troubles
import ProposalReview.Proofs.Movement
/-!
What becomes of proposals over any number of runs.

Runs, proposals that are dropped into the inbox, and time that passes can follow each other in any order.
A run takes no file out of the inbox, the applied and the demoted directory taken together, unless moving
a proposal replaces it: the file then stood in the applied or the demoted directory, and a proposal of
the same name was moved there.
-/

namespace ProposalReview

/-- What can happen to a world: a real run, a proposal that is dropped into the inbox, time that
passes. -/
inductive Event (dirs : Directories) : World → World → Prop
  | run {s gate now w r w'} (real : s.mode = .real) (same : s.dirs = dirs)
      (ended : w.exec (Run.run s (Option.map PolicyGate.review gate) now) = (r, w')) :
      Event dirs w w'
  | drop {w n} (bytes : Bytes) (time : Instant) (valid : Name.Valid n)
      (inbox : w.tree.entry? dirs.inbox.place = some .directory)
      (free : w.tree.entry? (dirs.inbox.place ++ [n]) ≠ some .directory) :
      Event dirs w { w with tree := w.tree.put (dirs.inbox.place ++ [n]) (.file bytes time) }
  | wait {w} (time : Instant) : Event dirs w { w with now := time }

/-- What has happened to a world. -/
abbrev History (dirs : Directories) : World → World → Prop := Relation.ReflTransGen (Event dirs)

variable {dirs : Directories} {s : Settings} {gate : Option PolicyGate} {now : RunClock}
  {w w' : World} {r : Except RunError Outcome}

/-- A real run keeps trees well-formed and without links, however it ends. -/
theorem Run.run_sound (hreal : s.mode = .real) (hdirs : s.dirs.Distinct) (hw : w.tree.WellFormed)
    (hl : w.tree.LinkFree) (hrun : w.exec (run s (gate.map PolicyGate.review) now) = (r, w')) :
    w'.tree.WellFormed ∧ w'.tree.LinkFree := by
  rcases hsurvey : w.exec (survey s now) with ⟨e | files, w₁⟩
  · obtain ⟨t, hext, rfl⟩ := (survey_keeps s now).exec hsurvey
    cases hrun.symm.trans (run_of_survey_error gate hsurvey)
    exact ⟨hext.wellFormed hw, hext.linkFree hl⟩
  · obtain ⟨k, ds, hreached, -⟩ := run_reached hreal hdirs hw hl hsurvey hrun
    exact hreached.sound

theorem Event.sound (hdirs : dirs.Distinct) (h : Event dirs w w') (hw : w.tree.WellFormed)
    (hl : w.tree.LinkFree) : w'.tree.WellFormed ∧ w'.tree.LinkFree := by
  cases h with
  | run real same ended =>
    subst same
    exact Run.run_sound real hdirs hw hl ended
  | drop bytes time valid inbox free => exact ⟨hw.put inbox valid free, hl.put (by simp) (by simp)⟩
  | wait time => exact ⟨hw, hl⟩

/-- Whatever happens, the tree stays well-formed and without links. -/
theorem History.sound (hdirs : dirs.Distinct) (h : History dirs w w') (hw : w.tree.WellFormed)
    (hl : w.tree.LinkFree) : w'.tree.WellFormed ∧ w'.tree.LinkFree := by
  induction h with
  | refl => exact ⟨hw, hl⟩
  | tail _ event ih => exact event.sound hdirs ih.1 ih.2

/-! ### Files of the three directories -/

/-- Whether a file of some name and content stands in the inbox, the applied or the demoted
directory. -/
def Directories.Hold (dirs : Directories) (t : Tree) (n : Name) (e : Entry) : Prop :=
  ∃ q ∈ [dirs.inbox, dirs.applied, dirs.demoted], t.entry? (q.place ++ [n]) = some e

theorem Directories.target_mem (dirs : Directories) (a : Action) :
    dirs.target a ∈ [dirs.inbox, dirs.applied, dirs.demoted] := by
  rw [target]
  split_ifs <;> simp

/-- What was in the inbox is still in one of the three directories. -/
theorem Reached.inbox_survives {files : List ProposalFile} {ds : List Decision} {k : Nat}
    {t t' : Tree} {n : Name} {e : Entry} (h : Reached s now files ds k t t')
    (he : t.entry? (s.dirs.inbox.place ++ [n]) = some e) : s.dirs.Hold t' n e := by
  by_cases hreached : ∃ x ∈ (files.zip ds).take k, s.dirs.inbox.place ++ [n] = x.1.path.place
  · obtain ⟨x, hx, hplace⟩ := hreached
    obtain ⟨m, hm⟩ := h.assignment.assigned (List.mem_of_mem_take hx)
    have hnm : n = m := by
      rw [hm.place_path] at hplace
      exact List.singleton_injective (List.append_cancel_left hplace)
    rw [hplace] at he
    rw [← hnm] at hm
    exact ⟨_, s.dirs.target_mem _, (h.moves hx hm he).2⟩
  · rw [not_exists] at hreached
    exact ⟨_, by simp, h.keeps_inbox (fun x hx heq => hreached x ⟨hx, heq⟩) he⟩

/-- What was in a directory that files are moved to is still there, or a proposal of the same name was
moved there. -/
theorem Reached.target_survives {files : List ProposalFile} {ds : List Decision} {k : Nat}
    {t t' : Tree} {n : Name} {e : Entry} (h : Reached s now files ds k t t') {a : Action}
    (he : t.entry? ((s.dirs.target a).place ++ [n]) = some e) : s.dirs.Hold t' n e ∨
      ∃ x ∈ (files.zip ds).take k, x.1.path.baseName? = some n ∧
        (s.dirs.target x.2.action).place = (s.dirs.target a).place := by
  by_cases hreached : ∃ x ∈ (files.zip ds).take k,
      (s.dirs.target a).place ++ [n] = ((Run.filing s now).destination x.2).place
  · obtain ⟨x, hx, hplace⟩ := hreached
    obtain ⟨m, hm⟩ := h.assignment.assigned (List.mem_of_mem_take hx)
    rw [Assigned.place_destination (f := Run.filing s now) hm] at hplace
    obtain ⟨htarget, hnm⟩ := List.append_inj' hplace rfl
    refine Or.inr ⟨x, hx, ?_, htarget.symm⟩
    rw [List.singleton_injective hnm, hm.path, Path.baseName?_child hm.valid]
  · rw [not_exists] at hreached
    exact Or.inl ⟨_, s.dirs.target_mem a,
      h.keeps_target (fun x hx heq => hreached x ⟨hx, heq⟩) he⟩

/-- Whether a run moved a proposal of some name to a directory: it is one that was scanned and reviewed,
and it stands there in place of whatever stood there before. -/
def Run.Brings (s : Settings) (gate : Option PolicyGate) (now : RunClock) (w w' : World) (q : Path)
    (n : Name) : Prop :=
  ∃ files w₁ ds w₂ x, w.exec (survey s now) = (.ok files, w₁) ∧
    w₁.exec (reviewed s (gate.map PolicyGate.review) (files.map (decideOn s.gates now)))
      = (.ok ds, w₂) ∧
    x ∈ files.zip ds ∧ x.1.path.baseName? = some n ∧
    (s.dirs.target x.2.action).place = q.place ∧ Leaves s.dirs w₁.tree w'.tree x.1 x.2

/-- After any history, a run takes no file out of the three directories, except that a file in the
applied or the demoted directory is replaced by a proposal of the same name that is moved there. -/
theorem files_survive_runs (hdirs : dirs.Distinct) {w₀ : World} (hw : w₀.tree.WellFormed)
    (hl : w₀.tree.LinkFree) (history : History dirs w₀ w) (hreal : s.mode = .real)
    (hsame : s.dirs = dirs) (hrun : w.exec (Run.run s (gate.map PolicyGate.review) now) = (r, w'))
    {q : Path} (hq : q ∈ [dirs.inbox, dirs.applied, dirs.demoted]) {n : Name} {bytes : Bytes}
    {time : Instant} (hfile : w.tree.entry? (q.place ++ [n]) = some (.file bytes time)) :
    dirs.Hold w'.tree n (.file bytes time) ∨
      q ∈ [dirs.applied, dirs.demoted] ∧ Run.Brings s gate now w w' q n := by
  subst hsame
  obtain ⟨hw, hl⟩ := history.sound hdirs hw hl
  rcases hsurvey : w.exec (Run.survey s now) with ⟨e | files, w₁⟩
  · obtain ⟨t, hext, rfl⟩ := (Run.survey_keeps s now).exec hsurvey
    cases hrun.symm.trans (Run.run_of_survey_error gate hsurvey)
    exact Or.inl ⟨q, hq, hext.keeps hfile⟩
  · obtain ⟨-, ⟨t, hext, rfl⟩, -⟩ := Run.survey_ok hw hsurvey
    obtain ⟨k, ds, hreached, -, hreview, -⟩ := Run.run_reached hreal hdirs hw hl hsurvey hrun
    have hfile := hext.keeps hfile
    have htarget : ∀ a, s.dirs.target a = q → s.dirs.Hold w'.tree n (.file bytes time) ∨
        Run.Brings s gate now w w' q n := by
      rintro a rfl
      refine (hreached.target_survives hfile).imp_right fun ⟨x, hx, hname, hplace⟩ => ?_
      rcases hreview with rfl | ⟨w₂, hreview⟩
      · cases hx
      · exact ⟨files, _, ds, w₂, x, hsurvey, hreview, List.mem_of_mem_take hx, hname, hplace,
          hreached.leaves hx⟩
    simp only [List.mem_cons, List.not_mem_nil, or_false] at hq
    rcases hq with rfl | hq | hq
    · exact Or.inl (hreached.inbox_survives hfile)
    · exact (htarget .promote hq.symm).imp_right fun h => ⟨by simp [hq], h⟩
    · exact (htarget .demote hq.symm).imp_right fun h => ⟨by simp [hq], h⟩

/-- The tree with the proposal, and with an older one of the same name in the demoted directory. -/
def Specimen.archived : Tree := tree [([[0x64]], .directory), ([[0x64], name], .file [2] ⟨0, 0⟩)]

theorem Specimen.archived_wellFormed : archived.WellFormed := .of_entries (by decide) (by decide)

theorem Specimen.archived_linkFree : archived.LinkFree := .of_entries (by decide)

/-- The gate that demotes every proposal. -/
def demotesAll : PolicyGate := fun _ _ => .ok [("allow", .bool false)]

/-- A proposal that was dropped into the inbox is in one of the three directories after a run. -/
theorem files_survive_runs_dropped :
    let w₀ : World := { tree := Specimen.archived }
    let e : Entry := .file [2] ⟨0, 0⟩
    let w : World := { tree := w₀.tree.put [[0x69], Specimen.otherName] e }
    let s := Specimen.settings
    let final := w.exec (Run.run s ((some demotesAll).map PolicyGate.review) (.utc ⟨0, 0⟩))
    s.dirs.Distinct ∧ w₀.tree.WellFormed ∧ w₀.tree.LinkFree ∧ History s.dirs w₀ w ∧
      s.mode = .real ∧ s.dirs.inbox ∈ [s.dirs.inbox, s.dirs.applied, s.dirs.demoted] ∧
      w.tree.entry? (s.dirs.inbox.place ++ [Specimen.otherName]) = some e ∧
      s.dirs.Hold final.2.tree Specimen.otherName e := by
  intro w₀ e w s final
  have hdirs : s.dirs.Distinct := Specimen.dirs_distinct
  have hw : w₀.tree.WellFormed := Specimen.archived_wellFormed
  have hl : w₀.tree.LinkFree := Specimen.archived_linkFree
  have history : History s.dirs w₀ w :=
    .single (.drop [2] ⟨0, 0⟩ (by decide) rfl (by decide))
  have hreal : s.mode = .real := rfl
  have hinbox : s.dirs.inbox ∈ [s.dirs.inbox, s.dirs.applied, s.dirs.demoted] := by simp
  have hfile : w.tree.entry? (s.dirs.inbox.place ++ [Specimen.otherName]) = some e := rfl
  refine ⟨hdirs, hw, hl, history, hreal, hinbox, hfile, ?_⟩
  rcases files_survive_runs hdirs hw hl history hreal rfl (Prod.mk.eta (p := final)).symm hinbox
    hfile with hhold | ⟨hmoved, -⟩
  · exact hhold
  · exact absurd hmoved (by decide)

/-! ### Replacing -/

/-- Carrying out one decision, once its file was moved, changes no file but the incident and the
summary. -/
theorem Run.carryOut_of_move {d : Decision} {w₁ : World} (hreal : s.mode = .real)
    (hmove : w.exec ((filing s now).move d) = (.ok (), w₁)) {r : Except StoreError Outcome}
    (h : w.exec (carryOut s now [d]) = (r, w')) :
    ∃ t, w₁.tree.Steady {((filing s now).incidentPath d).place, (filing s now).summaryPath.place} t ∧
      w' = { w₁ with tree := t } := by
  have hmode : (filing s now).mode = .real := hreal
  rw [carryOut, Filing.applyAll, Filing.applyAll, Filing.apply, if_pos hmode] at h
  simp only [bind_assoc, pure_bind] at h
  rw [World.exec_bind, hmove] at h
  refine Keeps.exec ?_ h
  have hincident := (filing s now).incidentPlaces_subset d
  refine Keeps.exceptBind (((filing s now).fileIncident_keeps d).mono fun h =>
    h.mono (hincident.trans (by simp))) fun _ => ?_
  exact Keeps.exceptBind (((filing s now).writeSummary_keeps _).mono fun h => h.mono (by simp))
    fun _ => Keeps.pure _

/-- This tree once a run was set up. -/
def Specimen.preparedArchive : Tree :=
  ⟨([[0x6c]], .directory) :: ([[0x70]], .directory) :: archived.entries⟩

theorem Specimen.survey_archived : World.exec { tree := archived } (Run.survey settings (.utc ⟨0, 0⟩))
    = (.ok [proposal], { tree := preparedArchive }) := rfl

/-- This tree once a run has moved the proposal to the demoted directory. -/
def Specimen.replacedArchive : Tree :=
  ⟨[([[0x6c]], .directory), ([[0x70]], .directory), ([[0x69]], .directory),
    ([[0x64], name], .file [1] ⟨0, 0⟩), ([[0x64]], .directory)]⟩

/-- If a proposal is demoted to where an older one of its name stands, the run leaves the tree in which
the older one was replaced, but for the incident and the summary. -/
theorem run_archived (hrun : World.exec { tree := Specimen.archived }
    (Run.run Specimen.settings ((some demotesAll).map PolicyGate.review) (.utc ⟨0, 0⟩)) = (r, w')) :
    ∃ i j, Specimen.replacedArchive.Grows
      {Specimen.dirs.incidents.place ++ [i], Specimen.dirs.log.place ++ [j]} w'.tree := by
  let s := Specimen.settings
  let f := Run.filing s (.utc ⟨0, 0⟩)
  let d := (Run.decideOn s.gates (.utc ⟨0, 0⟩) Specimen.proposal).override .demote
  have hreview : World.exec { tree := Specimen.preparedArchive } (Run.reviewed s
      ((some demotesAll).map PolicyGate.review)
      ([Specimen.proposal].map (Run.decideOn s.gates (.utc ⟨0, 0⟩))))
      = (.ok [d], { tree := Specimen.preparedArchive,
                    requests := [Run.requestFor s (.utc ⟨0, 0⟩) Specimen.proposal] }) := rfl
  have hmove : ∀ d : Decision, d.source = Specimen.proposal.path → d.action = .demote →
      ∀ requests, World.exec { tree := Specimen.preparedArchive, requests } (f.move d)
        = (.ok (), { tree := Specimen.replacedArchive, requests }) := by
    rintro ⟨file, source, action, reasons, warnings, kpi, ageHours⟩ rfl rfl requests
    rfl
  rw [Run.run_of_survey _ Specimen.survey_archived, World.exec_bind, hreview] at hrun
  simp only [Run.exec_storing] at hrun
  rcases hcarry : World.exec _ (Run.carryOut s (.utc ⟨0, 0⟩) [d]) with ⟨outcome, w₁⟩
  rw [hcarry] at hrun
  cases hrun
  obtain ⟨t, hsteady, rfl⟩ := Run.carryOut_of_move rfl
    (hmove d (Decision.source_override _ _) (Decision.action_override _ _) _) hcarry
  obtain ⟨-, -, ns, hscan⟩ := Run.survey_ok Specimen.archived_wellFormed Specimen.survey_archived
  obtain ⟨n, hread, hn⟩ := hscan.of_mem (f := Specimen.proposal) (by simp)
  have habout := (Run.about_decideOn hread s.gates (.utc ⟨0, 0⟩)).override (a := .demote) (by decide)
  obtain ⟨i, hi⟩ := Filing.place_incidentPath (f := f) habout hn hread.proposal
  obtain ⟨j, hj⟩ := f.place_summaryPath
  rw [hi, hj] at hsteady
  exact ⟨i, j, hsteady.grows (.of_entries (by decide))⟩

/-- What goes wrong when a file goes to a device that is full: it cannot be renamed, and nothing of it is
copied. -/
def Specimen.fullDevice : List (Option Trouble) :=
  [some (.refused .crossesDevices), some (.stopped 0 (.other "No space left on device (os error 28)"))]

/-- The tree once a run has tried to move the proposal to such a device. -/
def Specimen.emptiedArchive : Tree := preparedArchive.put [[0x64], name] (.file [] ⟨0, 0⟩)

theorem UnreliableWorld.exec_storing {α : Type} (u : UnreliableWorld)
    (x : ExceptT StoreError (StateM UnreliableWorld) α) :
    u.exec (Run.storing x) = ((u.exec x).1.mapError RunError.store, (u.exec x).2) := rfl

/-- The ten calls of a survey meet no trouble. -/
theorem Specimen.survey_fullDevice : UnreliableWorld.exec
    { tree := archived, troubles := List.replicate 10 none ++ fullDevice }
    (Run.survey settings (.utc ⟨0, 0⟩))
      = (.ok [proposal], { tree := preparedArchive, troubles := fullDevice }) := rfl

/-- If a proposal is demoted to a device that is full, the older one of its name is emptied. -/
theorem run_fullDevice {u' : UnreliableWorld} (hrun : UnreliableWorld.exec
    { tree := Specimen.archived, troubles := List.replicate 10 none ++ Specimen.fullDevice }
    (Run.run Specimen.settings (some fun q => UnreliableWorld.outside (demotesAll.review q))
      (.utc ⟨0, 0⟩)) = (r, u')) : u'.tree = Specimen.emptiedArchive := by
  let s := Specimen.settings
  let d := (Run.decideOn s.gates (.utc ⟨0, 0⟩) Specimen.proposal).override .demote
  let requests := [Run.requestFor s (.utc ⟨0, 0⟩) Specimen.proposal]
  let u₁ : UnreliableWorld := { tree := Specimen.preparedArchive, troubles := Specimen.fullDevice }
  have hreview : u₁.exec (Run.reviewed s (some fun q => UnreliableWorld.outside (demotesAll.review q))
      ([Specimen.proposal].map (Run.decideOn s.gates (.utc ⟨0, 0⟩))))
      = (.ok [d], { u₁ with requests }) := rfl
  have happly : ∀ d : Decision, d.source = Specimen.proposal.path → d.action = .demote →
      ∃ e u₂, UnreliableWorld.exec { u₁ with requests } ((Run.filing s (.utc ⟨0, 0⟩)).apply d)
        = (.error e, u₂) ∧ u₂.tree = Specimen.emptiedArchive := by
    rintro ⟨file, source, action, reasons, warnings, kpi, ageHours⟩ rfl rfl
    exact ⟨_, _, rfl, rfl⟩
  obtain ⟨e, u₂, hfailed, htree⟩ :=
    happly d (Decision.source_override _ _) (Decision.action_override _ _)
  have hcarry : UnreliableWorld.exec { u₁ with requests } (Run.carryOut s (.utc ⟨0, 0⟩) [d])
      = (.error e, u₂) :=
    UnreliableWorld.exec_bind_error (UnreliableWorld.exec_bind_error hfailed)
  rw [Run.run, UnreliableWorld.exec_bind_ok Specimen.survey_fullDevice,
    UnreliableWorld.exec_bind_ok hreview, UnreliableWorld.exec_storing, hcarry] at hrun
  cases hrun
  exact htree

/-- A run can destroy a file: an older proposal is gone once one of the same name is demoted. Where the
demoted directory is on another device, it can be gone although no proposal has come to stand there. -/
theorem archived_file_is_replaced :
    (¬ ∀ (dirs : Directories) (s : Settings) (gate : Option PolicyGate) (now : RunClock)
      (w₀ w w' : World) (r : Except RunError Outcome) (q : Path) (n : Name) (bytes : Bytes)
      (time : Instant), dirs.Distinct → w₀.tree.WellFormed → w₀.tree.LinkFree →
      History dirs w₀ w → s.mode = .real → s.dirs = dirs →
      w.exec (Run.run s (gate.map PolicyGate.review) now) = (r, w') →
      q ∈ [dirs.inbox, dirs.applied, dirs.demoted] →
      w.tree.entry? (q.place ++ [n]) = some (.file bytes time) →
      ∃ q' ∈ [dirs.inbox, dirs.applied, dirs.demoted], ∃ n' time',
        w'.tree.entry? (q'.place ++ [n']) = some (.file bytes time')) ∧
    ¬ ∀ (s : Settings) (gate : PolicyGate) (now : RunClock) (u u' : UnreliableWorld)
      (r : Except RunError Outcome) (q : Path) (n : Name) (bytes : Bytes) (time : Instant),
      s.dirs.Distinct → u.tree.WellFormed → u.tree.LinkFree → s.mode = .real →
      u.exec (Run.run s (some fun x => UnreliableWorld.outside (gate.review x)) now) = (r, u') →
      q ∈ [s.dirs.inbox, s.dirs.applied, s.dirs.demoted] →
      u.tree.entry? (q.place ++ [n]) = some (.file bytes time) →
      s.dirs.Hold u'.tree n (.file bytes time) ∨
        ∃ e, u.tree.entry? (s.dirs.inbox.place ++ [n]) = some e ∧
          u'.tree.entry? (q.place ++ [n]) = some e := by
  refine ⟨fun h => ?_, fun h => ?_⟩
  · let s := Specimen.settings
    let w : World := { tree := Specimen.archived }
    rcases hrun : w.exec (Run.run s ((some demotesAll).map PolicyGate.review) (.utc ⟨0, 0⟩)) with ⟨r, w'⟩
    obtain ⟨q, hq, n, time, hafter⟩ := h s.dirs s (some demotesAll) (.utc ⟨0, 0⟩) w w w' r ⟨[0x64]⟩
      Specimen.name [2] ⟨0, 0⟩ Specimen.dirs_distinct Specimen.archived_wellFormed
      Specimen.archived_linkFree .refl rfl rfl hrun (by decide) rfl
    obtain ⟨i, j, hgrows⟩ := run_archived hrun
    have hplace : ∀ q ∈ [s.dirs.inbox, s.dirs.applied, s.dirs.demoted],
        q.place ≠ Specimen.dirs.incidents.place ∧ q.place ≠ Specimen.dirs.log.place := by decide
    have hapart : q.place ++ [n] ∉ ({Specimen.dirs.incidents.place ++ [i],
        Specimen.dirs.log.place ++ [j]} : Set Location) := by
      rw [Set.mem_insert_iff, Set.mem_singleton_iff, not_or]
      exact ⟨Path.place_append_ne (hplace q hq).1 n i, Path.place_append_ne (hplace q hq).2 n j⟩
    -- outside these two places every file is one that stood there once the proposal was moved
    obtain ⟨bytes, time', hbefore⟩ := hgrows.fileAt hapart ⟨_, _, hafter⟩
    have hsame := (hgrows.keeps hapart hbefore).symm.trans hafter
    rw [hsame, Tree.entry?_of_ne_nil (by simp)] at hbefore
    have hmem := Tree.mem_of_lookup hbefore
    simp [Specimen.replacedArchive] at hmem
  · let u : UnreliableWorld :=
      { tree := Specimen.archived, troubles := List.replicate 10 none ++ Specimen.fullDevice }
    rcases hrun : u.exec (Run.run Specimen.settings
      (some fun x => UnreliableWorld.outside (demotesAll.review x)) (.utc ⟨0, 0⟩)) with ⟨r, u'⟩
    have hafter := h Specimen.settings demotesAll (.utc ⟨0, 0⟩) u u' r ⟨[0x64]⟩ Specimen.name [2] ⟨0, 0⟩
      Specimen.dirs_distinct Specimen.archived_wellFormed Specimen.archived_linkFree rfl hrun
      (by decide) rfl
    rw [run_fullDevice hrun] at hafter
    rcases hafter with ⟨q, hq, hheld⟩ | ⟨e, hbefore, hheld⟩
    · revert q
      decide
    · cases hbefore
      revert hheld
      decide

end ProposalReview
