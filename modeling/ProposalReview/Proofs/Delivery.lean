import Mathlib
import ProposalReview.Proofs.Naming
/-!
Carrying out decisions about proposals, one after another.

One decision takes its file from the inbox to the directory of its action, and then perhaps writes one
incident; or it fails before the file has moved, and changes nothing. So however a run of decisions
ends, those of an initial part have taken their files to where they belong, and nothing else has been
lost but what stood at those places.
-/

namespace ProposalReview

theorem Path.place_append_ne {p q : Path} (h : p.place ≠ q.place) (m n : Name) :
    p.place ++ [m] ≠ q.place ++ [n] :=
  fun heq => h (List.append_inj' heq rfl).1

namespace Directories

/-- Whether the five directories of a run are at five places. -/
def Distinct (d : Directories) : Prop :=
  [d.inbox.place, d.applied.place, d.demoted.place, d.incidents.place, d.log.place].Nodup

instance (d : Directories) : Decidable d.Distinct := inferInstanceAs (Decidable (List.Nodup _))

variable {dirs : Directories}

theorem Distinct.inbox (h : dirs.Distinct) :
    dirs.inbox.place ≠ dirs.incidents.place ∧ dirs.inbox.place ≠ dirs.log.place := by
  rw [Distinct, List.nodup_cons] at h
  exact ⟨fun heq => h.1 (by simp [heq]), fun heq => h.1 (by simp [heq])⟩

theorem Distinct.incidents_log (h : dirs.Distinct) : dirs.incidents.place ≠ dirs.log.place := by
  simp only [Distinct, List.nodup_cons, List.mem_cons, List.not_mem_nil, or_false, not_or] at h
  exact h.2.2.2.1

theorem Distinct.target (h : dirs.Distinct) (a : Action) :
    dirs.inbox.place ≠ (dirs.target a).place ∧ (dirs.target a).place ≠ dirs.incidents.place ∧
      (dirs.target a).place ≠ dirs.log.place := by
  simp only [Distinct, List.nodup_cons, List.mem_cons, List.not_mem_nil, or_false, not_or] at h
  obtain ⟨⟨hia, hid, -, -⟩, ⟨-, hai, hal⟩, ⟨hdi, hdl⟩, -⟩ := h
  rw [Directories.target]
  split_ifs
  · exact ⟨hia, hai, hal⟩
  · exact ⟨hid, hdi, hdl⟩

end Directories

/-- The directories `i`, `p`, `d`, `n` and `l`. -/
def Specimen.dirs : Directories := ⟨⟨[0x69]⟩, ⟨[0x70]⟩, ⟨[0x64]⟩, ⟨[0x6e]⟩, ⟨[0x6c]⟩⟩

theorem Specimen.dirs_distinct : dirs.Distinct := by decide

/-! ### One decision -/

/-- What a tree looks like after a file was taken from one place to another and a file may have been
written at a third one. -/
structure Delivered (source dest incident : Location) (t t' : Tree) : Prop where
  wellFormed : t'.WellFormed
  linkFree : t'.LinkFree
  gone : ¬ t'.FileAt source
  arrived : t'.entry? dest = t.entry? source
  keeps : ∀ {l e}, l ≠ source → l ≠ dest → l ≠ incident → t.entry? l = some e → t'.entry? l = some e
  fileAt : ∀ {l}, l ≠ dest → l ≠ incident → t'.FileAt l → t.FileAt l

variable {source dest incident : Location} {t t₁ t' : Tree}

theorem Delivered.of_moved (hfile : t.FileAt source) (hsd : source ≠ dest) (hsi : source ≠ incident)
    (hdi : dest ≠ incident) (hmoved : t.Moved source dest t₁) (hsteady : t₁.Steady {incident} t') :
    Delivered source dest incident t t' := by
  have hgrows := hsteady.grows hmoved.linkFree
  obtain ⟨bytes, time, hbytes⟩ := hfile
  refine ⟨hsteady.wellFormed hmoved.wellFormed, hsteady.linkFree hmoved.linkFree, ?_, ?_, ?_, ?_⟩
  · intro h
    obtain ⟨_, _, h⟩ := hgrows.fileAt hsi h
    rw [hmoved.entry?, if_neg hsd, if_pos rfl] at h
    cases h
  · rw [hbytes]
    refine hgrows.keeps hdi ?_
    rw [hmoved.entry?, if_pos rfl, hbytes]
  · intro l e hs hd hi he
    refine hgrows.keeps hi ?_
    rw [hmoved.entry?, if_neg hd, if_neg hs, he]
  · intro l hd hi h
    obtain ⟨bytes', time', h⟩ := hgrows.fileAt hi h
    rw [hmoved.entry?, if_neg hd] at h
    split_ifs at h
    exact ⟨bytes', time', h⟩

/-- A proposal of the inbox and a decision about it. -/
structure Assigned (inbox : Path) (p : ProposalFile) (n : Name) (d : Decision) : Prop where
  valid : Name.Valid n
  proposal : Inbox.isProposalName n
  path : p.path = inbox.child n
  about : d.About inbox n

namespace Assigned

variable {f : Filing} {p : ProposalFile} {n : Name} {d : Decision}

theorem place_path {inbox : Path} (h : Assigned inbox p n d) : p.path.place = inbox.place ++ [n] := by
  rw [h.path, Path.place_child h.valid]

theorem place_destination (h : Assigned f.dirs.inbox p n d) :
    (f.destination d).place = (f.dirs.target d.action).place ++ [n] :=
  Filing.place_destination h.about h.valid

theorem place_incidentPath (h : Assigned f.dirs.inbox p n d) :
    ∃ m, (f.incidentPath d).place = f.dirs.incidents.place ++ [m] :=
  Filing.place_incidentPath h.about h.valid h.proposal

/-- Nothing in the inbox is where a decision takes its file or writes its incident. -/
theorem inbox_apart (h : Assigned f.dirs.inbox p n d) (hdirs : f.dirs.Distinct) (m : Name) :
    f.dirs.inbox.place ++ [m] ≠ (f.destination d).place ∧
      f.dirs.inbox.place ++ [m] ≠ (f.incidentPath d).place := by
  obtain ⟨i, hi⟩ := h.place_incidentPath
  rw [h.place_destination, hi]
  exact ⟨Path.place_append_ne (hdirs.target _).1 m n, Path.place_append_ne hdirs.inbox.1 m i⟩

/-- Nothing in a directory that files are moved to is where a decision finds its file or writes its
incident. -/
theorem target_apart (h : Assigned f.dirs.inbox p n d) (hdirs : f.dirs.Distinct) (a : Action)
    (m : Name) : (f.dirs.target a).place ++ [m] ≠ p.path.place ∧
      (f.dirs.target a).place ++ [m] ≠ (f.incidentPath d).place := by
  obtain ⟨i, hi⟩ := h.place_incidentPath
  rw [h.place_path, hi]
  exact ⟨(Path.place_append_ne (hdirs.target a).1 n m).symm,
    Path.place_append_ne (hdirs.target a).2.1 m i⟩

/-- A decision fails and changes nothing, or its file is moved and then its incident may be written. -/
theorem apply_moved (h : Assigned f.dirs.inbox p n d) (hdirs : f.dirs.Distinct) (hmode : f.mode = .real)
    {w w' : World} {r : Except StoreError Record} (hw : w.tree.WellFormed) (hl : w.tree.LinkFree)
    (hfile : w.tree.FileAt p.path.place) (hr : w.exec (f.apply d) = (r, w')) :
    (w' = w ∧ ∃ e, r = .error e) ∨ ∃ t t', w.tree.Moved p.path.place (f.destination d).place t ∧
      t.Steady (f.incidentPlaces d) t' ∧ w' = { w with tree := t' } := by
  have hsource : d.sourcePath = p.path := by rw [h.about.sourcePath h.valid, h.path]
  have hsd := (h.inbox_apart hdirs n).1
  rw [← h.place_path] at hsd
  rw [Filing.apply, if_pos hmode, Filing.move, if_neg h.about.moves, hsource] at hr
  rcases World.exec_bind_cases hr with ⟨e, hmove, rfl⟩ | ⟨_, w₁, hmove, hrest⟩
  · rcases World.moveFile_cases hmove with ⟨t, -, hok, -⟩ | ⟨cause, -, -, rfl⟩
    · cases hok
    · exact Or.inl ⟨rfl, e, rfl⟩
  · rcases World.moveFile_cases hmove with ⟨t, hmoved, -, rfl⟩ | ⟨cause, -, herr, -⟩
    · have hmoved := Tree.rename_moved hw hl hfile hsd hmoved
      rcases World.exec_bind_cases hrest with ⟨e, hincident, -⟩ | ⟨_, w₂, hincident, hlast⟩
      · obtain ⟨t', hsteady, rfl⟩ := (f.fileIncident_keeps d).exec hincident
        exact Or.inr ⟨t, t', hmoved, hsteady, rfl⟩
      · obtain ⟨t', hsteady, rfl⟩ := (f.fileIncident_keeps d).exec hincident
        cases hlast
        exact Or.inr ⟨t, t', hmoved, hsteady, rfl⟩
    · cases herr

/-- A decision fails and changes nothing, or takes its file to where it belongs. -/
theorem apply_exec (h : Assigned f.dirs.inbox p n d) (hdirs : f.dirs.Distinct) (hmode : f.mode = .real)
    {w w' : World} {r : Except StoreError Record} (hw : w.tree.WellFormed) (hl : w.tree.LinkFree)
    (hfile : w.tree.FileAt p.path.place) (hr : w.exec (f.apply d) = (r, w')) :
    (w' = w ∧ ∃ e, r = .error e) ∨ ∃ t, w' = { w with tree := t } ∧
      Delivered p.path.place (f.destination d).place (f.incidentPath d).place w.tree t := by
  obtain ⟨hsd, hsi⟩ := h.inbox_apart hdirs n
  have hdi := (h.target_apart hdirs d.action n).2
  rw [← h.place_path] at hsd hsi
  rw [← h.place_destination] at hdi
  rcases h.apply_moved hdirs hmode hw hl hfile hr with hfailed | ⟨t, t', hmoved, hsteady, rfl⟩
  · exact Or.inl hfailed
  · have hsteady := hsteady.mono (f.incidentPlaces_subset d)
    exact Or.inr ⟨t', rfl, .of_moved hfile hsd hsi hdi hmoved hsteady⟩

end Assigned

/-! ### Decisions one after another -/

/-- The first `k` decisions about some proposals have been carried out. -/
inductive Progress (f : Filing) : Nat → List ProposalFile → List Decision → Tree → Tree → Prop
  | start {ps ds t} : Progress f 0 ps ds t t
  | next {k p ps d ds t t₁ t'}
      (delivered : Delivered p.path.place (f.destination d).place (f.incidentPath d).place t t₁)
      (rest : Progress f k ps ds t₁ t') : Progress f (k + 1) (p :: ps) (d :: ds) t t'

/-- The proposals of the inbox at some places, and decisions about them. -/
def Assignment (inbox : Path) (ps : List ProposalFile) (ds : List Decision) : Prop :=
  List.Forall₂ (fun p d => ∃ n, Assigned inbox p n d) ps ds ∧
    (ps.map fun p => p.path.place).Nodup

namespace Assignment

variable {f : Filing} {p q : ProposalFile} {ps : List ProposalFile} {d : Decision}
  {ds : List Decision} {e : Entry}

theorem head {inbox : Path} (h : Assignment inbox (p :: ps) (d :: ds)) :
    (∃ n, Assigned inbox p n d) ∧ ∀ q ∈ ps, q.path.place ≠ p.path.place := by
  obtain ⟨hall, hnodup⟩ := h
  rw [List.map_cons, List.nodup_cons] at hnodup
  exact ⟨(List.forall₂_cons.mp hall).1,
    fun q hq heq => hnodup.1 (List.mem_map.mpr ⟨q, hq, heq⟩)⟩

theorem tail {inbox : Path} (h : Assignment inbox (p :: ps) (d :: ds)) : Assignment inbox ps ds :=
  ⟨(List.forall₂_cons.mp h.1).2, (List.nodup_cons.mp h.2).2⟩

theorem assigned {inbox : Path} (h : Assignment inbox ps ds) {x : ProposalFile × Decision}
    (hx : x ∈ ps.zip ds) : ∃ n, Assigned inbox x.1 n x.2 :=
  (List.forall₂_iff_zip.mp h.1).2 hx

theorem exists_of_mem {inbox : Path} (h : Assignment inbox ps ds) (hp : p ∈ ps) :
    ∃ d, (p, d) ∈ ps.zip ds := by
  obtain ⟨i, hi, rfl⟩ := List.mem_iff_getElem.mp hp
  have hlen : i < (ps.zip ds).length := by
    rw [List.length_zip, ← h.1.length_eq, min_self]
    exact hi
  have hi' : i < ds.length := h.1.length_eq ▸ hi
  exact ⟨ds[i], List.mem_iff_getElem.mpr ⟨i, hlen, List.getElem_zip⟩⟩

/-- The first decision leaves the other proposals where they are. -/
theorem keeps_tail (h : Assignment f.dirs.inbox (p :: ps) (d :: ds)) (hdirs : f.dirs.Distinct)
    (hd : Delivered p.path.place (f.destination d).place (f.incidentPath d).place t t₁)
    (hq : q ∈ ps) (he : t.entry? q.path.place = some e) : t₁.entry? q.path.place = some e := by
  obtain ⟨⟨n, hn⟩, hne⟩ := h.head
  obtain ⟨d', hmem⟩ := h.tail.exists_of_mem hq
  obtain ⟨m, hm⟩ := h.tail.assigned hmem
  obtain ⟨hdest, hincident⟩ := hn.inbox_apart hdirs m
  rw [← hm.place_path] at hdest hincident
  exact hd.keeps (hne q hq) hdest hincident he

theorem fileAt_tail (h : Assignment f.dirs.inbox (p :: ps) (d :: ds)) (hdirs : f.dirs.Distinct)
    (hd : Delivered p.path.place (f.destination d).place (f.incidentPath d).place t t₁)
    (hfiles : ∀ q ∈ p :: ps, t.FileAt q.path.place) : ∀ q ∈ ps, t₁.FileAt q.path.place := by
  intro q hq
  obtain ⟨bytes, time, hbytes⟩ := hfiles q (List.mem_cons_of_mem _ hq)
  exact ⟨bytes, time, h.keeps_tail hdirs hd hq hbytes⟩

end Assignment

/-- However carrying out decisions ends, an initial part of them has been carried out; all of them if
there was no error. -/
theorem Filing.applyAll_progress {f : Filing} (hdirs : f.dirs.Distinct) (hmode : f.mode = .real)
    {ps : List ProposalFile} {ds : List Decision} {w w' : World} {r : Except StoreError (List Record)}
    (ha : Assignment f.dirs.inbox ps ds) (hw : w.tree.WellFormed) (hl : w.tree.LinkFree)
    (hfiles : ∀ p ∈ ps, w.tree.FileAt p.path.place) (h : w.exec (f.applyAll ds) = (r, w')) :
    ∃ k t, Progress f k ps ds w.tree t ∧ w' = { w with tree := t } ∧ k ≤ ps.length ∧
      ∀ rs, r = .ok rs → k = ps.length := by
  induction ds generalizing ps w w' r with
  | nil =>
    cases h
    cases ha.1
    exact ⟨0, w.tree, .start, rfl, le_refl 0, fun _ _ => rfl⟩
  | cons d ds ih =>
    cases ps with
    | nil => cases ha.1
    | cons p ps =>
      obtain ⟨⟨n, hn⟩, -⟩ := ha.head
      have hfile := hfiles p List.mem_cons_self
      rcases World.exec_bind_cases h with ⟨e, happly, rfl⟩ | ⟨_, w₁, happly, hk⟩
      · -- the head fails before or after its file has moved
        rcases hn.apply_exec hdirs hmode hw hl hfile happly with ⟨rfl, -⟩ | ⟨t, rfl, hd⟩
        · exact ⟨0, w'.tree, .start, rfl, Nat.zero_le _, fun _ h => by cases h⟩
        · exact ⟨1, t, .next hd .start, rfl, by simp, fun _ h => by cases h⟩
      · rcases hn.apply_exec hdirs hmode hw hl hfile happly with ⟨-, e, herr⟩ | ⟨t, rfl, hd⟩
        · cases herr
        have hstill := ha.fileAt_tail hdirs hd hfiles
        rcases World.exec_bind_cases hk with ⟨e, hrun, rfl⟩ | ⟨rs, w₂, hrun, hlast⟩
        · obtain ⟨k, t', hprogress, rfl, hle, -⟩ := ih ha.tail hd.wellFormed hd.linkFree hstill hrun
          exact ⟨k + 1, t', .next hd hprogress, rfl, Nat.succ_le_succ hle, fun _ h => by cases h⟩
        · obtain ⟨k, t', hprogress, rfl, hle, hall⟩ := ih ha.tail hd.wellFormed hd.linkFree hstill hrun
          cases hlast
          exact ⟨k + 1, t', .next hd hprogress, rfl, Nat.succ_le_succ hle,
            fun _ _ => congrArg Nat.succ (hall rs rfl)⟩

/-! ### What has become of the files -/

namespace Progress

variable {f : Filing} {k : Nat} {ps : List ProposalFile} {ds : List Decision} {l : Location} {e : Entry}

theorem sound (h : Progress f k ps ds t t') (hw : t.WellFormed) (hl : t.LinkFree) :
    t'.WellFormed ∧ t'.LinkFree := by
  induction h with
  | start => exact ⟨hw, hl⟩
  | next delivered _ ih => exact ih delivered.wellFormed delivered.linkFree

/-- What no decision touches stays. -/
theorem keeps (h : Progress f k ps ds t t') (hapart : ∀ x ∈ (ps.zip ds).take k,
    l ≠ x.1.path.place ∧ l ≠ (f.destination x.2).place ∧ l ≠ (f.incidentPath x.2).place)
    (he : t.entry? l = some e) : t'.entry? l = some e := by
  induction h with
  | start => exact he
  | next delivered _ ih =>
    rw [List.zip_cons_cons, List.take_succ_cons, List.forall_mem_cons] at hapart
    obtain ⟨⟨hs, hd, hi⟩, hrest⟩ := hapart
    exact ih hrest (delivered.keeps hs hd hi he)

/-- No file is new but where a decision takes its file or writes its incident. -/
theorem fileAt (h : Progress f k ps ds t t') (hapart : ∀ x ∈ (ps.zip ds).take k,
    l ≠ (f.destination x.2).place ∧ l ≠ (f.incidentPath x.2).place)
    (hf : t'.FileAt l) : t.FileAt l := by
  induction h with
  | start => exact hf
  | next delivered _ ih =>
    rw [List.zip_cons_cons, List.take_succ_cons, List.forall_mem_cons] at hapart
    exact delivered.fileAt hapart.1.1 hapart.1.2 (ih hapart.2 hf)

/-- The proposals that were not reached are where they were. -/
theorem kept (h : Progress f k ps ds t t') (hdirs : f.dirs.Distinct)
    (ha : Assignment f.dirs.inbox ps ds) {p : ProposalFile} (hp : p ∈ ps.drop k)
    (he : t.entry? p.path.place = some e) : t'.entry? p.path.place = some e := by
  induction h with
  | start => exact he
  | next delivered _ ih =>
    rw [List.drop_succ_cons] at hp
    exact ih ha.tail hp (ha.keeps_tail hdirs delivered (List.mem_of_mem_drop hp) he)

/-- The proposals that were reached have left the inbox and are where their decisions take them. -/
theorem moved (h : Progress f k ps ds t t') (hdirs : f.dirs.Distinct)
    (ha : Assignment f.dirs.inbox ps ds) (hfiles : ∀ p ∈ ps, t.FileAt p.path.place)
    {x : ProposalFile × Decision} (hx : x ∈ (ps.zip ds).take k) :
    ¬ t'.FileAt x.1.path.place ∧
      t'.entry? (f.destination x.2).place = t.entry? x.1.path.place := by
  induction h with
  | start =>
    rw [List.take_zero] at hx
    exact absurd hx List.not_mem_nil
  | @next k p ps d ds t t₁ t' delivered rest ih =>
    obtain ⟨⟨n, hn⟩, hne⟩ := ha.head
    have hstill := ha.fileAt_tail hdirs delivered hfiles
    rw [List.zip_cons_cons, List.take_succ_cons, List.mem_cons] at hx
    rcases hx with rfl | hx
    · -- the later decisions neither bring the first file back nor take it away again
      refine ⟨fun hf => delivered.gone (rest.fileAt (fun y hy => ?_) hf), ?_⟩
      · obtain ⟨m, hm⟩ := ha.tail.assigned (List.mem_of_mem_take hy)
        rw [hn.place_path]
        exact hm.inbox_apart hdirs n
      · obtain ⟨bytes, time, hbytes⟩ := hfiles p List.mem_cons_self
        rw [hbytes]
        refine rest.keeps (fun y hy => ?_) (by rw [delivered.arrived, hbytes])
        have hy := List.mem_of_mem_take hy
        obtain ⟨m, hm⟩ := ha.tail.assigned hy
        obtain ⟨hsource, hincident⟩ := hm.target_apart hdirs d.action n
        rw [← hn.place_destination] at hsource hincident
        refine ⟨hsource, fun heq => ?_, hincident⟩
        rw [hn.place_destination, hm.place_destination] at heq
        have hnm := List.singleton_injective (List.append_inj' heq rfl).2
        refine hne y.1 (List.of_mem_zip hy).1 ?_
        rw [hm.place_path, hn.place_path, hnm]
    · obtain ⟨hgone, harrived⟩ := ih ha.tail hstill hx
      have hmem := (List.of_mem_zip (List.mem_of_mem_take hx)).1
      obtain ⟨bytes, time, hbytes⟩ := hfiles x.1 (List.mem_cons_of_mem _ hmem)
      refine ⟨hgone, ?_⟩
      rw [harrived, ha.keeps_tail hdirs delivered hmem hbytes, hbytes]

end Progress

end ProposalReview
