import Mathlib
import ProposalReview.Proofs.Consultation
import ProposalReview.Proofs.Filing.Approach
import ProposalReview.Proofs.Gates
/-!
What a real run tells the policy gate.

A request is made of the name, the text and the age of a proposal, and the scan takes these from the
inbox in an order that depends on the names alone. So two runs over inboxes that hold the same
proposals make the same requests, wherever their directories are, and the only name in a request is
the base name of the proposal.
-/

namespace ProposalReview

/-! ### What an inbox holds -/

namespace Inbox

variable {t t' : Tree} {inbox inbox' : Path} {n : Name} {bytes : Bytes} {time : Instant}
  {listed listed' : List Name}

/-- An inbox holds a file: it lists the name, and the path with this name leads to a file of these
bytes, last written at this time. A path that is too long for the system leads nowhere. -/
def Holds (t : Tree) (inbox : Path) (n : Name) (bytes : Bytes) (time : Instant) : Prop :=
  (∃ listed, t.names inbox = .ok listed ∧ n ∈ listed) ∧
    t.find (inbox.child n) = .ok (.file bytes time)

/-- Two inboxes hold the same proposals: the same names with the same bytes and times. -/
def SameProposals (t : Tree) (inbox : Path) (t' : Tree) (inbox' : Path) : Prop :=
  ∀ n bytes time, isProposalName n → (Holds t inbox n bytes time ↔ Holds t' inbox' n bytes time)

theorem nameLe_antisymm {a b : Name} (h : nameLe a b) (h' : nameLe b a) : a = b := by
  induction a generalizing b with
  | nil => cases b with
    | nil => rfl
    | cons y bs => cases h'
  | cons x as ih => cases b with
    | nil => cases h
    | cons y bs =>
      rw [nameLe_cons] at h h'
      rcases h with hlt | ⟨rfl, h⟩
      · rcases h' with hlt' | ⟨rfl, -⟩
        · exact absurd (UInt8.lt_trans hlt hlt') (UInt8.lt_irrefl x)
        · exact absurd hlt (UInt8.lt_irrefl _)
      · rcases h' with hlt' | ⟨-, h'⟩
        · exact absurd hlt' (UInt8.lt_irrefl _)
        · rw [ih h h']

instance : Std.Antisymm fun a b : Name => (nameLe a b : Prop) := ⟨fun _ _ => nameLe_antisymm⟩

theorem holds_iff (hlisted : t.names inbox = .ok listed) :
    Holds t inbox n bytes time ↔ n ∈ listed ∧ t.find (inbox.child n) = .ok (.file bytes time) := by
  simp [Holds, hlisted]

/-- A scan reads the names of just those proposals that the inbox holds. -/
theorem mem_readNames_iff_holds (hlisted : t.names inbox = .ok listed) :
    n ∈ readNames t inbox listed ↔ isProposalName n ∧ ∃ bytes time, Holds t inbox n bytes time := by
  simp only [mem_readNames, holds_iff hlisted]
  constructor
  · rintro ⟨hn, hp, hfile⟩
    obtain ⟨bytes, time, hfind⟩ := find_of_isFile hfile
    exact ⟨hp, bytes, time, hn, hfind⟩
  · rintro ⟨hp, bytes, time, hn, hfind⟩
    exact ⟨hn, hp, by rw [Tree.isFile, hfind]⟩

/-- Inboxes that hold the same proposals are read name by name in the same order: of the names that
are read, there is only one list in order. -/
theorem readNames_congr (ht : t.WellFormed) (ht' : t'.WellFormed)
    (hlisted : t.names inbox = .ok listed) (hlisted' : t'.names inbox' = .ok listed')
    (hsame : SameProposals t inbox t' inbox') :
    readNames t inbox listed = readNames t' inbox' listed' := by
  refine List.Perm.eq_of_pairwise' (sortNames_pairwise _) (sortNames_pairwise _) ?_
  refine (List.perm_ext_iff_of_nodup (readNames_nodup ht hlisted)
    (readNames_nodup ht' hlisted')).mpr fun n => ?_
  rw [mem_readNames_iff_holds hlisted, mem_readNames_iff_holds hlisted']
  refine and_congr_right fun hp => exists_congr fun bytes => exists_congr fun time => ?_
  exact hsame n bytes time hp

/-- A proposal that two inboxes hold alike reads alike. -/
theorem Read.agree {f f' : ProposalFile} (h : Read t inbox n f) (h' : Read t' inbox' n f')
    (hlisted : t.names inbox = .ok listed) (hn : n ∈ listed)
    (hsame : SameProposals t inbox t' inbox') :
    f.modified = f'.modified ∧ f.text = f'.text := by
  obtain ⟨bytes, hfind, htext⟩ := h.found
  obtain ⟨bytes', hfind', htext'⟩ := h'.found
  rw [h.path] at hfind
  obtain ⟨-, hfind₂⟩ := (hsame n _ _ h.proposal).mp ⟨⟨listed, hlisted, hn⟩, hfind⟩
  rw [h'.path, hfind₂] at hfind'
  obtain ⟨rfl, htime⟩ := Entry.file.inj (Except.ok.inj hfind')
  exact ⟨htime, htext.trans htext'.symm⟩

/-- Whether the system takes the name of each proposal in an inbox, and the path with it. -/
def Fits (t : Tree) (inbox : Path) : Prop :=
  ∀ n, isProposalName n → t.FileAt (inbox.place ++ [n]) →
    n.length ≤ nameLimit ∧ (inbox.child n).check = .ok ()

/-- Two inboxes have the same files of proposals below them, by what stands at their places. -/
def SameFiles (t : Tree) (inbox : Path) (t' : Tree) (inbox' : Path) : Prop :=
  ∀ n bytes time, isProposalName n → (t.entry? (inbox.place ++ [n]) = some (.file bytes time) ↔
    t'.entry? (inbox'.place ++ [n]) = some (.file bytes time))

/-- Once directories were made, an inbox without links holds the proposals that stood there before. -/
theorem holds_iff_of_grows (hgrows : t.Grows ∅ t') (hw : t'.WellFormed) (hl : t'.LinkFree)
    (hlisted : t'.names inbox = .ok listed) (hfits : Fits t inbox) (hn : isProposalName n) :
    Holds t' inbox n bytes time ↔ t.entry? (inbox.place ++ [n]) = some (.file bytes time) := by
  rw [holds_iff hlisted, mem_listed_iff hw hl hlisted]
  constructor
  · rintro ⟨⟨e, he⟩, hfind⟩
    obtain ⟨l, hlocate, hfile⟩ := Tree.find_ok hfind
    rw [hl.locate hlocate, Path.place_child (hw.valid he)] at hfile
    obtain ⟨bytes', time', hbefore⟩ := hgrows.fileAt (by simp) ⟨_, _, hfile⟩
    rw [← hfile, hgrows.keeps (by simp) hbefore, hbefore]
  · intro hbefore
    have hfile := hgrows.keeps (Set.notMem_empty _) hbefore
    obtain ⟨hlong, hcheck⟩ := hfits n hn ⟨_, _, hbefore⟩
    obtain ⟨l, hlocate, hdir, -⟩ := names_ok hlisted
    obtain rfl := hl.locate hlocate
    exact ⟨⟨_, hfile⟩, Tree.find_child (hw.valid hfile) hlong hcheck hlocate hdir hfile⟩

end Inbox

/-! ### What a gate is asked -/

namespace PolicyGate

variable {g g' : PolicyGate} {before before' qs : List GateRequest}

/-- The action that a gate gives in reply to a request, or why it gives none. -/
def reply (g : PolicyGate) (before : List GateRequest) (q : GateRequest) : Except GateError Action :=
  (g before q).bind (verdict q.requestedAction)

/-- The requests that a gate receives, of those that are to be made: up to the first that fails. -/
def asked (g : PolicyGate) : List GateRequest → List GateRequest → List GateRequest
  | _, [] => []
  | before, q :: qs =>
    match g.reply before q with
    | .ok _ => q :: g.asked (before ++ [q]) qs
    | .error _ => [q]

theorem asked_cons_ok {q : GateRequest} {a : Action} (h : g.reply before q = .ok a) :
    g.asked before (q :: qs) = q :: g.asked (before ++ [q]) qs := by rw [asked, h]

theorem asked_cons_error {q : GateRequest} {e : GateError} (h : g.reply before q = .error e) :
    g.asked before (q :: qs) = [q] := by rw [asked, h]

theorem asked_prefix (g : PolicyGate) (before qs : List GateRequest) : g.asked before qs <+: qs := by
  induction qs generalizing before with
  | nil => exact List.prefix_rfl
  | cons q qs ih =>
    cases h : g.reply before q with
    | ok a =>
      rw [asked_cons_ok h]
      exact List.cons_prefix_cons.mpr ⟨rfl, ih _⟩
    | error e =>
      rw [asked_cons_error h]
      exact List.cons_prefix_cons.mpr ⟨rfl, List.nil_prefix⟩

/-- Gates that answer alike from now on receive the same requests. -/
theorem asked_congr (h : ∀ sent q, g (before ++ sent) q = g' (before' ++ sent) q)
    (qs : List GateRequest) : g.asked before qs = g'.asked before' qs := by
  induction qs generalizing before before' with
  | nil => rfl
  | cons q qs ih =>
    have hreply : g.reply before q = g'.reply before' q := by
      rw [reply, reply, ← List.append_nil before, ← List.append_nil before', h [] q]
    have hrest : g.asked (before ++ [q]) qs = g'.asked (before' ++ [q]) qs :=
      ih fun sent q' => by rw [List.append_assoc, List.append_assoc, h]
    rw [asked, asked, hreply, hrest]

end PolicyGate

namespace Run

variable {s : Settings} {now : RunClock} {g g' : PolicyGate} {workspace : String}
  {w w' w₁ w₁' v v' : World} {ds : List Decision} {files files' : List ProposalFile}

/-- Consulting a gate makes the requests up to the first failure, if there is one; then its error names
the file and the action of the last request. -/
theorem consult_asked {r : Except RunError (List Decision)}
    (h : w.exec (consult g.review workspace ds) = (r, w')) :
    let all := ds.map (GateRequest.ofDecision workspace)
    w'.requests = w.requests ++ g.asked w.requests all ∧
      ((∃ final, r = .ok final ∧ g.asked w.requests all = all) ∨
        ∃ earlier q e, r = .error (.gate q.file q.requestedAction e) ∧
          g.asked w.requests all = earlier ++ [q]) := by
  -- on the decisions, for any requests received before: each one asked is received before the next
  induction ds generalizing w w' r with
  | nil =>
    cases h
    exact ⟨(List.append_nil _).symm, .inl ⟨[], rfl, rfl⟩⟩
  | cons d ds ih =>
    cases ha : g.answer workspace w.requests d with
    | error e =>
      rw [consult, World.exec_bind, consultOn_exec, ha] at h
      cases h
      simp only [List.map_cons, PolicyGate.asked_cons_error ha, true_and]
      exact .inr ⟨[], _, e, rfl, rfl⟩
    | ok a =>
      rw [consult, World.exec_bind, consultOn_exec, ha] at h
      simp only at h
      simp only [List.map_cons, PolicyGate.asked_cons_ok ha]
      rcases World.exec_bind_cases h with ⟨e, hrest, rfl⟩ | ⟨final, w₁, hrest, hlast⟩
      · obtain ⟨hasked, ⟨_, hok, -⟩ | ⟨earlier, q, e', he, hearlier⟩⟩ := ih hrest
        · cases hok
        · cases he
          refine ⟨by rw [hasked, List.append_assoc]; rfl,
            .inr ⟨GateRequest.ofDecision workspace d :: earlier, q, e', rfl, ?_⟩⟩
          exact congrArg (List.cons _) hearlier
      · obtain ⟨hasked, ⟨_, -, hall⟩ | ⟨_, _, _, he, -⟩⟩ := ih hrest
        · cases hlast
          exact ⟨by rw [hasked, List.append_assoc]; rfl, .inl ⟨_, rfl, congrArg (List.cons _) hall⟩⟩
        · cases he

/-- A run that gets past the survey makes the requests for the proposals up to the first failure, if
there is one; then its error names the file and the action of the last request. -/
theorem run_asked {r : Except RunError Outcome} (hreal : s.mode = .real)
    (hsurvey : w.exec (survey s now) = (.ok files, w₁))
    (hrun : w.exec (run s (some g.review) now) = (r, v)) :
    let all := files.map (requestFor s now)
    v.requests = w.requests ++ g.asked w.requests all ∧
      (((∀ file action e, r ≠ .error (.gate file action e)) ∧ g.asked w.requests all = all) ∨
        ∃ earlier q e, r = .error (.gate q.file q.requestedAction e) ∧
          g.asked w.requests all = earlier ++ [q]) := by
  obtain ⟨t, -, rfl⟩ := (survey_keeps s now).exec hsurvey
  have hparts := hrun.symm.trans (run_of_survey (some g) hsurvey)
  rw [Option.map_some, reviewed_real hreal] at hparts
  rcases World.exec_bind_cases hparts.symm with ⟨e, hconsult, rfl⟩ | ⟨final, w₂, hconsult, hcarry⟩
  · have hconsulted := consult_asked hconsult
    rw [map_requestFor] at hconsulted
    obtain ⟨hasked, ⟨_, hok, -⟩ | ⟨earlier, q, e', he, hearlier⟩⟩ := hconsulted
    · cases hok
    · cases he
      exact ⟨hasked, .inr ⟨earlier, q, e', rfl, hearlier⟩⟩
  · have hconsulted := consult_asked hconsult
    rw [map_requestFor] at hconsulted
    obtain ⟨hasked, ⟨_, -, hall⟩ | ⟨_, _, _, he, -⟩⟩ := hconsulted
    · rw [exec_storing] at hcarry
      rcases hstored : w₂.exec (carryOut s now final) with ⟨outcome, w₃⟩
      rw [hstored] at hcarry
      -- what follows the review asks no more
      obtain ⟨t', -, rfl⟩ := (carryOut_keeps s now final).exec hstored
      cases hcarry
      refine ⟨hasked, .inl ⟨fun file action e herr => ?_, hall⟩⟩
      cases outcome with
      | ok o => cases herr
      | error e => cases herr
    · cases he

/-! ### What the requests say -/

/-- What a request says about a proposal of some inbox that was read. -/
structure Names (gates : GateSettings) (f : ProposalFile) (q : GateRequest) : Prop where
  /-- The file is the last name of the proposal's path, as it is shown. -/
  base : ∃ n, f.path.baseName? = some n ∧ q.file = Text.decodeString n
  slashFree : '/' ∉ q.file.toList
  /-- This is the name that the proposal was judged by: the reasons list a failure of the rule for
  names just if the rule does not accept it. -/
  judged : q.file = f.name ∧
    (Gate.name.code gates.toThresholds ∈ q.reasons ↔ ¬ gates.nameRule.accepts q.file)

theorem names_requestFor {t : Tree} {inbox : Path} {n : Name} {f : ProposalFile}
    (h : Inbox.Read t inbox n f) (hn : Name.Valid n) (s : Settings) (now : RunClock) :
    Names s.gates f (requestFor s now f) := by
  have hfile : (requestFor s now f).file = Text.decodeString n :=
    (about_decideOn h s.gates now).fileName hn h.proposal
  refine ⟨⟨n, by rw [h.path, Path.baseName?_child hn], hfile⟩, ?_, ?_⟩
  · rw [hfile, Text.decodeString, String.toList_ofList, Text.slash_mem_decode]
    exact hn.no_slash
  · refine ⟨hfile.trans h.name.symm, ?_⟩
    rw [hfile, ← h.name]
    refine Candidate.mem_reasons.trans ?_
    simp [Gate.fails]

/-- Requests say nothing of a directory: proposals of the same name, time and text give the same. -/
theorem requestFor_congr {t t' : Tree} {inbox inbox' : Path} {n : Name} {f f' : ProposalFile}
    (h : Inbox.Read t inbox n f) (h' : Inbox.Read t' inbox' n f') (hn : Name.Valid n)
    (htime : f.modified = f'.modified) (htext : f.text = f'.text) (dirs' : Directories) :
    requestFor s now f = requestFor { s with dirs := dirs' } now f' := by
  have hfile := (about_decideOn h s.gates now).fileName hn h.proposal
  have hfile' := (about_decideOn h' s.gates now).fileName hn h'.proposal
  have hcandidate : (⟨f.name, Metadata.ofText f.text, now.hoursSince f.modified⟩ : Candidate)
      = ⟨f'.name, Metadata.ofText f'.text, now.hoursSince f'.modified⟩ := by
    rw [h.name, h'.name, htime, htext]
  rw [requestFor, requestFor, GateRequest.ofDecision, GateRequest.ofDecision, hfile, hfile']
  simp only [decideOn, Candidate.decide, hcandidate]
  rw [htime]

/-- Names that two inboxes hold alike give rise to the same requests, one by one. -/
theorem map_requestFor_congr {t t' : Tree} {inbox : Path} {dirs' : Directories} {listed ns : List Name}
    (hlisted : t.names inbox = .ok listed) (hns : ∀ n ∈ ns, n ∈ listed ∧ Name.Valid n)
    (hsame : Inbox.SameProposals t inbox t' dirs'.inbox)
    (h : List.Forall₂ (Inbox.Read t inbox) ns files)
    (h' : List.Forall₂ (Inbox.Read t' dirs'.inbox) ns files') :
    files.map (requestFor s now) = files'.map (requestFor { s with dirs := dirs' } now) := by
  induction h generalizing files' with
  | nil =>
    cases h'
    rfl
  | cons hf _ ih =>
    cases h' with
    | cons hf' hrest' =>
      obtain ⟨hn, hrest⟩ := List.forall_mem_cons.mp hns
      obtain ⟨htime, htext⟩ := hf.agree hf' hlisted hn.1 hsame
      rw [List.map_cons, List.map_cons, requestFor_congr hf hf' hn.2 htime htext dirs',
        ih hrest hrest']

/-- A survey that succeeds has listed the inbox and scanned what it holds. -/
theorem survey_listed (hw : w.tree.WellFormed) (h : w.exec (survey s now) = (.ok files, w₁)) :
    w₁.tree.WellFormed ∧ ∃ listed, w₁.tree.names s.dirs.inbox = .ok listed ∧
      Inbox.Scanned w₁.tree s.dirs.inbox (Inbox.readNames w₁.tree s.dirs.inbox listed) files := by
  obtain ⟨w₂, hset, hscan⟩ := survey_parts h
  obtain ⟨t, ht, rfl⟩ := (setUp_keeps s now).exec hset
  obtain ⟨rfl, listed, hlisted, hreads⟩ := Inbox.scan_parts hscan
  have hw₁ := ht.wellFormed hw
  exact ⟨hw₁, listed, hlisted, Inbox.scanned_of_parts hw₁ hlisted hreads⟩

/-- Inboxes that hold the same proposals give rise to the same requests. -/
theorem requests_congr {dirs' : Directories} (hw : w.tree.WellFormed) (hw' : w'.tree.WellFormed)
    (hsurvey : w.exec (survey s now) = (.ok files, w₁))
    (hsurvey' : w'.exec (survey { s with dirs := dirs' } now) = (.ok files', w₁'))
    (hsame : Inbox.SameProposals w₁.tree s.dirs.inbox w₁'.tree dirs'.inbox) :
    files.map (requestFor s now) = files'.map (requestFor { s with dirs := dirs' } now) := by
  obtain ⟨hw₁, listed, hlisted, hscan⟩ := survey_listed hw hsurvey
  obtain ⟨hw₁', listed', hlisted', hscan'⟩ := survey_listed hw' hsurvey'
  have hread' := hscan'.read
  rw [← Inbox.readNames_congr hw₁ hw₁' hlisted hlisted' hsame] at hread'
  exact map_requestFor_congr hlisted
    (fun n hn => ⟨(Inbox.mem_readNames.mp hn).1, hscan.valid n hn⟩) hsame hscan.read hread'

/-- What a run over some proposals has told the gate, and what it says itself of a failure. -/
structure Tells (s : Settings) (now : RunClock) (w v : World) (files : List ProposalFile)
    (r : Except RunError Outcome) (asked : List GateRequest) : Prop where
  received : v.requests = w.requests ++ asked
  inOrder : asked <+: files.map (requestFor s now)
  named : ∀ q ∈ asked, ∃ f ∈ files, Names s.gates f q
  /-- Either all requests were made, or the run fails with an error of the gate, which is reported
  under the name in the last request. -/
  reported : ((∀ file action e, r ≠ .error (.gate file action e)) ∧
      asked = files.map (requestFor s now)) ∨
    ∃ earlier q e, r = .error (.gate q.file q.requestedAction e) ∧ asked = earlier ++ [q]

theorem run_tells {r : Except RunError Outcome} (hreal : s.mode = .real) (hw : w.tree.WellFormed)
    (hsurvey : w.exec (survey s now) = (.ok files, w₁))
    (hrun : w.exec (run s (some g.review) now) = (r, v)) :
    Tells s now w v files r (g.asked w.requests (files.map (requestFor s now))) := by
  obtain ⟨hreceived, hreported⟩ := run_asked hreal hsurvey hrun
  obtain ⟨-, -, ns, hscan⟩ := survey_ok hw hsurvey
  refine ⟨hreceived, g.asked_prefix _ _, fun q hq => ?_, hreported⟩
  obtain ⟨f, hf, rfl⟩ := List.mem_map.mp ((g.asked_prefix _ _).subset hq)
  obtain ⟨n, hread, hn⟩ := hscan.of_mem hf
  exact ⟨f, hf, names_requestFor hread hn s now⟩

/-- Where no samples are wanted, a survey that succeeds finds the proposals that stood in the inbox. -/
theorem survey_holds (hseed : s.seedSamples = false) (hw : w.tree.WellFormed) (hl : w.tree.LinkFree)
    (hfits : Inbox.Fits w.tree s.dirs.inbox) (hsurvey : w.exec (survey s now) = (.ok files, w₁))
    {n : Name} (hn : Inbox.isProposalName n) (bytes : Bytes) (time : Instant) :
    Inbox.Holds w₁.tree s.dirs.inbox n bytes time ↔
      w.tree.entry? (s.dirs.inbox.place ++ [n]) = some (.file bytes time) := by
  obtain ⟨hw₁, listed, hlisted, -⟩ := survey_listed hw hsurvey
  obtain ⟨t, hextends, rfl⟩ := (survey_keeps s now).exec hsurvey
  obtain ⟨_, hgrows, hafter⟩ := (survey_keeps_of (setUp_grows hseed now)).exec hsurvey
  cases hafter
  exact Inbox.holds_iff_of_grows hgrows hw₁ (hextends.linkFree hl) hlisted hfits hn

/-- Two real runs without samples whose settings differ in their directories only, over inboxes that hold
the same files before them, make the same requests, as `Tells` says. -/
theorem run_requests_ignore_layout {r r' : Except RunError Outcome} {dirs' : Directories}
    (hreal : s.mode = .real) (hseed : s.seedSamples = false) (hw : w.tree.WellFormed)
    (hl : w.tree.LinkFree) (hw' : w'.tree.WellFormed) (hl' : w'.tree.LinkFree)
    (hfits : Inbox.Fits w.tree s.dirs.inbox) (hfits' : Inbox.Fits w'.tree dirs'.inbox)
    (hsame : Inbox.SameFiles w.tree s.dirs.inbox w'.tree dirs'.inbox)
    (hsurvey : w.exec (survey s now) = (.ok files, w₁))
    (hsurvey' : w'.exec (survey { s with dirs := dirs' } now) = (.ok files', w₁'))
    (hgates : ∀ sent q, g (w.requests ++ sent) q = g' (w'.requests ++ sent) q)
    (hrun : w.exec (run s (some g.review) now) = (r, v))
    (hrun' : w'.exec (run { s with dirs := dirs' } (some g'.review) now) = (r', v')) :
    ∃ asked, Tells s now w v files r asked ∧
      Tells { s with dirs := dirs' } now w' v' files' r' asked := by
  have hheld : Inbox.SameProposals w₁.tree s.dirs.inbox w₁'.tree dirs'.inbox := by
    intro n bytes time hn
    rw [survey_holds hseed hw hl hfits hsurvey hn, hsame n bytes time hn,
      survey_holds (s := { s with dirs := dirs' }) hseed hw' hl' hfits' hsurvey' hn]
  refine ⟨_, run_tells hreal hw hsurvey hrun, ?_⟩
  rw [requests_congr hw hw' hsurvey hsurvey' hheld, PolicyGate.asked_congr hgates]
  exact run_tells hreal hw' hsurvey' hrun'

/-- Two real runs whose settings differ in their directories only, over inboxes that hold the same
proposals once both have set up, at the same time and with gates that answer alike, make the same
requests. Every request names its proposal by its base name alone, which is also the name that the
rule for names was applied to and that an error of the gate reports. -/
theorem run_requests_ignore_directories {r r' : Except RunError Outcome} {dirs' : Directories}
    (hreal : s.mode = .real) (hw : w.tree.WellFormed) (hw' : w'.tree.WellFormed)
    (hsurvey : w.exec (survey s now) = (.ok files, w₁))
    (hsurvey' : w'.exec (survey { s with dirs := dirs' } now) = (.ok files', w₁'))
    (hsame : Inbox.SameProposals w₁.tree s.dirs.inbox w₁'.tree dirs'.inbox)
    (hgates : ∀ sent q, g (w.requests ++ sent) q = g' (w'.requests ++ sent) q)
    (hrun : w.exec (run s (some g.review) now) = (r, v))
    (hrun' : w'.exec (run { s with dirs := dirs' } (some g'.review) now) = (r', v')) :
    ∃ asked, Tells s now w v files r asked ∧
      Tells { s with dirs := dirs' } now w' v' files' r' asked := by
  refine ⟨_, run_tells hreal hw hsurvey hrun, ?_⟩
  rw [requests_congr hw hw' hsurvey hsurvey' hsame, PolicyGate.asked_congr hgates]
  exact run_tells hreal hw' hsurvey' hrun'

/-- Other directories; the path of the inbox is no text. -/
def otherDirs : Directories := ⟨⟨[0xff]⟩, ⟨[0x71]⟩, ⟨[0x65]⟩, ⟨[0x6f]⟩, ⟨[0x6d]⟩⟩

/-- The tree with both proposals in the other inbox. -/
def twoElsewhere : Tree :=
  ⟨[([[0xff]], .directory), ([[0xff], Specimen.otherName], .file [2] ⟨0, 0⟩),
    ([[0xff], Specimen.name], .file [1] ⟨0, 0⟩)]⟩

theorem twoElsewhere_wellFormed : twoElsewhere.WellFormed := .of_entries (by decide) (by decide)

/-- This tree, once a run was set up. -/
def preparedElsewhere : Tree :=
  ⟨([[0x6d]], .directory) :: ([[0x65]], .directory) :: ([[0x71]], .directory) ::
    twoElsewhere.entries⟩

theorem survey_twoElsewhere :
    World.exec { tree := twoElsewhere } (survey { Specimen.settings with dirs := otherDirs } (.utc ⟨0, 0⟩))
      = (.ok [{ Specimen.proposal with path := otherDirs.inbox.child Specimen.name },
          { Specimen.otherProposal with path := otherDirs.inbox.child Specimen.otherName }],
        { tree := preparedElsewhere }) := rfl

/-- Two proposals in an inbox whose path is no text are asked about as those in another one, and the
failure on the second is reported under its name. -/
theorem run_requests_ignore_directories_failsSecond :
    let s := Specimen.settings
    let s' := { s with dirs := otherDirs }
    let now : RunClock := .utc ⟨0, 0⟩
    let w : World := { tree := Specimen.twoProposals }
    let w' : World := { tree := twoElsewhere }
    s.mode = .real ∧ w.tree.WellFormed ∧ w'.tree.WellFormed ∧
      ∃ files w₁ files' w₁', w.exec (survey s now) = (.ok files, w₁) ∧
        w'.exec (survey s' now) = (.ok files', w₁') ∧
        Inbox.SameProposals w₁.tree s.dirs.inbox w₁'.tree s'.dirs.inbox ∧
        ∃ r v r' v' asked, w.exec (run s (some failsSecond.review) now) = (r, v) ∧
          w'.exec (run s' (some failsSecond.review) now) = (r', v') ∧
          Tells s now w v files r asked ∧ Tells s' now w' v' files' r' asked ∧
          asked.length = 2 := by
  intro s s' now w w'
  have hsame : Inbox.SameProposals Specimen.preparedTree s.dirs.inbox preparedElsewhere
      s'.dirs.inbox := by
    have hlisted : Specimen.preparedTree.names s.dirs.inbox
        = .ok [Specimen.name, Specimen.otherName] := rfl
    have hlisted' : preparedElsewhere.names s'.dirs.inbox
        = .ok [Specimen.otherName, Specimen.name] := rfl
    have hfind : ∀ n ∈ [Specimen.otherName, Specimen.name],
        Specimen.preparedTree.find (s.dirs.inbox.child n)
          = preparedElsewhere.find (s'.dirs.inbox.child n) := by
      simp only [List.forall_mem_cons]
      exact ⟨rfl, rfl, by simp⟩
    intro n bytes time _
    rw [Inbox.holds_iff hlisted, Inbox.holds_iff hlisted', (List.Perm.swap _ _ []).mem_iff]
    exact and_congr_right fun hn => by rw [hfind n hn]
  rcases hrun : w.exec (run s (some failsSecond.review) now) with ⟨r, v⟩
  rcases hrun' : w'.exec (run s' (some failsSecond.review) now) with ⟨r', v'⟩
  obtain ⟨asked, htells, htells'⟩ := run_requests_ignore_directories rfl
    Specimen.twoProposals_wellFormed twoElsewhere_wellFormed Specimen.survey_twoProposals
    survey_twoElsewhere hsame (fun _ _ => rfl) hrun hrun'
  refine ⟨rfl, Specimen.twoProposals_wellFormed, twoElsewhere_wellFormed, _, _, _, _,
    Specimen.survey_twoProposals, survey_twoElsewhere, hsame, r, v, r', v', asked, rfl, rfl,
    htells, htells', ?_⟩
  have hlength : (w.exec (run s (some failsSecond.review) now)).2.requests.length = 2 := rfl
  rw [hrun, htells.received] at hlength
  exact hlength

end Run

end ProposalReview
