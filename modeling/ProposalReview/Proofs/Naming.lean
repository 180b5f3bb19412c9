import Mathlib
import ProposalReview.Proofs.Calendar
import ProposalReview.Proofs.Inbox
/-!
The names of what a run moves and writes.

A decision about a proposal in the inbox keeps the proposal's base name wherever the path is shown as
a text and read again. So its file goes to that name in the directory of its action, and its incident
and the summary go to one name in the directories that are theirs.
-/

namespace ProposalReview

/-! ### Extensions -/

theorem Name.take_before (before after : Name) : (before ++ dot :: after).take
    ((before ++ dot :: after).length - after.length - 1) = before := by
  have hlen : (before ++ dot :: after).length - after.length - 1 = before.length := by
    simp
    omega
  rw [hlen, List.take_left]

/-- A name is parted at its last dot, if something stands before it. -/
theorem Name.split?_eq_some {n before after : Name} : n.split? = some (before, after) ↔
    n ≠ Path.parentName ∧ before ≠ [] ∧ dot ∉ after ∧ n = before ++ dot :: after := by
  constructor
  · intro h
    rw [split?] at h
    simp only [Option.ite_none_left_eq_some, Option.some_inj, Prod.mk.injEq, not_or] at h
    obtain ⟨⟨hparent, hlen, hne⟩, rfl, rfl⟩ := h
    have hdot : dot ∉ (n.reverse.takeWhile (· != dot)).reverse := by
      intro hdot
      have := List.mem_takeWhile_imp (List.mem_reverse.mp hdot)
      simp at this
    refine ⟨hparent, hne, hdot, ?_⟩
    have hsplit := List.takeWhile_append_dropWhile (p := (· != dot)) (l := n.reverse)
    cases hd : n.reverse.dropWhile (· != dot) with
    | nil =>
      rw [hd, List.append_nil] at hsplit
      simp [hsplit] at hlen
    | cons b bs =>
      have hb : b = dot := by
        have := List.head_dropWhile_not (· != dot) (l := n.reverse) (by simp [hd])
        simpa [hd] using this
      rw [hd, hb] at hsplit
      have hn := congrArg List.reverse hsplit
      simp only [List.reverse_append, List.reverse_cons, List.reverse_reverse,
        List.append_assoc, List.singleton_append] at hn
      generalize (n.reverse.takeWhile (· != dot)).reverse = after at hn ⊢
      rw [← hn, take_before]
  · rintro ⟨hparent, hne, hdot, rfl⟩
    have hafter : ((before ++ dot :: after).reverse.takeWhile (· != dot)).reverse = after := by
      rw [List.reverse_append, List.reverse_cons, List.append_assoc, List.singleton_append,
        List.takeWhile_append_of_pos, List.takeWhile_cons_of_neg]
      · simp
      · simp
      · intro b hb
        simpa using fun heq : b = dot => hdot (heq ▸ List.mem_reverse.mp hb)
    rw [split?]
    simp only [hafter, take_before]
    simp [hparent, hne]
    omega

theorem Name.mem_stem {n : Name} {b : UInt8} (h : b ∈ n.stem) : b ∈ n := by
  rw [stem, split?] at h
  split_ifs at h
  · simpa using h
  · exact List.mem_of_mem_take (by simpa using h)

/-! ### Names that are shown and read again -/

namespace Inbox

variable {n : Name}

theorem decode_proposalExtension : Text.decode proposalExtension = ['m', 'd'] := by
  rw [proposalExtension, Text.encodeString, Text.decode_encode]
  rfl

theorem split?_proposal (h : isProposalName n) :
    n.split? = some (n.stem, proposalExtension) := by
  obtain ⟨⟨before, after⟩, hsplit, rfl⟩ := Option.map_eq_some_iff.mp (beq_iff_eq.mp h)
  rw [Name.stem, hsplit]
  rfl

theorem decode_proposal (h : isProposalName n) :
    Text.decode n = Text.decode n.stem ++ ['.', 'm', 'd'] := by
  obtain ⟨-, -, -, hn⟩ := Name.split?_eq_some.mp (split?_proposal h)
  conv_lhs => rw [hn]
  rw [Text.decode_append_ascii (by decide), decode_proposalExtension]
  rfl

/-- A proposal's name keeps its extension when it was shown and read again. -/
theorem shown_proposal (h : isProposalName n) : Text.encode (Text.decode n)
    = Text.encode (Text.decode n.stem) ++ dot :: proposalExtension := by
  rw [decode_proposal h, Text.encode_append]
  rfl

theorem stem_shown (h : isProposalName n) :
    Name.stem (Text.encode (Text.decode n)) = Text.encode (Text.decode n.stem) := by
  obtain ⟨-, hne, hdot, -⟩ := Name.split?_eq_some.mp (split?_proposal h)
  have hshown : Text.encode (Text.decode n.stem) ≠ [] := by
    intro hnil
    have hchars := congrArg Text.decode hnil
    rw [Text.decode_encode, Text.decode_nil] at hchars
    exact Text.decode_ne_nil hne hchars
  have hsplit : Name.split? (Text.encode (Text.decode n))
      = some (Text.encode (Text.decode n.stem), proposalExtension) := by
    refine Name.split?_eq_some.mpr ⟨?_, hshown, hdot, shown_proposal h⟩
    rw [shown_proposal h]
    intro hparent
    have hlen := congrArg List.length hparent
    have hext : proposalExtension.length = 2 := rfl
    rw [List.length_append, List.length_cons, hext, Path.parentName] at hlen
    simp at hlen
  rw [Name.stem, hsplit]
  rfl

end Inbox

/-- The name of a proposal is valid also after it was shown as a text and read again. -/
theorem Name.Valid.shown {n : Name} (h : Name.Valid n) (hp : Inbox.isProposalName n) :
    Name.Valid (Text.encode (Text.decode n)) := by
  have hslash : slash ∉ Text.encode (Text.decode n) := by
    rw [Text.slash_mem_encode, Text.slash_mem_decode]
    exact h.no_slash
  have hlast : (Text.encode (Text.decode n)).getLast? = some 0x64 := by
    rw [Inbox.shown_proposal hp, List.getLast?_append]
    rfl
  refine ⟨?_, hslash, ?_, ?_⟩
  · rintro heq
    rw [heq] at hlast
    cases hlast
  · rintro heq
    rw [heq] at hlast
    cases hlast
  · rintro heq
    rw [heq] at hlast
    cases hlast

theorem Path.baseName?_shown {n : Name} (h : Name.Valid n) (hp : Inbox.isProposalName n) (p : Path) :
    (Path.ofString (p.child n).display).baseName? = some (Text.encode (Text.decode n)) := by
  have hv := h.shown hp
  have hbytes : (Path.ofString (p.child n).display).bytes
      = Text.encode (Text.decode (p.child n).bytes) := by
    simp [ofString, display, Text.decodeString, Text.encodeString]
  have hn := splitSlash_of_not_mem hv.no_slash
  rcases child_bytes h p with ⟨-, hc⟩ | ⟨as, -, hc⟩
  · exact baseName?_of_splitSlash hv [] (by rw [hbytes, hc, hn, List.nil_append])
  · refine baseName?_of_splitSlash hv (splitSlash (Text.encode (Text.decode as))) ?_
    rw [hbytes, hc, Text.decode_append_slash, Text.encode_append, Text.encode_slash,
      splitSlash_append_slash, hn]

/-! ### Names of artifacts -/

/-- A text that starts with no dot and holds no slash is a valid name. -/
theorem Name.valid_encodeString {s : String} {c : Char} {cs : List Char} (hs : s.toList = c :: cs)
    (hc : c ≠ '.') (hslash : '/' ∉ s.toList) : Name.Valid (Text.encodeString s) := by
  have hdot : ∀ ns, Text.encodeString s ≠ dot :: ns := by
    intro ns h
    have hd := congrArg Text.decode h
    rw [Text.encodeString, Text.decode_encode, hs, ← List.nil_append (dot :: ns),
      Text.decode_append_ascii (by decide), Text.decode_nil] at hd
    exact hc (List.cons.inj hd).1
  refine ⟨fun h => ?_, ?_, hdot _, hdot _⟩
  · have hd := congrArg Text.decode h
    rw [Text.encodeString, Text.decode_encode, hs, Text.decode_nil] at hd
    cases hd
  · rwa [Text.encodeString, Text.slash_mem_encode]

/-! ### Decisions about proposals -/

/-- Whether a decision is about the proposal of a name in the inbox, and moves it. -/
structure Decision.About (inbox : Path) (n : Name) (d : Decision) : Prop where
  source : d.source = inbox.child n
  file : d.file = (inbox.child n).display
  moves : d.action ≠ .hold

variable {inbox : Path} {n : Name} {d : Decision}

theorem Decision.override_eq (d : Decision) (a : Action) : d.override a = { d with
    action := a
    warnings := if a = d.action then d.warnings else d.warnings ++ [overrideWarning] } := by
  rw [override]
  split
  · next h => rw [h]
  · rfl

@[simp] theorem Decision.action_override (d : Decision) (a : Action) : (d.override a).action = a := by
  rw [override_eq]

@[simp] theorem Decision.source_override (d : Decision) (a : Action) :
    (d.override a).source = d.source := by
  rw [override_eq]

@[simp] theorem Decision.file_override (d : Decision) (a : Action) : (d.override a).file = d.file := by
  rw [override_eq]

@[simp] theorem Decision.reasons_override (d : Decision) (a : Action) :
    (d.override a).reasons = d.reasons := by
  rw [override_eq]

theorem Decision.About.override (h : d.About inbox n) {a : Action} (ha : a ≠ .hold) :
    (d.override a).About inbox n :=
  ⟨by rw [d.source_override, h.source], by rw [d.file_override, h.file], by rwa [d.action_override]⟩

theorem Run.about_decideOn {t : Tree} {f : ProposalFile} (h : Inbox.Read t inbox n f)
    (gates : GateSettings) (now : RunClock) : (decideOn gates now f).About inbox n := by
  refine ⟨h.path, ?_, ?_⟩
  · rw [← h.path]
    rfl
  · rw [decideOn, Candidate.decide]
    simp only
    split
    · decide
    · decide

/-- The action of a verdict is one that moves, if the local one is. -/
theorem verdict_ne_hold {a a' : Action} {reply : JsonObject} (ha : a ≠ .hold)
    (h : verdict a reply = .ok a') : a' ≠ .hold := by
  rw [verdict] at h
  split_ifs at h
  · cases h
    decide
  · cases h
    decide
  · cases h
    decide
  · cases h
    exact ha

namespace Decision.About

theorem sourcePath (h : d.About inbox n) (hn : Name.Valid n) : d.sourcePath = inbox.child n := by
  rw [Decision.sourcePath, h.source, Path.child_ne_empty hn]
  rfl

theorem fileName (h : d.About inbox n) (hn : Name.Valid n) (hp : Inbox.isProposalName n) :
    d.fileName = Text.decodeString n := by
  rw [Decision.fileName, h.file, Path.baseName?_shown hn hp]
  simp [Text.decodeString, Text.decode_encode]

theorem fileStem (h : d.About inbox n) (hn : Name.Valid n) (hp : Inbox.isProposalName n) :
    d.fileStem = Text.decodeString n.stem := by
  rw [Decision.fileStem, h.file, Path.baseName?_shown hn hp]
  simp [Inbox.stem_shown hp, Text.decodeString, Text.decode_encode]

theorem slash_not_mem_fileStem (h : d.About inbox n) (hn : Name.Valid n)
    (hp : Inbox.isProposalName n) : '/' ∉ d.fileStem.toList := by
  rw [h.fileStem hn hp, Text.decodeString, String.toList_ofList, Text.slash_mem_decode]
  exact fun hs => hn.no_slash (Name.mem_stem hs)

/-- The stem of a proposal's name is what the extension was taken from. -/
theorem fileStem_append (h : d.About inbox n) (hn : Name.Valid n) (hp : Inbox.isProposalName n) :
    d.fileStem ++ ".md" = d.fileName := by
  rw [h.fileStem hn hp, h.fileName hn hp]
  simp [Text.decodeString, Inbox.decode_proposal hp]

theorem incident_fileName (h : d.About inbox n) (hn : Name.Valid n) (hp : Inbox.isProposalName n)
    (now : RunClock) : Incident.fileName d now = "INC-" ++ now.stamp ++ "-" ++ d.fileName := by
  rw [Incident.fileName, String.append_assoc, h.fileStem_append hn hp]

/-- The name of an incident is valid. -/
theorem valid_incident (h : d.About inbox n) (hn : Name.Valid n) (hp : Inbox.isProposalName n)
    (now : RunClock) : Name.Valid (Text.encodeString (Incident.fileName d now)) := by
  have htext : (Incident.fileName d now).toList = 'I' :: ("NC-".toList ++ now.stamp.toList ++ ['-']
      ++ d.fileStem.toList ++ ".md".toList) := by
    simp [Incident.fileName]
  have hslash : '/' ∉ (Incident.fileName d now).toList := by
    simp [htext, now.slash_not_mem_stamp, h.slash_not_mem_fileStem hn hp]
  exact Name.valid_encodeString htext (by decide) hslash

end Decision.About

/-- The directory that an action moves files to. -/
def Directories.target (dirs : Directories) (a : Action) : Path :=
  if a = .promote then dirs.applied else dirs.demoted

namespace Filing

variable {f : Filing}

theorem destination_eq (h : d.About inbox n) (hn : Name.Valid n) :
    f.destination d = (f.dirs.target d.action).child n := by
  have hname : nameOf d = ⟨n⟩ := by
    rw [nameOf, h.sourcePath hn, Path.baseName?_child hn]
  rw [destination, Directories.target]
  cases ha : d.action with
  | promote =>
    rw [hname]
    rfl
  | demote =>
    rw [hname]
    rfl
  | hold => exact absurd ha h.moves

theorem place_destination (h : d.About inbox n) (hn : Name.Valid n) :
    (f.destination d).place = (f.dirs.target d.action).place ++ [n] := by
  rw [destination_eq h hn, Path.place_child hn]

theorem place_incidentPath_eq (h : d.About inbox n) (hn : Name.Valid n) (hp : Inbox.isProposalName n) :
    (f.incidentPath d).place
      = f.dirs.incidents.place ++ [Text.encodeString (Incident.fileName d f.now)] :=
  Path.place_child (h.valid_incident hn hp f.now) _

theorem place_incidentPath (h : d.About inbox n) (hn : Name.Valid n) (hp : Inbox.isProposalName n) :
    ∃ m, (f.incidentPath d).place = f.dirs.incidents.place ++ [m] :=
  ⟨_, place_incidentPath_eq h hn hp⟩

theorem place_summaryPath_eq (f : Filing) : f.summaryPath.place = f.dirs.log.place
    ++ [Text.encodeString ("pipeline_manager_" ++ (if f.mode.isDryRun then "dryrun" else "run")
      ++ "_" ++ f.now.stamp ++ ".json")] := by
  let kind := if f.mode.isDryRun then "dryrun" else "run"
  let name := "pipeline_manager_" ++ kind ++ "_" ++ f.now.stamp ++ ".json"
  have htext : name.toList = 'p' :: ("ipeline_manager_".toList ++ kind.toList ++ ['_']
      ++ f.now.stamp.toList ++ ".json".toList) := by
    simp [name]
  have hkind : '/' ∉ kind.toList := by
    simp only [kind]
    split
    · decide
    · decide
  have hslash : '/' ∉ name.toList := by
    simp [htext, f.now.slash_not_mem_stamp, hkind]
  exact Path.place_child (Name.valid_encodeString htext (by decide) hslash) _

theorem place_summaryPath (f : Filing) : ∃ m, f.summaryPath.place = f.dirs.log.place ++ [m] :=
  ⟨_, f.place_summaryPath_eq⟩

end Filing

end ProposalReview
