import Mathlib
import ProposalReview.Proofs.Filing.Effect
import ProposalReview.Proofs.Filing.Readback
/-!
Setting up once is enough.

Without links, a directory that was made stands together with all those on the way to it, and a sample
that was wanted is there. They go on standing in every tree that keeps its directories and has something
wherever there was something, and in such a tree setting up changes nothing.
-/

namespace ProposalReview

namespace Tree

variable {t t' : Tree} {m : Location} {p : Path}

/-- Whether a path and everything on the way to it are directories. -/
def Stands (t : Tree) (p : Path) : Prop := ∀ l ∈ p.way, t.entry? l = some .directory

/-- A walk without links has gone through directories only, up to its last step. -/
theorem walk_directories (hw : t.WellFormed) (hf : t.LinkFree) {follow : Bool} {ns ms : List Name}
    {s : Stop} (hm : t.entry? m = some .directory) (hs : t.walk follow m ns = .ok s)
    (hms : ms <+: ns) (hne : ms ≠ ns) : t.entry? (ms.foldl Location.descend m) = some .directory := by
  induction ns generalizing m ms with
  | nil => exact absurd (List.prefix_nil.mp hms) hne
  | cons n ns ih =>
    cases ms with
    | nil => exact hm
    | cons k ks =>
      obtain ⟨rfl, hks⟩ := List.cons_prefix_cons.mp hms
      have hne : ks ≠ ns := by
        rintro rfl
        exact hne rfl
      rw [List.foldl_cons, Location.descend]
      rcases walk_cons hs with ⟨h1, hs⟩ | ⟨h2, hs⟩ | ⟨h1, h2, hs⟩
      · rw [if_pos h1]
        exact ih hm hs hks hne
      · rw [if_neg (by rw [h2]; decide), if_pos h2]
        exact ih (hw.dropLast hm) hs hks hne
      · rw [if_neg h1, if_neg h2]
        rcases hs with ⟨hdir, hs⟩ | ⟨-, rfl, -, -⟩ | ⟨target, hlink, -⟩
        · exact ih hdir hs hks hne
        · exact absurd (List.prefix_nil.mp hks) hne
        · exact absurd hlink (hf _ target)

/-- The names of a path can be read with single dots: these lead nowhere else. -/
theorem stands_of_prefixes (h : ∀ ms, ms <+: (Path.splitSlash p.bytes).filter (· ≠ []) →
    t.entry? (ms.foldl Location.descend []) = some .directory) : t.Stands p := by
  intro l hl
  rw [Path.way, List.mem_map] at hl
  obtain ⟨ns, hns, rfl⟩ := hl
  rw [List.mem_inits, Path.names] at hns
  obtain ⟨ms, hms, rfl⟩ := List.prefix_filter_iff.mp hns
  rw [Path.foldl_descend_names]
  exact h _ (hms.filter _)

/-- A path that leads to a directory stands. -/
theorem stands_of_isDirectory (hw : t.WellFormed) (hf : t.LinkFree) (h : t.isDirectory p) :
    t.Stands p := by
  obtain ⟨l, hl, hdir⟩ := find_ok (isDirectory_iff.mp h)
  obtain ⟨_, -, hwalk⟩ := Except.ok_of_bind hl
  rcases walkLinks_ok hwalk with hwalk | ⟨_, _, _, -, hleap, -⟩
  · obtain rfl := Stop.atEnd.inj (walk_linkFree hf hwalk)
    refine stands_of_prefixes fun ms hms => ?_
    by_cases hall : ms = p.steps
    · rw [hall, hdir]
    · exact walk_directories hw hf rfl hwalk (hms.trans (List.prefix_append _ _)) hall
  · exact absurd (walk_linkFree hf hleap) (by simp)

/-- A directory that was made stands. -/
theorem makeDirectory_stands (hw : t.WellFormed) (hf : t.LinkFree)
    (h : t.makeDirectory p = .ok t') : t'.Stands p := by
  obtain ⟨l, hl, hfree, rfl⟩ := makeDirectory_ok h
  have hne : l ≠ [] := by
    rintro rfl
    simp at hfree
  obtain ⟨d, ns, n, hraw, h1, h2, -, rfl, hwalk⟩ := locateName_some hl
  refine stands_of_prefixes fun ms hms => ?_
  rw [entry?_put hne]
  split_ifs with hlast
  · rfl
  rw [hraw] at hms
  rcases List.prefix_concat_iff.mp hms with rfl | hms
  · -- all names together lead to the new directory
    have hd := walkLinks_linkFree hf hwalk
    rw [List.foldl_append] at hlast hd
    exact absurd (by simp [hd, Location.descend, h1, h2]) hlast
  · rcases walkLinks_ok hwalk with hwalk | ⟨_, _, _, -, hleap, -⟩
    · refine walk_directories hw hf rfl hwalk (hms.trans (List.prefix_append _ _)) ?_
      rintro rfl
      simpa using hms.length_le
    · exact absurd (walk_linkFree hf hleap) (by simp)

/-- Where a path stands it is not made again. -/
theorem Stands.not_made (h : t.Stands p) (hf : t.LinkFree) {q : Path} (hq : q ∈ p :: p.above) :
    t.makeDirectory q ≠ .ok t' := by
  intro hmade
  obtain ⟨l, hl, hfree, -⟩ := makeDirectory_ok hmade
  rw [hf.locateName hl, h _ (Path.place_mem_way hq)] at hfree
  cases hfree

end Tree

/-! ### Making directories -/

variable {w w' : World} {p : Path} {s : Settings} {now : RunClock}

/-- A program goes on where the one before it ended. -/
theorem World.run_bind {α β : Type} {x : StateM World α} {f : α → StateM World β} {a : α} {w₁ : World}
    (h : x.run w = (a, w₁)) : (x >>= f).run w = (f a).run w₁ := by
  rw [StateT.run_bind, h]
  rfl

namespace Filesystem

theorem makeDirectory_run (w : World) (p : Path) :
    (makeDirectory p : StateM World _).run w = match w.tree.makeDirectory p with
      | .ok t => (.ok (), { w with tree := t })
      | .error cause => (.error cause, w) := rfl

theorem unlessDirectory_run (w : World) (p : Path) (cause : FileFault) :
    (unlessDirectory p cause : StateM World _).run w
      = (if w.tree.isDirectory p then .ok () else .error cause, w) := by
  rw [unlessDirectory, StateT.run_bind]
  change StateT.run (if w.tree.isDirectory p then _ else _) w = _
  split_ifs <;> rfl

/-- Whether a directory is made, or is there already and nothing changes. -/
def Provides (p : Path) (w w' : World) : Prop :=
  (∃ t, w.tree.makeDirectory p = .ok t ∧ w' = { w with tree := t }) ∨
    (∃ cause, w.tree.makeDirectory p = .error cause) ∧ w.tree.isDirectory p ∧ w' = w

theorem provides_of_unlessDirectory {cause : FileFault} (hmake : w.tree.makeDirectory p = .error cause)
    (h : (unlessDirectory p cause : StateM World _).run w = (.ok (), w')) : Provides p w w' := by
  rw [unlessDirectory_run] at h
  split_ifs at h with hdir
  · cases h
    exact .inr ⟨⟨cause, hmake⟩, hdir, rfl⟩
  · cases h

theorem makeOne_provides (h : (makeOne p : StateM World _).run w = (.ok (), w')) :
    Provides p w w' := by
  rw [makeOne, StateT.run_bind, makeDirectory_run] at h
  rcases hmake : w.tree.makeDirectory p with cause | t
  · rw [hmake] at h
    exact provides_of_unlessDirectory hmake h
  · rw [hmake] at h
    cases h
    exact .inl ⟨t, hmake, rfl⟩

/-- A directory is provided, or the one above it is missing: then it is provided after those above. -/
theorem makeChain_cases {above : List Path}
    (h : (makeChain (p :: above) : StateM World _).run w = (.ok (), w')) :
    Provides p w w' ∨ w.tree.makeDirectory p = .error .notFound ∧
      ∃ w₁, (makeChain above : StateM World _).run w = (.ok (), w₁) ∧ Provides p w₁ w' := by
  rw [makeChain, StateT.run_bind, makeDirectory_run] at h
  rcases hmake : w.tree.makeDirectory p with cause | t
  · rw [hmake] at h
    by_cases hmiss : cause = .notFound
    · subst hmiss
      simp only at h
      rcases habove : (makeChain above : StateM World _).run w with ⟨cause | _, w₁⟩
      · have h := (World.run_bind habove).symm.trans h
        cases h
      · have h := (World.run_bind habove).symm.trans h
        exact .inr ⟨rfl, w₁, rfl, makeOne_provides h⟩
    · have h : (unlessDirectory p cause : StateM World _).run w = (.ok (), w') := by
        cases cause <;> first | exact h | exact absurd rfl hmiss
      exact .inl (provides_of_unlessDirectory hmake h)
  · rw [hmake] at h
    cases h
    exact .inl (.inl ⟨t, hmake, rfl⟩)

theorem Provides.stands (h : Provides p w w') (hw : w.tree.WellFormed) (hf : w.tree.LinkFree) :
    w'.tree.Stands p := by
  rcases h with ⟨t, ht, rfl⟩ | ⟨-, hdir, rfl⟩
  · exact Tree.makeDirectory_stands hw hf ht
  · exact Tree.stands_of_isDirectory hw hf hdir

/-- A directory that was made with those above it stands. -/
theorem makeChain_stands (hw : w.tree.WellFormed) (hf : w.tree.LinkFree) {above : List Path}
    (h : (makeChain (p :: above) : StateM World _).run w = (.ok (), w')) : w'.tree.Stands p := by
  rcases makeChain_cases h with h | ⟨-, w₁, habove, h⟩
  · exact h.stands hw hf
  · obtain ⟨t, hext, rfl⟩ : ∃ t, w.tree.Extends t ∧ w₁ = { w with tree := t } := by
      have hkeeps : Keeps Tree.Extends (makeChain above : StateM World _) :=
        makeChain_keeps fun q _ => allowsMaking_extends.mayMake q
      obtain ⟨t, hext, hw₁⟩ := hkeeps w
      rw [habove] at hw₁
      exact ⟨t, hext, hw₁⟩
    exact h.stands (hext.wellFormed hw) (hext.linkFree hf)

end Filesystem

namespace Filing

/-- A directory that was created stands. -/
theorem create_stands (hw : w.tree.WellFormed) (hf : w.tree.LinkFree)
    (h : w.exec (create p) = (.ok (), w')) : w'.tree.Stands p := by
  rw [create, World.exec_attempt] at h
  rcases hmake : (Filesystem.makeDirectories p : StateM World _).run w with ⟨cause | _, w₁⟩
  · rw [hmake] at h
    cases h
  rw [hmake] at h
  cases h
  rw [Filesystem.makeDirectories] at hmake
  split_ifs at hmake with hempty
  · have hnames : p.names = [] := by
      rw [Path.isEmpty, List.isEmpty_iff] at hempty
      simp [Path.names, hempty, Path.splitSlash]
    intro l hl
    rw [Path.way, hnames] at hl
    simp at hl
    simp [hl]
  · exact Filesystem.makeChain_stands hw hf hmake

/-- A directory that was created stands after whatever adds to the tree. -/
theorem create_bind_stands {α : Type} {x : ExceptT StoreError (StateM World) α} {a : α}
    (hw : w.tree.WellFormed) (hf : w.tree.LinkFree) (hx : Keeps Tree.Extends x.run)
    (h : w.exec (create p >>= fun _ => x) = (.ok a, w')) :
    w'.tree.Stands p ∧ ∃ w₁ : World, w₁.tree.WellFormed ∧ w₁.tree.LinkFree ∧
      w₁.exec x = (.ok a, w') := by
  obtain ⟨_, w₁, hcreate, h⟩ := World.exec_ok_of_bind h
  have hstands := create_stands hw hf hcreate
  obtain ⟨t, hext, rfl⟩ := (create_keeps allowsMaking_extends p).exec hcreate
  obtain ⟨t', hext', rfl⟩ := hx.exec h
  exact ⟨fun l hl => hext'.keeps (hstands l hl), _, hext.wellFormed hw, hext.linkFree hf, h⟩

theorem prepare_stands {f : Filing} (hw : w.tree.WellFormed) (hf : w.tree.LinkFree)
    (h : w.exec f.prepare = (.ok (), w')) :
    ∀ p ∈ [f.dirs.inbox, f.dirs.applied, f.dirs.demoted, f.dirs.log], w'.tree.Stands p := by
  have hcreate : ∀ p, Keeps Tree.Extends (create p : ExceptT StoreError (StateM World) Unit).run :=
    fun p => create_keeps allowsMaking_extends p
  obtain ⟨hinbox, w₁, hw, hf, h⟩ := create_bind_stands hw hf
    (Keeps.exceptBind (hcreate _) fun _ => Keeps.exceptBind (hcreate _) fun _ => hcreate _) h
  obtain ⟨happlied, w₂, hw, hf, h⟩ := create_bind_stands hw hf
    (Keeps.exceptBind (hcreate _) fun _ => hcreate _) h
  obtain ⟨hdemoted, w₃, hw, hf, h⟩ := create_bind_stands hw hf (hcreate _) h
  have hlog := create_stands hw hf h
  simp [hinbox, happlied, hdemoted, hlog]

end Filing

/-! ### Samples -/

namespace Samples

variable {inbox : Path} {samples : List (String × String)} {n : Nat}

/-- Every sample of a list that was gone through is there, through any links. -/
theorem seedEach_present (h : w.exec (seedEach inbox samples) = (.ok n, w')) :
    ∀ x ∈ samples, w'.tree.isPresent (inbox.join (.ofString x.1)) := by
  induction samples generalizing w n with
  | nil => simp
  | cons sample rest ih =>
    rw [List.forall_mem_cons]
    rcases seedEach_cons_ok h with ⟨hpresent, h⟩ | ⟨-, t, k, hwritten, h, -⟩
    · exact ⟨(seedEach_extends h).isPresent hpresent, ih h⟩
    · exact ⟨(seedEach_extends h).isPresent (Tree.isPresent_write hwritten), ih h⟩

/-- Without links a sample that is there stands in the inbox. -/
theorem entry?_of_isPresent {x : String × String} (hx : Name.Valid (Text.encodeString x.1))
    {t : Tree} (hf : t.LinkFree) (h : t.isPresent (inbox.join (.ofString x.1))) :
    t.entry? (inbox.place ++ [Text.encodeString x.1]) ≠ none := by
  obtain ⟨e, he⟩ := Tree.isPresent_iff.mp h
  obtain ⟨l, hl, he⟩ := Tree.find_ok he
  have hplace : l = inbox.place ++ [Text.encodeString x.1] :=
    (hf.locate hl).trans (Path.place_child hx inbox)
  rw [← hplace, he]
  simp

end Samples

/-! ### Setting up -/

/-- Whether everything that a run sets up is there. -/
structure Settings.Ready (s : Settings) (t : Tree) : Prop where
  stands : ∀ p ∈ [s.dirs.inbox, s.dirs.applied, s.dirs.demoted, s.dirs.log], t.Stands p
  seeded : s.seedSamples → ∀ x ∈ Samples.all,
    t.entry? (s.dirs.inbox.place ++ [Text.encodeString x.1]) ≠ none

theorem Settings.Ready.mono {t t' : Tree} (h : s.Ready t)
    (hdir : ∀ l, t.entry? l = some .directory → t'.entry? l = some .directory)
    (hthere : ∀ l, t.entry? l ≠ none → t'.entry? l ≠ none) : s.Ready t' :=
  ⟨fun p hp l hl => hdir l (h.stands p hp l hl), fun hs x hx => hthere _ (h.seeded hs x hx)⟩

namespace Run

/-- Once a run was set up, everything that it sets up is there. -/
theorem setUp_ready (hw : w.tree.WellFormed) (hf : w.tree.LinkFree)
    (h : w.exec (setUp s now) = (.ok (), w')) : s.Ready w'.tree := by
  have hprepare : Keeps Tree.Extends
      ((filing s now).prepare : ExceptT StoreError (StateM World) Unit).run :=
    Filing.prepare_keeps fun _ _ q _ => allowsMaking_extends.mayMake q
  rw [setUp] at h
  cases hwanted : s.seedSamples with
  | false =>
    rw [hwanted, if_neg (by simp)] at h
    exact ⟨Filing.prepare_stands hw hf h, by simp [hwanted]⟩
  | true =>
    rw [hwanted, if_pos rfl] at h
    obtain ⟨n, w₁, hseed, h⟩ := World.exec_ok_of_bind h
    obtain ⟨_, w₂, hcreate, hseed⟩ := World.exec_ok_of_bind hseed
    obtain ⟨t₂, hext₂, rfl⟩ := (Filing.create_keeps allowsMaking_extends _).exec hcreate
    have hpresent := Samples.seedEach_present hseed
    have hext₁ := Samples.seedEach_extends hseed
    obtain ⟨t, hext, rfl⟩ := hprepare.exec h
    refine ⟨Filing.prepare_stands (hext₁.wellFormed (hext₂.wellFormed hw))
      (hext₁.linkFree (hext₂.linkFree hf)) h, fun _ x hx => ?_⟩
    have hthere := Samples.entry?_of_isPresent (Samples.valid_name x hx)
      (hext₁.linkFree (hext₂.linkFree hf)) (hpresent x hx)
    obtain ⟨e, he⟩ := Option.ne_none_iff_exists'.mp hthere
    simp [hext.keeps he]

/-- Whether a change of the tree is none if everything that a run sets up is there. -/
def Settled (s : Settings) (t t' : Tree) : Prop := t.LinkFree → s.Ready t → t' = t

instance : IsPreorder Tree (Settled s) where
  refl _ _ _ := rfl
  trans t t₁ t₂ h h' hf hready := by
    have hsame := h hf hready
    subst hsame
    exact h' hf hready

/-- Where everything is there, no directory is made. -/
theorem mayMake_settled {p : Path}
    (hp : p ∈ [s.dirs.inbox, s.dirs.applied, s.dirs.demoted, s.dirs.log]) :
    ∀ q ∈ p :: p.above, MayMake (Settled s) q := by
  intro q hq t t' h hf hready
  exact absurd h ((hready.stands p hp).not_made hf hq)

/-- Where everything is there, setting up changes nothing. -/
theorem setUp_settled (s : Settings) (now : RunClock) :
    Keeps (Settled s) (setUp s now : ExceptT StoreError (StateM World) Unit).run := by
  refine setUp_keeps_of now (fun p hp => mayMake_settled hp) ?_
  intro hwanted x hx t t' time habsent h hf hready
  obtain ⟨l, hl, -, -⟩ := Tree.write_ok h
  have hfree := Tree.entry?_of_absent hl habsent
  rw [hf.locate hl] at hfree
  refine absurd ?_ (hready.seeded hwanted x hx)
  rw [← Path.place_child (Samples.valid_name x hx) s.dirs.inbox]
  exact hfree

/-- Where everything is there, writing the summary changes nothing else. -/
theorem writeSummary_settled (hf : w.tree.LinkFree) (hready : s.Ready w.tree) {x : Summary}
    {path : Path} (h : w.exec ((filing s now).writeSummary x) = (.ok path, w')) :
    path = (filing s now).summaryPath ∧
      w.tree.write path (Text.encodeString x.text) w.now = .ok w'.tree := by
  have hcreate : Keeps (Settled s)
      (Filing.create s.dirs.log : ExceptT StoreError (StateM World) Unit).run :=
    Filing.create_keeps_of (mayMake_settled (by simp))
  obtain ⟨t, hsame, ⟨-, _, herr⟩ | ⟨t', hwritten, rfl, hpath⟩⟩ := Filing.writeSummary_exec hcreate h
  · cases herr
  · obtain rfl := Except.ok.inj hpath
    rw [hsame hf hready] at hwritten
    exact ⟨rfl, hwritten⟩

end Run

end ProposalReview
