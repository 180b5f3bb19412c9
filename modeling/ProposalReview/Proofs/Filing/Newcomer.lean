import Mathlib
import ProposalReview.Proofs.Filing.Approach
import ProposalReview.Proofs.Filing.Readback
/-!
Setting up beside a newcomer.

Two trees differ in one file, the newcomer, which the second one is sure to have. What sets up a run goes
the same way in both, step by step: the same directories are made and the same samples are written. The
steps part in two places only. A directory can be made where the newcomer stands, but then the second run
fails; and a sample can be written there, which is a file again.
-/

namespace ProposalReview

namespace Tree

variable {t t' : Tree} {l m : Location} {p : Path} {links : Nat}

/-! ### One step with and without the newcomer -/

namespace AgreeBut

variable {q : Location}

/-- An entry that is put anywhere else is put alike. -/
theorem put (h : AgreeBut l t t') (hq : q ≠ l) (hne : q ≠ []) (e : Entry) :
    AgreeBut l (t.put q e) (t'.put q e) := by
  have hput := fun u : Tree => entry?_put (t := u) (m := l) (e := e) hne
  refine ⟨?_, ?_, fun m hm => ?_⟩
  · rw [Writable, FileAt, hput, if_neg hq.symm]
    exact h.left
  · rw [Writable, FileAt, hput, if_neg hq.symm]
    exact h.right
  · rw [entry?_put hne, entry?_put hne, h.elsewhere m hm]

theorem locateName {place : Option Location} (h : AgreeBut l t t')
    (hp : t.locateName p = .ok place) : t'.locateName p = .ok place := by
  obtain ⟨_, hcheck, hp⟩ := Except.ok_of_bind hp
  obtain ⟨d, hd, hp⟩ := Except.ok_of_bind hp
  rw [Tree.locateName, hcheck]
  simp only [bind, Except.bind, h.walkLinks hd]
  exact hp

/-- What a walk misses beside a file, it misses without the file. -/
theorem walk_notFound (h : AgreeBut l t t') (hfile : t'.FileAt l) {ns : List Name}
    (hs : t'.walk true m ns = .error .notFound) : t.walk true m ns = .error .notFound := by
  obtain ⟨bytes, time, hfile⟩ := hfile
  induction ns generalizing m with
  | nil => cases hs
  | cons n ns ih =>
    rw [Tree.walk] at hs ⊢
    by_cases h1 : n = Path.hereName
    · rw [if_pos h1] at hs ⊢
      exact ih hs
    rw [if_neg h1] at hs ⊢
    by_cases h2 : n = Path.parentName
    · rw [if_pos h2] at hs ⊢
      exact ih hs
    rw [if_neg h2] at hs ⊢
    by_cases h3 : nameLimit < n.length
    · rw [if_pos h3] at hs
      cases hs
    rw [if_neg h3] at hs ⊢
    by_cases hml : m ++ [n] = l
    · -- nothing is missed at the file
      simp only [hml, hfile] at hs
      split_ifs at hs
      cases hs
    · simp only [h.elsewhere _ hml] at hs
      cases he : t.entry? (m ++ [n]) with
      | none => simpa only [he] using hs
      | some e =>
        cases e with
        | file bytes time => simpa only [he] using hs
        | link target => simpa only [he] using hs
        | directory =>
          simp only [he] at hs ⊢
          exact ih hs

theorem walkLinks_notFound (h : AgreeBut l t t') (hfile : t'.FileAt l) {ns : List Name}
    (hs : t'.walkLinks true links m ns = .error .notFound) :
    t.walkLinks true links m ns = .error .notFound := by
  induction links using Nat.strong_induction_on generalizing m ns with
  | _ links ih =>
    cases hwalk : t'.walk true m ns with
    | error e =>
      rw [walkLinks_of_error hwalk] at hs
      cases hs
      exact walkLinks_of_error (h.walk_notFound hfile hwalk)
    | ok s =>
      cases s with
      | atEnd l =>
        rw [walkLinks_of_atEnd hwalk] at hs
        cases hs
      | leap base ms =>
        cases links with
        | zero =>
          rw [walkLinks_of_leap_zero hwalk] at hs
          cases hs
        | succ links =>
          rw [walkLinks_of_leap hwalk] at hs
          rw [walkLinks_of_leap (h.symm.walk hwalk)]
          exact ih links (Nat.lt_succ_self links) hs

theorem makeDirectory_notFound (h : AgreeBut l t t') (hfile : t'.FileAt l)
    (hmiss : t'.makeDirectory p = .error .notFound) : t.makeDirectory p = .error .notFound := by
  rw [Tree.makeDirectory_notFound] at hmiss ⊢
  rw [Tree.locateName] at hmiss ⊢
  cases hcheck : p.check with
  | error e =>
    rw [hcheck] at hmiss
    exact hmiss
  | ok _ =>
    rw [hcheck] at hmiss
    simp only [bind, Except.bind] at hmiss ⊢
    cases hd : t'.walkLinks true linkLimit []
        (((Path.splitSlash p.bytes).filter (· ≠ [])).dropLast ++ [Path.hereName]) with
    | error e =>
      simp only [hd, Except.error.injEq] at hmiss
      rw [hmiss] at hd
      rw [h.walkLinks_notFound hfile hd]
    | ok d =>
      rw [h.symm.walkLinks hd]
      rw [hd] at hmiss
      exact hmiss

/-- A directory that is made beside a file is made without the file, too. -/
theorem makeDirectory {u' : Tree} (h : AgreeBut l t t') (hfile : t'.FileAt l)
    (hu' : t'.makeDirectory p = .ok u') :
    ∃ u, t.makeDirectory p = .ok u ∧ AgreeBut l u u' ∧ u'.FileAt l := by
  obtain ⟨q, hplace, hfree, rfl⟩ := makeDirectory_ok hu'
  obtain ⟨bytes, time, hfile⟩ := hfile
  have hq : q ≠ l := by
    rintro rfl
    rw [hfile] at hfree
    cases hfree
  have hne : q ≠ [] := by
    rintro rfl
    cases hfree
  have hfree' : t.entry? q = none := (h.elsewhere q hq).symm.trans hfree
  refine ⟨t.put q .directory, ?_, h.put hq hne _, bytes, time, ?_⟩
  · rw [Tree.makeDirectory, h.symm.locateName hplace]
    simp only [bind, Except.bind, hfree']
    rfl
  · rw [entry?_put hne, if_neg hq.symm, hfile]

/-- A directory that is made only without the file would stand in its place. -/
theorem makeDirectory_only {u : Tree} {e : FileFault} (h : AgreeBut l t t') (hfile : t'.FileAt l)
    (hu : t.makeDirectory p = .ok u) (he : t'.makeDirectory p = .error e) :
    t'.isDirectory p = false := by
  obtain ⟨q, hplace, hfree, -⟩ := makeDirectory_ok hu
  have hplace' := h.locateName hplace
  have hq : q = l := by
    by_contra hq
    rw [Tree.makeDirectory, hplace'] at he
    simp only [bind, Except.bind, (h.elsewhere q hq).trans hfree] at he
    cases he
  exact isDirectory_of_file (hq ▸ hplace') hfile

theorem isDirectory (h : AgreeBut l t t') (hdir : t.isDirectory p) : t'.isDirectory p := by
  have hfind := isDirectory_iff.mp hdir
  rw [Tree.isDirectory, h.find ?_ hfind]
  rintro m hm rfl
  obtain ⟨m', hm', he⟩ := find_ok hfind
  rw [hm] at hm'
  cases hm'
  exact h.left.not_directory he

end AgreeBut

end Tree

/-! ### Setting up with and without the newcomer -/

/-- Two worlds at one time, with trees that differ in a file which the second one has. -/
structure Beside (l : Location) (w v : World) : Prop where
  agree : Tree.AgreeBut l w.tree v.tree
  newcomer : v.tree.FileAt l
  now : v.now = w.now

/-- Where a directory is provided, the one above it is not missing. -/
theorem Filesystem.Provides.not_missing {w w' : World} {p : Path} (h : Provides p w w') :
    w.tree.makeDirectory p ≠ .error .notFound := by
  rcases h with ⟨t, ht, -⟩ | ⟨-, hdir, -⟩
  · rw [ht]
    simp
  · exact Tree.makeDirectory_ne_notFound (Tree.isDirectory_iff.mp hdir)

namespace Beside

open Filesystem (Provides makeChain makeChain_cases)

variable {l : Location} {w w' v v' : World} {p : Path}

/-- A directory that both worlds come to have, they come to have alike. -/
theorem provides (h : Beside l w v) (hw : Provides p w w') (hv : Provides p v v') :
    Beside l w' v' := by
  rcases hv with ⟨u', hu', rfl⟩ | ⟨⟨cause, he'⟩, hdir, rfl⟩
  · obtain ⟨u, hu, hagree, hnewcomer⟩ := h.agree.makeDirectory h.newcomer hu'
    rcases hw with ⟨_, hu₁, rfl⟩ | ⟨⟨cause, he⟩, -, -⟩
    · cases hu.symm.trans hu₁
      exact ⟨hagree, hnewcomer, h.now⟩
    · cases hu.symm.trans he
  · rcases hw with ⟨u, hu, -⟩ | ⟨-, -, rfl⟩
    · rw [h.agree.makeDirectory_only h.newcomer hu he'] at hdir
      cases hdir
    · exact h

theorem makeChain {ps : List Path} (h : Beside l w v)
    (hw : (makeChain ps : StateM World _).run w = (.ok (), w'))
    (hv : (makeChain ps : StateM World _).run v = (.ok (), v')) : Beside l w' v' := by
  induction ps generalizing w w' v v' with
  | nil =>
    cases hw
    cases hv
    exact h
  | cons p above ih =>
    rcases makeChain_cases hw with hw | ⟨hmiss, w₁, hwabove, hw⟩ <;>
      rcases makeChain_cases hv with hv | ⟨hmiss', v₁, hvabove, hv⟩
    · exact h.provides hw hv
    · exact absurd (h.agree.makeDirectory_notFound h.newcomer hmiss') hw.not_missing
    · -- the directory is made in neither world, and what stands in one of them stands in the other
      rcases hv with ⟨u', hu', -⟩ | ⟨-, hdir, -⟩
      · obtain ⟨u, hu, -⟩ := h.agree.makeDirectory h.newcomer hu'
        cases hu.symm.trans hmiss
      · exact absurd hmiss (Tree.makeDirectory_ne_notFound
          (Tree.isDirectory_iff.mp (h.agree.symm.isDirectory hdir)))
    · exact (ih h hwabove hvabove).provides hw hv

theorem create (h : Beside l w v) (hw : w.exec (Filing.create p) = (.ok (), w'))
    (hv : v.exec (Filing.create p) = (.ok (), v')) : Beside l w' v' := by
  have hmade : ∀ {u u' : World}, u.exec (Filing.create p) = (.ok (), u') →
      (Filesystem.makeDirectories p : StateM World _).run u = (.ok (), u') := by
    intro u u' hu
    rw [Filing.create, World.exec_attempt] at hu
    rcases hmake : (Filesystem.makeDirectories p : StateM World _).run u with ⟨cause | _, u₁⟩
    · rw [hmake] at hu
      cases hu
    · rw [hmake] at hu
      cases hu
      rfl
  have hw := hmade hw
  have hv := hmade hv
  rw [Filesystem.makeDirectories] at hw hv
  split_ifs at hw hv with hempty
  · cases hw
    cases hv
    exact h
  · exact h.makeChain hw hv

theorem prepare {f : Filing} (h : Beside l w v) (hw : w.exec f.prepare = (.ok (), w'))
    (hv : v.exec f.prepare = (.ok (), v')) : Beside l w' v' := by
  obtain ⟨_, w₁, hwinbox, hw⟩ := World.exec_ok_of_bind hw
  obtain ⟨_, v₁, hvinbox, hv⟩ := World.exec_ok_of_bind hv
  obtain ⟨_, w₂, hwapplied, hw⟩ := World.exec_ok_of_bind hw
  obtain ⟨_, v₂, hvapplied, hv⟩ := World.exec_ok_of_bind hv
  obtain ⟨_, w₃, hwdemoted, hw⟩ := World.exec_ok_of_bind hw
  obtain ⟨_, v₃, hvdemoted, hv⟩ := World.exec_ok_of_bind hv
  exact (((h.create hwinbox hvinbox).create hwapplied hvapplied).create hwdemoted hvdemoted).create hw hv

/-- What is there without the newcomer is there with it. -/
theorem isPresent (h : Beside l w v) (hw : w.tree.isPresent p) : v.tree.isPresent p := by
  obtain ⟨e, he⟩ := Tree.isPresent_iff.mp hw
  obtain ⟨m, hm, he⟩ := Tree.find_ok he
  refine Tree.isPresent_iff.mpr ?_
  by_cases hml : m = l
  · obtain ⟨bytes, time, hfile⟩ := h.newcomer
    exact ⟨_, Tree.find_of_locate (h.agree.locate hm) (hml ▸ hfile)⟩
  · exact ⟨e, Tree.find_of_locate (h.agree.locate hm) ((h.agree.elsewhere m hml).trans he)⟩

/-- What is written where nothing is, in both worlds, is written at one place. -/
theorem write {bytes : Bytes} {u u' : Tree} (h : Beside l w v) (habsent : v.tree.isPresent p = false)
    (hu : w.tree.write p bytes w.now = .ok u) (hu' : v.tree.write p bytes v.now = .ok u') :
    Beside l { w with tree := u } { v with tree := u' } := by
  obtain ⟨q, hq, -, rfl⟩ := Tree.write_ok hu
  obtain ⟨q', hq', -, rfl⟩ := Tree.write_ok hu'
  cases (h.agree.locate hq).symm.trans hq'
  have hfree := Tree.entry?_of_absent hq' habsent
  obtain ⟨old, time, hfile⟩ := h.newcomer
  have hne : q ≠ l := by
    rintro rfl
    rw [hfile] at hfree
    cases hfree
  have hroot : q ≠ [] := by
    rintro rfl
    cases hfree
  refine ⟨?_, ⟨old, time, ?_⟩, h.now⟩
  · rw [h.now]
    exact h.agree.put hne hroot _
  · exact (Tree.entry?_put hroot).trans ((if_neg hne.symm).trans hfile)

/-- What is written only without the newcomer is written in its place. -/
theorem write_only {bytes : Bytes} {u : Tree} (h : Beside l w v) (habsent : w.tree.isPresent p = false)
    (hpresent : v.tree.isPresent p) (hu : w.tree.write p bytes w.now = .ok u) :
    Beside l { w with tree := u } v := by
  obtain ⟨q, hq, -, rfl⟩ := Tree.write_ok hu
  have hfree := Tree.entry?_of_absent hq habsent
  have hql : q = l := by
    by_contra hne
    obtain ⟨e, he⟩ := Tree.isPresent_iff.mp hpresent
    obtain ⟨m, hm, he⟩ := Tree.find_ok he
    cases (h.agree.locate hq).symm.trans hm
    rw [h.agree.elsewhere q hne, hfree] at he
    cases he
  subst hql
  have hagree : w.tree.AgreeBut q (w.tree.put q (.file bytes w.now)) :=
    Tree.agreeBut_put h.agree.left
  exact ⟨⟨hagree.right, h.agree.right, fun m hm =>
    (h.agree.elsewhere m hm).trans (hagree.elsewhere m hm).symm⟩, h.newcomer, h.now⟩

theorem seedEach {inbox : Path} {samples : List (String × String)} {n n' : Nat} (h : Beside l w v)
    (hw : w.exec (Samples.seedEach inbox samples) = (.ok n, w'))
    (hv : v.exec (Samples.seedEach inbox samples) = (.ok n', v')) : Beside l w' v' := by
  induction samples generalizing w v n n' with
  | nil =>
    cases hw
    cases hv
    exact h
  | cons sample rest ih =>
    rcases Samples.seedEach_cons_ok hw with ⟨hpresent, hw⟩ | ⟨habsent, t, k, ht, hw, -⟩
    · rcases Samples.seedEach_cons_ok hv with ⟨-, hv⟩ | ⟨habsent, -⟩
      · exact ih h hw hv
      · rw [h.isPresent hpresent] at habsent
        cases habsent
    · rcases Samples.seedEach_cons_ok hv with ⟨hpresent, hv⟩ | ⟨habsent', t', k', ht', hv, -⟩
      · exact ih (h.write_only habsent hpresent ht) hw hv
      · exact ih (h.write habsent' ht ht') hw hv

/-- What two runs set up, they set up alike. -/
theorem setUp {s : Settings} {now : RunClock} (h : Beside l w v)
    (hw : w.exec (Run.setUp s now) = (.ok (), w')) (hv : v.exec (Run.setUp s now) = (.ok (), v')) :
    Beside l w' v' := by
  rw [Run.setUp] at hw hv
  cases hwanted : s.seedSamples with
  | false =>
    rw [hwanted, if_neg Bool.false_ne_true] at hw hv
    exact h.prepare hw hv
  | true =>
    rw [hwanted, if_pos rfl] at hw hv
    obtain ⟨n, w₁, hwseed, hw⟩ := World.exec_ok_of_bind hw
    obtain ⟨n', v₁, hvseed, hv⟩ := World.exec_ok_of_bind hv
    obtain ⟨_, w₂, hwmake, hwseed⟩ := World.exec_ok_of_bind hwseed
    obtain ⟨_, v₂, hvmake, hvseed⟩ := World.exec_ok_of_bind hvseed
    exact ((h.create hwmake hvmake).seedEach hwseed hvseed).prepare hw hv

end Beside

end ProposalReview
