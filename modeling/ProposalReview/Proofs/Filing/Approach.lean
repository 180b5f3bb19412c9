import Mathlib
import ProposalReview.Proofs.Filing.Standing
/-!
Walks in parts.

What comes before the last names of a walk leads to a directory, through all links, and from there on the
rest is a walk of its own. So where a path leads to something, the directory of its last name is there,
and none is made; where its last name is a file's, the path leads to no directory; a directory that was made
is found at its path; and a file in a directory is found at the path of the directory with the file's name.
-/

namespace ProposalReview.Tree

variable {t t' : Tree} {l m d : Location} {p : Path} {n : Name} {links : Nat} {e : Entry}

/-! ### Walks in parts -/

theorem walkLinks_of_error {follow : Bool} {ns : List Name} {e : FileFault}
    (h : t.walk follow m ns = .error e) : t.walkLinks follow links m ns = .error e := by
  rw [walkLinks.eq_def]
  simp only [h]

theorem walkLinks_of_atEnd {follow : Bool} {ns : List Name}
    (h : t.walk follow m ns = .ok (.atEnd l)) : t.walkLinks follow links m ns = .ok l := by
  rw [walkLinks.eq_def]
  simp only [h]

theorem walkLinks_of_leap {follow : Bool} {ns ms : List Name} {base : Location}
    (h : t.walk follow m ns = .ok (.leap base ms)) :
    t.walkLinks follow (links + 1) m ns = t.walkLinks follow links base ms := by
  rw [walkLinks.eq_def]
  simp only [h]

theorem walkLinks_of_leap_zero {follow : Bool} {ns ms : List Name} {base : Location}
    (h : t.walk follow m ns = .ok (.leap base ms)) :
    t.walkLinks follow 0 m ns = .error .tooManyLinks := by
  rw [walkLinks.eq_def]
  simp only [h]

/-- The first part of a walk that goes on fails, or comes to a directory, or leaps. -/
theorem walk_append (t : Tree) (m : Location) (as : List Name) :
    (∃ e, ∀ bs ≠ [], t.walk true m (as ++ bs) = .error e) ∨
      (∃ d, ∀ bs ≠ [], t.walk true m (as ++ bs) = t.walk true d bs) ∨
      ∃ base ms, ∀ bs ≠ [], t.walk true m (as ++ bs) = .ok (.leap base (ms ++ bs)) := by
  induction as generalizing m with
  | nil => exact .inr (.inl ⟨m, fun bs _ => rfl⟩)
  | cons n as ih =>
    have hmore : ∀ bs : List Name, bs ≠ [] → as ++ bs ≠ [] := fun bs hbs => by simp [hbs]
    simp only [List.cons_append, walk]
    split_ifs with hhere hparent hlong
    · exact ih m
    · exact ih m.dropLast
    · exact .inl ⟨_, fun bs _ => rfl⟩
    · cases t.entry? (m ++ [n]) with
      | none => exact .inl ⟨.notFound, fun bs hbs => if_neg (hmore bs hbs)⟩
      | some e =>
        cases e with
        | directory => exact ih (m ++ [n])
        | file bytes time => exact .inl ⟨.notDirectory, fun bs hbs => if_neg (hmore bs hbs)⟩
        | link target =>
          refine .inr (.inr ⟨if target.isAbsolute then [] else m, target.steps ++ as, fun bs hbs => ?_⟩)
          simp only
          rw [if_neg (by simp), List.append_assoc]

/-- The first part of a walk through links fails, or comes to a directory with some links left. -/
theorem walkLinks_append (t : Tree) (links : Nat) (m : Location) (as : List Name) :
    (∃ e, ∀ bs ≠ [], t.walkLinks true links m (as ++ bs) = .error e) ∨
      ∃ k d, ∀ bs ≠ [], t.walkLinks true links m (as ++ bs) = t.walkLinks true k d bs := by
  induction links using Nat.strong_induction_on generalizing m as with
  | _ links ih =>
    rcases t.walk_append m as with ⟨e, he⟩ | ⟨d, hd⟩ | ⟨base, ms, hleap⟩
    · exact .inl ⟨e, fun bs hbs => walkLinks_of_error (he bs hbs)⟩
    · refine .inr ⟨links, d, fun bs hbs => ?_⟩
      rw [walkLinks.eq_def, walkLinks.eq_def t true links d]
      simp only [hd bs hbs]
    · cases links with
      | zero => exact .inl ⟨_, fun bs hbs => walkLinks_of_leap_zero (hleap bs hbs)⟩
      | succ links =>
        have hstep : ∀ bs ≠ [], t.walkLinks true (links + 1) m (as ++ bs)
            = t.walkLinks true links base (ms ++ bs) := fun bs hbs => walkLinks_of_leap (hleap bs hbs)
        rcases ih links (Nat.lt_succ_self links) base ms with ⟨e, he⟩ | ⟨k, d, hd⟩
        · exact .inl ⟨e, fun bs hbs => (hstep bs hbs).trans (he bs hbs)⟩
        · exact .inr ⟨k, d, fun bs hbs => (hstep bs hbs).trans (hd bs hbs)⟩

theorem walkLinks_here (t : Tree) (links : Nat) (d : Location) :
    t.walkLinks true links d [Path.hereName] = .ok d :=
  walkLinks_of_atEnd (by simp [walk])

/-- A walk that goes on comes through a directory: the same walk can stop there. -/
theorem walkLinks_before {as bs : List Name} (hbs : bs ≠ [])
    (h : t.walkLinks true links m (as ++ bs) = .ok l) :
    ∃ k d, t.walkLinks true links m (as ++ [Path.hereName]) = .ok d ∧
      t.walkLinks true k d bs = .ok l := by
  rcases t.walkLinks_append links m as with ⟨e, he⟩ | ⟨k, d, hd⟩
  · rw [he bs hbs] at h
    cases h
  · refine ⟨k, d, ?_, (hd bs hbs).symm.trans h⟩
    rw [hd _ (List.cons_ne_nil _ _), walkLinks_here]

/-- A walk that has come to a directory can go on from there. -/
theorem walkLinks_after {as : List Name} (h : t.walkLinks true links m (as ++ [Path.hereName]) = .ok d) :
    ∃ k, ∀ bs ≠ [], t.walkLinks true links m (as ++ bs) = t.walkLinks true k d bs := by
  rcases t.walkLinks_append links m as with ⟨e, he⟩ | ⟨k, d', hd⟩
  · rw [he _ (List.cons_ne_nil _ _)] at h
    cases h
  · rw [hd _ (List.cons_ne_nil _ _), walkLinks_here] at h
    obtain rfl := Except.ok.inj h
    exact ⟨k, hd⟩

/-- Where a walk stops with one more dot to go. -/
def Stop.dotted : Stop → Stop
  | .atEnd l => .atEnd l
  | .leap base ms => .leap base (ms ++ [Path.hereName])

/-- A walk that ends at a directory, or leaps, can go on with a dot. -/
theorem walk_dotted {ns : List Name} {s : Stop} (h : t.walk true m ns = .ok s)
    (hdir : ∀ l, s = .atEnd l → t.entry? l = some .directory) :
    t.walk true m (ns ++ [Path.hereName]) = .ok s.dotted := by
  induction ns generalizing m with
  | nil =>
    cases h
    simp [walk, Stop.dotted]
  | cons n ns ih =>
    simp only [List.cons_append, walk] at h ⊢
    by_cases hhere : n = Path.hereName
    · rw [if_pos hhere] at h ⊢
      exact ih h
    rw [if_neg hhere] at h ⊢
    by_cases hparent : n = Path.parentName
    · rw [if_pos hparent] at h ⊢
      exact ih h
    rw [if_neg hparent] at h ⊢
    by_cases hlong : nameLimit < n.length
    · rw [if_pos hlong] at h
      cases h
    rw [if_neg hlong] at h ⊢
    cases he : t.entry? (m ++ [n]) with
    | none =>
      simp only [he] at h
      split_ifs at h
      cases h
      rw [hdir _ rfl] at he
      cases he
    | some e =>
      cases e with
      | directory =>
        simp only [he] at h ⊢
        exact ih h
      | file bytes time =>
        simp only [he] at h
        split_ifs at h
        cases h
        rw [hdir _ rfl] at he
        cases he
      | link target =>
        simp only [he, not_true_eq_false, and_false, if_false, Except.ok.injEq] at h ⊢
        rw [← h, Stop.dotted, List.append_assoc]

theorem walkLinks_dotted {ns : List Name} (h : t.walkLinks true links m ns = .ok l)
    (hdir : t.entry? l = some .directory) :
    t.walkLinks true links m (ns ++ [Path.hereName]) = .ok l := by
  induction links generalizing m ns with
  | zero =>
    rcases walkLinks_ok h with hwalk | ⟨_, _, k, hk, -, -⟩
    · exact walkLinks_of_atEnd (walk_dotted hwalk (by rintro _ ⟨⟩; exact hdir))
    · exact absurd hk.symm k.succ_ne_zero
  | succ links ih =>
    rcases walkLinks_ok h with hwalk | ⟨base, ms, k, hk, hleap, h⟩
    · exact walkLinks_of_atEnd (walk_dotted hwalk (by rintro _ ⟨⟩; exact hdir))
    · rw [← Nat.succ_inj.mp hk] at h
      rw [walkLinks_of_leap (walk_dotted hleap (by rintro _ ⟨⟩))]
      exact ih h

/-! ### Paths -/

/-- What the last names of a walk lead to, if a file or nothing is there. -/
theorem walkLinks_last {tail : List Name} (hfree : t.Writable (d ++ [n])) (hhere : n ≠ Path.hereName)
    (hparent : n ≠ Path.parentName) (h : t.walkLinks true links d (n :: tail) = .ok m) :
    m = d ++ [n] := by
  have hstop : ∀ {s : Stop}, t.walk true d (n :: tail) = .ok s → s = .atEnd (d ++ [n]) := by
    intro s hs
    rcases walk_cons hs with ⟨h, -⟩ | ⟨h, -⟩ | ⟨-, -, ⟨hdir, -⟩ | ⟨-, -, hend, -⟩ | ⟨_, hlink, -⟩⟩
    · exact absurd h hhere
    · exact absurd h hparent
    · exact absurd hdir hfree.not_directory
    · exact hend
    · exact absurd hlink (hfree.not_link _)
  rcases walkLinks_ok h with h | ⟨base, ms, k, -, h, -⟩
  · exact Stop.atEnd.inj (hstop h)
  · cases hstop h

/-- What a path leads to is in a directory that the path's other names lead to. -/
theorem parent_of_locate (h : t.locate p = .ok l) : ∃ d, t.walkLinks true linkLimit []
    (((Path.splitSlash p.bytes).filter (· ≠ [])).dropLast ++ [Path.hereName]) = .ok d := by
  obtain ⟨_, -, h⟩ := Except.ok_of_bind h
  rw [Path.steps] at h
  rcases List.eq_nil_or_concat ((Path.splitSlash p.bytes).filter (· ≠ [])) with hnil | ⟨ns, n, hns⟩
  · rw [hnil]
    exact ⟨[], walkLinks_here t linkLimit []⟩
  · rw [hns, List.concat_eq_append, List.append_assoc] at h
    obtain ⟨-, d, hd, -⟩ := walkLinks_before (by simp) h
    rw [hns, List.concat_eq_append, List.dropLast_concat]
    exact ⟨d, hd⟩

theorem makeDirectory_notFound :
    t.makeDirectory p = .error .notFound ↔ t.locateName p = .error .notFound := by
  rw [makeDirectory]
  cases t.locateName p with
  | error e => simp [bind, Except.bind]
  | ok place =>
    cases place with
    | none => simp [bind, Except.bind, throw, throwThe, MonadExceptOf.throw]
    | some l =>
      simp only [bind, Except.bind]
      split_ifs <;> simp [pure, Except.pure, throw, throwThe, MonadExceptOf.throw]

/-- Where a path leads to something, the directory that it is in is not missing. -/
theorem makeDirectory_ne_notFound (h : t.find p = .ok e) : t.makeDirectory p ≠ .error .notFound := by
  obtain ⟨l, hl, -⟩ := find_ok h
  obtain ⟨_, hcheck, -⟩ := Except.ok_of_bind hl
  obtain ⟨d, hd⟩ := parent_of_locate hl
  rw [Ne, makeDirectory_notFound, locateName, hcheck]
  simp only [bind, Except.bind, hd]
  split
  · simp [pure, Except.pure]
  · split_ifs <;> simp [pure, Except.pure, throw, throwThe, MonadExceptOf.throw]

/-- Where the last name of a path is a file's or nothing's, the path leads to no other place. -/
theorem locate_of_locateName (hl : t.locateName p = .ok (some l)) (hfree : t.Writable l)
    (hm : t.locate p = .ok m) : m = l := by
  obtain ⟨d, ns, n, hns, hhere, hparent, -, rfl, hd⟩ := locateName_some hl
  obtain ⟨_, -, hwalk⟩ := Except.ok_of_bind hm
  obtain ⟨k, hk⟩ := walkLinks_after hd
  rw [Path.steps, hns, List.append_assoc, hk _ (by simp)] at hwalk
  exact walkLinks_last hfree hhere hparent hwalk

/-- Where the last name of a path is a file's, the path leads to no directory. -/
theorem isDirectory_of_file (hl : t.locateName p = .ok (some l)) (hfile : t.FileAt l) :
    t.isDirectory p = false := by
  refine Bool.eq_false_iff.mpr fun h => ?_
  obtain ⟨m, hm, hdir⟩ := find_ok (isDirectory_iff.mp h)
  obtain rfl := locate_of_locateName hl (.inr hfile) hm
  exact hfile.not_directory hdir

/-- Where a path leads to something, no directory is made. -/
theorem not_made_of_find (h : t.find p = .ok e) : t.makeDirectory p ≠ .ok t' := by
  intro hmade
  obtain ⟨l, hl, hnone, -⟩ := makeDirectory_ok hmade
  obtain ⟨m, hm, he⟩ := find_ok h
  obtain rfl := locate_of_locateName hl (.inl hnone) hm
  rw [hnone] at he
  cases he

/-- A directory that was made is where its path leads, through any links. -/
theorem isDirectory_of_made (h : t.makeDirectory p = .ok t') : t'.isDirectory p := by
  obtain ⟨l, hl, hnone, rfl⟩ := makeDirectory_ok h
  have hlt : l ≠ [] := by
    rintro rfl
    cases hnone
  have hput := fun m => entry?_put (t := t) (m := m) (e := .directory) hlt
  obtain ⟨_, hcheck, -⟩ := Except.ok_of_bind hl
  obtain ⟨d, ns, n, hns, hhere, hparent, hlong, rfl, hd⟩ := locateName_some hl
  have hdir : entry? (t.put (d ++ [n]) .directory) (d ++ [n]) = some .directory := by
    rw [hput, if_pos rfl]
  -- the walk to the directory above passes by the new one
  have hd' : (t.put (d ++ [n]) .directory).walkLinks true linkLimit [] (ns ++ [Path.hereName])
      = .ok d := by
    refine walkLinks_of_same (fun k hk => ?_) (fun hfree => ?_) hd
    · rw [hput, if_neg]
      rintro rfl
      exact hk (.inl hnone)
    · rwa [Writable, FileAt, hput, if_neg (by simp)]
  obtain ⟨k, hk⟩ := walkLinks_after hd'
  have hlocate : (t.put (d ++ [n]) .directory).locate p = .ok (d ++ [n]) := by
    rw [locate, hcheck]
    change walkLinks _ true linkLimit [] p.steps = _
    rw [Path.steps, hns, List.append_assoc, hk _ (by simp)]
    refine walkLinks_of_atEnd ?_
    rw [List.singleton_append, walk, if_neg hhere, if_neg hparent, if_neg (Nat.not_lt.mpr hlong)]
    simp only [hdir]
    split_ifs <;> simp [walk]
  rw [isDirectory, find_of_locate hlocate hdir]

/-- The path of a name in a directory is walked along to the directory, and then to the name. -/
theorem walk_child (hn : Name.Valid n) (hd : t.locate p = .ok d) (hdir : t.entry? d = some .directory) :
    ∃ k, t.walkLinks true linkLimit [] (p.child n).steps = t.walkLinks true k d [n] := by
  obtain ⟨_, -, hd⟩ := Except.ok_of_bind hd
  have hdotted : t.walkLinks true linkLimit []
      ((Path.splitSlash p.bytes).filter (· ≠ []) ++ [Path.hereName]) = .ok d := by
    rw [Path.steps] at hd
    split_ifs at hd with hslash
    · exact hd
    · rw [List.append_nil] at hd
      exact walkLinks_dotted hd hdir
  obtain ⟨k, hk⟩ := walkLinks_after hdotted
  rw [Path.steps_child hn]
  exact ⟨k, hk _ (by simp)⟩

/-- The path of a file in a directory that is listed leads to no other place. -/
theorem locate_child (hn : Name.Valid n) (hd : t.locate p = .ok d)
    (hdir : t.entry? d = some .directory) (hfile : t.FileAt (d ++ [n]))
    (hm : t.locate (p.child n) = .ok m) : m = d ++ [n] := by
  obtain ⟨_, -, hm⟩ := Except.ok_of_bind hm
  obtain ⟨k, hwalk⟩ := walk_child hn hd hdir
  rw [hwalk] at hm
  exact walkLinks_last (.inr hfile) hn.not_here hn.not_parent hm

/-- A file in a directory is found at its path, if the system takes the name and the path. -/
theorem find_child (hn : Name.Valid n) (hlong : n.length ≤ nameLimit)
    (hcheck : (p.child n).check = .ok ()) (hd : t.locate p = .ok d)
    (hdir : t.entry? d = some .directory) {bytes : Bytes} {time : Instant}
    (hfile : t.entry? (d ++ [n]) = some (.file bytes time)) :
    t.find (p.child n) = .ok (.file bytes time) := by
  obtain ⟨k, hwalk⟩ := walk_child hn hd hdir
  refine find_of_locate ?_ hfile
  rw [locate, hcheck]
  refine hwalk.trans (walkLinks_of_atEnd ?_)
  rw [walk, if_neg hn.not_here, if_neg hn.not_parent, if_neg (Nat.not_lt.mpr hlong)]
  simp [hfile]

end ProposalReview.Tree
