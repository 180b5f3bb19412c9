import Mathlib
import ProposalReview.Filing.Filesystem
import ProposalReview.Filing.Tree
import ProposalReview.Proofs.Text.Utf8
/-!
Paths read as places.

Where no link turns a walk aside, the names of a path alone say where it leads: a name goes down, a
double dot goes up, a single dot stays. A valid name that is joined to a path goes one step down from
the path's place and is the base name of the result, also after the path was shown as a text and read
again.
-/

namespace ProposalReview

/-- A name that an entry of a directory can have. -/
structure Name.Valid (n : Name) : Prop where
  nonempty : n ≠ []
  no_slash : slash ∉ n
  not_here : n ≠ Path.hereName
  not_parent : n ≠ Path.parentName

instance (n : Name) : Decidable (Name.Valid n) :=
  decidable_of_iff (n ≠ [] ∧ slash ∉ n ∧ n ≠ Path.hereName ∧ n ≠ Path.parentName)
    ⟨fun ⟨h1, h2, h3, h4⟩ => ⟨h1, h2, h3, h4⟩, fun ⟨h1, h2, h3, h4⟩ => ⟨h1, h2, h3, h4⟩⟩

/-- The place one name further. -/
def Location.descend (l : Location) (n : Name) : Location :=
  if n = Path.hereName then l else if n = Path.parentName then l.dropLast else l ++ [n]

/-- The place that a path names where there are no links. -/
def Path.place (p : Path) : Location := p.steps.foldl Location.descend []

theorem Name.Valid.descend {n : Name} (h : Name.Valid n) (l : Location) :
    Location.descend l n = l ++ [n] := by
  rw [Location.descend, if_neg h.not_here, if_neg h.not_parent]

namespace Path

/-! ### Splitting at slashes -/

theorem splitSlash_ne_nil (bs : Bytes) : splitSlash bs ≠ [] := by
  cases bs with
  | nil => simp [splitSlash]
  | cons b bs =>
    rw [splitSlash]
    split
    · simp
    · split <;> simp

theorem splitSlash_append_slash (as bs : Bytes) :
    splitSlash (as ++ slash :: bs) = splitSlash as ++ splitSlash bs := by
  induction as with
  | nil => simp [splitSlash]
  | cons a as ih =>
    rw [List.cons_append, splitSlash, splitSlash, ih]
    by_cases ha : a = slash
    · rw [if_pos ha, if_pos ha, List.cons_append]
    · rw [if_neg ha, if_neg ha]
      cases hs : splitSlash as with
      | nil => exact absurd hs (splitSlash_ne_nil as)
      | cons n ns => rfl

theorem splitSlash_of_not_mem {bs : Bytes} (h : slash ∉ bs) : splitSlash bs = [bs] := by
  induction bs with
  | nil => rfl
  | cons b bs ih =>
    rw [List.mem_cons, not_or] at h
    rw [splitSlash, if_neg (Ne.symm h.1), ih h.2]

theorem slash_not_mem_of_mem_splitSlash {bs : Bytes} {n : Name} (h : n ∈ splitSlash bs) :
    slash ∉ n := by
  induction bs generalizing n with
  | nil =>
    rw [splitSlash, List.mem_singleton] at h
    simp [h]
  | cons b bs ih =>
    rw [splitSlash] at h
    by_cases hb : b = slash
    · rw [if_pos hb] at h
      rcases List.mem_cons.mp h with rfl | h
      · simp
      · exact ih h
    · rw [if_neg hb] at h
      cases hs : splitSlash bs with
      | nil => exact absurd hs (splitSlash_ne_nil bs)
      | cons m ms =>
        rw [hs] at h ih
        rcases List.mem_cons.mp h with rfl | h
        · rw [List.mem_cons, not_or]
          exact ⟨Ne.symm hb, ih List.mem_cons_self⟩
        · exact ih (List.mem_cons_of_mem _ h)

/-! ### A name joined to a path -/

theorem isAbsolute_name {n : Name} (h : Name.Valid n) : isAbsolute ⟨n⟩ = false := by
  cases n with
  | nil => rfl
  | cons b bs =>
    have hb : b ≠ slash := fun hb => h.no_slash (hb ▸ List.mem_cons_self)
    simpa [isAbsolute] using hb

/-- Joining a valid name puts a slash before it, unless the path is empty or has one already. -/
theorem child_bytes {n : Name} (h : Name.Valid n) (p : Path) :
    (p.bytes = [] ∧ (p.child n).bytes = n) ∨
      ∃ as, (p.bytes = as ∨ p.bytes = as ++ [slash]) ∧ (p.child n).bytes = as ++ slash :: n := by
  rw [child, join, isAbsolute_name h]
  rcases List.eq_nil_or_concat p.bytes with hp | ⟨as, b, hp⟩
  · exact Or.inl ⟨hp, by simp [hp]⟩
  · refine Or.inr ?_
    by_cases hb : b = slash
    · exact ⟨as, Or.inr (by rw [hp, hb, List.concat_eq_append]), by simp [hp, hb]⟩
    · exact ⟨p.bytes, Or.inl rfl, by simp [hp, hb]⟩

theorem child_ne_empty {n : Name} (h : Name.Valid n) (p : Path) : (p.child n).isEmpty = false := by
  rcases child_bytes h p with ⟨_, hc⟩ | ⟨as, _, hc⟩
  · simpa [isEmpty, hc] using h.nonempty
  · simp [isEmpty, hc]

/-- The names of a path, with single dots, walked along from the root. -/
theorem place_eq_foldl (p : Path) :
    p.place = ((splitSlash p.bytes).filter (· ≠ [])).foldl Location.descend [] := by
  rw [place, steps, List.foldl_append]
  split
  · simp [Location.descend]
  · rfl

/-- Joining a valid name adds it to the names that are walked along. -/
theorem splitSlash_child {n : Name} (h : Name.Valid n) (p : Path) :
    (splitSlash (p.child n).bytes).filter (· ≠ [])
      = (splitSlash p.bytes).filter (· ≠ []) ++ [n] := by
  have hn : (splitSlash n).filter (· ≠ []) = [n] := by
    rw [splitSlash_of_not_mem h.no_slash]
    simpa using h.nonempty
  rcases child_bytes h p with ⟨hp, hc⟩ | ⟨as, hp, hc⟩
  · rw [hc, hn, hp]
    simp [splitSlash]
  · have hs : (splitSlash p.bytes).filter (· ≠ []) = (splitSlash as).filter (· ≠ []) := by
      rcases hp with hp | hp <;> rw [hp]
      rw [splitSlash_append_slash, List.filter_append]
      simp [splitSlash]
    rw [hc, splitSlash_append_slash, List.filter_append, hn, hs]

theorem getLast?_child {n : Name} (h : Name.Valid n) (p : Path) :
    (p.child n).bytes.getLast? = n.getLast? := by
  obtain ⟨b, bs, rfl⟩ := List.exists_cons_of_ne_nil h.nonempty
  rcases child_bytes h p with ⟨-, hc⟩ | ⟨as, -, hc⟩
  · rw [hc]
  · rw [hc, List.getLast?_append, List.getLast?_cons_cons]
    simp [List.getLast?_cons]

theorem steps_child {n : Name} (h : Name.Valid n) (p : Path) :
    (p.child n).steps = (splitSlash p.bytes).filter (· ≠ []) ++ [n] := by
  have hlast : (p.child n).bytes.getLast? ≠ some slash := by
    rw [getLast?_child h]
    exact fun hslash => h.no_slash (List.mem_of_getLast? hslash)
  rw [steps, splitSlash_child h, if_neg hlast, List.append_nil]

theorem place_child {n : Name} (h : Name.Valid n) (p : Path) : (p.child n).place = p.place ++ [n] := by
  rw [place_eq_foldl, place_eq_foldl, splitSlash_child h, List.foldl_append]
  exact h.descend _

theorem baseName?_of_splitSlash {n : Name} (h : Name.Valid n) {p : Path} (ns : List Name)
    (hp : splitSlash p.bytes = ns ++ [n]) : p.baseName? = some n := by
  have hn : (n ≠ [] ∧ n ≠ hereName) := ⟨h.nonempty, h.not_here⟩
  rw [baseName?, names, hp, List.filter_append, List.filter_singleton]
  simp [hn, h.not_parent]

theorem baseName?_child {n : Name} (h : Name.Valid n) (p : Path) : (p.child n).baseName? = some n := by
  have hn := splitSlash_of_not_mem h.no_slash
  rcases child_bytes h p with ⟨_, hc⟩ | ⟨as, _, hc⟩
  · exact baseName?_of_splitSlash h [] (by rw [hc, hn, List.nil_append])
  · exact baseName?_of_splitSlash h _ (by rw [hc, splitSlash_append_slash, hn])

/-! ### The way to a path -/

/-- The places of a path and of the paths above it, from the root. -/
def way (p : Path) : List Location := p.names.inits.map fun ns => ns.foldl Location.descend []

theorem foldl_descend_names (ns : List Name) (l : Location) :
    (ns.filter fun n => n ≠ [] ∧ n ≠ hereName).foldl Location.descend l
      = (ns.filter (· ≠ [])).foldl Location.descend l := by
  induction ns generalizing l with
  | nil => rfl
  | cons n ns ih =>
    by_cases h1 : n = []
    · simpa [h1] using ih l
    · by_cases h2 : n = hereName
      · have hstay : Location.descend l hereName = l := by simp [Location.descend]
        have hhere : hereName ≠ [] := by decide
        simpa [h2, hstay, hhere] using ih l
      · simpa [h1, h2] using ih (Location.descend l n)

theorem place_eq_names (p : Path) : p.place = p.names.foldl Location.descend [] := by
  rw [place_eq_foldl, names, foldl_descend_names]

theorem splitSlash_joinNames {ns : List Name} (hne : ns ≠ []) (h : ∀ n ∈ ns, slash ∉ n) :
    splitSlash (joinNames ns) = ns := by
  induction ns with
  | nil => exact absurd rfl hne
  | cons n ns ih =>
    obtain ⟨hn, hns⟩ := List.forall_mem_cons.mp h
    cases ns with
    | nil => simpa [joinNames] using splitSlash_of_not_mem hn
    | cons m ms => rw [joinNames, splitSlash_append_slash, splitSlash_of_not_mem hn,
        ih (by simp) hns, List.singleton_append]

/-- Names that mean something are the names of the path that they make. -/
theorem names_ofNames (absolute : Bool) {ns : List Name}
    (h : ∀ n ∈ ns, slash ∉ n ∧ n ≠ [] ∧ n ≠ hereName) : (ofNames absolute ns).names = ns := by
  have hkept : (ns.filter fun n => n ≠ [] ∧ n ≠ hereName) = ns :=
    List.filter_eq_self.mpr fun n hn => by simpa using (h n hn).2
  have hjoined : (splitSlash (joinNames ns)).filter (fun n => n ≠ [] ∧ n ≠ hereName) = ns := by
    rcases eq_or_ne ns [] with rfl | hne
    · rfl
    · rw [splitSlash_joinNames hne fun n hn => (h n hn).1, hkept]
  cases absolute with
  | false => exact hjoined
  | true =>
    have hslash : splitSlash (slash :: joinNames ns) = [] :: splitSlash (joinNames ns) := by
      rw [splitSlash, if_pos rfl]
    simpa [names, ofNames, hslash] using hjoined

theorem of_mem_names {p : Path} {n : Name} (h : n ∈ p.names) :
    slash ∉ n ∧ n ≠ [] ∧ n ≠ hereName := by
  rw [names, List.mem_filter] at h
  exact ⟨slash_not_mem_of_mem_splitSlash h.1, by simpa using h.2⟩

/-- A directory that is made so that a path can be is on the way to the path. -/
theorem place_mem_way {p q : Path} (hq : q ∈ p :: p.above) : q.place ∈ p.way := by
  have hnames : q.names <+: p.names := by
    rcases List.mem_cons.mp hq with rfl | hq
    · exact List.prefix_rfl
    · obtain ⟨n, -, rfl⟩ := List.mem_map.mp hq
      rw [names_ofNames _ fun m hm => of_mem_names (List.mem_of_mem_take hm)]
      exact List.take_prefix _ _
  rw [way, List.mem_map]
  exact ⟨q.names, List.mem_inits _ _ |>.mpr hnames, (place_eq_names q).symm⟩

end Path

end ProposalReview
