import ProposalReview.Decision.RecordReader
import ProposalReview.Proofs.Json.Roundtrip
/-!
Records survive being written and read back.

The reader checks the record's own two members as it meets them and collects those of the decision; so
the members are followed one by one, first those that are collected, then the other two. The path of
the proposal is not written, and a record that was read has none.
-/

namespace ProposalReview

open Json (ReadsBack Closes NumberReadsBack Legible)

/-- The key figures, in the order in which they are written. -/
def Kpi.figures (k : Kpi) : List (Option Float) :=
  [k.successRate, k.drift, k.reproducibility, k.revenueUsdc, k.tokenCostUsdc, k.marginRate]

/-- All numbers of a record that are there. -/
def Record.numbers (r : Record) : List Float :=
  r.decision.ageHours :: r.decision.kpi.figures.reduceOption

/-- A record without the path of its proposal. -/
def Record.unsourced (r : Record) : Record := { r with decision := { r.decision with source := ⟨[]⟩ } }

namespace Record

variable {d d' d'' : Draft} {key : String} {j : Json} {m : String × Json} {ms ms' : JsonObject}
  {fuel : Nat} {rest tail : List Char}

/-! ### Values of the expected form -/

theorem action?_word (a : Action) : action? (.string a.word) = some a := by
  cases a <;> rfl

theorem strings?_strings (ss : List String) : strings? (Json.strings ss) = some ss := by
  rw [Json.strings, strings?]
  induction ss with
  | nil => rfl
  | cons s ss ih => rw [List.map_cons, List.mapM_cons, ih]; rfl

theorem figure?_figure (x : Option Float) : figure? (Json.figure x) = some x := by
  cases x <;> rfl

/-- Of members with different keys, each one is the only one with its key. -/
theorem unique_of_mem (hkeys : (ms.map Prod.fst).Nodup) (h : (key, j) ∈ ms) :
    unique key ms = .ok (some j) := by
  have hfilter : ms.filter (·.1 == key) = [(key, j)] := by
    induction ms with
    | nil => cases h
    | cons m ms ih =>
      rw [List.map_cons, List.nodup_cons] at hkeys
      obtain rfl | hmem := List.mem_cons.mp h
      · have hnone : ms.filter (·.1 == key) = [] := by
          rw [List.filter_eq_nil_iff]
          intro m hm hkey
          exact hkeys.1 (beq_iff_eq.mp hkey ▸ List.mem_map.mpr ⟨m, hm, rfl⟩)
        rw [List.filter_cons_of_pos (by simp), hnone]
      · have hother : m.1 ≠ key := by
          rintro rfl
          exact hkeys.1 (List.mem_map.mpr ⟨_, hmem, rfl⟩)
        rw [List.filter_cons_of_neg (by simpa using hother), ih hkeys.2 hmem]
  rw [unique, hfilter]

theorem required_of_mem (hkeys : (ms.map Prod.fst).Nodup) (h : (key, j) ∈ ms) :
    required key ms = .ok j := by
  rw [required, unique_of_mem hkeys h]
  rfl

theorem kpiOf_toJson (k : Kpi) : kpiOf k.toJson = .ok k := by
  obtain ⟨ms, hms⟩ : ∃ ms, k.toJson = .object ms := ⟨_, rfl⟩
  have hkeys : (ms.map Prod.fst).Nodup := by
    cases hms
    exact (by decide : ["success_rate", "drift", "reproducibility", "revenue_usdc", "token_cost_usdc",
      "margin_rate"].Nodup)
  have hmem : ∀ m, m ∈ ms → unique m.1 ms = .ok (some m.2) := fun m hm => unique_of_mem hkeys hm
  rw [hms]
  cases hms
  simp only [List.forall_mem_cons] at hmem
  obtain ⟨hsuccess, hdrift, hreproducibility, hrevenue, hcost, hmargin, -⟩ := hmem
  simp only [kpiOf, figureOf, hsuccess, hdrift, hreproducibility, hrevenue, hcost, hmargin,
    figure?_figure, bind, Except.bind]
  rfl

theorem decisionOf_members (d : Decision) : decisionOf d.members = .ok { d with source := ⟨[]⟩ } := by
  have hkeys : (d.members.map Prod.fst).Nodup :=
    (by decide : ["file", "action", "reasons", "warnings", "kpi", "age_hours"].Nodup)
  have hmem : ∀ m, m ∈ d.members → required m.1 d.members = .ok m.2 :=
    fun m hm => required_of_mem hkeys hm
  simp only [Decision.members, List.forall_mem_cons] at hmem
  obtain ⟨hfile, haction, hreasons, hwarnings, hkpi, hage, -⟩ := hmem
  simp only [decisionOf, Decision.members, hfile, haction, hreasons, hwarnings, hkpi, hage,
    Json.string?, action?_word, strings?_strings, kpiOf_toJson, bind, Except.bind]
  rfl

/-! ### Members -/

/-- Whether a member is read into a draft, whatever follows it, up to blanks before that. -/
def Draft.Takes (d : Draft) (m : String × Json) (d' : Draft) : Prop :=
  ∀ tail, Closes tail → ∃ r, d.readMember m.1 (':' :: (Json.write m.2 ++ tail)) = .ok (d', r) ∧
    Json.skipGap r = Json.skipGap tail

theorem readColon_colon (tail : List Char) : Json.readColon (':' :: tail) = .ok tail := by
  simp [Json.readColon, Json.skipGap_cons, Json.isGap]

/-- A member of the decision is collected. -/
theorem takes_other (hkey : key ≠ "destination") (hkey' : key ≠ "incident")
    (hj : ReadsBack (Json.depthLimit - 1) j) :
    d.Takes (key, j) { d with others := d.others ++ [(key, j)] } := by
  intro tail htail
  obtain ⟨r, hread, hr⟩ := hj (2 * (Json.write j ++ tail).length + 2) tail
    (by rw [List.length_append]; omega) htail
  refine ⟨r, ?_, hr⟩
  simp only [Draft.readMember, if_neg hkey, if_neg hkey', readColon_colon, hread, lift, Except.mapError,
    bind, Except.bind]
  rfl

theorem readText_write (s : String) (tail : List Char) :
    readText (Json.writeString s ++ tail) = .ok (s, tail) := by
  have hquote : Json.skipGap (Json.writeString s ++ tail)
      = '\x22' :: ((Json.writeString s).tail ++ tail) := Json.skipGap_cons rfl _
  rw [readText, hquote]
  simp only [Json.readString_write, lift, Except.mapError]

theorem takes_destination (h : d.destination = none) (s : String) :
    d.Takes ("destination", .string s) { d with destination := some s } := by
  intro tail htail
  refine ⟨tail, ?_, rfl⟩
  simp only [Draft.readMember, h, readColon_colon, Json.write, readText_write, lift, Except.mapError,
    bind, Except.bind]
  rfl

theorem readOptionalText_write (s : Option String) (tail : List Char) :
    readOptionalText (Json.write (Json.ofOption .string s) ++ tail) = .ok (s, tail) := by
  cases s with
  | none => rfl
  | some s =>
    have hquote : Json.skipGap (Json.writeString s ++ tail) = Json.writeString s ++ tail :=
      Json.skipGap_cons rfl _
    rw [Json.ofOption, Json.write, readOptionalText, hquote]
    split
    · next heq => cases heq
    · rw [readText_write]
      rfl

theorem takes_incident (h : d.incident = none) (s : Option String) :
    d.Takes ("incident", Json.ofOption .string s) { d with incident := some s } := by
  intro tail htail
  refine ⟨tail, ?_, rfl⟩
  simp only [Draft.readMember, h, readColon_colon, readOptionalText_write, lift, Except.mapError,
    bind, Except.bind]
  rfl

/-- Members that are read into a draft one after another. -/
inductive Draft.TakesAll : Draft → JsonObject → Draft → Prop where
  | nil {d : Draft} : TakesAll d [] d
  | cons {d d' d'' : Draft} {m : String × Json} {ms : JsonObject} (hm : d.Takes m d')
    (hms : TakesAll d' ms d'') : TakesAll d (m :: ms) d''

theorem takesAll_others {others : JsonObject} (hothers : d.others ++ ms = others)
    (h : ∀ m ∈ ms, m.1 ≠ "destination" ∧ m.1 ≠ "incident" ∧ ReadsBack (Json.depthLimit - 1) m.2)
    (hrest : Draft.TakesAll { d with others } ms' d') : d.TakesAll (ms ++ ms') d' := by
  induction ms generalizing d with
  | nil =>
    rw [List.append_nil] at hothers
    rw [← hothers] at hrest
    exact hrest
  | cons m ms ih =>
    obtain ⟨⟨hkey, hkey', hread⟩, hms⟩ := List.forall_mem_cons.mp h
    refine .cons (takes_other hkey hkey' hread) (ih ?_ hms hrest)
    rw [List.append_assoc]
    exact hothers

/-- Reading the members of a record goes on behind a member that is read. -/
theorem readMembers_step {first : Bool} {cs : List Char} (hm : d.Takes m d') (htail : Closes tail)
    (hnext : Json.nextMember first cs
      = .ok (some ((Json.writeString m.1).tail ++ ':' :: (Json.write m.2 ++ tail)))) :
    readMembers (fuel + 2) first d cs = readMembers (fuel + 1) false d' tail := by
  obtain ⟨r, hread, hr⟩ := hm tail htail
  have hblank : readMembers (fuel + 1) false d' r = readMembers (fuel + 1) false d' tail := by
    rw [readMembers, readMembers, Json.nextMember, Json.nextMember, hr]
  rw [← hblank, readMembers, hnext]
  simp only [lift, Except.mapError, bind, Except.bind, Json.readString_write, hread]

theorem readMembers_write (h : d.TakesAll ms d') (fuel : Nat) (rest : List Char) :
    readMembers (fuel + ms.length + 1) false d (Json.writeMembers ms ++ '\x7d' :: rest)
      = .ok (d', '\x7d' :: rest) := by
  induction h with
  | nil =>
    simp [readMembers, Json.writeMembers, Json.nextMember, Json.skipGap_cons, Json.isGap, lift,
      Except.mapError, bind, Except.bind, pure, Except.pure]
  | @cons d d' d'' m ms hm _ ih =>
    have hnext := Json.nextMember_next m.1
      (':' :: (Json.write m.2 ++ (Json.writeMembers ms ++ '\x7d' :: rest)))
    have htext : Json.writeMembers (m :: ms) ++ '\x7d' :: rest
        = ',' :: (Json.writeString m.1
          ++ ':' :: (Json.write m.2 ++ (Json.writeMembers ms ++ '\x7d' :: rest))) := by
      simp [Json.writeMembers]
    rw [htext, List.length_cons, ← Nat.add_assoc,
      readMembers_step hm (Json.closes_members ms rest) hnext, ih]

/-! ### Whole records -/

theorem length_le_writeMembers (ms : JsonObject) : ms.length ≤ (Json.writeMembers ms).length := by
  induction ms with
  | nil => exact Nat.le_refl 0
  | cons m ms ih =>
    simp only [Json.writeMembers, List.length_cons, List.length_append]
    omega

/-- An object whose members make up a sound draft is read as a record. -/
theorem read_object {r : Record} (h : Draft.TakesAll {} (m :: ms) d) (hfinish : d.finish = .ok r) :
    read (Json.write (.object (m :: ms))) = .ok r := by
  cases h with
  | cons hm hms =>
    let tail := Json.writeMembers ms ++ ['\x7d']
    let text := Json.writeString m.1 ++ ':' :: (Json.write m.2 ++ tail)
    have htext : Json.skipGap (Json.write (.object (m :: ms))) = '\x7b' :: text := by
      rw [Json.write]
      exact Json.skipGap_cons rfl text
    have hlong : ms.length + 1 ≤ text.length := by
      have hmembers := length_le_writeMembers ms
      simp only [text, tail, List.length_append, List.length_cons]
      omega
    obtain ⟨fuel, hfuel⟩ := Nat.exists_eq_add_of_le' hlong
    have hread : readMembers (text.length + 1) true {} text = .ok (d, ['\x7d']) := by
      rw [hfuel, ← Nat.add_assoc, readMembers_step hm (Json.closes_members ms []) (Json.nextMember_first _ _),
        readMembers_write hms]
    rw [read, htext]
    simp only [hread, hfinish, bind, Except.bind]
    rfl

theorem legible_strings (ss : List String) (depth : Nat) : Legible (depth + 1) (Json.strings ss) := by
  refine .array fun x hx => ?_
  obtain ⟨s, -, rfl⟩ := List.mem_map.mp hx
  exact .string s

theorem legible_figure {x : Option Float} (h : ∀ y ∈ x, NumberReadsBack (.float y)) (depth : Nat) :
    Legible depth (Json.figure x) := by
  cases x with
  | none => exact .null
  | some y => exact .number (h y rfl)

theorem legible_kpi {k : Kpi} (h : ∀ x ∈ k.figures.reduceOption, NumberReadsBack (.float x))
    (depth : Nat) : Legible (depth + 1) k.toJson := by
  have hfigures : ∀ x ∈ k.figures, Legible depth (Json.figure x) := fun x hx =>
    legible_figure (fun y hy => h y (List.reduceOption_mem_iff.mpr (hy ▸ hx))) depth
  simp only [Kpi.figures, List.forall_mem_cons] at hfigures
  obtain ⟨hsuccess, hdrift, hreproducibility, hrevenue, hcost, hmargin, -⟩ := hfigures
  refine .object ?_
  simp only [List.forall_mem_cons]
  exact ⟨hsuccess, hdrift, hreproducibility, hrevenue, hcost, hmargin, by simp⟩

/-- The members of a decision are none of the record's own, and each of their values is read back. -/
theorem readsBack_member {r : Record} (h : ∀ x ∈ r.numbers, NumberReadsBack (.float x)) :
    ∀ m ∈ r.decision.members,
      m.1 ≠ "destination" ∧ m.1 ≠ "incident" ∧ ReadsBack (Json.depthLimit - 1) m.2 := by
  obtain ⟨hage, hkpi⟩ := List.forall_mem_cons.mp h
  have hlegible : ∀ m ∈ r.decision.members, Legible (Json.depthLimit - 1) m.2 := by
    simp only [Decision.members, List.forall_mem_cons]
    exact ⟨.string _, .string _, legible_strings _ _, legible_strings _ _, legible_kpi hkpi _,
      .number hage, by simp⟩
  have hkeys : ∀ k ∈ r.decision.members.map Prod.fst, k ≠ "destination" ∧ k ≠ "incident" :=
    (by decide : ∀ k ∈ ["file", "action", "reasons", "warnings", "kpi", "age_hours"],
      k ≠ "destination" ∧ k ≠ "incident")
  intro m hm
  obtain ⟨hkey, hkey'⟩ := hkeys m.1 (List.mem_map.mpr ⟨m, hm, rfl⟩)
  exact ⟨hkey, hkey', (hlegible m hm).readsBack⟩

/-- Writing a record and reading the text gives the record without the path of its proposal, if each of
its numbers is read back from its own text; and that record is written the same way. -/
theorem ofString_compact (r : Record) (h : ∀ x ∈ r.numbers, NumberReadsBack (.float x)) :
    ofString r.toJson.compact = .ok r.unsourced ∧ r.unsourced.toJson.compact = r.toJson.compact := by
  refine ⟨?_, rfl⟩
  let draft : Draft :=
    { destination := some r.destination, incident := some r.incident, others := r.decision.members }
  have hmembers : Draft.TakesAll {} (r.decision.members ++
      [("destination", .string r.destination), ("incident", Json.ofOption Json.string r.incident)])
      draft :=
    takesAll_others rfl (readsBack_member h)
      (.cons (takes_destination rfl r.destination) (.cons (takes_incident rfl r.incident) .nil))
  have hfinish : draft.finish = .ok r.unsourced := by
    simp only [draft, Draft.finish, decisionOf_members, bind, Except.bind]
    rfl
  rw [ofString, Json.compact, String.toList_ofList]
  exact read_object hmembers hfinish

/-- A record with a quote, a backslash and a control character in its texts, with figures that are there
and figures that are not, and without an incident. -/
theorem ofString_compact_escaped :
    let r : Record :=
      { decision :=
          { file := "in/a\"\\\x01é.md", source := ⟨[0x69]⟩, action := .demote
            reasons := ["missing_eval", "a\nb"], warnings := []
            kpi := { drift := some 0.1, revenueUsdc := some 1e20, marginRate := some (-0.0) }
            ageHours := 2.5 }
        destination := "out/a", incident := none }
    (∀ x ∈ r.numbers, NumberReadsBack (.float x)) ∧
      ofString r.toJson.compact = .ok { r with decision := { r.decision with source := ⟨[]⟩ } } ∧
      r.unsourced.toJson.compact = r.toJson.compact := by
  intro r
  have hnumbers : ∀ x ∈ r.numbers, NumberReadsBack (.float x) := by
    have hall : r.numbers = [2.5, 0.1, 1e20, -0.0] := rfl
    rw [hall]
    simp only [List.forall_mem_cons]
    refine ⟨?_, ?_, ?_, ?_, by simp⟩ <;> with_unfolding_all rfl
  exact ⟨hnumbers, ofString_compact r hnumbers⟩

end Record

end ProposalReview
