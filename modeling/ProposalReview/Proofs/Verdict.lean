import Mathlib
import ProposalReview.PolicyGate.Http
import ProposalReview.Proofs.Filing.Walk
import ProposalReview.Proofs.Text.Blank
import ProposalReview.Proofs.Text.Utf8
/-!
Which replies give a verdict.

A reply counts only if its status means success and its text is a JSON object, and then by its last
members `allow` and `action` alone. Every other reply is an error of one kind, so that nothing is
promoted by accident.

    status    text          last `allow`   last `action`       result
    not 2xx   any, or none  -              -                   the status
    2xx       none          -              -                   unreachable
    2xx       blank         -              -                   allow or action missing
    2xx       not JSON      -              -                   invalid, with a detail
    2xx       no object     -              -                   invalid, without a detail
    2xx       object        false          any                 demote
    2xx       object        not false      promote or demote   that action
    2xx       object        true           any other, or none  the local action
    2xx       object        any other      any other, or none  allow or action missing
-/

namespace ProposalReview

/-! ### The last member with a key -/

namespace JsonObject

variable {ms : JsonObject} {key : String} {j : Json}

/-- Whether a value is that of the last member with a key. -/
def LastIs (ms : JsonObject) (key : String) (j : Json) : Prop :=
  ∃ before after, ms = before ++ (key, j) :: after ∧ ∀ m ∈ after, m.1 ≠ key

theorem last?_concat (ms : JsonObject) (m : String × Json) (key : String) :
    (ms ++ [m]).last? key = if m.1 = key then some m.2 else ms.last? key := by
  rw [last?, List.foldl_append]
  rfl

theorem last?_eq_some_iff : ms.last? key = some j ↔ ms.LastIs key j := by
  induction ms using List.reverseRecOn with
  | nil => simp [last?, LastIs]
  | append_singleton ms m ih =>
    rw [last?_concat]
    constructor
    · intro h
      split_ifs at h with hkey
      · cases h
        exact ⟨ms, [], by rw [← hkey], by simp⟩
      · obtain ⟨before, after, rfl, hafter⟩ := ih.mp h
        refine ⟨before, after ++ [m], by simp, List.forall_mem_append.mpr ⟨hafter, ?_⟩⟩
        exact List.forall_mem_singleton.mpr hkey
    · rintro ⟨before, after, hms, hafter⟩
      rcases List.eq_nil_or_concat' after with rfl | ⟨rest, n, rfl⟩
      · obtain ⟨rfl, rfl⟩ := List.append_singleton_inj.mp hms
        rw [if_pos rfl]
      · rw [← List.cons_append, ← List.append_assoc] at hms
        obtain ⟨rfl, rfl⟩ := List.append_singleton_inj.mp hms
        rw [if_neg (hafter m (by simp))]
        exact ih.mpr ⟨before, rest, rfl, fun x hx => hafter x (by simp [hx])⟩

/-- The action that the members of a reply ask for, given the local one. -/
inductive Asks (ms : JsonObject) (localAction : Action) : Action → Prop
  | refused (allow : ms.LastIs "allow" (.bool false)) : Asks ms localAction .demote
  | named {a : Action} (allow : ¬ ms.LastIs "allow" (.bool false)) (moves : a ≠ .hold)
      (action : ms.LastIs "action" (.string a.word)) : Asks ms localAction a
  | allowed (allow : ms.LastIs "allow" (.bool true))
      (action : ∀ a : Action, a ≠ .hold → ¬ ms.LastIs "action" (.string a.word)) :
      Asks ms localAction localAction

end JsonObject

/-! ### Verdicts -/

section

variable {ms : JsonObject} {key : String} {localAction a : Action}

theorem Action.ofWord?_eq_some_iff {s : String} : Action.ofWord? s = some a ↔ s = a.word := by
  constructor
  · intro h
    rw [ofWord?.eq_def] at h
    split at h <;> cases h <;> rfl
  · rintro rfl
    cases a <;> rfl

theorem Json.bool?_eq_some {j : Json} {b : Bool} (h : j.bool? = some b) : j = .bool b := by
  cases j with
  | bool c => rw [Option.some_inj.mp h]
  | _ => cases h

theorem Json.string?_eq_some {j : Json} {s : String} (h : j.string? = some s) : j = .string s := by
  cases j with
  | string t => rw [Option.some_inj.mp h]
  | _ => cases h

theorem Json.object?_eq_some {j : Json} {ms : JsonObject} (h : j.object? = some ms) :
    j = .object ms := by
  cases j with
  | object ms' => rw [Option.some_inj.mp h]
  | _ => cases h

theorem JsonObject.bool?_last {b : Bool} :
    (ms.last? key).bind Json.bool? = some b ↔ ms.LastIs key (.bool b) := by
  rw [← last?_eq_some_iff, Option.bind_eq_some_iff]
  constructor
  · rintro ⟨j, hj, hb⟩
    obtain rfl := Json.bool?_eq_some hb
    exact hj
  · intro h
    exact ⟨_, h, rfl⟩

theorem JsonObject.action?_last :
    ((ms.last? key).bind Json.string?).bind Action.ofWord? = some a ↔
      ms.LastIs key (.string a.word) := by
  rw [← last?_eq_some_iff, Option.bind_eq_some_iff]
  constructor
  · rintro ⟨s, hs, ha⟩
    obtain rfl := Action.ofWord?_eq_some_iff.mp ha
    obtain ⟨j, hj, hs⟩ := Option.bind_eq_some_iff.mp hs
    obtain rfl := Json.string?_eq_some hs
    exact hj
  · intro h
    exact ⟨a.word, by rw [h]; rfl, Action.ofWord?_eq_some_iff.mpr rfl⟩

/-- A verdict is what the members of a reply ask for. -/
theorem verdict_eq_ok_iff : verdict localAction ms = .ok a ↔ ms.Asks localAction a := by
  have hallow : ∀ b, _ ↔ ms.LastIs "allow" (.bool b) := fun b => JsonObject.bool?_last
  have haction : ∀ b : Action, _ ↔ ms.LastIs "action" (.string b.word) :=
    fun b => JsonObject.action?_last
  rw [verdict]
  constructor
  · intro h
    split_ifs at h with hfalse hpromote hdemote htrue
    · cases h
      exact .refused ((hallow _).mp hfalse)
    · cases h
      exact .named (mt (hallow _).mpr hfalse) (by decide) ((haction _).mp hpromote)
    · cases h
      exact .named (mt (hallow _).mpr hfalse) (by decide) ((haction _).mp hdemote)
    · cases h
      refine .allowed ((hallow _).mp htrue) fun b hb => ?_
      cases b with
      | promote => exact mt (haction _).mpr hpromote
      | demote => exact mt (haction _).mpr hdemote
      | hold => exact absurd rfl hb
  · rintro (hfalse | ⟨hfalse, hmoves, hnamed⟩ | ⟨htrue, hnone⟩)
    · rw [if_pos ((hallow _).mpr hfalse)]
    · rw [if_neg (mt (hallow _).mp hfalse), (haction a).mpr hnamed]
      cases a with
      | promote => rfl
      | demote => rfl
      | hold => exact absurd rfl hmoves
    · rw [(hallow true).mpr htrue, if_neg (by simp), if_neg (mt (haction _).mp (hnone _ (by decide))),
        if_neg (mt (haction _).mp (hnone _ (by decide))), if_pos rfl]

/-- Members that ask for no action are an error of one kind. -/
theorem verdict_eq_error (h : ∀ a, ¬ ms.Asks localAction a) :
    verdict localAction ms = .error .missingAllowOrAction := by
  have hno : ∀ a, verdict localAction ms ≠ .ok a := fun a ha => h a (verdict_eq_ok_iff.mp ha)
  rw [verdict] at hno ⊢
  split_ifs at hno ⊢
  · exact absurd rfl (hno _)
  · exact absurd rfl (hno _)
  · exact absurd rfl (hno _)
  · exact absurd rfl (hno _)
  · rfl

theorem JsonObject.not_asks_nil : ¬ JsonObject.Asks [] localAction a := by
  have hnone : ∀ {key : String} {j : Json}, ¬ JsonObject.LastIs [] key j := by
    rintro key j ⟨before, after, h, -⟩
    simp at h
  rintro (h | ⟨-, -, h⟩ | ⟨h, -⟩)
  · exact hnone h
  · exact hnone h
  · exact hnone h

end

/-! ### Texts that are no JSON -/

/-- A blank text is no JSON: no value begins with a blank character. -/
theorem Json.read_blank {text : List Char} (h : ∀ c ∈ text, Text.isBlank c) :
    ∃ f, Json.read text = .error f := by
  have hvalue : ∀ n, ∃ f, readValue (n + 1) depthLimit text = .error f := by
    intro n
    rw [readValue]
    cases hgap : skipGap text with
    | nil => exact ⟨_, rfl⟩
    | cons c cs =>
      have hc : Text.isBlank c := h c ((List.dropWhile_suffix isGap).subset (by
        rw [show text.dropWhile isGap = c :: cs from hgap]
        exact List.mem_cons_self))
      have hne : ∀ {d : Char}, Text.isBlank d = false → c ≠ d := Text.ne_of_isBlank hc
      simp only
      rw [if_neg (hne (by decide)), if_neg (hne (by decide)), if_neg (hne (by decide)),
        if_neg (hne (by decide)), if_neg (Text.not_isDigit_of_isBlank hc), if_neg (hne (by decide)),
        if_neg (hne (by decide)), if_neg (hne (by decide))]
      exact ⟨_, rfl⟩
  obtain ⟨f, hf⟩ := hvalue (2 * text.length + 1)
  refine ⟨f, ?_⟩
  rw [read, hf]
  rfl

/-! ### Replies -/

section

variable {text : List Char} {localAction : Action}

theorem decodeReply_blank (h : ∀ c ∈ text, Text.isBlank c) : decodeReply text = .ok [] :=
  if_pos (Text.allBlank_iff.mpr h)

theorem not_blank_of_read {j : Json} (h : Json.read text = .ok j) : ¬ Text.allBlank text := by
  intro hblank
  obtain ⟨f, hf⟩ := Json.read_blank (Text.allBlank_iff.mp hblank)
  rw [hf] at h
  cases h

theorem decodeReply_object {ms : JsonObject} (h : Json.read text = .ok (.object ms)) :
    decodeReply text = .ok ms := by
  rw [decodeReply, if_neg (not_blank_of_read h), h]

theorem decodeReply_value {j : Json} (h : Json.read text = .ok j) (hj : ∀ ms, j ≠ .object ms) :
    decodeReply text = .error (.invalidJson none) := by
  rw [decodeReply, if_neg (not_blank_of_read h), h]
  cases j with
  | object ms => exact absurd rfl (hj ms)
  | _ => rfl

theorem decodeReply_fault {f : Json.Fault} (hblank : ¬ ∀ c ∈ text, Text.isBlank c)
    (h : Json.read text = .error f) :
    decodeReply text = .error (.invalidJson (some (f.message text))) := by
  rw [decodeReply, if_neg (mt Text.allBlank_iff.mp hblank), h]

/-- Only an object gives members that ask for an action. -/
theorem decodeReply_asks {a : Action} {ms : JsonObject} (h : decodeReply text = .ok ms)
    (ha : ms.Asks localAction a) : Json.read text = .ok (.object ms) := by
  by_cases hblank : ∀ c ∈ text, Text.isBlank c
  · rw [decodeReply_blank hblank] at h
    cases h
    exact absurd ha JsonObject.not_asks_nil
  · cases hread : Json.read text with
    | error f =>
      rw [decodeReply_fault hblank hread] at h
      cases h
    | ok j =>
      by_cases hj : ∀ ms, j ≠ .object ms
      · rw [decodeReply_value hread hj] at h
        cases h
      · obtain ⟨ms', hms'⟩ := not_forall.mp hj
        obtain rfl := not_not.mp hms'
        rw [decodeReply_object hread] at h
        cases h
        rfl

end

/-- What the policy gate's reply amounts to: the action that the last `allow` and the last `action` of
an object ask for, if the status means success, and one kind of error for every other reply. -/
theorem post_fails_closed {exchange : HttpExchange Id} {s : PolicyGateSettings} {r : GateRequest}
    {reply : HttpReply} (hreply : exchange s.timeout (.ofGateRequest s.url r) = .ok reply)
    (localAction : Action) :
    let result := (Id.run (r.post exchange s)).bind (verdict localAction)
    let success := 200 ≤ reply.status ∧ reply.status ≤ 299
    (∀ a, result = .ok a ↔ success ∧ ∃ body, reply.body = .ok body ∧
      ∃ ms : JsonObject, Json.read (Text.decode body) = .ok (.object ms) ∧ ms.Asks localAction a) ∧
    (¬ success → result = .error (.httpStatus reply.status)) ∧
    (success → ∀ detail, reply.body = .error detail → result = .error (.unreachable detail)) ∧
    ∀ body, reply.body = .ok body →
      let text := Text.decode body
      let blank := ∀ c ∈ text, Text.isBlank c
      (success → blank → result = .error .missingAllowOrAction) ∧
      (success → ¬ blank → ∀ f, Json.read text = .error f →
        result = .error (.invalidJson (some (f.message text)))) ∧
      (success → ∀ j, Json.read text = .ok j → (∀ ms, j ≠ .object ms) →
        result = .error (.invalidJson none)) ∧
      (success → ∀ ms : JsonObject, Json.read text = .ok (.object ms) →
        (∀ a, ¬ ms.Asks localAction a) → result = .error .missingAllowOrAction) := by
  intro result success
  have hpost : Id.run (r.post exchange s) = reply.read := by
    change Id.run (match exchange s.timeout (.ofGateRequest s.url r) with
      | .ok reply => pure reply.read
      | .error detail => pure (.error (.unreachable detail))) = _
    rw [hreply]
    rfl
  have hsucceeds : reply.succeeds = true ↔ success := by
    simp only [HttpReply.succeeds, Bool.and_eq_true, decide_eq_true_eq, success]
    omega
  have hread : success → ∀ body, reply.body = .ok body →
      result = (decodeReply (Text.decode body)).bind (verdict localAction) := by
    intro hs body hbody
    simp only [result, hpost, HttpReply.read, if_pos (hsucceeds.mpr hs), hbody]
  have hcut : success → ∀ detail, reply.body = .error detail →
      result = .error (.unreachable detail) := by
    intro hs detail hbody
    simp only [result, hpost, HttpReply.read, if_pos (hsucceeds.mpr hs), hbody]
    rfl
  have hfailed : ¬ success → result = .error (.httpStatus reply.status) := by
    intro hs
    simp only [result, hpost, HttpReply.read, if_neg (mt hsucceeds.mp hs)]
    rfl
  refine ⟨fun a => ⟨fun ha => ?_, ?_⟩, hfailed, hcut, fun body hbody =>
    ⟨fun hs hb => ?_, fun hs hb f hf => ?_, fun hs j hj hno => ?_, fun hs ms hms hno => ?_⟩⟩
  · by_cases hs : success
    · rcases hbody : reply.body with detail | body
      · rw [hcut hs detail hbody] at ha
        cases ha
      · rw [hread hs body hbody] at ha
        obtain ⟨ms, hms, ha⟩ := Except.ok_of_bind ha
        have ha := verdict_eq_ok_iff.mp ha
        exact ⟨hs, body, rfl, ms, decodeReply_asks hms ha, ha⟩
    · rw [hfailed hs] at ha
      cases ha
  · rintro ⟨hs, body, hbody, ms, hms, ha⟩
    rw [hread hs body hbody, decodeReply_object hms]
    exact verdict_eq_ok_iff.mpr ha
  · rw [hread hs body hbody, decodeReply_blank hb]
    rfl
  · rw [hread hs body hbody, decodeReply_fault hb hf]
    rfl
  · rw [hread hs body hbody, decodeReply_value hj hno]
    rfl
  · rw [hread hs body hbody, decodeReply_object hms]
    exact verdict_eq_error hno

/-- An object that allows first, names a promotion, and refuses at last, is a refusal; with a status
that means no success it is an error. -/
theorem post_fails_closed_refused :
    let s : PolicyGateSettings := ⟨"https://g", .least⟩
    let r : GateRequest := ⟨"w", "a.md", .promote, [], [], {}, 0.0⟩
    let body := Text.encodeString
      "\x7b\x22allow\x22:true,\x22action\x22:\x22promote\x22,\x22allow\x22:false\x7d"
    (Id.run (r.post (fun _ _ => .ok ⟨200, .ok body⟩) s)).bind (verdict .promote) = .ok .demote ∧
      (Id.run (r.post (fun _ _ => .ok ⟨503, .ok body⟩) s)).bind (verdict .promote)
        = .error (.httpStatus 503) := by
  intro s r body
  have hseen : ((Json.read (Text.decode body)).toOption.bind Json.object?).map
      (fun ms => (ms.last? "allow").bind Json.bool?) = some (some false) := by decide +kernel
  constructor
  · obtain ⟨haction, -⟩ := @post_fails_closed (fun _ _ => .ok ⟨200, .ok body⟩) s r _ rfl .promote
    rcases hread : Json.read (Text.decode body) with f | j
    · rw [hread] at hseen
      cases hseen
    · rw [hread] at hseen
      obtain ⟨ms, hms, hallow⟩ := Option.map_eq_some_iff.mp hseen
      obtain rfl := Json.object?_eq_some hms
      have hasks : ms.Asks .promote .demote := .refused (JsonObject.bool?_last.mp hallow)
      exact (haction .demote).mpr ⟨by decide, body, rfl, ms, hread, hasks⟩
  · obtain ⟨-, hstatus, -⟩ := @post_fails_closed (fun _ _ => .ok ⟨503, .ok body⟩) s r _ rfl .promote
    exact hstatus (by decide)

end ProposalReview
