import AlloyPort.Episode.Shape

/-! Where attempts, turns and tool operations stand: the identity of each is derived from its place
in the episode, and no two operations share a place. -/

namespace AlloyPort

open SharedStore DurableEpisodeState

theorem derivedId_text {kind : IdKind} {text : String} {id : ValidatedId kind} (h : derivedId text = .ok id) :
    id.text = text := by
  simp only [derivedId] at h
  split at h
  · rename_i hid
    cases h
    exact ValidatedId.tryFrom_text hid
  · cases h

variable {e episodeId : EpisodeId} {n n' : Nat}

theorem derivedModelAttemptId_toList {id : ModelAttemptId} (h : derivedModelAttemptId episodeId n = .ok id) :
    id.text.toList = "model-attempt-".toList ++ (episodeId.text.toList ++ '-' :: n.repr.toList) := by
  rw [derivedId_text h]
  simp [ToString.toString]

theorem derivedTurnId_toList {id : TurnId} (h : derivedTurnId episodeId n = .ok id) :
    id.text.toList = "turn-".toList ++ (episodeId.text.toList ++ '-' :: n.repr.toList) := by
  rw [derivedId_text h]
  simp [ToString.toString]

theorem derivedModelAttemptId_inj {e' : EpisodeId} {id : ModelAttemptId}
    (h : derivedModelAttemptId e n = .ok id) (h' : derivedModelAttemptId e' n' = .ok id) : e = e' ∧ n = n' := by
  have ht := (derivedModelAttemptId_toList h).symm.trans (derivedModelAttemptId_toList h')
  obtain ⟨he, hn⟩ := Text.append_cons_repr_inj (by decide) (List.append_cancel_left ht)
  exact ⟨ValidatedId.ext_text (String.toList_inj.mp he), hn⟩

theorem derivedTurnId_inj {id : TurnId}
    (h : derivedTurnId e n = .ok id) (h' : derivedTurnId e n' = .ok id) : n = n' := by
  have ht := (derivedTurnId_toList h).symm.trans (derivedTurnId_toList h')
  exact (Text.append_cons_repr_inj (by decide) (List.append_cancel_left ht)).2

variable [Sha256] {id : EpisodeId} {s s' : DurableEpisodeState} {log : List GatewayEvent}

/-- The operation was planned for call `place.2` of turn `place.1`, both counted from zero. -/
def Placed (id : EpisodeId) (o : DurableToolOperation) (place : Nat × Nat) : Prop :=
  derivedTurnId id (place.1 + 1) = .ok o.record.turnId ∧
    ∃ descriptor, derivedToolOperationId id o.record.turnId place.2 descriptor o.record.spec.argumentsDigest
      o.record.spec.inputIdentityDigest = .ok o.record.id

/-- The last turn is recorded and none of its calls is planned. -/
def Unplanned (status : EpisodeStatus) : Prop :=
  status = .turnRecorded ∨ status = .stopReview

structure Located (id : EpisodeId) (s : DurableEpisodeState) : Prop where
  attempts : ∀ (i : Nat) attempt, s.attempts[i]? = some attempt →
    derivedModelAttemptId id (i + 1) = .ok attempt.id
  turns : ∀ (i : Nat) turn, s.turns[i]? = some turn → derivedTurnId id (i + 1) = .ok turn.record.id
  operations : ∃ places : List (Nat × Nat), List.Forall₂ (Placed id) s.toolOperations places ∧ places.Nodup ∧
    (∀ place ∈ places, place.1 < s.turns.length) ∧
    (Unplanned s.status → ∀ place ∈ places, place.1 + 1 < s.turns.length)

omit [Sha256] in
theorem AttemptsChange.locate (h : AttemptsChange id s log s')
    (ha : ∀ (i : Nat) attempt, s.attempts[i]? = some attempt → derivedModelAttemptId id (i + 1) = .ok attempt.id)
    (i : Nat) (attempt : ModelAttemptRecord) (hi : s'.attempts[i]? = some attempt) :
    derivedModelAttemptId id (i + 1) = .ok attempt.id := by
  -- the last attempt is replaced by one of the same identity
  have hlast : ∀ front a a', s.attempts = front ++ [a] → s'.attempts = front ++ [a'] → a'.id = a.id →
      derivedModelAttemptId id (i + 1) = .ok attempt.id := by
    intro front a a' hs hs' hid
    by_cases hlt : i < front.length
    · rw [hs', List.getElem?_append_left hlt] at hi
      exact ha i attempt (by rw [hs, List.getElem?_append_left hlt]; exact hi)
    · have hlen := (List.getElem?_eq_some_iff.mp hi).choose
      rw [hs', List.length_append, List.length_singleton] at hlen
      obtain rfl : i = front.length := by omega
      rw [hs', List.getElem?_concat_length] at hi
      cases hi
      rw [hid]
      exact ha _ a (by rw [hs, List.getElem?_concat_length])
  cases h with
  | kept h _ => exact ha i attempt (h ▸ hi)
  | @pushed a h _ _ hnew _ _ _ =>
    by_cases hlt : i < s.attempts.length
    · rw [h, List.getElem?_append_left hlt] at hi
      exact ha i attempt hi
    · have hlen := (List.getElem?_eq_some_iff.mp hi).choose
      rw [h, List.length_append, List.length_singleton] at hlen
      obtain rfl : i = s.attempts.length := by omega
      rw [h, List.getElem?_concat_length] at hi
      cases hi
      exact hnew
  | dispatched h h' _ _ => exact hlast _ _ _ h h' rfl
  | decoded h h' _ hs | ended h h' _ hs => exact hlast _ _ _ h h' (by simp only [ModelAttemptRecord.id, hs])

omit [Sha256] in
theorem AttemptsChange.turn (h : AttemptsChange id s log s') :
    s'.turns = s.turns ∨ ∃ turn, s'.turns = s.turns ++ [turn] ∧
      derivedTurnId id (s.turns.length + 1) = .ok turn.record.id := by
  cases h with
  | kept _ ht | pushed _ ht | dispatched _ _ ht | ended _ _ ht => exact .inl ht
  | decoded _ _ ht _ _ _ _ hi _ => exact .inr ⟨_, ht, hi⟩

omit [Sha256] in
theorem AttemptsChange.locateTurn (h : AttemptsChange id s log s')
    (ht : ∀ (i : Nat) turn, s.turns[i]? = some turn → derivedTurnId id (i + 1) = .ok turn.record.id)
    (i : Nat) (turn : DurableTurn) (hi : s'.turns[i]? = some turn) :
    derivedTurnId id (i + 1) = .ok turn.record.id := by
  rcases h.turn with heq | ⟨turn', heq, hnew⟩
  · exact ht i turn (heq ▸ hi)
  · by_cases hlt : i < s.turns.length
    · rw [heq, List.getElem?_append_left hlt] at hi
      exact ht i turn hi
    · have hlen := (List.getElem?_eq_some_iff.mp hi).choose
      rw [heq, List.length_append, List.length_singleton] at hlen
      obtain rfl : i = s.turns.length := by omega
      rw [heq, List.getElem?_concat_length] at hi
      cases hi
      exact hnew

theorem PlannedCalls.placed {turn : TurnRecord} {inputDigest : Sha256Digest} {index j : Nat}
    {calls : List GatewayToolCall} {operations : List DurableToolOperation}
    (h : PlannedCalls id turn inputDigest log index calls operations)
    (ht : derivedTurnId id (j + 1) = .ok turn.id) :
    List.Forall₂ (Placed id) operations ((List.range' index calls.length).map fun k => (j, k)) := by
  induction h with
  | nil => exact .nil
  | cons hc _ ih =>
    obtain ⟨operationId, declared, _, hi, hspec⟩ := hc.derived
    rw [List.length_cons, List.range'_succ, List.map_cons]
    refine .cons ⟨?_, ?_⟩ ih
    · rw [ToolOperationRecord.turnId, hspec]
      exact ht
    · simp only [ToolOperationRecord.turnId, ToolOperationRecord.id, hspec]
      exact ⟨_, hi⟩

omit [Sha256] in
theorem forall₂_set {A B : Type} {r : A → B → Prop} {as : List A} {bs : List B} {i : Nat} {a a' : A}
    (h : List.Forall₂ r as bs) (hi : as[i]? = some a) (hr : ∀ b, r a b → r a' b) :
    List.Forall₂ r (as.set i a') bs := by
  induction h generalizing i with
  | nil => simp at hi
  | cons hab hrest ih =>
    cases i with
    | zero =>
      cases hi
      exact .cons (hr _ hab) hrest
    | succ i => exact .cons hab (ih (by simpa using hi))

theorem EpisodeStep.unplanned (h : EpisodeStep id s log s') (hu : Unplanned s'.status) :
    s'.toolOperations = s.toolOperations ∧
      (s'.turns = s.turns ∧ Unplanned s.status ∨ ∃ turn, s'.turns = s.turns ++ [turn]) := by
  have hsame : ∀ status, s.status = status → ¬ Unplanned status → s'.status = s.status → False :=
    fun status hs hn heq => hn (hs ▸ heq ▸ hu)
  cases h with
  | moved hm =>
    cases hm with
    | stopped hs _ _ => exact ⟨rfl, .inl ⟨rfl, .inl hs⟩⟩
    | _ => simp [Unplanned] at hu
  | turned _ _ _ _ _ _ _ _ => exact ⟨rfl, .inr ⟨_, rfl⟩⟩
  | dispatched hs | toolDispatched hs | toolCompleted hs | toolRunning hs =>
    exact (hsame _ hs (by simp [Unplanned]) rfl).elim
  | recovered _ _ _ hn =>
    rw [withStatus_status, hn] at hu
    split at hu
    · simp [Unplanned] at hu
    · split at hu <;> simp [Unplanned] at hu
  | refused _ _ _ _ _ _ hn => rcases hn with rfl | rfl <;> simp [Unplanned] at hu
  | unknown _ _ _ _ _ hn =>
    rw [withStatus_status, hn] at hu
    split at hu <;> simp [Unplanned] at hu
  | cancelRequested _ _ _ hn => rcases hn with ⟨rfl, _⟩ | ⟨rfl, _⟩ <;> simp [Unplanned] at hu
  | _ => simp [Unplanned] at hu

theorem located_fresh (h : Fresh s) : Located id s := by
  obtain ⟨_, hattempts, hturns, hoperations, _⟩ := h.created
  exact ⟨by simp [hattempts], by simp [hturns], [], by simp [hoperations], by simp, by simp, by simp⟩

theorem Located.step (h : Located id s) (hs : EpisodeStep id s log s') : Located id s' := by
  obtain ⟨places, hplaced, hnodup, hbound, hunplanned⟩ := h.operations
  have hturns : s.turns.length ≤ s'.turns.length := by
    rcases hs.attemptsChange.turn with ht | ⟨_, ht, _⟩ <;> simp [ht]
  refine ⟨hs.attemptsChange.locate h.attempts, hs.attemptsChange.locateTurn h.turns, ?_⟩
  have hu : Unplanned s'.status → ∀ place ∈ places, place.1 + 1 < s'.turns.length := by
    intro hu place hm
    rcases (hs.unplanned hu).2 with ⟨ht, hs'⟩ | ⟨turn, ht⟩
    · rw [ht]
      exact hunplanned hs' place hm
    · have hlt := hbound place hm
      rw [ht, List.length_append, List.length_singleton]
      omega
  have hb : ∀ place ∈ places, place.1 < s'.turns.length := fun place hm => lt_of_lt_of_le (hbound place hm) hturns
  cases hs.operationsChange with
  | kept ho => exact ⟨places, ho ▸ hplaced, hnodup, hb, hu⟩
  | @planned turn operations ho hst hst' ht' ht _ hp =>
    have hlen : 0 < s.turns.length := List.length_pos_iff.mpr (by rintro he; simp [he] at ht)
    have hid : derivedTurnId id (s.turns.length - 1 + 1) = .ok turn.record.id :=
      h.turns _ turn (by rw [← List.getLast?_eq_getElem?]; exact ht)
    rw [ho]
    refine ⟨places ++ _, List.rel_append hplaced (hp.placed hid), ?_, ?_, ?_⟩
    · refine List.nodup_append.mpr ⟨hnodup, ?_, ?_⟩
      · exact List.Nodup.map (fun a b hab => (Prod.mk.inj hab).2) List.nodup_range'
      · rintro place hm _ hm' rfl
        obtain ⟨k, _, rfl⟩ := List.mem_map.mp hm'
        have hlt := hunplanned (.inl hst) _ hm
        simp only at hlt
        omega
    · intro place hm
      rw [ht']
      rcases List.mem_append.mp hm with hm | hm
      · exact hbound place hm
      · obtain ⟨k, _, rfl⟩ := List.mem_map.mp hm
        simp only
        omega
    · intro hst''
      simp [Unplanned, hst'] at hst''
  | @changed index o o' hg ho hc =>
    refine ⟨places, ho ▸ forall₂_set hplaced hg ?_, hnodup, hb, hu⟩
    intro place hplace
    simpa only [Placed, ToolOperationRecord.turnId, ToolOperationRecord.id, hc.spec] using hplace

theorem reachable_located {answers : (c : GatewayCall) → GatewayReply c → Prop} {c : EpisodeConfig}
    (h : Reachable (episodeEnv answers) c) (hs : s ∈ c.store id) : Located id s := by
  refine ((h.sound (complies answers)).run id).invariant (fun t ht => located_fresh ht.1) ?_ s hs
  rintro t t' ⟨log, _, hstep⟩ ht
  exact ht.step hstep

end AlloyPort
