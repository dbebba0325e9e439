import AlloyPort.Episode.Shape

/-! Spending stays inside the largest allowance that was ever granted, and every persisted state
passes its own recovery check. -/

namespace AlloyPort

open SharedStore DurableEpisodeState

/-- The model gateway's turns pass their own validation, as the codecs guarantee. -/
def ValidTurns : (c : GatewayCall) → GatewayReply c → Prop
  | .invoke _, .ok (.turn exchange) => exchange.turn.validate = .ok ()
  | _, _ => True

def largestInForce (bound : AgentLoopPolicy → Nat) (versions : List DurableEpisodeState) : Nat :=
  (versions.map fun state => bound state.policy).foldr max 0

theorem largestInForce_append (bound : AgentLoopPolicy → Nat) (before : List DurableEpisodeState)
    (s : DurableEpisodeState) :
    largestInForce bound (before ++ [s]) = max (largestInForce bound before) (bound s.policy) := by
  induction before with
  | nil => simp [largestInForce]
  | cons t before ih =>
    simp only [largestInForce, List.cons_append, List.map_cons, List.foldr_cons] at ih ⊢
    rw [ih, max_assoc]

theorem validateTurns_ok {turns : List DurableTurn} {u : Unit} :
    validateTurns turns = .ok u ↔ ∀ turn ∈ turns, turn.semanticTurn.validate = .ok () := by
  induction turns with
  | nil => simp [validateTurns]
  | cons turn turns ih =>
    simp only [validateTurns, Effect.bind_eq_ok, Effect.mapError_eq_ok, List.mem_cons, forall_eq_or_imp, ih]
    constructor
    · rintro ⟨_, ht, h⟩
      exact ⟨ht, h⟩
    · rintro ⟨ht, h⟩
      exact ⟨(), ht, h⟩

theorem validateRecovered_ok {s : DurableEpisodeState} {u : Unit} :
    s.validateRecovered = .ok u ↔ s.schemaVersion = durableEpisodeStateSchemaV2 ∧ s.policy.validate = .ok () ∧
      s.turns.length ≤ s.attempts.length ∧ ∀ turn ∈ s.turns, turn.semanticTurn.validate = .ok () := by
  simp only [validateRecovered]
  by_cases hv : s.schemaVersion = durableEpisodeStateSchemaV2
  · by_cases hl : s.turns.length > s.attempts.length
    · simp [hv, hl, Effect.bind_eq_ok, throw, throwThe, MonadExceptOf.throw, not_le.mpr hl]
    · have hle : s.turns.length ≤ s.attempts.length := not_lt.mp hl
      simp [hv, hl, Effect.bind_eq_ok, validateTurns_ok, hle, Unique.exists_iff]
  · simp [hv, Effect.bind_eq_ok, throw, throwThe, MonadExceptOf.throw]

def IsOpen (attempt : ModelAttemptRecord) : Prop :=
  attempt.status = .prepared ∨ attempt.status = .dispatching

/-- What the reducer keeps about its counters, with the versions up to the present one. -/
structure Within (versions : List DurableEpisodeState) (s : DurableEpisodeState) : Prop where
  attempts : s.attempts.length ≤ largestInForce (·.maxModelAttempts) versions
  turns : s.turns.length ≤ largestInForce (·.maxModelTurns) versions
  operations : s.toolOperations.length ≤ largestInForce (·.maxTotalToolOperations) versions
  /-- A turn comes from a decoded attempt of its own. -/
  decoded : s.turns.length = s.attempts.countP fun attempt => attempt.status = .decoded
  /-- An attempt still open was prepared while another turn was allowed. -/
  opened : ∀ attempt, s.attempts.getLast? = some attempt → IsOpen attempt →
    s.turns.length < largestInForce (·.maxModelTurns) versions
  schema : s.schemaVersion = durableEpisodeStateSchemaV2
  policy : s.policy.validate = .ok ()
  valid : ∀ turn ∈ s.turns, turn.semanticTurn.validate = .ok ()

theorem within_fresh {s : DurableEpisodeState} (h : Fresh s) : Within [s] s := by
  obtain ⟨_, hattempts, hturns, hoperations, _, hschema, hpolicy, _⟩ := h.created
  constructor <;> simp [hattempts, hturns, hoperations, hschema, hpolicy]

variable [Sha256] {id : EpisodeId} {s s' : DurableEpisodeState} {log : List GatewayEvent}

theorem EpisodeStep.schemaVersion (h : EpisodeStep id s log s') : s'.schemaVersion = s.schemaVersion := by
  cases h <;> rfl

theorem EpisodeStep.policy (h : EpisodeStep id s log s') :
    s'.policy = s.policy ∨ s'.policy.validate = .ok () := by
  cases h with
  | resumed hs hr hp => exact .inr hp
  | _ => exact .inl rfl

section bounds

omit [Sha256]

theorem countP_decoded_last {front : List ModelAttemptRecord} {a : ModelAttemptRecord} (h : a.status ≠ .decoded) :
    (front ++ [a]).countP (fun attempt => attempt.status = .decoded) =
      front.countP fun attempt => attempt.status = .decoded := by
  simp [List.countP_append, h]

theorem AttemptsChange.counts (h : AttemptsChange id s log s')
    (hd : s.turns.length = s.attempts.countP fun attempt => attempt.status = .decoded) :
    s'.turns.length = (s'.attempts.countP fun attempt => attempt.status = .decoded) ∧
      (s'.attempts.length = s.attempts.length ∨
        s'.attempts.length = s.attempts.length + 1 ∧ s.attempts.length < s.policy.maxModelAttempts) := by
  cases h with
  | kept ha ht => exact ⟨by rw [ht, ha, hd], .inl (by rw [ha])⟩
  | pushed ha ht hp hi hr hbt hba =>
    refine ⟨?_, .inr ⟨by simp [ha], hba⟩⟩
    rw [ht, ha, hd, countP_decoded_last (by simp [hp])]
  | dispatched ha ha' ht hp =>
    refine ⟨?_, .inl (by simp [ha, ha'])⟩
    rw [ht, ha', hd, ha, countP_decoded_last (by simp [hp]), countP_decoded_last (by simp)]
  | decoded ha ha' ht hs hp hp' he hi hx =>
    refine ⟨?_, .inl (by simp [ha, ha'])⟩
    rw [ha, countP_decoded_last (by simp [hp])] at hd
    rw [ht, ha']
    simp [List.countP_append, hp', hd]
  | ended ha ha' ht hs hp hp' =>
    refine ⟨?_, .inl (by simp [ha, ha'])⟩
    rw [ht, ha', hd, ha, countP_decoded_last (by simp [hp]), countP_decoded_last hp'.2.2]

theorem AttemptsChange.opened (h : AttemptsChange id s log s') {attempt : ModelAttemptRecord}
    (hl : s'.attempts.getLast? = some attempt) (ho : IsOpen attempt) :
    s'.turns = s.turns ∧ (s.turns.length < s.policy.maxModelTurns ∨
      ∃ attempt, s.attempts.getLast? = some attempt ∧ IsOpen attempt) := by
  cases h with
  | kept ha ht => exact ⟨ht, .inr ⟨attempt, ha ▸ hl, ho⟩⟩
  | pushed ha ht hp hi hr hbt hba => exact ⟨ht, .inl hbt⟩
  | @dispatched front a ha ha' ht hp => exact ⟨ht, .inr ⟨a, by simp [ha], .inl hp⟩⟩
  | @decoded front a a' _ _ _ ha ha' ht hs hp hp' he hi hx =>
    obtain rfl : a' = attempt := by simpa [ha'] using hl
    simp [IsOpen, hp'] at ho
  | @ended front a a' ha ha' ht hs hp hp' =>
    obtain rfl : a' = attempt := by simpa [ha'] using hl
    exact (ho.elim hp'.1 hp'.2.1).elim

theorem AttemptsChange.turns (h : AttemptsChange id s log s') (hv : ∀ e ∈ log, ValidTurns e.call e.reply) :
    s'.turns = s.turns ∨ ∃ turn attempt, s'.turns = s.turns ++ [turn] ∧
      turn.semanticTurn.validate = .ok () ∧ s.attempts.getLast? = some attempt ∧ IsOpen attempt := by
  cases h with
  | kept ha ht | pushed ha ht | dispatched ha ha' ht | ended ha ha' ht => exact .inl ht
  | @decoded front a a' turn _ _ ha ha' ht hs hp hp' he hi hx =>
    have hvalid := hv _ he
    simp only [ValidTurns] at hvalid
    exact .inr ⟨turn, a, ht, hx ▸ hvalid, by simp [ha], .inr hp⟩

end bounds

theorem OperationsChange.count (h : OperationsChange id s log s') :
    s'.toolOperations.length = s.toolOperations.length ∨
      s'.toolOperations.length ≤ s.policy.maxTotalToolOperations := by
  cases h with
  | kept ho => exact .inl (by rw [ho])
  | planned ho _ _ _ ht hb hp =>
    refine .inr ?_
    rw [ho, List.length_append, hp.length]
    exact hb
  | changed hg ho hc => exact .inl (by simp [ho])

theorem Within.step {before : List DurableEpisodeState} (h : Within (before ++ [s]) s)
    (hs : EpisodeStep id s log s') (hv : ∀ e ∈ log, ValidTurns e.call e.reply) :
    Within (before ++ [s] ++ [s']) s' := by
  have hmono : ∀ bound, largestInForce bound (before ++ [s]) ≤ largestInForce bound (before ++ [s] ++ [s']) := by
    intro bound
    rw [largestInForce_append bound (before ++ [s])]
    exact le_max_left _ _
  have hcurrent : ∀ bound : AgentLoopPolicy → Nat, bound s.policy ≤ largestInForce bound (before ++ [s]) := by
    intro bound
    rw [largestInForce_append]
    exact le_max_right _ _
  obtain ⟨hdecoded, hattempts⟩ := hs.attemptsChange.counts h.decoded
  have hopened : ∀ attempt, s.attempts.getLast? = some attempt → IsOpen attempt →
      s.turns.length < largestInForce (·.maxModelTurns) (before ++ [s] ++ [s']) :=
    fun attempt hl ho => lt_of_lt_of_le (h.opened attempt hl ho) (hmono _)
  constructor
  · have hc := hcurrent (·.maxModelAttempts)
    have hm := hmono (·.maxModelAttempts)
    have hi := h.attempts
    rcases hattempts with heq | ⟨heq, hlt⟩ <;> omega
  · rcases hs.attemptsChange.turns hv with ht | ⟨turn, attempt, ht, _, hl, ho⟩
    · rw [ht]
      exact h.turns.trans (hmono _)
    · rw [ht, List.length_append, List.length_singleton]
      exact hopened attempt hl ho
  · have hc := hcurrent (·.maxTotalToolOperations)
    have hm := hmono (·.maxTotalToolOperations)
    have hi := h.operations
    rcases hs.operationsChange.count with heq | hle <;> omega
  · exact hdecoded
  · intro attempt hl ho
    obtain ⟨ht, hlt | ⟨attempt', hl', ho'⟩⟩ := hs.attemptsChange.opened hl ho
    · rw [ht]
      exact lt_of_lt_of_le hlt ((hcurrent (·.maxModelTurns)).trans (hmono _))
    · rw [ht]
      exact hopened attempt' hl' ho'
  · rw [hs.schemaVersion]
    exact h.schema
  · rcases hs.policy with hp | hp
    · rw [hp]
      exact h.policy
    · exact hp
  · rcases hs.attemptsChange.turns hv with ht | ⟨turn, _, ht, hturn, _, _⟩
    · rw [ht]
      exact h.valid
    · intro t hm
      rw [ht, List.mem_append, List.mem_singleton] at hm
      rcases hm with hm | rfl
      · exact h.valid t hm
      · exact hturn

omit [Sha256] in
theorem Within.validates {versions : List DurableEpisodeState} (h : Within versions s) :
    s.validateRecovered = .ok () := by
  refine validateRecovered_ok.mpr ⟨h.schema, h.policy, ?_, h.valid⟩
  rw [h.decoded]
  exact List.countP_le_length

theorem reachable_within {c : EpisodeConfig} (h : Reachable (episodeEnv ValidTurns) c) {n : Nat}
    (hs : (c.store id)[n]? = some s) : Within ((c.store id).take (n + 1)) s := by
  refine ((h.sound (complies ValidTurns)).run id).invariant_upto (fun t ht => within_fresh ht.1) ?_ n s hs
  rintro before t t' hw ⟨log, hlog, hstep⟩
  exact hw.step hstep fun e he => (hlog e he).2

/-- Attempts, turns and tool operations of a persisted version never exceed the largest bound that
was in force up to it, and the version passes recovery. -/
theorem persisted_within_allowance {c : EpisodeConfig} (h : Reachable (episodeEnv ValidTurns) c) {n : Nat}
    (hs : (c.store id)[n]? = some s) :
    s.attempts.length ≤ largestInForce (·.maxModelAttempts) ((c.store id).take (n + 1)) ∧
      s.turns.length ≤ s.attempts.length ∧
      s.turns.length ≤ largestInForce (·.maxModelTurns) ((c.store id).take (n + 1)) ∧
      s.toolOperations.length ≤ largestInForce (·.maxTotalToolOperations) ((c.store id).take (n + 1)) ∧
      s.validateRecovered = .ok () := by
  have hw := reachable_within h hs
  have hv := hw.validates
  exact ⟨hw.attempts, (validateRecovered_ok.mp hv).2.2.1, hw.turns, hw.operations, hv⟩

omit [Sha256] in
theorem validTurns_sampleOracle : ∀ c, ValidTurns c (sampleOracle c)
  | .invoke _ => (by decide : GatewayTurn.validate ⟨["done"], [⟨"call-1", "tool", []⟩], .toolCalls, none⟩ = .ok ())
  | .descriptor _ => trivial
  | .validateCall _ => trivial
  | .execute _ => trivial
  | .reconcile _ => trivial
  | .shouldCrash _ => trivial

omit [Sha256] in
theorem sampleStore_replayed : @Replayed transparentSha256 ValidTurns sampleStore :=
  sampleStore_run validTurns_sampleOracle

omit [Sha256] in
/-- The bounds at the version that finished the only tool operation. -/
theorem persisted_within_allowance_sample :
    ∃ s, (sampleStore.1 sampleId)[7]? = some s ∧ s.toolOperations.length = 1 ∧
      s.toolOperations.length ≤ largestInForce (·.maxTotalToolOperations) ((sampleStore.1 sampleId).take 8) ∧
      s.validateRecovered = .ok () := by
  have hsome : ((sampleStore.1 sampleId)[7]?.map (·.toolOperations.length)) = some 1 := by decide +kernel
  obtain ⟨s, hs, hlen⟩ := Option.map_eq_some_iff.mp hsome
  obtain ⟨_, _, _, hops, hv⟩ := @persisted_within_allowance transparentSha256 sampleId s
    ⟨sampleStore.1, sampleStore.2, []⟩ sampleStore_replayed 7 hs
  exact ⟨s, hs, hlen, hops, hv⟩

end AlloyPort
