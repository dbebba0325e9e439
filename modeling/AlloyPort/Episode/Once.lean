import AlloyPort.Episode.Place

/-! Every model attempt is invoked at most once and every tool operation is executed at most once,
over all runners, crashes and interleavings. Operation identities are joined with a delimiter that
an episode identity may itself contain, so two episodes must not be entangled. -/

namespace AlloyPort

open SharedStore DurableEpisodeState

def identityPrefix (e : EpisodeId) (turnIndex callIndex : Nat) : List Char :=
  s!"{e}|turn-{e}-{turnIndex}|{callIndex}|".toList

/-- Some call of one episode begins its identity with the beginning of a call of the other. -/
def Entangled (e e' : EpisodeId) : Prop :=
  ∃ j k j' k', identityPrefix e j k <+: identityPrefix e' j' k'

theorem identityPrefix_eq (e : EpisodeId) (j k : Nat) :
    identityPrefix e j k = e.text.toList ++ ("|turn-".toList ++ (e.text.toList ++ ('-' :: (j.repr.toList ++
      '|' :: (k.repr.toList ++ ['|']))))) := by
  simp [identityPrefix, ToString.toString]

variable {e e' : EpisodeId} {i j k k' : Nat} {x : ToolOperationId} {o o' : DurableToolOperation}
variable {place place' : Nat × Nat} {at_ at_' : EpisodeId × Nat}

theorem toolOperationIdentity_prefix {turnId : TurnId} (descriptor : RuntimeToolDescriptor)
    (a i : Sha256Digest) (ht : derivedTurnId e j = .ok turnId) :
    identityPrefix e j k <+: (toolOperationIdentity e turnId k descriptor a i).toList := by
  have htext := derivedTurnId_toList ht
  rw [identityPrefix_eq]
  refine ⟨(descriptor.name ++ "|" ++ descriptor.version ++ "|" ++ toString a ++ "|" ++ toString i).toList, ?_⟩
  simp only [toolOperationIdentity, ToString.toString, String.toList_append, htext]
  simp

variable [Sha256] {id : EpisodeId} {s s' : DurableEpisodeState} {log : List GatewayEvent}

theorem derivedToolOperationId_toList {t : TurnId} {d : RuntimeToolDescriptor}
    {a i : Sha256Digest} (h : derivedToolOperationId e t k d a i = .ok x) :
    x.text.toList = "tool-".toList ++ ((k + 1).repr.toList ++ '-' ::
      (toString (Sha256.digestBytes (utf8 (toolOperationIdentity e t k d a i)))).toList) := by
  rw [derivedId_text h]
  simp [ToString.toString]

theorem derivedToolOperationId_inj (hcf : Sha256.CollisionFree) {t t' : TurnId}
    {d d' : RuntimeToolDescriptor} {a a' i i' : Sha256Digest}
    (h : derivedToolOperationId e t k d a i = .ok x) (h' : derivedToolOperationId e' t' k' d' a' i' = .ok x) :
    k = k' ∧ toolOperationIdentity e t k d a i = toolOperationIdentity e' t' k' d' a' i' := by
  have ht := (derivedToolOperationId_toList h).symm.trans (derivedToolOperationId_toList h')
  obtain ⟨hk, hd⟩ := Text.repr_append_cons_inj (by decide) (List.append_cancel_left ht)
  have hdigest := hcf (Sha256Digest.toString_inj (String.toList_inj.mp hd))
  exact ⟨by omega, utf8_inj hdigest⟩

omit [Sha256] in
theorem identityPrefix_inj {j' : Nat} {rest rest' : List Char}
    (h : identityPrefix e j k ++ rest = identityPrefix e j' k' ++ rest') : j = j' ∧ k = k' := by
  simp only [identityPrefix_eq, List.append_assoc, List.cons_append] at h
  have hcancel := List.append_cancel_left (List.append_cancel_left (List.append_cancel_left h))
  obtain ⟨hj, hk⟩ := Text.repr_append_cons_inj (by decide) (List.cons.inj hcancel).2
  exact ⟨hj, (Text.repr_append_cons_inj (by decide) hk).1⟩

theorem placed_inj (hcf : Sha256.CollisionFree) (hne : e ≠ e' → ¬ Entangled e e' ∧ ¬ Entangled e' e)
    (hp : Placed e o place) (hp' : Placed e' o' place')
    (hid : o.record.id = o'.record.id) : e = e' ∧ place = place' := by
  obtain ⟨ht, d, hd⟩ := hp
  obtain ⟨ht', d', hd'⟩ := hp'
  rw [← hid] at hd'
  obtain ⟨hk, hident⟩ := derivedToolOperationId_inj hcf hd hd'
  have hpre := toolOperationIdentity_prefix (k := place.2) d o.record.spec.argumentsDigest
    o.record.spec.inputIdentityDigest ht
  have hpre' := toolOperationIdentity_prefix (k := place'.2) d' o'.record.spec.argumentsDigest
    o'.record.spec.inputIdentityDigest ht'
  rw [← hident] at hpre'
  by_cases he : e = e'
  · subst he
    obtain ⟨rest, hrest⟩ := hpre
    obtain ⟨rest', hrest'⟩ := hpre'
    obtain ⟨hj, hk'⟩ := identityPrefix_inj (hrest.trans hrest'.symm)
    exact ⟨rfl, Prod.ext (by omega) hk'⟩
  · obtain ⟨hn, hn'⟩ := hne he
    rcases List.prefix_or_prefix_of_prefix hpre hpre' with h | h
    · exact absurd ⟨_, _, _, _, h⟩ hn
    · exact absurd ⟨_, _, _, _, h⟩ hn'

omit [Sha256] in
theorem AttemptsChange.stays (h : AttemptsChange id s log s')
    (hi : ∃ a, s.attempts[i]? = some a ∧ a.status ≠ .prepared) :
    ∃ a, s'.attempts[i]? = some a ∧ a.status ≠ .prepared := by
  obtain ⟨a, hi, ha⟩ := hi
  have hlast : ∀ front b b', s.attempts = front ++ [b] → s'.attempts = front ++ [b'] → b'.status ≠ .prepared →
      ∃ a, s'.attempts[i]? = some a ∧ a.status ≠ .prepared := by
    intro front b b' hs hs' hb
    by_cases hlt : i < front.length
    · rw [hs, List.getElem?_append_left hlt] at hi
      exact ⟨a, by rw [hs', List.getElem?_append_left hlt]; exact hi, ha⟩
    · have hlen := (List.getElem?_eq_some_iff.mp hi).choose
      rw [hs, List.length_append, List.length_singleton] at hlen
      obtain rfl : i = front.length := by omega
      exact ⟨b', by rw [hs', List.getElem?_concat_length], hb⟩
  cases h with
  | kept h _ => exact ⟨a, h ▸ hi, ha⟩
  | pushed h _ _ _ _ _ _ =>
    exact ⟨a, by rw [h, List.getElem?_append_left (List.getElem?_eq_some_iff.mp hi).choose]; exact hi, ha⟩
  | dispatched h h' _ _ => exact hlast _ _ _ h h' (by simp)
  | decoded h h' _ _ _ hp' _ _ _ => exact hlast _ _ _ h h' (by simp [hp'])
  | ended h h' _ _ _ hp' => exact hlast _ _ _ h h' hp'.1

theorem OperationsChange.stays (h : OperationsChange id s log s')
    {dispatched : Prop} (hi : ∃ o, s.toolOperations[i]? = some o ∧ o.record.id = x ∧
      (dispatched → o.record.status ≠ .requested)) :
    ∃ o, s'.toolOperations[i]? = some o ∧ o.record.id = x ∧ (dispatched → o.record.status ≠ .requested) := by
  obtain ⟨o, hi, hx, hd⟩ := hi
  cases h with
  | kept ho => exact ⟨o, ho ▸ hi, hx, hd⟩
  | planned ho _ _ _ _ _ _ =>
    exact ⟨o, by rw [ho, List.getElem?_append_left (List.getElem?_eq_some_iff.mp hi).choose]; exact hi, hx, hd⟩
  | @changed index p p' hg ho hc =>
    by_cases hne : index = i
    · subst hne
      obtain rfl : p = o := Option.some.inj (hg.symm.trans hi)
      refine ⟨p', by rw [ho, List.getElem?_set_self (List.getElem?_eq_some_iff.mp hi).choose], ?_, ?_⟩
      · rw [← hx, ToolOperationRecord.id, hc.spec, ToolOperationRecord.id]
      · intro hdis hreq
        rcases hc.moved with hm | hm | ⟨_, hm⟩ | ⟨_, hm⟩
        · exact hd hdis (hm ▸ hreq)
        · rw [hreq] at hm
          revert hm
          cases p.record.status <;> simp [ToolOperationStatus.canTransitionTo]
        · rw [hm] at hreq
          cases hreq
        · rw [hm] at hreq
          cases hreq
    · exact ⟨o, by rw [ho, List.getElem?_set_ne hne]; exact hi, hx, hd⟩

def invokes (x : ModelAttemptId) (e : GatewayEvent) : Bool :=
  match e.call with
  | .invoke request => request.attemptId = x
  | _ => false

def executes (x : ToolOperationId) (e : GatewayEvent) : Bool :=
  match e.call with
  | .execute invocation => invocation.operationId = x
  | _ => false

omit [Sha256] in
theorem invokes_iff {x : ModelAttemptId} {e : GatewayEvent} :
    invokes x e = true ↔ ∃ request, e.call = .invoke request ∧ request.attemptId = x := by
  obtain ⟨c, reply⟩ := e
  cases c <;> simp [invokes]

omit [Sha256] in
theorem executes_iff {e : GatewayEvent} :
    executes x e = true ↔ ∃ invocation, e.call = .execute invocation ∧ invocation.operationId = x := by
  obtain ⟨c, reply⟩ := e
  cases c <;> simp [executes]

variable {answers : (c : GatewayCall) → GatewayReply c → Prop} {c : EpisodeConfig}

theorem paid_invoke_unique (h : Reachable (episodeEnv answers) c) {x : ModelAttemptId} {e e' : GatewayEvent}
    (he : invokes x e = true) (he' : invokes x e' = true)
    (hp : Paid episodeProtocol c.store e at_) (hp' : Paid episodeProtocol c.store e' at_') : at_ = at_' := by
  have hsound := h.sound (complies answers)
  obtain ⟨request, hcall, hx⟩ := invokes_iff.mp he
  obtain ⟨request', hcall', hx'⟩ := invokes_iff.mp he'
  obtain ⟨r, s, t, hr, hs, ht, hm⟩ := hp
  obtain ⟨r', s', t', hr', hs', ht', hm'⟩ := hp'
  rw [hcall] at hm
  rw [hcall'] at hm'
  obtain ⟨i, a, hi, ha, hid, hi1⟩ := hm
  obtain ⟨i', a', hi', ha', hid', hi1'⟩ := hm'
  have hloc := (reachable_located h (List.mem_of_getElem? hs)).attempts i a hi
  have hloc' := (reachable_located h (List.mem_of_getElem? hs')).attempts i' a' hi'
  rw [hid, hx] at hloc
  rw [hid', hx'] at hloc'
  obtain ⟨hk, hn⟩ := derivedModelAttemptId_inj hloc hloc'
  obtain rfl : i = i' := by omega
  -- a later dispatch would find the attempt prepared again
  have hlate : ∀ {k : EpisodeId} {m n : Nat} {t u : DurableEpisodeState} {a b : ModelAttemptRecord}, m + 1 ≤ n →
      (c.store k)[m + 1]? = some t → (c.store k)[n]? = some u → t.attempts[i]? = some a →
      a.status = .dispatching → u.attempts[i]? = some b → b.status = .prepared → False := by
    intro k m n t u a b hmn ht hu hta hsa hub hsb
    obtain ⟨b', hb', hne⟩ := hsound.stable (I := fun s => ∃ a, s.attempts[i]? = some a ∧ a.status ≠ .prepared)
      (fun _ _ _ hstep hI => EpisodeStep.attemptsChange hstep |>.stays hI) hmn ht hu ⟨a, hta, by simp [hsa]⟩
    rw [hub] at hb'
    cases hb'
    exact hne hsb
  obtain ⟨k, n⟩ := at_
  obtain ⟨k', n'⟩ := at_'
  simp only at hr hr' hk hs hs' ht ht'
  subst hk hr hr'
  rcases Nat.lt_trichotomy r r' with hlt | rfl | hlt
  · exact (hlate (by omega) ht hs' hi1 rfl hi' ha').elim
  · rfl
  · exact (hlate (by omega) ht' hs hi1' rfl hi ha).elim

theorem invoked_at_most_once (h : Reachable (episodeEnv answers) c) (x : ModelAttemptId) :
    (c.history.filter (invokes x)).length ≤ 1 := by
  refine (h.sound (complies answers)).linear_once (fun e he => ?_) fun e e' at_ at_' he he' hp hp' =>
    paid_invoke_unique h he he' hp hp'
  obtain ⟨request, hcall, _⟩ := invokes_iff.mp he
  rw [hcall]
  rfl

/-- No two episodes of the repository are entangled. -/
def Disentangled (store : EpisodeId → List DurableEpisodeState) : Prop :=
  ∀ e e', store e ≠ [] → store e' ≠ [] → e ≠ e' → ¬ Entangled e e'

theorem Located.operation_inj (hcf : Sha256.CollisionFree) (h : Located id s) {i' : Nat}
    (hi : s.toolOperations[i]? = some o) (hi' : s.toolOperations[i']? = some o')
    (hid : o.record.id = o'.record.id) : i = i' := by
  obtain ⟨places, hplaced, hnodup, _, _⟩ := h.operations
  obtain ⟨hlt, rfl⟩ := List.getElem?_eq_some_iff.mp hi
  obtain ⟨hlt', rfl⟩ := List.getElem?_eq_some_iff.mp hi'
  obtain ⟨hlen, hget⟩ := List.forall₂_iff_get.mp hplaced
  obtain ⟨_, hplace⟩ := placed_inj hcf (fun hne => absurd rfl hne) (hget i hlt (hlen ▸ hlt))
    (hget i' hlt' (hlen ▸ hlt')) hid
  have hinj := List.nodup_iff_injective_get.mp hnodup hplace
  exact congrArg Fin.val hinj

theorem Located.placed (h : Located id s) (hm : o ∈ s.toolOperations) : ∃ place, Placed id o place := by
  obtain ⟨places, hplaced, _⟩ := h.operations
  obtain ⟨i, hi, rfl⟩ := List.getElem_of_mem hm
  obtain ⟨hlen, hget⟩ := List.forall₂_iff_get.mp hplaced
  exact ⟨places[i], hget i hi (hlen ▸ hi)⟩

theorem operation_place_unique (hcf : Sha256.CollisionFree) (hd : Disentangled c.store) (hs : s ∈ c.store e)
    (hs' : s' ∈ c.store e') (hp : Placed e o place) (hp' : Placed e' o' place') (hid : o.record.id = o'.record.id) :
    e = e' ∧ place = place' := by
  have hne := List.ne_nil_of_mem hs
  have hne' := List.ne_nil_of_mem hs'
  exact placed_inj hcf (fun h => ⟨hd e e' hne hne' h, hd e' e hne' hne (Ne.symm h)⟩) hp hp' hid

theorem paid_execute_unique (h : Reachable (episodeEnv answers) c) (hcf : Sha256.CollisionFree)
    (hd : Disentangled c.store) {e e' : GatewayEvent}
    (he : executes x e = true) (he' : executes x e' = true)
    (hp : Paid episodeProtocol c.store e at_) (hp' : Paid episodeProtocol c.store e' at_') : at_ = at_' := by
  have hsound := h.sound (complies answers)
  obtain ⟨invocation, hcall, hx⟩ := executes_iff.mp he
  obtain ⟨invocation', hcall', hx'⟩ := executes_iff.mp he'
  obtain ⟨r, s, t, hr, hs, ht, hm⟩ := hp
  obtain ⟨r', s', t', hr', hs', ht', hm'⟩ := hp'
  rw [hcall] at hm
  rw [hcall'] at hm'
  obtain ⟨i, o, hi, ho, hid, hi1⟩ := hm
  obtain ⟨i', o', hi', ho', hid', hi1'⟩ := hm'
  have hms := List.mem_of_getElem? hs
  have hms' := List.mem_of_getElem? hs'
  obtain ⟨place, hplace⟩ := (reachable_located h hms).placed (List.mem_of_getElem? hi)
  obtain ⟨place', hplace'⟩ := (reachable_located h hms').placed (List.mem_of_getElem? hi')
  have hids : o.record.id = o'.record.id := by rw [hid, hx, hid', hx']
  obtain ⟨hk, _⟩ := operation_place_unique hcf hd hms hms' hplace hplace' hids
  -- a later dispatch of the identity would find the very operation requested again
  have hlate : ∀ {k : EpisodeId} {m n i i' : Nat} {t u : DurableEpisodeState} {o o' : DurableToolOperation},
      m + 1 ≤ n → (c.store k)[m + 1]? = some t → (c.store k)[n]? = some u → t.toolOperations[i]? = some o →
      o.record.status = .dispatching → u.toolOperations[i']? = some o' → o'.record.status = .requested →
      o.record.id = o'.record.id → False := by
    intro k m n i i' t u o o' hmn ht hu hto hso huo hso' hid
    obtain ⟨b, hb, hbid, hne⟩ := hsound.stable (I := fun s => ∃ p, s.toolOperations[i]? = some p ∧
      p.record.id = o.record.id ∧ (True → p.record.status ≠ .requested))
      (fun _ _ _ hstep hI => EpisodeStep.operationsChange hstep |>.stays hI) hmn ht hu ⟨o, hto, rfl, by simp [hso]⟩
    have hsame := (reachable_located h (List.mem_of_getElem? hu)).operation_inj hcf hb huo (hbid.trans hid)
    subst hsame
    rw [huo] at hb
    cases hb
    exact hne trivial hso'
  obtain ⟨k, n⟩ := at_
  obtain ⟨k', n'⟩ := at_'
  simp only at hr hr' hk hs hs' ht ht'
  subst hk hr hr'
  rcases Nat.lt_trichotomy r r' with hlt | rfl | hlt
  · exact (hlate (by omega) ht hs' hi1 rfl hi' ho' hids).elim
  · rfl
  · exact (hlate (by omega) ht' hs hi1' rfl hi ho hids.symm).elim

theorem executed_at_most_once (h : Reachable (episodeEnv answers) c) (hcf : Sha256.CollisionFree)
    (hd : Disentangled c.store) (x : ToolOperationId) : (c.history.filter (executes x)).length ≤ 1 := by
  refine (h.sound (complies answers)).linear_once (fun e he => ?_) fun e e' at_ at_' he he' hp hp' =>
    paid_execute_unique h hcf hd he he' hp hp'
  obtain ⟨invocation, hcall, _⟩ := executes_iff.mp he
  rw [hcall]
  rfl

/-- In a repository without entangled episodes every attempt is invoked and every operation executed
at most once, and an operation identity belongs to one call of one turn. -/
theorem effects_at_most_once (h : Reachable (episodeEnv answers) c) (hcf : Sha256.CollisionFree)
    (hd : Disentangled c.store) :
    (∀ x, (c.history.filter (invokes x)).length ≤ 1) ∧ (∀ x, (c.history.filter (executes x)).length ≤ 1) ∧
      (∀ e, ∀ s ∈ c.store e, ∀ o ∈ s.toolOperations, ∃ place, Placed e o place) ∧
      ∀ e e', ∀ s ∈ c.store e, ∀ s' ∈ c.store e', ∀ o ∈ s.toolOperations, ∀ o' ∈ s'.toolOperations,
        ∀ place place', Placed e o place → Placed e' o' place' → o.record.id = o'.record.id →
          e = e' ∧ place = place' := by
  refine ⟨invoked_at_most_once h, executed_at_most_once h hcf hd, fun e s hs o ho => ?_, ?_⟩
  · exact (reachable_located h hs).placed ho
  · intro e e' s hs s' hs' o _ o' _ place place' hp hp' hid
    exact operation_place_unique hcf hd hs hs' hp hp' hid

def otherId : EpisodeId := ⟨"other", Eq.refl false⟩

def pairedCreated : EpisodeStore :=
  createEpisode (createEpisode emptyStore (sampleEpisode sampleId)) (sampleEpisode otherId)

@[irreducible] def pairedStore : EpisodeStore :=
  @runScript transparentSha256 otherId sampleScript (@runScript transparentSha256 sampleId sampleScript pairedCreated)

theorem pairedCreated_replayed : Replayed (fun _ _ => True) pairedCreated :=
  (replayed_sample sampleId).create (sampleEpisode_fresh otherId) (by decide)

section samples

omit [Sha256]

theorem pairedStore_replayed : @Replayed transparentSha256 (fun _ _ => True) pairedStore := by
  have hfirst := @Replayed.runSample transparentSha256 _ _ (@pairedCreated_replayed transparentSha256) sampleId
    fun _ => trivial
  unfold pairedStore
  exact @Replayed.runSample transparentSha256 _ _ hfirst otherId fun _ => trivial

theorem pairedStore_eq : pairedStore = @runScript transparentSha256 otherId sampleScript
    (@runScript transparentSha256 sampleId sampleScript pairedCreated) := by
  unfold pairedStore
  rfl

theorem pairedStore_other (hs : e ≠ sampleId) (ho : e ≠ otherId) : pairedStore.1 e = [] := by
  have hfirst := @Replayed.runSample transparentSha256 _ _ (@pairedCreated_replayed transparentSha256) sampleId
    fun _ => trivial
  have hso : e ≠ (sampleEpisode otherId).episodeId := ho
  have hss : e ≠ (sampleEpisode sampleId).episodeId := hs
  have hlater := @Replayed.frame transparentSha256 _ _ hfirst otherId e ho sampleScript fun _ _ _ => trivial
  have hearlier := @Replayed.frame transparentSha256 _ _ (@pairedCreated_replayed transparentSha256) sampleId e hs
    sampleScript fun _ _ _ => trivial
  rw [pairedStore_eq, hlater, hearlier]
  simp only [pairedCreated, createEpisode, Function.update_of_ne hso, Function.update_of_ne hss, emptyStore]

theorem pairedStore_disentangled : Disentangled pairedStore.1 := by
  have hids : ∀ e, pairedStore.1 e ≠ [] → e = sampleId ∨ e = otherId := by
    intro e he
    by_contra hne
    obtain ⟨hs, ho⟩ := not_or.mp hne
    exact he (pairedStore_other hs ho)
  intro e e' he he' hne
  rintro ⟨j, k, j', k', hpre⟩
  rw [identityPrefix_eq, identityPrefix_eq] at hpre
  rcases hids e he with rfl | rfl <;> rcases hids e' he' with rfl | rfl
  · exact hne rfl
  · simp [sampleId, otherId] at hpre
  · simp [sampleId, otherId] at hpre
  · exact hne rfl

theorem effects_at_most_once_sample :
    pairedStore.2.countP (fun e => e.call matches .execute _) = 2 ∧
      ∀ x, (pairedStore.2.filter (executes x)).length ≤ 1 := by
  have honce : ∀ store : EpisodeStore, @Replayed transparentSha256 (fun _ _ => True) store → Disentangled store.1 →
      ∀ x, (store.2.filter (executes x)).length ≤ 1 := by
    intro store hreplayed hdisentangled
    exact (@effects_at_most_once transparentSha256 _ ⟨store.1, store.2, []⟩ hreplayed
      transparentSha256_collisionFree hdisentangled).2.1
  exact ⟨by decide +kernel, honce pairedStore pairedStore_replayed pairedStore_disentangled⟩

def shortId : EpisodeId := ⟨"a", by decide⟩

def longId : EpisodeId := ⟨"a|turn-a-1|0|b", by decide⟩

def namedOracle (name : String) : Oracle :=
  constantOracle (.turn ⟨⟨["go"], [⟨"call-1", name, []⟩], .toolCalls, none⟩, ⟨[20]⟩, ⟨[21]⟩⟩)
    (some ⟨name, "1", .remoteExecution, .observed⟩) (.ok ()) (.completed .succeeded ⟨[22]⟩ [] false)

@[irreducible] def entangledStore : EpisodeStore :=
  @runScript transparentSha256 longId (List.replicate 5 (.advance, namedOracle "x"))
    (@runScript transparentSha256 shortId
      (List.replicate 5 (.advance, namedOracle "b|turn-a|turn-a-1|0|b-1|0|x"))
      (createEpisode (createEpisode emptyStore (sampleEpisode shortId)) (sampleEpisode longId)))

theorem entangledStore_replayed : @Replayed transparentSha256 (fun _ _ => True) entangledStore := by
  have hcreated := @Replayed.create transparentSha256 (fun _ _ => True) _ _
    (@replayed_sample transparentSha256 _ shortId) (sampleEpisode_fresh longId) (by decide)
  have hfirst := @Replayed.run transparentSha256 _ _ hcreated shortId
    (List.replicate 5 (.advance, namedOracle "b|turn-a|turn-a-1|0|b-1|0|x")) fun _ _ _ => trivial
  unfold entangledStore
  exact @Replayed.run transparentSha256 _ _ hfirst _ _ fun _ _ _ => trivial

def sharedOperationId : ToolOperationId :=
  ((entangledStore.1 longId).getLast?.bind fun s => s.toolOperations.head?.map (·.record.id)).getD ⟨"none", by decide⟩

/-- Two calls of different episodes share an operation identity, and it is executed twice. -/
theorem entangled_executes_twice :
    @Sha256.CollisionFree transparentSha256 ∧
      ¬ ∀ (c : EpisodeConfig), Reachable (@episodeEnv transparentSha256 fun _ _ => True) c →
        ∀ x, (c.history.filter (executes x)).length ≤ 1 := by
  refine ⟨transparentSha256_collisionFree, fun hall => ?_⟩
  have htwice : (entangledStore.2.filter (executes sharedOperationId)).length = 2 := by decide +kernel
  have honce : ∀ (store : EpisodeStore) (operationId : ToolOperationId),
      @Replayed transparentSha256 (fun _ _ => True) store → (store.2.filter (executes operationId)).length ≤ 1 := by
    intro store operationId hreplayed
    exact hall ⟨store.1, store.2, []⟩ hreplayed operationId
  have hle := honce entangledStore sharedOperationId entangledStore_replayed
  rw [htwice] at hle
  omega

end samples

end AlloyPort
