import AlloyPort.Artifacts.References

/-! Garbage collection: what it may remove, and whether a referenced object is there. -/

namespace AlloyPort.Artifacts

open Database UploadDatabase Machine

variable [Sha256] {limits : StoreLimits} {log : History StoreAction StoreReply} {s s' : StoreState} {a : StoreAction}
  {r : StoreReply} {digest : Sha256Digest} {nowMs : Nat}

section readers

/-- The readers of an artifact that were opened and not closed again in the life of the process. -/
def liveReaders (digest : Sha256Digest) (log : History StoreAction StoreReply) : Nat :=
  log.foldl (fun live e => match e with
    | (.openReader _ opened, .opened _) => if opened = digest then live + 1 else live
    | (.closeReader closed, .closed) => if closed = digest then live - 1 else live
    | (.crash, .restarted) => 0
    | _ => live) 0

/-- The counts of the store are those of the live readers; they stop at the largest `u64`. -/
structure Leased (log : History StoreAction StoreReply) (s : StoreState) : Prop where
  live : log.length < 2 ^ 64 → ∀ digest, s.readers digest = liveReaders digest log
  bounded : ∀ digest, liveReaders digest log ≤ log.length

omit [Sha256] in
theorem Leased.same (h : Leased log s) (hreaders : s'.readers = s.readers)
    (hlive : ∀ digest, liveReaders digest (log ++ [(a, r)]) = liveReaders digest log) :
    Leased (log ++ [(a, r)]) s' := by
  constructor
  · intro hlength digest
    rw [List.length_append, List.length_singleton] at hlength
    rw [hreaders, hlive]
    exact h.live (by omega) digest
  · intro digest
    have hh := h.bounded digest
    rw [hlive, List.length_append]
    omega

theorem Leased.step (h : Leased log s) (hs : StoreStep limits s a r s') : Leased (log ++ [(a, r)]) s' := by
  cases hs with
  | idle hidle =>
    refine h.same rfl fun digest => ?_
    rcases hidle with ⟨e, rfl⟩ | ⟨session, rfl⟩ | ⟨reference, rfl⟩ <;>
      (unfold liveReaders; rw [List.foldl_append]; cases a <;> rfl)
  | released =>
    refine h.same rfl fun digest => ?_
    unfold liveReaders
    rw [List.foldl_append]
    cases a <;> rfl
  | @opened ownerId opened bytes identity hheld hreads hobject =>
    have hnext : ∀ digest,
        liveReaders digest (log ++ [(StoreAction.openReader ownerId opened, StoreReply.opened identity)]) =
        if opened = digest then liveReaders digest log + 1 else liveReaders digest log := by
      intro digest
      unfold liveReaders
      rw [List.foldl_append]
      rfl
    constructor
    · intro hlength digest
      rw [List.length_append, List.length_singleton] at hlength
      have hlive := h.live (by omega) digest
      have hbound := h.bounded digest
      rw [hnext]
      by_cases hd : opened = digest
      · subst hd
        rw [if_pos rfl]
        show Function.update s.readers opened _ opened = _
        rw [Function.update_self, hlive]
        unfold saturatingAdd
        omega
      · rw [if_neg hd]
        show Function.update s.readers opened _ digest = _
        rw [Function.update_of_ne (Ne.symm hd), hlive]
    · intro digest
      have hbound := h.bounded digest
      rw [hnext, List.length_append, List.length_singleton]
      by_cases hd : opened = digest
      · rw [if_pos hd]
        omega
      · rw [if_neg hd]
        omega
  | @closed closed hheld =>
    have hnext : ∀ digest, liveReaders digest (log ++ [(StoreAction.closeReader closed, StoreReply.closed)]) =
        if closed = digest then liveReaders digest log - 1 else liveReaders digest log := by
      intro digest
      unfold liveReaders
      rw [List.foldl_append]
      rfl
    constructor
    · intro hlength digest
      rw [List.length_append, List.length_singleton] at hlength
      have hlive := h.live (by omega) digest
      rw [hnext]
      by_cases hd : closed = digest
      · subst hd
        rw [if_pos rfl]
        show Function.update s.readers closed _ closed = _
        rw [Function.update_self, hlive]
      · rw [if_neg hd]
        show Function.update s.readers closed _ digest = _
        rw [Function.update_of_ne (Ne.symm hd), hlive]
    · intro digest
      have hbound := h.bounded digest
      rw [hnext, List.length_append, List.length_singleton]
      by_cases hd : closed = digest
      · rw [if_pos hd]
        omega
      · rw [if_neg hd]
        omega
  | crashed =>
    have hnext : ∀ digest, liveReaders digest (log ++ [(StoreAction.crash, StoreReply.restarted)]) = 0 := by
      intro digest
      unfold liveReaders
      rw [List.foldl_append]
      rfl
    constructor
    · intro _ digest
      rw [hnext]
      rfl
    · intro digest
      rw [hnext]
      exact Nat.zero_le _
  | claimed hfree hfound hpending hlasts hcomplete hholder =>
    refine h.same rfl fun digest => ?_
    unfold liveReaders
    rw [List.foldl_append]
    rfl
  | _ =>
    refine h.same rfl fun digest => ?_
    unfold liveReaders
    rw [List.foldl_append]
    rfl

theorem run_leased {allowed : Guard StoreState StoreAction StoreReply} (h : Run (uploadStore limits) allowed log s) :
    Leased log s :=
  h.invariant (I := fun log s => Leased log s) ⟨fun _ _ => rfl, fun _ => Nat.le_refl _⟩
    fun _ _ _ _ _ hs _ hact => hs.step (act_step hact)

end readers

structure Abandoned (s : StoreState) (digest : Sha256Digest) (nowMs : Nat) : Prop where
  references : ∀ reference ∈ s.ledger.references.rows, reference.digest = digest →
    reference.revokedAtMs ≠ none ∧ ∀ retainedUntilMs ∈ reference.retainedUntilMs, retainedUntilMs ≤ nowMs
  sessions : ∀ row ∈ s.ledger.sessions.rows, row.expectedDigest = digest → row.state.isPending = true →
    row.expiresAtMs ≤ nowMs
  readers : s.readers digest = 0

omit [Sha256] in
theorem abandoned_of_unreachable (hreaders : s.readers digest = 0)
    (h : s.ledger.artifactIsReachable digest nowMs = false) : Abandoned s digest nowMs := by
  simp only [artifactIsReachable, Bool.or_eq_false_iff, List.any_eq_false, decide_eq_true_eq] at h
  obtain ⟨hreferences, hsessions⟩ := h
  refine ⟨fun reference hreference hd => ?_, fun row hrow hd hpending => ?_, hreaders⟩
  · have hh := hreferences reference hreference
    refine ⟨fun hactive => hh ⟨hd, .inl hactive⟩, fun retainedUntilMs hretained => ?_⟩
    exact Nat.le_of_not_lt fun hlt => hh ⟨hd, .inr ⟨retainedUntilMs, hretained, hlt⟩⟩
  · exact Nat.le_of_not_lt fun hlt => hsessions row hrow ⟨hd, hpending, hlt⟩

theorem published_present {objects objects' : Objects} {bytes : List UInt8} (h : Published objects bytes objects') :
    objects' (Sha256.digestBytes bytes) ≠ none ∧ ∀ digest, objects digest ≠ none → objects' digest ≠ none := by
  rcases h with ⟨hnone, rfl⟩ | ⟨⟨stored, hstored, _⟩, rfl⟩
  · constructor
    · rw [Function.update_self]
      exact nofun
    · intro digest hd
      by_cases he : digest = Sha256.digestBytes bytes
      · rw [he, hnone] at hd
        exact absurd rfl hd
      · rw [Function.update_of_ne he]
        exact hd
  · constructor
    · rw [hstored]
      exact nofun
    · exact fun _ hd => hd

theorem StoreStep.removal (hs : StoreStep limits s a r s') (hthere : s.objects digest ≠ none)
    (hgone : s'.objects digest = none) :
    ∃ nowMs sizeBytes rest report, s.holder = .collecting nowMs ((digest, sizeBytes) :: rest) report ∧
      Abandoned s digest nowMs := by
  cases hs with
  | ingested _ _ _ _ hpublished | ingestedLocal _ hpublished =>
    exact absurd hgone ((published_present hpublished).2 digest hthere)
  | @removed nowMs removed sizeBytes rest report hheld hreaders hreach =>
    by_cases hd : digest = removed
    · subst hd
      exact ⟨nowMs, sizeBytes, rest, report, hheld, abandoned_of_unreachable hreaders hreach⟩
    · exfalso
      have hh : Function.update s.objects removed none digest = none := hgone
      rw [Function.update_of_ne hd] at hh
      exact hthere hh
  | _ => exact absurd hgone hthere

def findsObject (s : StoreState) : StoreAction → Bool
  | .recordLocal _ artifact _ => (s.objects artifact.digest).isSome
  | .grant request => (s.ledger.references.find (request.ownerId, request.referenceKey)).isSome ||
      s.ledger.garbageCollectionPending request.digest || (s.ledger.objects.find request.digest).isNone ||
      (s.objects request.digest).isSome
  | _ => true

def objectsFound : Guard StoreState StoreAction StoreReply := fun _ s a => findsObject s a = true

structure Present (s : StoreState) : Prop where
  referenced : ∀ reference ∈ s.ledger.references.rows, reference.revokedAtMs = none → s.objects reference.digest ≠ none
  ingested : ∀ session nowMs artifact, s.holder = .ingested session nowMs artifact → s.objects artifact.digest ≠ none

omit [Sha256] in
theorem Present.kept (h : Present s)
    (hreferences : ∀ reference ∈ s'.ledger.references.rows, reference.revokedAtMs = none →
      reference ∈ s.ledger.references.rows)
    (hobjects : ∀ digest, s.objects digest ≠ none → s'.objects digest ≠ none)
    (hholder : ∀ session nowMs artifact, s'.holder = .ingested session nowMs artifact →
      s.holder = .ingested session nowMs artifact) : Present s' where
  referenced reference hreference hactive :=
    hobjects _ (h.referenced reference (hreferences reference hreference hactive) hactive)
  ingested session nowMs artifact hheld := hobjects _ (h.ingested session nowMs artifact (hholder _ _ _ hheld))

omit [Sha256] in
theorem Present.added (reference : ArtifactReference) (h : Present s) (hobject : s.objects reference.digest ≠ none)
    (hreferences : s'.ledger.references = s.ledger.references.insertOrIgnore reference)
    (hobjects : s'.objects = s.objects)
    (hholder : ∀ session nowMs artifact, s'.holder ≠ .ingested session nowMs artifact) : Present s' where
  referenced found hfound hactive := by
    rw [hreferences] at hfound
    rw [hobjects]
    rcases Table.mem_insertOrIgnore.mp hfound with hfound | ⟨_, rfl⟩
    · exact h.referenced found hfound hactive
    · exact hobject
  ingested session nowMs artifact hheld := absurd hheld (hholder _ _ _)

omit [Sha256] in
theorem active_of_revoke {db : UploadDatabase} {ownerId referenceKey : String} {reference : ArtifactReference}
    (h : reference ∈ (revoke ownerId referenceKey nowMs db).references.rows) (hactive : reference.revokedAtMs = none) :
    reference ∈ db.references.rows := by
  obtain ⟨before, hbefore, rfl⟩ := Table.mem_update.mp h
  by_cases hkey : before.key = (ownerId, referenceKey)
  · rw [if_pos hkey] at hactive
    cases hactive
  · rw [if_neg hkey]
    exact hbefore

theorem Present.step (h : Present s) (hfinds : findsObject s a = true) (hs : StoreStep limits s a r s') :
    Present s' := by
  cases hs with
  | idle | torn | appended | opened | closed | pruneInterrupted | pruned =>
    exact h.kept (fun _ hr _ => hr) (fun _ hd => hd) fun _ _ _ hh => hh
  | replayed => exact h
  | began hfree hbegan =>
    obtain ⟨_, _, _, rfl⟩ := hbegan
    exact h.kept (fun _ hr _ => hr) (fun _ hd => hd) fun _ _ _ hh => hh
  | claimed hfree hfound hpending hlasts hcomplete hholder =>
    refine h.kept (fun _ hr _ => hr) (fun _ hd => hd) fun _ _ _ hh => ?_
    rcases hholder with ⟨rfl, -⟩ | ⟨rfl, -⟩ <;> cases hh
  | released | refused | finalized | uploadFailed | staged | collected | spared | crashed =>
    exact h.kept (fun _ hr _ => hr) (fun _ hd => hd) fun _ _ _ hh => by cases hh
  | ingested hheld hsource hsize hdigest hpublished =>
    obtain ⟨hthere, hkept⟩ := published_present hpublished
    refine ⟨fun reference hr ha => hkept _ (h.referenced reference hr ha), fun _ _ _ hh => ?_⟩
    cases hh
    rw [← hdigest]
    exact hthere
  | ingestedLocal hartifact hpublished =>
    exact h.kept (fun _ hr _ => hr) (published_present hpublished).2 fun _ _ _ hh => hh
  | recordedUpload hheld hsize =>
    exact .added (completedReference _ _ _ _) h (h.ingested _ _ _ hheld) rfl rfl fun _ _ _ hh => by cases hh
  | @recordedLocal ownerId artifact nowMs hfree hnew hsize =>
    refine .added (localReference ownerId artifact.digest nowMs) h ?_ rfl rfl fun _ _ _ hh => ?_
    · exact Option.isSome_iff_ne_none.mp hfinds
    · rw [show _ = GuardHolder.free from hfree] at hh
      cases hh
  | @granted request reference ledger hfree hgranted =>
    obtain ⟨hunused, hunmarked, object, hobject, htables⟩ := hgranted
    have hthere : s.objects request.digest ≠ none := by
      simpa [findsObject, hunused, hunmarked, hobject, Option.isSome_iff_ne_none] using hfinds
    have hholder : ∀ session nowMs artifact, s.holder ≠ .ingested session nowMs artifact := by
      intro _ _ _ hh
      rw [hfree] at hh
      cases hh
    rcases htables with ⟨_, rfl⟩ | ⟨_, _, rfl⟩
    · exact .added request.reference h hthere rfl rfl hholder
    · exact .added request.reference h hthere rfl rfl hholder
  | revoked hfree hrevoked =>
    obtain ⟨_, _, ⟨_, rfl⟩ | ⟨_, rfl⟩⟩ := hrevoked
    · exact h.kept (fun _ hr ha => active_of_revoke hr ha) (fun _ hd => hd) fun _ _ _ hh => hh
    · exact h.kept (fun _ hr ha => active_of_revoke hr ha) (fun _ hd => hd) fun _ _ _ hh => hh
  | @removed nowMs removed sizeBytes rest report hheld hreaders hreach =>
    refine ⟨fun reference hr ha => ?_, fun _ _ _ hh => by cases hh⟩
    by_cases hd : reference.digest = removed
    · exact absurd ha ((abandoned_of_unreachable hreaders hreach).references reference hr hd).1
    · show Function.update s.objects removed none reference.digest ≠ none
      rw [Function.update_of_ne hd]
      exact h.referenced reference hr ha
  | rowsDeleted => exact h.kept (fun _ hr _ => hr) (fun _ hd => hd) fun _ _ _ hh => by cases hh

theorem run_present (h : Run (uploadStore limits) objectsFound log s) : Present s :=
  h.invariant (I := fun _ s => Present s) ⟨(fun _ hr => by cases hr), (fun _ _ _ hh => by cases hh)⟩
    fun _ _ _ _ _ hs hfinds hact => hs.step hfinds (act_step hact)

/-- A collection removes no object that something keeps, and referenced objects are there. -/
theorem referenced_objects_present (h : Run (uploadStore limits) objectsFound log s) :
    (∀ a r s' digest, (uploadStore limits).act s a = some (s', r) → s.objects digest ≠ none → s'.objects digest = none →
      ∃ nowMs sizeBytes rest report, s.holder = .collecting nowMs ((digest, sizeBytes) :: rest) report ∧
        Abandoned s digest nowMs ∧ (log.length < 2 ^ 64 → liveReaders digest log = 0)) ∧
    ∀ reference ∈ s.ledger.references.rows, reference.revokedAtMs = none → s.objects reference.digest ≠ none := by
  constructor
  · intro a r s' digest hact hthere hgone
    obtain ⟨nowMs, sizeBytes, rest, report, hheld, habandoned⟩ := (act_step hact).removal hthere hgone
    refine ⟨nowMs, sizeBytes, rest, report, hheld, habandoned, fun hlength => ?_⟩
    rw [← (run_leased h).live hlength]
    exact habandoned.readers
  · exact (run_present h).referenced

theorem StoreStep.object (hs : StoreStep limits s a r s') (digest : Sha256Digest) :
    s'.objects digest = s.objects digest ∨ s'.objects digest = none ∨
      s.objects digest = none ∧ ∃ bytes, s'.objects digest = some bytes ∧ Sha256.digestBytes bytes = digest := by
  cases hs with
  | @ingested _ _ _ bytes _ _ _ _ _ hpublished | @ingestedLocal _ _ bytes _ _ _ hpublished =>
    rcases hpublished with ⟨hnone, rfl⟩ | ⟨-, rfl⟩
    · by_cases hd : digest = Sha256.digestBytes bytes
      · subst hd
        exact .inr (.inr ⟨hnone, bytes, Function.update_self .., rfl⟩)
      · exact .inl (Function.update_of_ne hd ..)
    · exact .inl rfl
  | @removed _ removed =>
    by_cases hd : digest = removed
    · exact .inr (.inl (hd ▸ Function.update_self ..))
    · exact .inl (Function.update_of_ne hd ..)
  | _ => exact .inl rfl

/-- The objects stand under the digests of their bytes. -/
theorem run_digests {allowed : Guard StoreState StoreAction StoreReply} (h : Run (uploadStore limits) allowed log s) :
    ∀ digest bytes, s.objects digest = some bytes → Sha256.digestBytes bytes = digest := by
  refine h.invariant (I := fun _ s => ∀ digest bytes, s.objects digest = some bytes → Sha256.digestBytes bytes = digest)
    (fun _ _ => nofun) fun _ s a s' r hs _ hact digest bytes hbytes => ?_
  rcases (act_step hact).object digest with hsame | hgone | ⟨-, stored, hstored, hdigest⟩
  · exact hs digest bytes (hsame ▸ hbytes)
  · rw [hgone] at hbytes
    cases hbytes
  · rw [hstored] at hbytes
    cases hbytes
    exact hdigest

/-- Whatever happens to the store, an object stands under the digest of its bytes and is never overwritten, so that
opening it fails only when it is not there. -/
theorem stored_objects_intact {allowed : Guard StoreState StoreAction StoreReply}
    (h : Run (uploadStore limits) allowed log s) :
    (∀ digest bytes, s.objects digest = some bytes → Sha256.digestBytes bytes = digest ∧
      openArtifact s.objects digest = .ok ⟨digest, bytes.length⟩) ∧
    ∀ a r s' digest bytes, (uploadStore limits).act s a = some (s', r) → s.objects digest = some bytes →
      s'.objects digest = some bytes ∨ s'.objects digest = none := by
  refine ⟨fun digest bytes hbytes => ?_, fun a r s' digest bytes hact hbytes => ?_⟩
  · have hdigest := run_digests h digest bytes hbytes
    simp [openArtifact, hbytes, hdigest]
  · rcases (act_step hact).object digest with hsame | hgone | ⟨hnone, -⟩
    · exact .inl (hsame.trans hbytes)
    · exact .inr hgone
    · rw [hnone] at hbytes
      cases hbytes

omit [Sha256]

def collectingSteps : List StoreAction :=
  [.ingestLocal [[1, 2]] ⟨none, none⟩, .recordLocal "worker" sampleArtifact 10,
    .ingestLocal [[3]] ⟨none, none⟩, .recordLocal "worker" ⟨⟨[3]⟩, 1⟩ 10,
    .revoke "worker" (localReferenceKey ⟨[3]⟩) 20, .collect 30 5 [⟨⟨[3]⟩, 1⟩], .examineCandidate, .deleteRows]

theorem referenced_objects_present_sample :
    ∃ log s, Run sampleStore objectsFound log s ∧ s.objects ⟨[3]⟩ = none ∧ s.objects sampleArtifact.digest ≠ none := by
  obtain ⟨log, s, hrun, -, hcheck⟩ := play_reaches sampleStore objectsFound (fun _ => findsObject) collectingSteps
    (fun _ s => s.objects ⟨[3]⟩ = none ∧ s.ledger.hasActiveOwnerReference "worker" sampleArtifact.digest = true)
    (fun _ _ _ h => h) (by decide) (by decide)
  obtain ⟨hgone, hactive⟩ := of_decide_eq_true hcheck
  obtain ⟨reference, hreference, -, hdigest, hunrevoked⟩ := hasActiveOwnerReference_iff.mp hactive
  refine ⟨log, s, hrun, hgone, ?_⟩
  rw [← hdigest]
  exact (@referenced_objects_present transparentSha256 sampleLimits log s hrun).2 reference hreference hunrevoked

theorem stored_objects_intact_sample : ∃ s : StoreState,
    @openArtifact transparentSha256 s.objects sampleArtifact.digest = .ok sampleArtifact := by
  obtain ⟨log, s, hrun, -, hcheck⟩ := play_reaches sampleStore anything (fun _ _ _ => true) collectingSteps
    (fun _ s => s.objects sampleArtifact.digest = some [1, 2]) (fun _ _ _ _ => trivial) (allowedFrom_true _ _ _)
    (by decide)
  exact ⟨s, ((@stored_objects_intact transparentSha256 sampleLimits log s _ hrun).1 _ _ (of_decide_eq_true hcheck)).2⟩

def revokedSteps : List StoreAction :=
  [.ingestLocal [[1, 2]] ⟨none, none⟩, .recordLocal "worker" sampleArtifact 10,
    .revoke "worker" (localReferenceKey sampleArtifact.digest) 20]

def sampleGrant : GrantArtifactReference :=
  ⟨"worker", "input", sampleArtifact.digest, .assignmentInput, "assignment input", 50, none⟩

def clearedSteps : List StoreAction :=
  revokedSteps ++ [StoreAction.collect 30 1 [⟨sampleArtifact.digest, 2⟩], StoreAction.examineCandidate,
    StoreAction.crash, StoreAction.begin { sampleUpload with nowMs := 40 } 7, StoreAction.grant sampleGrant]

def overtakenSteps : List StoreAction :=
  revokedSteps ++ [StoreAction.ingestLocal [[1, 2]] ⟨none, none⟩, .collect 30 1 [⟨sampleArtifact.digest, 2⟩],
    .examineCandidate,
    StoreAction.deleteRows, StoreAction.examineCandidate, StoreAction.recordLocal "host" sampleArtifact 40]

theorem reaches_missing {actions : List StoreAction} (h : (play sampleStore actions).any (fun end_ =>
    end_.2.objects sampleArtifact.digest = none ∧ ["worker", "host"].any fun ownerId =>
      end_.2.ledger.hasActiveOwnerReference ownerId sampleArtifact.digest) = true) :
    ∃ log s, Run sampleStore anything log s ∧ log.map Prod.fst = actions ∧
      ∃ reference ∈ s.ledger.references.rows, reference.revokedAtMs = none ∧ s.objects reference.digest = none := by
  obtain ⟨log, s, hrun, hlog, hcheck⟩ := play_reaches sampleStore anything (fun _ _ _ => true) actions
    (fun _ s => s.objects sampleArtifact.digest = none ∧ ["worker", "host"].any fun ownerId =>
      s.ledger.hasActiveOwnerReference ownerId sampleArtifact.digest)
    (fun _ _ _ _ => trivial) (allowedFrom_true _ _ _) h
  obtain ⟨hgone, hactive⟩ := of_decide_eq_true hcheck
  obtain ⟨ownerId, -, hactive⟩ := List.any_eq_true.mp hactive
  obtain ⟨reference, hreference, -, hdigest, hunrevoked⟩ := hasActiveOwnerReference_iff.mp hactive
  refine ⟨log, s, hrun, hlog, reference, hreference, hunrevoked, ?_⟩
  rw [hdigest]
  exact hgone

theorem referenced_objects_missing :
    (∃ log s, Run sampleStore anything log s ∧ log.map Prod.fst = clearedSteps ∧
      ∃ reference ∈ s.ledger.references.rows, reference.revokedAtMs = none ∧ s.objects reference.digest = none) ∧
    ∃ log s, Run sampleStore anything log s ∧ log.map Prod.fst = overtakenSteps ∧
      ∃ reference ∈ s.ledger.references.rows, reference.revokedAtMs = none ∧ s.objects reference.digest = none :=
  ⟨reaches_missing (by decide), reaches_missing (by decide)⟩

end AlloyPort.Artifacts
