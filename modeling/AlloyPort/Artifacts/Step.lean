import AlloyPort.Artifacts.Change

/-! The steps of the upload store, each with what it may rely on. -/

namespace AlloyPort.Artifacts

open Database Transaction UploadDatabase SqliteUploadStore StoreState

variable [Sha256] {limits : StoreLimits} {s s' : StoreState} {a : StoreAction} {r : StoreReply}

def Published (objects : Objects) (bytes : List UInt8) (objects' : Objects) : Prop :=
  objects (Sha256.digestBytes bytes) = none ∧
      objects' = Function.update objects (Sha256.digestBytes bytes) (some bytes) ∨
    (∃ stored, objects (Sha256.digestBytes bytes) = some stored ∧
      Sha256.digestBytes stored = Sha256.digestBytes bytes) ∧ objects' = objects

/-- What a write of upload data that did not succeed may leave of the file. -/
def Torn (offset : Nat) (file file' : Option (List UInt8)) : Prop :=
  file' = file ∨ (file.getD []).length < offset ∧ file' = some (file.getD []) ∨
    offset ≤ (file.getD []).length ∧ ∃ tail, file' = some ((file.getD []).take offset ++ tail)

/-- The replies of a call that leaves the store as it is. -/
def StoreReply.IsIdle (r : StoreReply) : Prop :=
  (∃ e, r = .failed e) ∨ (∃ session, r = .began session) ∨ ∃ reference, r = .referenced reference

def KnownSize (db : UploadDatabase) (artifact : ArtifactIdentity) : Prop :=
  ∀ object, db.objects.find artifact.digest = some object → object.sizeBytes = artifact.sizeBytes

inductive StoreStep (limits : StoreLimits) (s : StoreState) : StoreAction → StoreReply → StoreState → Prop where
  | idle {a : StoreAction} {r : StoreReply} (h : r.IsIdle) : StoreStep limits s a r s
  | began {request counter uploadId ledger} (hfree : s.holder = .free)
      (h : Began limits request s.ledger uploadId ledger) :
      StoreStep limits s (.begin request counter) (.began (request.row uploadId).session) { s with ledger }
  | torn {ownerId uploadId offset bytes nowMs fate row file e} (hheld : s.holder.isCollecting = false)
      (h : Appends limits s.ledger ownerId uploadId offset bytes.length nowMs row)
      (hfile : Torn offset (s.data uploadId) file) :
      StoreStep limits s (.append ownerId uploadId offset bytes nowMs fate) (.failed e)
        { s with data := Function.update s.data uploadId file }
  | appended {ownerId uploadId offset bytes nowMs row} (hheld : s.holder.isCollecting = false)
      (h : Appends limits s.ledger ownerId uploadId offset bytes.length nowMs row)
      (hfits : offset + bytes.length ≤ row.expectedSizeBytes) (hfile : offset ≤ ((s.data uploadId).getD []).length) :
      StoreStep limits s (.append ownerId uploadId offset bytes nowMs .whole) (.appended (offset + bytes.length))
        { s with
          data := Function.update s.data uploadId (some (((s.data uploadId).getD []).take offset ++ bytes))
          ledger := updateSession uploadId (committedRow (offset + bytes.length) nowMs) s.ledger }
  | replayed {ownerId uploadId nowMs row artifact} (hfree : s.holder = .free) (h : Found s.ledger ownerId uploadId row)
      (hstate : row.state = .completed) (hartifact : row.session.artifact = some artifact) :
      StoreStep limits s (.finalize ownerId uploadId nowMs) (.finalized ownerId artifact) s
  | claimed {ownerId uploadId nowMs row holder} {r : StoreReply} (hfree : s.holder = .free)
      (h : Found s.ledger ownerId uploadId row)
      (hpending : row.state.isPending = true) (hlasts : nowMs < row.expiresAtMs)
      (hcomplete : row.committedOffset = row.expectedSizeBytes)
      (hholder : holder = .claimed row.session nowMs ∧ r = .working ∨ holder = .free ∧ ∃ e, r = .failed e) :
      StoreStep limits s (.finalize ownerId uploadId nowMs) r
        { s with ledger := updateSession uploadId (claimedRow nowMs) s.ledger, holder }
  | released {a : StoreAction} {e} (hheld : s.holder ≠ .free) :
    StoreStep limits s a (.failed e) { s with holder := .free }
  | ingested {session nowMs reads bytes objects} (hheld : s.holder = .claimed session nowMs)
      (hsource : s.uploadSource session = some bytes) (hsize : bytes.length = session.expectedSizeBytes)
      (hdigest : Sha256.digestBytes bytes = session.expectedDigest) (hpublished : Published s.objects bytes objects) :
      StoreStep limits s (.ingestUpload reads) .working
        { s with
          objects, holder := .ingested session nowMs ⟨session.expectedDigest, session.expectedSizeBytes⟩ }
  | refused {session nowMs reads e} (hheld : s.holder = .claimed session nowMs) :
      StoreStep limits s (.ingestUpload reads) .working { s with holder := .refused session nowMs e }
  | recordedUpload {session nowMs artifact} (hheld : s.holder = .ingested session nowMs artifact)
      (hsize : KnownSize s.ledger artifact) :
      StoreStep limits s .recordUpload .working
        { s with
          ledger := updateSession session.uploadId (completedRow artifact.digest nowMs)
            (s.ledger.recordedArtifact (completedReference session.ownerId session.uploadId artifact.digest nowMs)
              artifact.sizeBytes)
          holder := .recorded session artifact }
  | finalized {session artifact} (hheld : s.holder = .recorded session artifact) :
      StoreStep limits s .removeUploadData (.finalized session.ownerId artifact)
        { s with data := Function.update s.data session.uploadId none, holder := .free }
  | uploadFailed {session nowMs e} (hheld : s.holder = .refused session nowMs e) :
      StoreStep limits s .failUpload (.failed (.artifact e))
        { s with
          ledger := updateSession session.uploadId (failedRow nowMs) s.ledger, holder := .free }
  | pruned {nowMs} {ids : List String} (hfree : s.holder = .free) :
      StoreStep limits s (.pruneExpired nowMs none) (.pruned ids.length)
        { s with
          ledger := s.ledger.deleteExpired nowMs, data := fun id => if id ∈ ids then none else s.data id }
  | pruneInterrupted {nowMs} {removed : List String} {e} (hfree : s.holder = .free) :
      StoreStep limits s (.pruneExpired nowMs (some removed)) (.failed e)
        { s with data := fun id => if id ∈ removed then none else s.data id }
  | ingestedLocal {reads request bytes artifact objects} (hartifact : artifact.digest = Sha256.digestBytes bytes)
      (hpublished : Published s.objects bytes objects) :
      StoreStep limits s (.ingestLocal reads request) (.ingested artifact) { s with objects }
  | recordedLocal {ownerId artifact nowMs} (hfree : s.holder = .free)
      (hnew : s.ledger.objects.find artifact.digest = none → s.ledger.Affords limits ownerId artifact.sizeBytes nowMs)
      (hsize : KnownSize s.ledger artifact) :
      StoreStep limits s (.recordLocal ownerId artifact nowMs) .recorded
        { s with ledger := s.ledger.recordedArtifact (localReference ownerId artifact.digest nowMs) artifact.sizeBytes }
  | granted {request reference ledger} (hfree : s.holder = .free) (h : Granted limits request s.ledger ledger) :
      StoreStep limits s (.grant request) (.referenced reference) { s with ledger }
  | revoked {ownerId referenceKey nowMs row reference ledger} (hfree : s.holder = .free)
      (h : Revoked ownerId referenceKey nowMs s.ledger row ledger) :
      StoreStep limits s (.revoke ownerId referenceKey nowMs) (.referenced reference) { s with ledger }
  | opened {ownerId digest bytes identity} (hheld : s.holder.isCollecting = false)
      (hreads : s.ledger.canReadArtifact ownerId digest = true) (hobject : s.objects digest = some bytes) :
      StoreStep limits s (.openReader ownerId digest) (.opened identity)
        { s with readers := Function.update s.readers digest (saturatingAdd (s.readers digest) 1) }
  | closed {digest} (hheld : s.holder.isCollecting = false) :
      StoreStep limits s (.closeReader digest) .closed
        { s with readers := Function.update s.readers digest (s.readers digest - 1) }
  | staged {nowMs limit selected gcPending candidates report} (hfree : s.holder = .free) :
      StoreStep limits s (.collect nowMs limit selected) .working
        { s with ledger := { s.ledger with gcPending }, holder := .collecting nowMs candidates report }
  | collected {nowMs candidates report} (hheld : s.holder = .collecting nowMs candidates report) :
      StoreStep limits s .examineCandidate (.collected report) { s with holder := .free }
  | spared {nowMs digest candidates rest report report'} (hheld : s.holder = .collecting nowMs candidates report) :
      StoreStep limits s .examineCandidate .working
        { s with ledger := s.ledger.deletePending digest, holder := .collecting nowMs rest report' }
  | removed {nowMs digest sizeBytes rest report}
      (hheld : s.holder = .collecting nowMs ((digest, sizeBytes) :: rest) report)
      (hreaders : s.readers digest = 0) (hreach : s.ledger.artifactIsReachable digest nowMs = false) :
      StoreStep limits s .examineCandidate .working
        { s with
          objects := Function.update s.objects digest none, holder := .removed nowMs digest sizeBytes rest report }
  | rowsDeleted {nowMs digest sizeBytes rest report report'}
    (hheld : s.holder = .removed nowMs digest sizeBytes rest report) :
      StoreStep limits s .deleteRows .working
        { s with ledger := s.ledger.deleteArtifact digest, holder := .collecting nowMs rest report' }
  | crashed : StoreStep limits s .crash .restarted s.crash

section files

variable {max offset : Nat} {reads : List (List UInt8)} {bytes staged : List UInt8} {request : IngestRequest}
variable {objects objects' : Objects} {file file' : Option (List UInt8)} {fate : WriteFate}

omit [Sha256] in
theorem writeStaged_eq (h : writeStaged max staged reads = .ok bytes) : bytes = staged ++ reads.flatten := by
  induction reads generalizing staged with
  | nil =>
    cases h
    simp
  | cons read rest ih =>
    simp only [writeStaged] at h
    split at h
    · cases h
    · rw [ih h]
      simp

omit [Sha256] in
theorem validateRequest_ok {identity : ArtifactIdentity} (h : validateRequest identity request = .ok ()) :
    (∀ size ∈ request.expectedSizeBytes, size = identity.sizeBytes) ∧
      ∀ digest ∈ request.expectedDigest, digest = identity.digest := by
  unfold validateRequest at h
  split at h
  · cases h
  · rename_i hsize
    split at h
    · cases h
    · rename_i hdigest
      constructor
      · intro size hm
        simpa using Option.filter_eq_none_iff.mp hsize size hm
      · intro digest hm
        simpa using Option.filter_eq_none_iff.mp hdigest digest hm

theorem publish_ok {size : Nat}
    (h : publish objects staged ⟨Sha256.digestBytes staged, size⟩ = .ok objects') :
    Published objects staged objects' := by
  unfold publish at h
  split at h
  · cases h
    exact .inl ⟨‹_›, rfl⟩
  · rename_i stored hstored
    split at h
    · cases h
      exact .inr ⟨⟨stored, hstored, ‹_›⟩, rfl⟩
    · cases h

theorem ingest_ok {artifact : ArtifactIdentity} (h : ingest max objects reads request = .ok (artifact, objects')) :
    artifact = ⟨Sha256.digestBytes reads.flatten, reads.flatten.length⟩ ∧
      (∀ size ∈ request.expectedSizeBytes, size = artifact.sizeBytes) ∧
      (∀ digest ∈ request.expectedDigest, digest = artifact.digest) ∧ Published objects reads.flatten objects' := by
  unfold ingest at h
  split at h
  · cases h
  · cases hw : writeStaged max [] reads with
    | error e =>
      simp only [hw, bind, Except.bind] at h
      cases h
    | ok staged =>
      have hstaged := writeStaged_eq hw
      rw [List.nil_append] at hstaged
      subst hstaged
      cases hv : validateRequest ⟨Sha256.digestBytes reads.flatten, reads.flatten.length⟩ request with
      | error e =>
        simp only [hw, hv, bind, Except.bind] at h
        cases h
      | ok _ =>
        cases hp : publish objects reads.flatten ⟨Sha256.digestBytes reads.flatten, reads.flatten.length⟩ with
        | error e =>
          simp only [hw, hv, hp, bind, Except.bind] at h
          cases h
        | ok after =>
          simp only [hw, hv, hp, bind, Except.bind, pure, Except.pure, Except.ok.injEq, Prod.mk.injEq] at h
          obtain ⟨rfl, rfl⟩ := h
          obtain ⟨hsize, hdigest⟩ := validateRequest_ok hv
          exact ⟨rfl, hsize, hdigest, publish_ok hp⟩

omit [Sha256] in
theorem appendFile_torn
    {e : UploadError} (h : appendFile file offset bytes fate = (file', .error e)) : Torn offset file file' := by
  cases fate with
  | refused error =>
    cases h
    exact .inl rfl
  | torn tail error =>
    simp only [appendFile] at h
    split at h
    · cases h
      exact .inr (.inl ⟨‹_›, rfl⟩)
    · cases h
      exact .inr (.inr ⟨Nat.le_of_not_lt ‹_›, _, rfl⟩)
  | whole =>
    simp only [appendFile] at h
    split at h
    · cases h
      exact .inr (.inl ⟨‹_›, rfl⟩)
    · cases h

omit [Sha256] in
theorem appendFile_whole (h : appendFile file offset bytes fate = (file', .ok ())) :
    fate = .whole ∧ offset ≤ (file.getD []).length ∧ file' = some ((file.getD []).take offset ++ bytes) := by
  cases fate with
  | refused error => cases h
  | torn tail error =>
    simp only [appendFile] at h
    split at h <;> cases h
  | whole =>
    simp only [appendFile] at h
    split at h
    · cases h
    · cases h
      exact ⟨rfl, Nat.le_of_not_lt ‹_›, rfl⟩

end files

omit [Sha256] in
theorem commit_cases {α : Type} {t : UploadTransaction α} {f : α → StoreReply} {Q : α → UploadDatabase → Prop}
    (hwp : t.wp s.ledger Q fun _ _ => True) (h : s.commit t f = (s', r)) :
    (∃ x ledger, s' = { s with ledger } ∧ r = f x ∧ Q x ledger) ∨ s' = s ∧ ∃ e, r = .failed e := by
  unfold commit at h
  rcases run_pair hwp with ⟨x, ledger, hrun, hq⟩ | ⟨e, hrun⟩
  · rw [hrun] at h
    cases h
    exact .inl ⟨x, ledger, rfl, rfl, hq⟩
  · rw [hrun] at h
    cases h
    exact .inr ⟨rfl, e, rfl⟩

section operations

omit [Sha256] in
theorem idle_failed (e : UploadError) : (StoreReply.failed e).IsIdle := .inl ⟨e, rfl⟩

variable {ownerId uploadId : String} {nowMs : Nat}

theorem append_step {offset : Nat} {bytes : List UInt8} {fate : WriteFate} (hheld : s.holder.isCollecting = false)
    (h : s.append limits ownerId uploadId offset bytes nowMs fate = (s', r)) :
    StoreStep limits s (.append ownerId uploadId offset bytes nowMs fate) r s' := by
  unfold append at h
  have hcheck := run_cases (t := appendCheck limits ownerId uploadId offset bytes nowMs) (d := s.ledger)
    (wp_mono appendCheck_checks (fun _ _ h => h.2) fun _ _ h => h)
  rcases hcheck with ⟨next, hnext, hrow⟩ | ⟨e, he, -⟩
  · simp only [hnext] at h
    obtain ⟨rfl, row, happends⟩ := hrow
    cases hfile : appendFile (s.data uploadId) offset bytes fate with
    | mk file written =>
      cases written with
      | error e =>
        simp only [hfile] at h
        cases h
        exact .torn hheld happends (appendFile_torn hfile)
      | ok _ =>
        obtain ⟨rfl, hlength, rfl⟩ := appendFile_whole hfile
        simp only [hfile] at h
        rcases commit_cases appendCommit_wp h with ⟨_, _, rfl, rfl, rfl, hlt, rfl⟩ | ⟨rfl, e, rfl⟩
        · have hsum : saturatingAdd offset bytes.length = offset + bytes.length := by
            unfold saturatingAdd at hlt ⊢
            omega
          have hfits := happends.fits
          rw [hsum] at hfits ⊢
          exact .appended hheld happends hfits hlength
        · exact .torn hheld happends (.inr (.inr ⟨hlength, _, rfl⟩))
  · simp only [he] at h
    cases h
    exact .idle (idle_failed e)

theorem finalize_step (hfree : s.holder = .free)
    (h : s.finalize ownerId uploadId nowMs = (s', r)) : StoreStep limits s (.finalize ownerId uploadId nowMs) r s' := by
  unfold finalize at h
  rcases run_pair (t := finalizeClaim ownerId uploadId nowMs) (d := s.ledger) finalizeClaim_wp with
    ⟨found, ledger, hrun, row, hrow, hclaims⟩ | ⟨e, hrun⟩
  · rw [hrun] at h
    cases found with
    | inl artifact =>
      cases h
      exact .replayed hfree hrow hclaims.1 hclaims.2.1
    | inr session =>
      obtain ⟨rfl, hpending, hlasts, hcomplete, rfl⟩ := hclaims
      dsimp only at h
      split at h
      · rename_i e _
        cases h
        have hs : StoreStep limits s (.finalize ownerId uploadId nowMs) (.failed e) _ :=
          .claimed hfree hrow hpending hlasts hcomplete (.inr ⟨rfl, e, rfl⟩)
        rw [← hfree] at hs
        exact hs
      · cases h
        exact .claimed hfree hrow hpending hlasts hcomplete (.inl ⟨rfl, rfl⟩)
  · rw [hrun] at h
    cases h
    exact .idle (idle_failed e)

theorem ingestUpload_step {session : UploadSession} {reads : List (List UInt8)}
    (hheld : s.holder = .claimed session nowMs) (h : s.ingestUpload limits session nowMs reads = some (s', r)) :
    StoreStep limits s (.ingestUpload reads) r s' := by
  have hbusy : s.holder ≠ .free := by
    rw [hheld]
    exact nofun
  unfold ingestUpload at h
  split at h
  · cases h
    exact .released hbusy
  · rename_i bytes hsource
    split at h
    · rename_i hreads
      subst hreads
      split at h
      · rename_i artifact objects hingest
        obtain ⟨rfl, hsize, hdigest, hpublished⟩ := ingest_ok hingest
        have hsize : session.expectedSizeBytes = reads.flatten.length := hsize _ rfl
        have hdigest : session.expectedDigest = Sha256.digestBytes reads.flatten := hdigest _ rfl
        cases h
        have hs : StoreStep limits s (.ingestUpload reads) _ _ :=
          .ingested hheld hsource hsize.symm hdigest.symm hpublished
        rw [hsize, hdigest] at hs
        exact hs
      · split at h
        · cases h
          exact .refused hheld
        · cases h
          exact .released hbusy
    · cases h

omit [Sha256] in
theorem prune_cases {interrupted : Option (List String)} (h : s.prune nowMs interrupted = some (s', r)) :
    (∃ e, r = .failed e ∧ s' = s) ∨
    (∃ ids : List String, interrupted = none ∧ r = .pruned ids.length ∧
      s' = { s with ledger := s.ledger.deleteExpired nowMs, data := fun id => if id ∈ ids then none else s.data id }) ∨
    ∃ removed e, interrupted = some removed ∧ r = .failed e ∧
      s' = { s with data := fun id => if id ∈ removed then none else s.data id } := by
  unfold prune at h
  split at h
  · cases h
    exact .inl ⟨_, rfl, rfl⟩
  · rename_i ids _
    cases interrupted with
    | none =>
      cases h
      exact .inr (.inl ⟨ids, rfl, rfl, rfl⟩)
    | some removed =>
      dsimp only at h
      split at h
      · cases h
        exact .inr (.inr ⟨removed, _, rfl, rfl, rfl⟩)
      · cases h

theorem collect_step {limit : Nat} {selected : List ObjectRow} (hfree : s.holder = .free)
    (h : s.collect nowMs limit selected = some (s', r)) : StoreStep limits s (.collect nowMs limit selected) r s' := by
  unfold collect at h
  split at h
  · cases h
    exact .idle (idle_failed _)
  · rcases run_pair (t := stageGarbageCandidates nowMs limit selected) (d := s.ledger) stageGarbageCandidates_wp with
      ⟨_, ledger, hrun, hledger⟩ | ⟨e, hrun⟩
    · rw [hrun] at h
      dsimp only at h
      split at h
      · rw [hledger] at h
        cases h
        exact .staged hfree
      · cases h
    · rw [hrun] at h
      cases h
      exact .idle (idle_failed e)

theorem examine_step {candidates : List (Sha256Digest × Nat)} {report : GarbageCollectionReport}
    (hheld : s.holder = .collecting nowMs candidates report) (h : s.examine nowMs report candidates = (s', r)) :
    StoreStep limits s .examineCandidate r s' := by
  cases candidates with
  | nil =>
    cases h
    exact .collected hheld
  | cons candidate rest =>
    obtain ⟨digest, sizeBytes⟩ := candidate
    simp only [examine] at h
    by_cases hreaders : s.readers digest ≠ 0
    · rw [if_pos hreaders] at h
      cases h
      exact .spared hheld
    · rw [if_neg hreaders] at h
      by_cases hreach : s.ledger.artifactIsReachable digest nowMs = true
      · rw [if_pos hreach] at h
        cases h
        exact .spared hheld
      · rw [if_neg hreach] at h
        cases h
        exact .removed hheld (not_not.mp hreaders) (by simpa using hreach)

end operations

theorem act_step (h : s.act limits a = some (s', r)) : StoreStep limits s a r s' := by
  cases a with simp only [act] at h
  | begin request counter =>
    split at h
    · rename_i hfree
      rcases commit_cases begin_wp (Option.some.inj h) with
        ⟨session, ledger, rfl, rfl, ⟨rfl, -⟩ | ⟨-, uploadId, hbegan, rfl⟩⟩ | ⟨rfl, e, rfl⟩
      · exact .idle (.inr (.inl ⟨session, rfl⟩))
      · exact .began hfree hbegan
      · exact .idle (idle_failed e)
    · cases h
  | append ownerId uploadId offset bytes nowMs fate =>
    split at h
    · cases h
    · rename_i hheld
      exact append_step (by simpa using hheld) (Option.some.inj h)
  | finalize ownerId uploadId nowMs =>
    split at h
    · exact finalize_step ‹_› (Option.some.inj h)
    · cases h
  | ingestUpload reads =>
    split at h
    · exact ingestUpload_step ‹_› h
    · cases h
  | recordUpload =>
    split at h
    · rename_i session nowMs artifact hheld
      rcases run_pair (t := finalizeRecord session artifact nowMs) (d := s.ledger) finalizeRecord_wp with
        ⟨_, _, hrun, hsize, rfl⟩ | ⟨e, hrun⟩
      · rw [hrun] at h
        cases h
        exact .recordedUpload hheld hsize
      · rw [hrun] at h
        cases h
        exact .released (by rw [hheld]; exact nofun)
    · cases h
  | removeUploadData =>
    split at h
    · cases h
      exact .finalized ‹_›
    · cases h
  | failUpload =>
    split at h
    · rename_i session nowMs error hheld
      rcases commit_cases markFailed_wp (Option.some.inj h) with ⟨_, _, rfl, rfl, rfl⟩ | ⟨rfl, e, rfl⟩
      · exact .uploadFailed hheld
      · exact .released (by rw [hheld]; exact nofun)
    · cases h
  | pruneExpired nowMs interrupted =>
    split at h
    · rename_i hfree
      rcases prune_cases h with ⟨e, rfl, rfl⟩ | ⟨ids, rfl, rfl, rfl⟩ | ⟨removed, e, rfl, rfl, rfl⟩
      · exact .idle (idle_failed e)
      · exact .pruned hfree
      · exact .pruneInterrupted hfree
    · cases h
  | ingestLocal reads request =>
    split at h
    · rename_i artifact objects hingest
      obtain ⟨rfl, -, -, hpublished⟩ := ingest_ok hingest
      cases h
      exact .ingestedLocal rfl hpublished
    · cases h
      exact .idle (idle_failed _)
  | recordLocal ownerId artifact nowMs =>
    split at h
    · rename_i hfree
      rcases commit_cases recordLocalArtifact_wp (Option.some.inj h) with
        ⟨_, _, rfl, rfl, hnew, hsize, rfl⟩ | ⟨rfl, e, rfl⟩
      · exact .recordedLocal hfree hnew hsize
      · exact .idle (idle_failed e)
    · cases h
  | grant request =>
    split at h
    · rename_i hfree
      rcases commit_cases grantReference_wp (Option.some.inj h) with
        ⟨reference, _, rfl, rfl, ⟨rfl, -⟩ | hgranted⟩ | ⟨rfl, e, rfl⟩
      · exact .idle (.inr (.inr ⟨reference, rfl⟩))
      · exact .granted hfree hgranted
      · exact .idle (idle_failed e)
    · cases h
  | revoke ownerId referenceKey nowMs =>
    split at h
    · rename_i hfree
      rcases commit_cases revokeReference_wp (Option.some.inj h) with
        ⟨reference, _, rfl, rfl, rfl | ⟨row, hrevoked⟩⟩ | ⟨rfl, e, rfl⟩
      · exact .idle (.inr (.inr ⟨reference, rfl⟩))
      · exact .revoked hfree hrevoked
      · exact .idle (idle_failed e)
    · cases h
  | openReader ownerId digest =>
    split at h
    · cases h
    · rename_i hheld
      simp only [openReader] at h
      split at h
      · cases h
        exact .idle (idle_failed _)
      · rename_i hreads
        split at h
        · cases h
          exact .idle (idle_failed _)
        · rename_i identity hopen
          cases hobject : s.objects digest with
          | none => simp [openArtifact, hobject] at hopen
          | some bytes =>
            cases h
            exact .opened (by simpa using hheld) (by simpa using hreads) hobject
  | closeReader digest =>
    split at h
    · cases h
    · rename_i hheld
      cases h
      exact .closed (by simpa using (not_or.mp hheld).1)
  | collect nowMs limit selected =>
    split at h
    · exact collect_step ‹_› h
    · cases h
  | examineCandidate =>
    split at h
    · exact examine_step ‹_› (Option.some.inj h)
    · cases h
  | deleteRows =>
    split at h
    · cases h
      exact .rowsDeleted ‹_›
    · cases h
  | giveUp error =>
    split at h
    · cases h
    · cases h
      exact .released ‹_›
  | crash =>
    cases h
    exact .crashed

end AlloyPort.Artifacts
