import AlloyPort.Artifacts.Store

/-! What each transaction of the upload store leaves in its tables, and what each step of the store
does. The properties of runs rest on these lists alone. -/

namespace AlloyPort.Artifacts

open Database Transaction UploadDatabase SqliteUploadStore

variable {db db' : UploadDatabase} {limits : StoreLimits} {ownerId uploadId : String} {nowMs sizeBytes : Nat}

section arithmetic

theorem toI64_eq {value stored : Nat} (h : toI64 value = .ok stored) : stored = value ∧ value < 2 ^ 63 := by
  unfold toI64 at h
  by_cases hv : value < 2 ^ 63
  · rw [if_pos hv] at h
    cases h
    exact ⟨rfl, hv⟩
  · rw [if_neg hv] at h
    cases h

theorem queryBytes_eq {sum stored : Nat} (h : queryBytes sum = .ok stored) : stored = sum := by
  unfold queryBytes at h
  by_cases hs : sum < 2 ^ 63
  · rw [if_pos hs] at h
    cases h
    rfl
  · rw [if_neg hs] at h
    cases h

theorem saturatingAdd_le {a b limit : Nat} (h : saturatingAdd a b ≤ limit) (hl : limit < 2 ^ 63) : a + b ≤ limit := by
  unfold saturatingAdd at h
  omega

theorem enforceQuota_ok {scope : QuotaScope} {limit used requested : Nat}
    (h : enforceQuota scope limit used requested = .ok ()) : saturatingAdd used requested ≤ limit := by
  unfold enforceQuota at h
  by_cases hh : limit < saturatingAdd used requested
  · rw [if_pos hh] at h
    cases h
  · omega

theorem StoreLimits.quotas_lt (limits : StoreLimits) :
    limits.quotas.totalBytes < 2 ^ 63 ∧ limits.quotas.perOwnerBytes < 2 ^ 63 := by
  have h := limits.quotasValid
  unfold validateQuotas at h
  by_cases h0 : limits.quotas.totalBytes = 0 ∨ limits.quotas.perOwnerBytes = 0
  · rw [if_pos h0] at h
    cases h
  · rw [if_neg h0] at h
    by_cases h1 : 2 ^ 63 ≤ limits.quotas.totalBytes ∨ 2 ^ 63 ≤ limits.quotas.perOwnerBytes
    · rw [if_pos h1] at h
      cases h
    · omega

end arithmetic

def UploadDatabase.AffordsOwner (db : UploadDatabase) (limits : StoreLimits) (ownerId : String)
    (sizeBytes nowMs : Nat) : Prop :=
  db.ownerStoredBytes ownerId + db.ownerReservedBytes ownerId nowMs + sizeBytes ≤ limits.quotas.perOwnerBytes

def UploadDatabase.Affords (db : UploadDatabase) (limits : StoreLimits) (ownerId : String) (sizeBytes nowMs : Nat) :
    Prop :=
  db.totalStoredBytes + db.totalReservedBytes nowMs + sizeBytes ≤ limits.quotas.totalBytes ∧
    db.AffordsOwner limits ownerId sizeBytes nowMs

/-- A transaction that leaves the tables alone where it succeeds, and then tells `P`. -/
abbrev Checks {α : Type} (t : UploadTransaction α) (db : UploadDatabase) (P : α → Prop) : Prop :=
  t.wp db (fun a db' => db' = db ∧ P a) fun _ _ => True

theorem enforceQuotas_checks :
    Checks (enforceQuotas limits.quotas ownerId sizeBytes nowMs) db fun _ =>
    db.Affords limits ownerId sizeBytes nowMs := by
  unfold enforceQuotas
  simp only [wp_bind, wp_read, wp_attempt]
  refine ⟨fun totalStored hstored => ⟨fun now hnow => ⟨fun totalReserved hreserved => ⟨fun _ htotal =>
    ⟨fun ownerStored hownerStored => ⟨fun ownerReserved hownerReserved => ⟨fun _ howner => ?_, ?_⟩, ?_⟩, ?_⟩, ?_⟩, ?_⟩,
      ?_⟩, ?_⟩
  · obtain ⟨rfl, -⟩ := toI64_eq hnow
    have hlimits := limits.quotas_lt
    rw [queryBytes_eq hstored, queryBytes_eq hreserved] at htotal
    rw [queryBytes_eq hownerStored, queryBytes_eq hownerReserved] at howner
    have ht := saturatingAdd_le (enforceQuota_ok htotal) hlimits.1
    have ho := saturatingAdd_le (enforceQuota_ok howner) hlimits.2
    refine ⟨trivial, ?_, ?_⟩
    · unfold saturatingAdd at ht
      omega
    · unfold saturatingAdd at ho
      unfold AffordsOwner
      omega
  all_goals exact fun _ _ => trivial

theorem findSession_checks :
    Checks (findSession uploadId) db fun session => ∃ row, db.sessions.find uploadId = some row ∧
    session = row.session := by
  unfold findSession
  simp only [wp_bind, wp_read]
  split
  · trivial
  · exact ⟨rfl, _, ‹_›, rfl⟩

variable {session : UploadSession} {request : GrantArtifactReference}

theorem authorize_ok (h : authorize session ownerId = .ok ()) : session.ownerId = ownerId := by
  unfold authorize at h
  by_cases hh : session.ownerId = ownerId
  · exact hh
  · rw [if_neg hh] at h
    cases h

theorem ensureOpen_ok (h : ensureOpen session nowMs = .ok ()) :
    session.state = .opened ∧ nowMs < session.expiresAtMs := by
  unfold ensureOpen at h
  by_cases hs : session.state ≠ .opened
  · rw [if_pos hs] at h
    cases h
  · rw [if_neg hs] at h
    by_cases he : session.expiresAtMs ≤ nowMs
    · rw [if_pos he] at h
      cases h
    · exact ⟨not_not.mp hs, by omega⟩

/-- The tables after the statements of `record_local_artifact` or `record_completed_artifact`. -/
def UploadDatabase.recordedArtifact (reference : ArtifactReference) (sizeBytes : Nat) (db : UploadDatabase) :
    UploadDatabase :=
  insertOwnerReference ⟨reference.ownerId, reference.digest, sizeBytes⟩
    (insertReference reference (deletePending reference.digest (insertObject ⟨reference.digest, sizeBytes⟩ db)))

def completedReference (ownerId uploadId : String) (digest : Sha256Digest) (nowMs : Nat) : ArtifactReference :=
  ⟨ownerId, uploadReferenceKey uploadId, digest, .upload, "completed upload", nowMs, none, none⟩

def localReference (ownerId : String) (digest : Sha256Digest) (nowMs : Nat) : ArtifactReference :=
  ⟨ownerId, localReferenceKey digest, digest, .retentionRoot, "controller artifact", nowMs, none, none⟩

def GrantArtifactReference.reference (request : GrantArtifactReference) : ArtifactReference :=
  ⟨request.ownerId, request.referenceKey, request.digest, request.kind, request.purpose, request.nowMs,
    request.retainedUntilMs, none⟩

def BeginUpload.row (request : BeginUpload) (uploadId : String) : SessionRow :=
  ⟨uploadId, request.ownerId, request.uploadKey, request.expectedDigest, request.expectedSizeBytes, request.mediaType,
    0, .opened, request.nowMs, request.nowMs, request.expiresAtMs, none, request.expectedSizeBytes⟩

variable {artifact : ArtifactIdentity} {kind : ArtifactReferenceKind} {referenceKey purpose : String} {counter : Nat}

theorem recordArtifact_wp :
    (recordArtifact ownerId referenceKey kind purpose artifact nowMs).wp db
      (fun _ db' => (∀ object, db.objects.find artifact.digest = some object → object.sizeBytes = artifact.sizeBytes) ∧
        db' = db.recordedArtifact ⟨ownerId, referenceKey, artifact.digest, kind, purpose, nowMs, none, none⟩
          artifact.sizeBytes)
      fun _ _ => True := by
  unfold recordArtifact
  simp only [wp_bind, wp_attempt, wp_write, wp_read]
  refine ⟨fun size hsize => ?_, fun _ _ => trivial⟩
  obtain ⟨rfl, -⟩ := toI64_eq hsize
  split
  · trivial
  · rename_i storedSize hstored
    simp only [wp_ite, wp_raise, wp_bind, wp_write, wp_attempt]
    split
    · trivial
    · rename_i hsame
      refine ⟨fun now hnow => ⟨fun object hobject => ?_, ?_⟩, fun _ _ => trivial⟩
      · have hfind : (db.objects.insertOrIgnore ⟨artifact.digest, artifact.sizeBytes⟩).find artifact.digest =
          some object := by
          rw [Table.insertOrIgnore_present hobject]
          exact hobject
        simp only [artifactSize, insertObject, hfind, Option.map_some, Option.some.injEq] at hstored
        omega
      · obtain ⟨rfl, -⟩ := toI64_eq hnow
        rfl

theorem recordCompletedArtifact_wp :
    (recordCompletedArtifact ownerId uploadId artifact nowMs).wp db
      (fun _ db' => (∀ object, db.objects.find artifact.digest = some object → object.sizeBytes = artifact.sizeBytes) ∧
        db' = db.recordedArtifact (completedReference ownerId uploadId artifact.digest nowMs) artifact.sizeBytes)
      fun _ _ => True := by
  unfold recordCompletedArtifact
  refine wp_bind.mpr (wp_mono recordArtifact_wp (fun _ db' h => ?_) fun _ _ h => h)
  simp only [wp_bind, wp_read]
  split
  · trivial
  · simp only [wp_ite, wp_raise, wp_pure]
    split
    · trivial
    · exact h

theorem validateBegin_ok {request : BeginUpload} {max : Nat} (h : validateBegin request max = .ok ()) :
    request.nowMs < request.expiresAtMs ∧ request.expectedSizeBytes ≤ max := by
  unfold validateBegin at h
  split at h
  · cases h
  · split at h
    · cases h
    · split at h
      · cases h
      · split at h
        · cases h
        · split at h
          · cases h
          · omega

/-- A new session: its reservation fits, and the object it is to upload is no longer to be collected. -/
structure Began (limits : StoreLimits) (request : BeginUpload) (db : UploadDatabase) (uploadId : String)
    (db' : UploadDatabase) : Prop where
  unused : db.sessions.find uploadId = none
  lasts : request.nowMs < request.expiresAtMs
  affords : db.Affords limits request.ownerId request.expectedSizeBytes request.nowMs
  tables : db' = insertSession (request.row uploadId) (deletePending request.expectedDigest db)

theorem insertUpload_wp {row : SessionRow} :
    (insertUpload row).wp db (fun _ db' => db.sessions.find row.uploadId = none ∧ db' = insertSession row db)
      fun _ _ => True := by
  unfold insertUpload
  simp only [wp_bind, wp_read, wp_ite, wp_raise, wp_write]
  split
  · trivial
  · rename_i hid
    split
    · trivial
    · exact ⟨by simpa using hid, trivial⟩

theorem nextUploadId_checks : Checks (nextUploadId counter) db fun _ => True := by
  unfold nextUploadId
  simp only [wp_bind, wp_read]
  split
  · exact ⟨rfl, trivial⟩
  · trivial

structure BeginUpload.Describes (request : BeginUpload) (row : SessionRow) : Prop where
  digest : row.expectedDigest = request.expectedDigest
  size : row.expectedSizeBytes = request.expectedSizeBytes
  mediaType : row.mediaType = request.mediaType

theorem begin_wp {request : BeginUpload} :
    (SqliteUploadStore.begin limits request counter).wp db
      (fun session db' =>
        (db' = db ∧ ∃ row, db.sessionByKey request.ownerId request.uploadKey = some row ∧ request.Describes row ∧
          session = row.session) ∨
        db.sessionByKey request.ownerId request.uploadKey = none ∧
          ∃ uploadId, Began limits request db uploadId db' ∧ session = (request.row uploadId).session)
      fun _ _ => True := by
  unfold SqliteUploadStore.begin
  simp only [wp_bind, wp_attempt, wp_read]
  refine ⟨fun _ hvalid => ?_, fun _ _ => trivial⟩
  obtain ⟨hlasts, -⟩ := validateBegin_ok hvalid
  split
  · rename_i row hkey
    simp only [wp_ite, wp_raise, wp_pure]
    split
    · trivial
    · rename_i hsame
      simp only [ne_eq, not_or, not_not] at hsame
      exact .inl ⟨trivial, row, hkey, ⟨hsame.1, hsame.2.1, hsame.2.2⟩, rfl⟩
  · rename_i hkey
    simp only [wp_bind, wp_attempt, wp_write, wp_read]
    refine wp_mono enforceQuotas_checks (fun _ db₁ h => ?_) fun _ _ h => h
    obtain ⟨rfl, haffords⟩ := h
    refine wp_mono nextUploadId_checks (fun uploadId db₂ h => ?_) fun _ _ h => h
    obtain ⟨rfl, -⟩ := h
    refine ⟨fun size hsize => ⟨fun now hnow => ⟨fun expires hexpires => ?_, fun _ _ => trivial⟩, fun _ _ => trivial⟩,
      fun _ _ => trivial⟩
    obtain ⟨rfl, -⟩ := toI64_eq hsize
    obtain ⟨rfl, -⟩ := toI64_eq hnow
    obtain ⟨rfl, -⟩ := toI64_eq hexpires
    refine wp_mono insertUpload_wp (fun _ db₃ h => ?_) fun _ _ h => h
    obtain ⟨hunused, rfl⟩ := h
    have hfind : (insertSession (request.row uploadId) (deletePending request.expectedDigest db₁)).sessions.find
        uploadId = some (request.row uploadId) := by
      have hh := Table.find_insertOrIgnore (t := db₁.sessions) (v := request.row uploadId)
      have hnone : db₁.sessions.find (request.row uploadId).uploadId = none := hunused
      rw [hnone] at hh
      exact hh
    split
    · trivial
    · rename_i row hrow
      have hsame : some row = some (request.row uploadId) := hrow.symm.trans hfind
      cases hsame
      exact .inr ⟨hkey, uploadId, ⟨hunused, hlasts, haffords, rfl⟩, rfl⟩

structure Found (db : UploadDatabase) (ownerId uploadId : String) (row : SessionRow) : Prop where
  stored : db.sessions.find uploadId = some row
  owned : row.ownerId = ownerId

structure Appends (limits : StoreLimits) (db : UploadDatabase) (ownerId uploadId : String) (offset length nowMs : Nat)
    (row : SessionRow) : Prop extends Found db ownerId uploadId row where
  opened : row.state = .opened
  lasts : nowMs < row.expiresAtMs
  reached : row.committedOffset = offset
  fits : saturatingAdd offset length ≤ row.expectedSizeBytes

theorem appendCheck_checks {offset : Nat} {bytes : List UInt8} :
    Checks (appendCheck limits ownerId uploadId offset bytes nowMs) db fun next =>
      next = saturatingAdd offset bytes.length ∧
        ∃ row, Appends limits db ownerId uploadId offset bytes.length nowMs row := by
  unfold appendCheck
  simp only [wp_ite, wp_raise]
  split
  · trivial
  · refine wp_bind.mpr (wp_mono findSession_checks (fun session db₁ h => ?_) fun _ _ h => h)
    obtain ⟨rfl, row, hrow, rfl⟩ := h
    simp only [wp_bind, wp_attempt, wp_ite, wp_raise, wp_pure]
    refine ⟨fun _ howner => ⟨fun _ hopen => ?_, fun _ _ => trivial⟩, fun _ _ => trivial⟩
    obtain ⟨hstate, hlasts⟩ := ensureOpen_ok hopen
    split
    · trivial
    · rename_i hoffset
      split
      · trivial
      · rename_i hfits
        refine ⟨fun _ _ => ⟨trivial, trivial, row, ⟨⟨hrow, authorize_ok howner⟩, hstate, hlasts, ?_, ?_⟩⟩,
          fun _ _ => trivial⟩
        · exact (not_not.mp hoffset).symm
        · exact Nat.le_of_not_lt fun hlt => hfits (.inl hlt)

theorem appendCommit_wp {next : Nat} :
    (appendCommit uploadId next nowMs).wp db
      (fun offset db' => offset = next ∧ next < 2 ^ 63 ∧
        db' = updateSession uploadId (committedRow next nowMs) db) fun _ _ => True := by
  unfold appendCommit
  simp only [wp_bind, wp_attempt, wp_write, wp_pure]
  refine ⟨fun offset hoffset => ⟨fun now hnow => ?_, fun _ _ => trivial⟩, fun _ _ => trivial⟩
  obtain ⟨rfl, hlt⟩ := toI64_eq hoffset
  obtain ⟨rfl, -⟩ := toI64_eq hnow
  exact ⟨trivial, hlt, rfl⟩

/-- A finalization finds its session completed, or claims it. -/
def Claims (db : UploadDatabase) (uploadId : String) (nowMs : Nat) (row : SessionRow) (db' : UploadDatabase) :
    ArtifactIdentity ⊕ UploadSession → Prop
  | .inl artifact => row.state = .completed ∧ row.session.artifact = some artifact ∧ db' = db
  | .inr session => session = row.session ∧ row.state.isPending = true ∧ nowMs < row.expiresAtMs ∧
      row.committedOffset = row.expectedSizeBytes ∧
      db' = updateSession uploadId (claimedRow nowMs) db

theorem finalizeClaim_wp :
    (finalizeClaim ownerId uploadId nowMs).wp db
      (fun found db' => ∃ row, Found db ownerId uploadId row ∧ Claims db uploadId nowMs row db' found)
      fun _ _ => True := by
  unfold finalizeClaim
  refine wp_bind.mpr (wp_mono findSession_checks (fun session db₁ h => ?_) fun _ _ h => h)
  obtain ⟨rfl, row, hrow, rfl⟩ := h
  simp only [wp_bind, wp_attempt, wp_ite, wp_raise]
  refine ⟨fun _ howner => ?_, fun _ _ => trivial⟩
  have hfound : Found db₁ ownerId uploadId row := ⟨hrow, authorize_ok howner⟩
  split
  · rename_i hcompleted
    split
    · exact ⟨row, hfound, hcompleted, ‹_›, rfl⟩
    · trivial
  · split
    · trivial
    · rename_i hpending
      split
      · trivial
      · rename_i hexpired
        split
        · trivial
        · rename_i hcomplete
          simp only [wp_write, wp_pure]
          refine ⟨fun now hnow => ⟨row, hfound, rfl, ?_, Nat.lt_of_not_le hexpired, not_not.mp hcomplete, ?_⟩,
            fun _ _ => trivial⟩
          · have hstate : row.session.state = row.state := rfl
            rw [hstate] at hpending
            cases h : row.state <;> simp_all [UploadState.isPending]
          · obtain ⟨rfl, -⟩ := toI64_eq hnow
            rfl

theorem finalizeRecord_wp : (finalizeRecord session artifact nowMs).wp db
      (fun _ db' => (∀ object, db.objects.find artifact.digest = some object → object.sizeBytes = artifact.sizeBytes) ∧
        db' = updateSession session.uploadId (completedRow artifact.digest nowMs)
          (db.recordedArtifact (completedReference session.ownerId session.uploadId artifact.digest nowMs)
            artifact.sizeBytes)) fun _ _ => True := by
  unfold finalizeRecord
  refine wp_bind.mpr (wp_mono recordCompletedArtifact_wp (fun _ db₁ h => ?_) fun _ _ h => h)
  obtain ⟨hsize, rfl⟩ := h
  simp only [wp_bind, wp_attempt, wp_write]
  refine ⟨fun now hnow => ⟨hsize, ?_⟩, fun _ _ => trivial⟩
  obtain ⟨rfl, -⟩ := toI64_eq hnow
  rfl

theorem markFailed_wp :
    (markFailed uploadId nowMs).wp db
      (fun _ db' => db' = updateSession uploadId (failedRow nowMs) db) fun _ _ => True := by
  unfold markFailed
  simp only [wp_bind, wp_attempt, wp_write]
  refine ⟨fun now hnow => ?_, fun _ _ => trivial⟩
  obtain ⟨rfl, -⟩ := toI64_eq hnow
  rfl

theorem recordLocalArtifact_wp :
    (recordLocalArtifact limits ownerId artifact nowMs).wp db
      (fun _ db' => (db.objects.find artifact.digest = none → db.Affords limits ownerId artifact.sizeBytes nowMs) ∧
        (∀ object, db.objects.find artifact.digest = some object → object.sizeBytes = artifact.sizeBytes) ∧
        db' = db.recordedArtifact (localReference ownerId artifact.digest nowMs) artifact.sizeBytes)
      fun _ _ => True := by
  unfold recordLocalArtifact
  simp only [wp_ite, wp_raise]
  split
  · trivial
  · simp only [wp_bind, wp_read]
    by_cases hobject : (db.artifactSize artifact.digest).isNone = true
    · rw [if_pos hobject]
      refine wp_bind.mpr (wp_mono enforceQuotas_checks (fun _ db₁ h => ?_) fun _ _ h => h)
      obtain ⟨rfl, haffords⟩ := h
      exact wp_mono recordArtifact_wp (fun _ db₂ h => ⟨fun _ => haffords, h⟩) fun _ _ h => h
    · rw [if_neg hobject]
      refine wp_mono recordArtifact_wp (fun _ db₂ h => ⟨fun hnone => ?_, h⟩) fun _ _ h => h
      simp [artifactSize, hnone] at hobject

/-- A new reference by a grant. The owner's row is added with its first reference to the digest. -/
structure Granted (limits : StoreLimits) (request : GrantArtifactReference) (db db' : UploadDatabase) : Prop where
  unused : db.references.find (request.ownerId, request.referenceKey) = none
  unmarked : db.garbageCollectionPending request.digest = false
  object : ∃ object, db.objects.find request.digest = some object ∧
    (db.hasActiveOwnerReference request.ownerId request.digest = true ∧ db' = insertReference request.reference db ∨
      db.hasActiveOwnerReference request.ownerId request.digest = false ∧
        db.AffordsOwner limits request.ownerId object.sizeBytes request.nowMs ∧
        db' = insertOwnerReference ⟨request.ownerId, request.digest, object.sizeBytes⟩
          (insertReference request.reference db))

theorem insertGrant_wp : (insertGrant limits request sizeBytes).wp db
      (fun _ db' =>
        db.hasActiveOwnerReference request.ownerId request.digest = true ∧ db' = insertReference request.reference db ∨
        db.hasActiveOwnerReference request.ownerId request.digest = false ∧
          db.AffordsOwner limits request.ownerId sizeBytes request.nowMs ∧
          db' = insertOwnerReference ⟨request.ownerId, request.digest, sizeBytes⟩
            (insertReference request.reference db))
      fun _ _ => True := by
  have hretained : ∀ {retained : Option Nat}, request.retainedUntilMs.mapM toI64 = .ok retained →
      retained = request.retainedUntilMs := by
    intro retained h
    cases hr : request.retainedUntilMs with
    | none =>
      rw [hr] at h
      cases h
      rfl
    | some until_ =>
      rw [hr] at h
      cases ht : toI64 until_ with
      | error e => simp [ht, Functor.map, Except.map] at h
      | ok stored =>
        obtain ⟨rfl, -⟩ := toI64_eq ht
        simpa [ht, bind, Except.bind, Functor.map, Except.map, eq_comm] using h
  unfold insertGrant
  simp only [wp_bind, wp_read]
  cases hactive : db.hasActiveOwnerReference request.ownerId request.digest with
  | true =>
    simp only [Bool.not_true, Bool.false_eq_true, if_false, wp_pure, wp_bind, wp_attempt, wp_write]
    refine ⟨fun now hnow => ⟨fun retained hr => ?_, fun _ _ => trivial⟩, fun _ _ => trivial⟩
    obtain ⟨rfl, -⟩ := toI64_eq hnow
    cases hretained hr
    exact .inl ⟨trivial, rfl⟩
  | false =>
    simp only [Bool.not_false, if_true, wp_bind, wp_attempt, wp_write, wp_ite, wp_raise]
    refine ⟨fun stored hstored => ⟨fun now hnow => ⟨fun reserved hreserved => ⟨fun _ hquota => ⟨fun now' hnow' =>
      ⟨fun retained hr => ⟨fun size hsize => ?_, ?_⟩, ?_⟩, ?_⟩, ?_⟩, ?_⟩, ?_⟩, ?_⟩
    · obtain ⟨rfl, -⟩ := toI64_eq hnow
      obtain ⟨rfl, -⟩ := toI64_eq hnow'
      obtain ⟨rfl, -⟩ := toI64_eq hsize
      cases hretained hr
      rw [queryBytes_eq hstored, queryBytes_eq hreserved] at hquota
      have hlimits := limits.quotas_lt
      have ho := saturatingAdd_le (enforceQuota_ok hquota) hlimits.2
      split
      · trivial
      · refine .inr ⟨trivial, ?_, rfl⟩
        unfold saturatingAdd at ho
        unfold AffordsOwner
        omega
    all_goals exact fun _ _ => trivial

theorem grantReference_wp : (grantReference limits request).wp db
      (fun _ db' => db' = db ∧ db.references.find (request.ownerId, request.referenceKey) ≠ none ∨
        Granted limits request db db') fun _ _ => True := by
  unfold grantReference
  simp only [wp_bind, wp_attempt, wp_read]
  refine ⟨fun _ _ => ?_, fun _ _ => trivial⟩
  split
  · rename_i hkey
    split
    · exact .inl ⟨rfl, by simp [hkey]⟩
    · trivial
  · rename_i hunused
    simp only [wp_ite, wp_raise]
    split
    · trivial
    · rename_i hunmarked
      split
      · trivial
      · rename_i sizeBytes hsize
        refine wp_bind.mpr (wp_mono insertGrant_wp (fun _ db₁ h => ?_) fun _ _ h => h)
        have hgranted : Granted limits request db db₁ := by
          obtain ⟨object, hobject, rfl⟩ := Option.map_eq_some_iff.mp hsize
          exact ⟨hunused, by simpa using hunmarked, object, hobject, h⟩
        simp only [wp_bind, wp_read]
        split
        · trivial
        · exact .inr hgranted

structure Revoked (ownerId referenceKey : String) (nowMs : Nat) (db : UploadDatabase) (row : ArtifactReference)
    (db' : UploadDatabase) : Prop where
  stored : db.references.find (ownerId, referenceKey) = some row
  active : row.revokedAtMs = none
  tables : (revoke ownerId referenceKey nowMs db).hasOtherActiveOwnerReference ownerId row.digest referenceKey = true ∧
      db' = revoke ownerId referenceKey nowMs db ∨
    (revoke ownerId referenceKey nowMs db).hasOtherActiveOwnerReference ownerId row.digest referenceKey = false ∧
      db' = deleteOwnerReference ownerId row.digest (revoke ownerId referenceKey nowMs db)

theorem revokeReference_wp :
    (revokeReference ownerId referenceKey nowMs).wp db
      (fun _ db' => db' = db ∨ ∃ row, Revoked ownerId referenceKey nowMs db row db') fun _ _ => True := by
  unfold revokeReference
  simp only [wp_bind, wp_attempt, wp_read]
  refine ⟨fun _ _ => ?_, fun _ _ => trivial⟩
  split
  · trivial
  · rename_i row hrow
    simp only [wp_ite, wp_pure]
    split
    · exact .inl trivial
    · rename_i hactive
      have hactive : row.revokedAtMs = none := by simpa using hactive
      simp only [wp_bind, wp_attempt, wp_write, wp_read]
      refine ⟨fun now hnow => ?_, fun _ _ => trivial⟩
      obtain ⟨rfl, -⟩ := toI64_eq hnow
      cases hother : (revoke ownerId referenceKey now db).hasOtherActiveOwnerReference ownerId row.digest
          referenceKey with
      | true =>
        simp only [Bool.not_true, Bool.false_eq_true, if_false, wp_bind, wp_read]
        split
        · trivial
        · exact .inr ⟨row, hrow, hactive, .inl ⟨hother, rfl⟩⟩
      | false =>
        simp only [Bool.not_false, if_true, wp_bind, wp_write, wp_read]
        split
        · trivial
        · exact .inr ⟨row, hrow, hactive, .inr ⟨hother, rfl⟩⟩

theorem stageGarbageCandidates_wp {limit : Nat} {selected : List ObjectRow} :
    (stageGarbageCandidates nowMs limit selected).wp db (fun _ db' => db' = { db with gcPending := db'.gcPending })
      fun _ _ => True := by
  unfold stageGarbageCandidates
  simp only [wp_bind, wp_attempt, wp_ite, wp_raise]
  refine ⟨fun now _ => ?_, fun _ _ => trivial⟩
  split
  · trivial
  · have hloop := wp_forEach (d := db) (R := fun d d' : UploadDatabase => d' = { d with gcPending := d'.gcPending })
      (g := fun object : ObjectRow => (write (insertPending ⟨object.digest, now⟩) : UploadTransaction Unit))
      (fun _ => rfl) (fun h h' => by rw [h', h]) (fun _ _ => rfl) selected
    exact wp_mono hloop (fun _ _ h => h) fun _ _ _ => trivial

end AlloyPort.Artifacts
