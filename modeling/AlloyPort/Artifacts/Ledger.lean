import Mathlib.Data.List.Sort
import AlloyPort.Identity
import AlloyPort.Library.Table
import AlloyPort.Library.Transaction

/-! Upload sessions, artifact references and quotas as the artifact store keeps them. A row is found
by its primary key; digests stand in the tables themselves, their text form being injective. -/

namespace AlloyPort.Artifacts

open Database

structure ArtifactIdentity where
  digest : Sha256Digest
  sizeBytes : Nat
  deriving DecidableEq

structure IngestRequest where
  expectedDigest : Option Sha256Digest
  expectedSizeBytes : Option Nat

inductive ArtifactStoreError where
  | io (operation : String)
  | sizeLimitExceeded (limitBytes observedAtLeastBytes : Nat)
  | sizeMismatch (expectedBytes actualBytes : Nat)
  | digestMismatch (expected actual : Sha256Digest)
  | integrityViolation (digest : Sha256Digest) (detail : String)
  deriving DecidableEq

structure BeginUpload where
  ownerId : String
  uploadKey : String
  expectedDigest : Sha256Digest
  expectedSizeBytes : Nat
  mediaType : String
  nowMs : Nat
  expiresAtMs : Nat

inductive UploadState where
  | opened
  | finalizing
  | completed
  | failed
  deriving DecidableEq

/-- The test `state IN (Open, Finalizing)` of the queries. -/
def UploadState.isPending : UploadState → Bool
  | .opened | .finalizing => true
  | _ => false

inductive QuotaScope where
  | total
  | owner
  deriving DecidableEq

inductive ArtifactReferenceKind where
  | upload
  | assignmentInput
  | assignmentOutput
  | receipt
  | retentionRoot
  | other
  deriving DecidableEq

structure GrantArtifactReference where
  ownerId : String
  referenceKey : String
  digest : Sha256Digest
  kind : ArtifactReferenceKind
  purpose : String
  nowMs : Nat
  retainedUntilMs : Option Nat

structure ArtifactReference where
  ownerId : String
  referenceKey : String
  digest : Sha256Digest
  kind : ArtifactReferenceKind
  purpose : String
  createdAtMs : Nat
  retainedUntilMs : Option Nat
  revokedAtMs : Option Nat
  deriving DecidableEq

structure GarbageCollectionReport where
  collectedObjects : Nat
  reclaimedBytes : Nat
  skippedActiveReaders : Nat
  deriving DecidableEq

structure UploadSession where
  uploadId : String
  ownerId : String
  uploadKey : String
  expectedDigest : Sha256Digest
  expectedSizeBytes : Nat
  mediaType : String
  committedOffset : Nat
  state : UploadState
  expiresAtMs : Nat
  artifact : Option ArtifactIdentity
  deriving DecidableEq

inductive UploadError where
  | storage (detail : String)
  | io (operation : String)
  | artifact (error : ArtifactStoreError)
  | notFound (id : String)
  | ownerMismatch
  | conflictingUploadKey
  | conflictingReferenceKey
  | referenceRevoked
  | garbageCollectionPending (digest : Sha256Digest)
  | invalidRequest (detail : String)
  | offsetConflict (expected received : Nat)
  | chunkTooLarge (limit received : Nat)
  | sizeLimitExceeded (limit attempted : Nat)
  | quotaExceeded (scope : QuotaScope) (limit used requested : Nat)
  | invalidState (state : UploadState)
  | expired
  | incomplete (expected committed : Nat)
  | corrupt (detail : String)
  deriving DecidableEq

structure UploadQuotas where
  totalBytes : Nat
  perOwnerBytes : Nat

def validateQuotas (quotas : UploadQuotas) : Except UploadError Unit :=
  if quotas.totalBytes = 0 ∨ quotas.perOwnerBytes = 0 then
    .error (.invalidRequest "artifact quota limits must be positive")
  else if 2 ^ 63 ≤ quotas.totalBytes ∨ 2 ^ 63 ≤ quotas.perOwnerBytes then
    .error (.invalidRequest "artifact quota limits exceed SQLite range")
  else if quotas.totalBytes < quotas.perOwnerBytes then
    .error (.invalidRequest "per-owner artifact quota exceeds total quota")
  else .ok ()

/-- The limits of an upload store and its object store, as `open_with_quotas` accepts them. -/
structure StoreLimits where
  maxUploadBytes : Nat
  maxChunkBytes : Nat
  quotas : UploadQuotas
  maxArtifactBytes : Nat
  chunkPositive : 0 < maxChunkBytes
  quotasValid : validateQuotas quotas = .ok ()

structure SessionRow where
  uploadId : String
  ownerId : String
  uploadKey : String
  expectedDigest : Sha256Digest
  expectedSizeBytes : Nat
  mediaType : String
  committedOffset : Nat
  state : UploadState
  createdAtMs : Nat
  updatedAtMs : Nat
  expiresAtMs : Nat
  artifactDigest : Option Sha256Digest
  quotaReservedBytes : Nat
  deriving DecidableEq

def SessionRow.session (row : SessionRow) : UploadSession where
  uploadId := row.uploadId
  ownerId := row.ownerId
  uploadKey := row.uploadKey
  expectedDigest := row.expectedDigest
  expectedSizeBytes := row.expectedSizeBytes
  mediaType := row.mediaType
  committedOffset := row.committedOffset
  state := row.state
  expiresAtMs := row.expiresAtMs
  artifact := row.artifactDigest.map fun digest => ⟨digest, row.expectedSizeBytes⟩

structure ObjectRow where
  digest : Sha256Digest
  sizeBytes : Nat
  deriving DecidableEq

structure OwnerReferenceRow where
  ownerId : String
  digest : Sha256Digest
  sizeBytes : Nat
  deriving DecidableEq

def OwnerReferenceRow.key (row : OwnerReferenceRow) : String × Sha256Digest := (row.ownerId, row.digest)

def ArtifactReference.key (row : ArtifactReference) : String × String := (row.ownerId, row.referenceKey)

structure PendingRow where
  digest : Sha256Digest
  markedAtMs : Nat
  deriving DecidableEq

structure UploadDatabase where
  sessions : Table SessionRow SessionRow.uploadId
  objects : Table ObjectRow ObjectRow.digest
  ownerReferences : Table OwnerReferenceRow OwnerReferenceRow.key
  references : Table ArtifactReference ArtifactReference.key
  gcPending : Table PendingRow PendingRow.digest
  deriving DecidableEq

def UploadDatabase.empty : UploadDatabase := ⟨.empty, .empty, .empty, .empty, .empty⟩

def toI64 (value : Nat) : Except UploadError Nat :=
  if value < 2 ^ 63 then .ok value else .error (.corrupt s!"value {value} exceeds SQLite range")

def saturatingAdd (a b : Nat) : Nat := min (a + b) (2 ^ 64 - 1)

open Transaction

abbrev UploadTransaction := Transaction UploadDatabase UploadError

namespace UploadDatabase

def sessionByKey (db : UploadDatabase) (ownerId uploadKey : String) : Option SessionRow :=
  db.sessions.rows.find? fun row => row.ownerId = ownerId ∧ row.uploadKey = uploadKey

def totalStoredBytes (db : UploadDatabase) : Nat := db.objects.sumWhere (fun _ => true) ObjectRow.sizeBytes

def totalReservedBytes (db : UploadDatabase) (nowMs : Nat) : Nat :=
  db.sessions.sumWhere (fun row => row.state.isPending ∧ nowMs < row.expiresAtMs) SessionRow.quotaReservedBytes

def ownerStoredBytes (db : UploadDatabase) (ownerId : String) : Nat :=
  db.ownerReferences.sumWhere (fun row => row.ownerId = ownerId) OwnerReferenceRow.sizeBytes

def ownerReservedBytes (db : UploadDatabase) (ownerId : String) (nowMs : Nat) : Nat :=
  db.sessions.sumWhere (fun row => row.ownerId = ownerId ∧ row.state.isPending ∧ nowMs < row.expiresAtMs)
    SessionRow.quotaReservedBytes

def artifactSize (db : UploadDatabase) (digest : Sha256Digest) : Option Nat :=
  (db.objects.find digest).map ObjectRow.sizeBytes

def ownsCompletedArtifact (db : UploadDatabase) (ownerId : String) (digest : Sha256Digest) : Bool :=
  (db.ownerReferences.find (ownerId, digest)).isSome

def canReadArtifact (db : UploadDatabase) (ownerId : String) (digest : Sha256Digest) : Bool :=
  db.ownsCompletedArtifact ownerId digest

def garbageCollectionPending (db : UploadDatabase) (digest : Sha256Digest) : Bool := (db.gcPending.find digest).isSome

def hasActiveOwnerReference (db : UploadDatabase) (ownerId : String) (digest : Sha256Digest) : Bool :=
  db.references.rows.any fun row => row.ownerId = ownerId ∧ row.digest = digest ∧ row.revokedAtMs = none

def hasOtherActiveOwnerReference (db : UploadDatabase) (ownerId : String) (digest : Sha256Digest)
    (excludedKey : String) : Bool :=
  db.references.rows.any fun row =>
    row.ownerId = ownerId ∧ row.digest = digest ∧ row.referenceKey ≠ excludedKey ∧ row.revokedAtMs = none

def artifactIsReachable (db : UploadDatabase) (digest : Sha256Digest) (nowMs : Nat) : Bool :=
  (db.references.rows.any fun row =>
      row.digest = digest ∧ (row.revokedAtMs = none ∨ ∃ until_ ∈ row.retainedUntilMs, nowMs < until_)) ||
    db.sessions.rows.any fun row => row.expectedDigest = digest ∧ row.state.isPending ∧ nowMs < row.expiresAtMs

/-- The `WHERE` of the statement that marks the candidates for collection. -/
def isGarbageCandidate (db : UploadDatabase) (nowMs : Nat) (object : ObjectRow) : Bool :=
  !(db.references.rows.any fun row => row.digest = object.digest ∧ row.revokedAtMs = none) &&
  !(db.references.rows.any fun row => row.digest = object.digest ∧ ∃ until_ ∈ row.retainedUntilMs, nowMs < until_) &&
  !(db.sessions.rows.any fun row => row.expectedDigest = object.digest ∧ row.state.isPending ∧ nowMs < row.expiresAtMs)

/-- Rows that `SELECT … LIMIT` may return: it picks as many candidates as it can, in no given order. -/
def isSelection (db : UploadDatabase) (nowMs limit : Nat) (selected : List ObjectRow) : Bool :=
  selected.Nodup ∧ (∀ object ∈ selected, object ∈ db.objects.rows ∧ db.isGarbageCandidate nowMs object) ∧
    selected.length = min limit (db.objects.rows.filter (db.isGarbageCandidate nowMs)).length

def pendingGarbage (db : UploadDatabase) (limit : Nat) : List (Sha256Digest × Nat) :=
  let ordered := db.gcPending.rows.insertionSort fun a b =>
    a.markedAtMs < b.markedAtMs ∨ a.markedAtMs = b.markedAtMs ∧ toString a.digest ≤ toString b.digest
  (ordered.filterMap fun row => (db.objects.find row.digest).map fun object =>
    (row.digest, object.sizeBytes)).take limit

def updateSession (uploadId : String) (update : RowUpdate SessionRow.uploadId) (db : UploadDatabase) : UploadDatabase :=
  { db with sessions := db.sessions.update uploadId update }

def committedRow (offset nowMs : Nat) : RowUpdate SessionRow.uploadId where
  apply row := { row with committedOffset := offset, updatedAtMs := nowMs }
  keeps _ := rfl

def claimedRow (nowMs : Nat) : RowUpdate SessionRow.uploadId where
  apply row := { row with state := .finalizing, updatedAtMs := nowMs }
  keeps _ := rfl

def completedRow (digest : Sha256Digest) (nowMs : Nat) : RowUpdate SessionRow.uploadId where
  apply row :=
    { row with state := .completed, artifactDigest := some digest, updatedAtMs := nowMs, quotaReservedBytes := 0 }
  keeps _ := rfl

def failedRow (nowMs : Nat) : RowUpdate SessionRow.uploadId where
  apply row := { row with state := .failed, updatedAtMs := nowMs, quotaReservedBytes := 0 }
  keeps _ := rfl

def insertSession (row : SessionRow) (db : UploadDatabase) : UploadDatabase :=
  { db with sessions := db.sessions.insertOrIgnore row }

def insertObject (row : ObjectRow) (db : UploadDatabase) : UploadDatabase :=
  { db with objects := db.objects.insertOrIgnore row }

def insertReference (row : ArtifactReference) (db : UploadDatabase) : UploadDatabase :=
  { db with references := db.references.insertOrIgnore row }

def insertOwnerReference (row : OwnerReferenceRow) (db : UploadDatabase) : UploadDatabase :=
  { db with ownerReferences := db.ownerReferences.insertOrIgnore row }

def insertPending (row : PendingRow) (db : UploadDatabase) : UploadDatabase :=
  { db with gcPending := db.gcPending.insertOrIgnore row }

def deletePending (digest : Sha256Digest) (db : UploadDatabase) : UploadDatabase :=
  { db with gcPending := db.gcPending.deleteWhere fun row => row.digest = digest }

def deleteOwnerReference (ownerId : String) (digest : Sha256Digest) (db : UploadDatabase) : UploadDatabase :=
  { db with ownerReferences := db.ownerReferences.deleteWhere fun row => row.ownerId = ownerId ∧ row.digest = digest }

def deleteArtifact (digest : Sha256Digest) (db : UploadDatabase) : UploadDatabase :=
  { db with
    ownerReferences := db.ownerReferences.deleteWhere fun row => row.digest = digest
    objects := db.objects.deleteWhere fun row => row.digest = digest
    gcPending := db.gcPending.deleteWhere fun row => row.digest = digest }

def revokedRow (revokedAtMs : Nat) : RowUpdate ArtifactReference.key where
  apply row := { row with revokedAtMs := some revokedAtMs }
  keeps _ := rfl

def revoke (ownerId referenceKey : String) (revokedAtMs : Nat) (db : UploadDatabase) : UploadDatabase :=
  { db with references := db.references.update (ownerId, referenceKey) (revokedRow revokedAtMs) }

def deleteExpired (nowMs : Nat) (db : UploadDatabase) : UploadDatabase :=
  { db with sessions := db.sessions.deleteWhere fun row => row.state ≠ .completed ∧ row.expiresAtMs ≤ nowMs }

end UploadDatabase

open UploadDatabase

/-- `query_bytes`: SQLite refuses a sum beyond its integers. -/
def queryBytes (sum : Nat) : Except UploadError Nat :=
  if sum < 2 ^ 63 then .ok sum else .error (.storage "integer overflow")

def enforceQuota (scope : QuotaScope) (limit used requested : Nat) : Except UploadError Unit :=
  if limit < saturatingAdd used requested then .error (.quotaExceeded scope limit used requested) else .ok ()

/-- The two ceilings, which `reserve_quota` and `enforce_local_artifact_quota` check alike. -/
def enforceQuotas (quotas : UploadQuotas) (ownerId : String) (sizeBytes nowMs : Nat) : UploadTransaction Unit := do
  let db ← read
  let totalStored ← attempt (queryBytes db.totalStoredBytes)
  let now ← attempt (toI64 nowMs)
  let totalReserved ← attempt (queryBytes (db.totalReservedBytes now))
  attempt (enforceQuota .total quotas.totalBytes (saturatingAdd totalStored totalReserved) sizeBytes)
  let ownerStored ← attempt (queryBytes (db.ownerStoredBytes ownerId))
  let ownerReserved ← attempt (queryBytes (db.ownerReservedBytes ownerId now))
  attempt (enforceQuota .owner quotas.perOwnerBytes (saturatingAdd ownerStored ownerReserved) sizeBytes)

def reserveQuota (request : BeginUpload) (quotas : UploadQuotas) : UploadTransaction Unit :=
  enforceQuotas quotas request.ownerId request.expectedSizeBytes request.nowMs

def enforceLocalArtifactQuota (ownerId : String) (sizeBytes : Nat) (quotas : UploadQuotas) (nowMs : Nat) :
    UploadTransaction Unit :=
  enforceQuotas quotas ownerId sizeBytes nowMs

def validateBegin (request : BeginUpload) (max : Nat) : Except UploadError Unit :=
  if isBlank request.ownerId then .error (.invalidRequest "owner is missing")
  else if isBlank request.uploadKey then .error (.invalidRequest "upload key is missing")
  else if isBlank request.mediaType then .error (.invalidRequest "media type is missing")
  else if request.expiresAtMs ≤ request.nowMs then .error (.invalidRequest "expiry must be in the future")
  else if max < request.expectedSizeBytes then .error (.sizeLimitExceeded max request.expectedSizeBytes)
  else .ok ()

def uploadIdOf (counter : Nat) : String := s!"upload-{counter % 2 ^ 64}"

def nextUploadId (counter : Nat) : UploadTransaction String := do
  let db ← read
  match ((List.range 32).map fun i => uploadIdOf (counter + i)).find? fun id => (db.sessions.find id).isNone with
  | some id => return id
  | none => raise (.corrupt "unable to allocate upload ID")

def insertUpload (row : SessionRow) : UploadTransaction Unit := do
  let db ← read
  if (db.sessions.find row.uploadId).isSome then raise (.storage "UNIQUE constraint failed: upload_sessions.upload_id")
  else if (db.sessionByKey row.ownerId row.uploadKey).isSome then
    raise (.storage "UNIQUE constraint failed: upload_sessions.owner_id, upload_sessions.upload_key")
  else write (insertSession row)

def authorize (session : UploadSession) (ownerId : String) : Except UploadError Unit :=
  if session.ownerId = ownerId then .ok () else .error .ownerMismatch

def ensureOpen (session : UploadSession) (nowMs : Nat) : Except UploadError Unit :=
  if session.state ≠ .opened then .error (.invalidState session.state)
  else if session.expiresAtMs ≤ nowMs then .error .expired
  else .ok ()

def findSession (uploadId : String) : UploadTransaction UploadSession := do
  let db ← read
  match db.sessions.find uploadId with
  | none => raise (.notFound uploadId)
  | some row => return row.session

/-- The file name of the upload data below `upload_root`. -/
def dataPath (uploadId : String) : Except UploadError String :=
  if uploadId.toList.isEmpty || !uploadId.toList.all fun c => c.isAlphanum || c == '-' then
    .error (.corrupt "unsafe upload ID")
  else .ok uploadId

def validateReferenceIdentity (ownerId referenceKey : String) : Except UploadError Unit :=
  if isBlank ownerId then .error (.invalidRequest "reference owner is missing")
  else if isBlank referenceKey then .error (.invalidRequest "reference key is missing")
  else .ok ()

def validateReferenceGrant (request : GrantArtifactReference) : Except UploadError Unit := do
  validateReferenceIdentity request.ownerId request.referenceKey
  if request.kind = .upload then throw (.invalidRequest "upload references are created only by finalization")
  else if isBlank request.purpose then throw (.invalidRequest "reference purpose is missing")
  else if ∃ until_ ∈ request.retainedUntilMs, until_ ≤ request.nowMs then
    throw (.invalidRequest "reference retention must end in the future")
  else return ()

def referenceMatchesGrant (reference : ArtifactReference) (request : GrantArtifactReference) : Bool :=
  reference.digest = request.digest ∧ reference.kind = request.kind ∧ reference.purpose = request.purpose ∧
    reference.retainedUntilMs = request.retainedUntilMs ∧ reference.revokedAtMs = none

/-- What `record_local_artifact` and `record_completed_artifact` share: the object's row, the end of its
collection, a reference under a key of the caller's and the owner's row. -/
def recordArtifact (ownerId referenceKey : String) (kind : ArtifactReferenceKind) (purpose : String)
    (artifact : ArtifactIdentity) (nowMs : Nat) : UploadTransaction Unit := do
  let size ← attempt (toI64 artifact.sizeBytes)
  write (insertObject ⟨artifact.digest, size⟩)
  let db ← read
  match db.artifactSize artifact.digest with
  | none => raise (.storage "Query returned no rows")
  | some storedSize =>
    if storedSize ≠ size then raise (.corrupt s!"artifact {artifact.digest} has conflicting recorded sizes")
    else do
      write (deletePending artifact.digest)
      let now ← attempt (toI64 nowMs)
      write (insertReference ⟨ownerId, referenceKey, artifact.digest, kind, purpose, now, none, none⟩)
      write (insertOwnerReference ⟨ownerId, artifact.digest, size⟩)

def localReferenceKey (digest : Sha256Digest) : String := s!"controller:{digest}"

def uploadReferenceKey (uploadId : String) : String := s!"upload:{uploadId}"

def recordLocalArtifactRow (ownerId : String) (artifact : ArtifactIdentity) (nowMs : Nat) : UploadTransaction Unit :=
  recordArtifact ownerId (localReferenceKey artifact.digest) .retentionRoot "controller artifact" artifact nowMs

def recordCompletedArtifact (ownerId uploadId : String) (artifact : ArtifactIdentity) (nowMs : Nat) :
    UploadTransaction Unit := do
  recordArtifact ownerId (uploadReferenceKey uploadId) .upload "completed upload" artifact nowMs
  let db ← read
  match db.ownerReferences.find (ownerId, artifact.digest) with
  | none => raise (.storage "Query returned no rows")
  | some row =>
    if row.sizeBytes ≠ artifact.sizeBytes then
      raise (.corrupt s!"owner {ownerId} has a conflicting size for artifact {artifact.digest}")
    else return ()

namespace SqliteUploadStore

def begin (limits : StoreLimits) (request : BeginUpload) (counter : Nat) : UploadTransaction UploadSession := do
  attempt (validateBegin request limits.maxUploadBytes)
  let db ← read
  match db.sessionByKey request.ownerId request.uploadKey with
  | some existing =>
    if existing.expectedDigest ≠ request.expectedDigest ∨ existing.expectedSizeBytes ≠ request.expectedSizeBytes ∨
        existing.mediaType ≠ request.mediaType then
      raise .conflictingUploadKey
    else return existing.session
  | none => do
    reserveQuota request limits.quotas
    write (deletePending request.expectedDigest)
    let uploadId ← nextUploadId counter
    let size ← attempt (toI64 request.expectedSizeBytes)
    let now ← attempt (toI64 request.nowMs)
    let expires ← attempt (toI64 request.expiresAtMs)
    insertUpload ⟨uploadId, request.ownerId, request.uploadKey, request.expectedDigest, size, request.mediaType, 0,
      .opened, now, now, expires, none, size⟩
    let db ← read
    match db.sessions.find uploadId with
    | none => raise (.corrupt "inserted upload disappeared")
    | some row => return row.session

def status (ownerId uploadId : String) : UploadTransaction UploadSession := do
  let session ← findSession uploadId
  attempt (authorize session ownerId)
  return session

/-- What `append` checks before it touches the upload data, and the offset it is to commit. -/
def appendCheck (limits : StoreLimits) (ownerId uploadId : String) (offset : Nat) (bytes : List UInt8) (nowMs : Nat) :
    UploadTransaction Nat := do
  if limits.maxChunkBytes < bytes.length then raise (.chunkTooLarge limits.maxChunkBytes bytes.length)
  else do
    let session ← findSession uploadId
    attempt (authorize session ownerId)
    attempt (ensureOpen session nowMs)
    if offset ≠ session.committedOffset then raise (.offsetConflict session.committedOffset offset)
    else
      let next := saturatingAdd offset bytes.length
      if session.expectedSizeBytes < next ∨ limits.maxUploadBytes < next then
        raise (.sizeLimitExceeded (min session.expectedSizeBytes limits.maxUploadBytes) next)
      else do
        let _ ← attempt (dataPath uploadId)
        return next

def appendCommit (uploadId : String) (next nowMs : Nat) : UploadTransaction Nat := do
  let offset ← attempt (toI64 next)
  let now ← attempt (toI64 nowMs)
  write (updateSession uploadId (committedRow offset now))
  return next

/-- The first transaction of `finalize`: the artifact of a completed session, or the session claimed. -/
def finalizeClaim (ownerId uploadId : String) (nowMs : Nat) : UploadTransaction (ArtifactIdentity ⊕ UploadSession) := do
  let session ← findSession uploadId
  attempt (authorize session ownerId)
  if session.state = .completed then
    match session.artifact with
    | some artifact => return .inl artifact
    | none => raise (.corrupt "completed upload lacks artifact")
  else if session.state ≠ .opened ∧ session.state ≠ .finalizing then raise (.invalidState session.state)
  else if session.expiresAtMs ≤ nowMs then raise .expired
  else if session.committedOffset ≠ session.expectedSizeBytes then
    raise (.incomplete session.expectedSizeBytes session.committedOffset)
  else do
    let now ← attempt (toI64 nowMs)
    write (updateSession uploadId (claimedRow now))
    return .inr session

/-- The last transaction of `finalize`. -/
def finalizeRecord (session : UploadSession) (artifact : ArtifactIdentity) (nowMs : Nat) : UploadTransaction Unit := do
  recordCompletedArtifact session.ownerId session.uploadId artifact nowMs
  let now ← attempt (toI64 nowMs)
  write (updateSession session.uploadId (completedRow artifact.digest now))

def markFailed (uploadId : String) (nowMs : Nat) : UploadTransaction Unit := do
  let now ← attempt (toI64 nowMs)
  write (updateSession uploadId (failedRow now))

def expiredUploads (nowMs : Nat) : UploadTransaction (List String) := do
  let now ← attempt (toI64 nowMs)
  let db ← read
  return (db.sessions.rows.filter fun row => row.state ≠ .completed ∧ row.expiresAtMs ≤ now).map SessionRow.uploadId

def recordLocalArtifact (limits : StoreLimits) (ownerId : String) (artifact : ArtifactIdentity) (nowMs : Nat) :
    UploadTransaction Unit := do
  if isBlank ownerId then raise (.corrupt "local artifact owner is empty")
  else do
    let db ← read
    if (db.artifactSize artifact.digest).isNone then
      enforceLocalArtifactQuota ownerId artifact.sizeBytes limits.quotas nowMs
    recordLocalArtifactRow ownerId artifact nowMs

/-- The new reference of a grant, and the owner's row when it is the first for that digest. -/
def insertGrant (limits : StoreLimits) (request : GrantArtifactReference) (sizeBytes : Nat) :
    UploadTransaction Unit := do
  let db ← read
  let createsOwnerUsage := !db.hasActiveOwnerReference request.ownerId request.digest
  if createsOwnerUsage then do
    let stored ← attempt (queryBytes (db.ownerStoredBytes request.ownerId))
    let now ← attempt (toI64 request.nowMs)
    let reserved ← attempt (queryBytes (db.ownerReservedBytes request.ownerId now))
    attempt (enforceQuota .owner limits.quotas.perOwnerBytes (saturatingAdd stored reserved) sizeBytes)
  let now ← attempt (toI64 request.nowMs)
  let retained ← attempt (request.retainedUntilMs.mapM toI64)
  write (insertReference ⟨request.ownerId, request.referenceKey, request.digest, request.kind, request.purpose, now,
    retained, none⟩)
  if createsOwnerUsage then do
    let size ← attempt (toI64 sizeBytes)
    if db.ownsCompletedArtifact request.ownerId request.digest then
      raise (.storage
        "UNIQUE constraint failed: artifact_owner_references.owner_id, artifact_owner_references.digest")
    else write (insertOwnerReference ⟨request.ownerId, request.digest, size⟩)

def grantReference (limits : StoreLimits) (request : GrantArtifactReference) : UploadTransaction ArtifactReference := do
  attempt (validateReferenceGrant request)
  let db ← read
  match db.references.find (request.ownerId, request.referenceKey) with
  | some existing =>
    if referenceMatchesGrant existing request then return existing
    else raise (if existing.revokedAtMs.isSome then .referenceRevoked else .conflictingReferenceKey)
  | none =>
    if db.garbageCollectionPending request.digest then raise (.garbageCollectionPending request.digest)
    else match db.artifactSize request.digest with
    | none => raise (.notFound (toString request.digest))
    | some sizeBytes => do
      insertGrant limits request sizeBytes
      let db ← read
      match db.references.find (request.ownerId, request.referenceKey) with
      | none => raise (.corrupt "inserted artifact reference disappeared")
      | some reference => return reference

def revokeReference (ownerId referenceKey : String) (nowMs : Nat) : UploadTransaction ArtifactReference := do
  attempt (validateReferenceIdentity ownerId referenceKey)
  let db ← read
  match db.references.find (ownerId, referenceKey) with
  | none => raise (.notFound referenceKey)
  | some reference =>
    if reference.revokedAtMs.isSome then return reference
    else do
      let now ← attempt (toI64 nowMs)
      write (revoke ownerId referenceKey now)
      let db ← read
      if !db.hasOtherActiveOwnerReference ownerId reference.digest referenceKey then
        write (deleteOwnerReference ownerId reference.digest)
      let db ← read
      match db.references.find (ownerId, referenceKey) with
      | none => raise (.corrupt "revoked artifact reference disappeared")
      | some revoked => return revoked

def stageGarbageCandidates (nowMs limit : Nat) (selected : List ObjectRow) : UploadTransaction Unit := do
  let now ← attempt (toI64 nowMs)
  if 2 ^ 63 ≤ limit then raise (.invalidRequest "garbage collection limit is too large")
  else forEach (fun object => write (insertPending ⟨object.digest, now⟩)) selected

end SqliteUploadStore

end AlloyPort.Artifacts
