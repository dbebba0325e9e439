import AlloyPort.Library.Machine
import AlloyPort.Artifacts.Ledger

/-! The upload store with its files. The artifact guard is held across the steps of one finalization or
collection; a crash may fall between any two of them. A collection also holds the database and the
reader counts, while an append holds only the database. -/

namespace AlloyPort.Artifacts

open Database Transaction UploadDatabase SqliteUploadStore

abbrev Objects := Sha256Digest → Option (List UInt8)

def writeStaged (maxArtifactBytes : Nat) (staged : List UInt8) :
    List (List UInt8) → Except ArtifactStoreError (List UInt8)
  | [] => .ok staged
  | bytes :: rest =>
    let nextSize := saturatingAdd staged.length bytes.length
    if maxArtifactBytes < nextSize then .error (.sizeLimitExceeded maxArtifactBytes nextSize)
    else writeStaged maxArtifactBytes (staged ++ bytes) rest

def validateRequest (identity : ArtifactIdentity) (request : IngestRequest) : Except ArtifactStoreError Unit :=
  match request.expectedSizeBytes.filter (· ≠ identity.sizeBytes) with
  | some expected => .error (.sizeMismatch expected identity.sizeBytes)
  | none => match request.expectedDigest.filter (· ≠ identity.digest) with
    | some expected => .error (.digestMismatch expected identity.digest)
    | none => .ok ()

section publication

variable [Sha256]

/-- Links the staged bytes under their digest, unless an object is there already. -/
def publish (objects : Objects) (staged : List UInt8) (identity : ArtifactIdentity) :
    Except ArtifactStoreError Objects :=
  match objects identity.digest with
  | none => .ok (Function.update objects identity.digest (some staged))
  | some stored =>
    if Sha256.digestBytes stored = identity.digest then .ok objects
    else .error (.integrityViolation identity.digest "stored bytes do not match their content-addressed path")

def ingest (maxArtifactBytes : Nat) (objects : Objects) (reads : List (List UInt8)) (request : IngestRequest) :
    Except ArtifactStoreError (ArtifactIdentity × Objects) :=
  match request.expectedSizeBytes.filter (maxArtifactBytes < ·) with
  | some size => .error (.sizeLimitExceeded maxArtifactBytes size)
  | none => do
    let staged ← writeStaged maxArtifactBytes [] reads
    let identity : ArtifactIdentity := ⟨Sha256.digestBytes staged, staged.length⟩
    validateRequest identity request
    let objects ← publish objects staged identity
    return (identity, objects)

def openArtifact (objects : Objects) (digest : Sha256Digest) : Except ArtifactStoreError ArtifactIdentity :=
  match objects digest with
  | none => .error (.io "open artifact")
  | some bytes =>
    if Sha256.digestBytes bytes = digest then .ok ⟨digest, bytes.length⟩
    else .error (.integrityViolation digest "stored bytes do not match their content-addressed path")

end publication

def isTerminalArtifactError : ArtifactStoreError → Bool
  | .sizeLimitExceeded .. | .sizeMismatch .. | .digestMismatch .. | .integrityViolation .. => true
  | .io _ => false

inductive WriteFate where
  | whole
  | torn (tail : List UInt8) (error : UploadError)
  | refused (error : UploadError)

/-- What `append_file` leaves in the file. The bytes before the committed offset were synced when it
was committed, so a torn write loses at most what follows them. -/
def appendFile (file : Option (List UInt8)) (committed : Nat) (bytes : List UInt8) (fate : WriteFate) :
    Option (List UInt8) × Except UploadError Unit :=
  match fate with
  | .refused error => (file, .error error)
  | fate =>
    let data := file.getD []
    if data.length < committed then
      (some data,
        .error (.corrupt s!"upload data length {data.length} is behind committed offset {committed}"))
    else match fate with
    | .torn tail error => (some (data.take committed ++ tail), .error error)
    | _ => (some (data.take committed ++ bytes), .ok ())

inductive GuardHolder where
  | free
  | claimed (session : UploadSession) (nowMs : Nat)
  | ingested (session : UploadSession) (nowMs : Nat) (artifact : ArtifactIdentity)
  | refused (session : UploadSession) (nowMs : Nat) (error : ArtifactStoreError)
  | recorded (session : UploadSession) (artifact : ArtifactIdentity)
  | collecting (nowMs : Nat) (candidates : List (Sha256Digest × Nat)) (report : GarbageCollectionReport)
  | removed (nowMs : Nat) (digest : Sha256Digest) (sizeBytes : Nat) (candidates : List (Sha256Digest × Nat))
      (report : GarbageCollectionReport)
  deriving DecidableEq

def GuardHolder.isCollecting : GuardHolder → Bool
  | .collecting .. | .removed .. => true
  | _ => false

structure StoreState where
  ledger : UploadDatabase
  data : String → Option (List UInt8)
  objects : Objects
  readers : Sha256Digest → Nat
  holder : GuardHolder

def StoreState.initial : StoreState := ⟨.empty, fun _ => none, fun _ => none, fun _ => 0, .free⟩

/-- One step of an operation, or of the world around it. A choice that the code leaves to the database,
the clock or the file system is part of the action. -/
inductive StoreAction where
  | begin (request : BeginUpload) (counter : Nat)
  | append (ownerId uploadId : String) (offset : Nat) (bytes : List UInt8) (nowMs : Nat) (fate : WriteFate)
  | finalize (ownerId uploadId : String) (nowMs : Nat)
  | ingestUpload (reads : List (List UInt8))
  | recordUpload
  | removeUploadData
  | failUpload
  | pruneExpired (nowMs : Nat) (interrupted : Option (List String))
  | ingestLocal (reads : List (List UInt8)) (request : IngestRequest)
  | recordLocal (ownerId : String) (artifact : ArtifactIdentity) (nowMs : Nat)
  | grant (request : GrantArtifactReference)
  | revoke (ownerId referenceKey : String) (nowMs : Nat)
  | openReader (ownerId : String) (digest : Sha256Digest)
  | closeReader (digest : Sha256Digest)
  | collect (nowMs limit : Nat) (selected : List ObjectRow)
  | examineCandidate
  | deleteRows
  | giveUp (error : UploadError)
  | crash

inductive StoreReply where
  | working
  | began (session : UploadSession)
  | appended (offset : Nat)
  | finalized (ownerId : String) (artifact : ArtifactIdentity)
  | pruned (count : Nat)
  | ingested (artifact : ArtifactIdentity)
  | recorded
  | referenced (reference : ArtifactReference)
  | opened (identity : ArtifactIdentity)
  | closed
  | collected (report : GarbageCollectionReport)
  | restarted
  | failed (error : UploadError)
  deriving DecidableEq

namespace StoreState

def commit {α : Type} (s : StoreState) (t : UploadTransaction α) (reply : α → StoreReply) : StoreState × StoreReply :=
  match t.run s.ledger with
  | (ledger, .ok a) => ({ s with ledger }, reply a)
  | (_, .error e) => (s, .failed e)

def append (limits : StoreLimits) (s : StoreState) (ownerId uploadId : String) (offset : Nat) (bytes : List UInt8)
    (nowMs : Nat) (fate : WriteFate) : StoreState × StoreReply :=
  match ((appendCheck limits ownerId uploadId offset bytes nowMs).run s.ledger).2 with
  | .error e => (s, .failed e)
  | .ok next =>
    let (file, written) := appendFile (s.data uploadId) offset bytes fate
    let s := { s with data := Function.update s.data uploadId file }
    match written with
    | .error e => (s, .failed e)
    | .ok () => s.commit (appendCommit uploadId next nowMs) .appended

def finalize (s : StoreState) (ownerId uploadId : String) (nowMs : Nat) : StoreState × StoreReply :=
  match (finalizeClaim ownerId uploadId nowMs).run s.ledger with
  | (_, .error e) => (s, .failed e)
  | (_, .ok (.inl artifact)) => (s, .finalized ownerId artifact)
  | (ledger, .ok (.inr session)) =>
    match dataPath uploadId with
    | .error e => ({ s with ledger }, .failed e)
    | .ok _ => ({ s with ledger, holder := .claimed session nowMs }, .working)

/-- The bytes that a finalization hands to the object store; an empty upload need not have a file. -/
def uploadSource (s : StoreState) (session : UploadSession) : Option (List UInt8) :=
  match s.data session.uploadId with
  | some bytes => some bytes
  | none => if session.expectedSizeBytes = 0 then some [] else none

def prune (s : StoreState) (nowMs : Nat) (interrupted : Option (List String)) : Option (StoreState × StoreReply) :=
  match ((expiredUploads nowMs).run s.ledger).2 with
  | .error e => some (s, .failed e)
  | .ok ids => match interrupted with
    | none =>
      some ({ s with
        ledger := s.ledger.deleteExpired nowMs
        data := fun id => if id ∈ ids then none else s.data id }, .pruned ids.length)
    | some removed =>
      if removed ⊆ ids then
        some ({ s with data := fun id => if id ∈ removed then none else s.data id },
          .failed (.io "remove upload data"))
      else none

def collect (s : StoreState) (nowMs limit : Nat) (selected : List ObjectRow) : Option (StoreState × StoreReply) :=
  if limit = 0 then some (s, .failed (.invalidRequest "garbage collection limit must be positive"))
  else match (stageGarbageCandidates nowMs limit selected).run s.ledger with
  | (_, .error e) => some (s, .failed e)
  | (ledger, .ok ()) =>
    if s.ledger.isSelection nowMs limit selected then
      some ({ s with ledger, holder := .collecting nowMs (ledger.pendingGarbage limit) ⟨0, 0, 0⟩ }, .working)
    else none

/-- One pass of the loop of `collect_garbage`, up to the removal of the object. -/
def examine (s : StoreState) (nowMs : Nat) (report : GarbageCollectionReport) :
    List (Sha256Digest × Nat) → StoreState × StoreReply
  | [] => ({ s with holder := .free }, .collected report)
  | (digest, sizeBytes) :: rest =>
    if s.readers digest ≠ 0 then
      ({ s with
        ledger := s.ledger.deletePending digest
        holder := .collecting nowMs rest
          { report with skippedActiveReaders := saturatingAdd report.skippedActiveReaders 1 } }, .working)
    else if s.ledger.artifactIsReachable digest nowMs then
      ({ s with ledger := s.ledger.deletePending digest, holder := .collecting nowMs rest report }, .working)
    else
      ({ s with
        objects := Function.update s.objects digest none
        holder := .removed nowMs digest sizeBytes rest report }, .working)

/-- The process dies and the store is opened again, which removes the data of completed uploads. -/
def crash (s : StoreState) : StoreState :=
  { s with
    data := fun id => if (s.ledger.sessions.find id).any (·.state = .completed) then none else s.data id
    readers := fun _ => 0
    holder := .free }

variable [Sha256]

def openReader (s : StoreState) (ownerId : String) (digest : Sha256Digest) : StoreState × StoreReply :=
  if !s.ledger.canReadArtifact ownerId digest then (s, .failed .ownerMismatch)
  else match openArtifact s.objects digest with
  | .error e => (s, .failed (.artifact e))
  | .ok identity =>
    ({ s with readers := Function.update s.readers digest (saturatingAdd (s.readers digest) 1) }, .opened identity)

def ingestUpload (limits : StoreLimits) (s : StoreState) (session : UploadSession) (nowMs : Nat)
    (reads : List (List UInt8)) : Option (StoreState × StoreReply) :=
  match s.uploadSource session with
  | none => some ({ s with holder := .free }, .failed (.io "open upload data for finalization"))
  | some bytes =>
    if reads.flatten = bytes then
      match ingest limits.maxArtifactBytes s.objects reads ⟨some session.expectedDigest,
        some session.expectedSizeBytes⟩ with
      | .ok (artifact, objects) => some ({ s with objects, holder := .ingested session nowMs artifact }, .working)
      | .error e =>
        if isTerminalArtifactError e then some ({ s with holder := .refused session nowMs e }, .working)
        else some ({ s with holder := .free }, .failed (.artifact e))
    else none

def act (limits : StoreLimits) (s : StoreState) : StoreAction → Option (StoreState × StoreReply)
  | .begin request counter =>
    if s.holder = .free then some (s.commit (SqliteUploadStore.begin limits request counter) .began) else none
  | .append ownerId uploadId offset bytes nowMs fate =>
    if s.holder.isCollecting then none else some (s.append limits ownerId uploadId offset bytes nowMs fate)
  | .finalize ownerId uploadId nowMs => if s.holder = .free then some (s.finalize ownerId uploadId nowMs) else none
  | .ingestUpload reads => match s.holder with
    | .claimed session nowMs => s.ingestUpload limits session nowMs reads
    | _ => none
  | .recordUpload => match s.holder with
    | .ingested session nowMs artifact =>
      match (finalizeRecord session artifact nowMs).run s.ledger with
      | (ledger, .ok ()) => some ({ s with ledger, holder := .recorded session artifact }, .working)
      | (_, .error e) => some ({ s with holder := .free }, .failed e)
    | _ => none
  | .removeUploadData => match s.holder with
    | .recorded session artifact =>
      some ({ s with data := Function.update s.data session.uploadId none, holder := .free },
        .finalized session.ownerId artifact)
    | _ => none
  | .failUpload => match s.holder with
    | .refused session nowMs error =>
      some ({ s with holder := .free }.commit (markFailed session.uploadId nowMs) fun _ => .failed (.artifact error))
    | _ => none
  | .pruneExpired nowMs interrupted => if s.holder = .free then s.prune nowMs interrupted else none
  | .ingestLocal reads request =>
    match ingest limits.maxArtifactBytes s.objects reads request with
    | .ok (artifact, objects) => some ({ s with objects }, .ingested artifact)
    | .error e => some (s, .failed (.artifact e))
  | .recordLocal ownerId artifact nowMs =>
    if s.holder = .free then some (s.commit (recordLocalArtifact limits ownerId artifact nowMs) fun _ => .recorded)
    else none
  | .grant request => if s.holder = .free then some (s.commit (grantReference limits request) .referenced) else none
  | .revoke ownerId referenceKey nowMs =>
    if s.holder = .free then some (s.commit (revokeReference ownerId referenceKey nowMs) .referenced) else none
  | .openReader ownerId digest => if s.holder.isCollecting then none else some (s.openReader ownerId digest)
  | .closeReader digest =>
    if s.holder.isCollecting ∨ s.readers digest = 0 then none
    else some ({ s with readers := Function.update s.readers digest (s.readers digest - 1) }, .closed)
  | .collect nowMs limit selected => if s.holder = .free then s.collect nowMs limit selected else none
  | .examineCandidate => match s.holder with
    | .collecting nowMs candidates report => some (s.examine nowMs report candidates)
    | _ => none
  | .deleteRows => match s.holder with
    | .removed nowMs digest sizeBytes rest report =>
      some ({ s with
        ledger := s.ledger.deleteArtifact digest
        holder := .collecting nowMs rest { report with
          collectedObjects := saturatingAdd report.collectedObjects 1
          reclaimedBytes := saturatingAdd report.reclaimedBytes sizeBytes } }, .working)
    | _ => none
  | .giveUp error => if s.holder = .free then none else some ({ s with holder := .free }, .failed error)
  | .crash => some (s.crash, .restarted)

end StoreState

def uploadStore [Sha256] (limits : StoreLimits) : Machine.System StoreState StoreAction StoreReply where
  initial := .initial
  act := StoreState.act limits

def sampleLimits : StoreLimits where
  maxUploadBytes := 8
  maxChunkBytes := 4
  quotas := ⟨6, 4⟩
  maxArtifactBytes := 8
  chunkPositive := by decide
  quotasValid := rfl

def sampleArtifact : ArtifactIdentity := ⟨⟨[1, 2]⟩, 2⟩

def sampleUpload : BeginUpload where
  ownerId := "worker"
  uploadKey := "result"
  expectedDigest := sampleArtifact.digest
  expectedSizeBytes := sampleArtifact.sizeBytes
  mediaType := "application/json"
  nowMs := 10
  expiresAtMs := 100

def sampleUploadSteps : List StoreAction :=
  [.begin sampleUpload 7, .append "worker" "upload-7" 0 [1] 20 .whole,
    .append "worker" "upload-7" 1 [9, 9] 25 (.torn [9] (.io "append upload data")),
    .append "worker" "upload-7" 1 [2] 30 .whole, .finalize "worker" "upload-7" 40, .ingestUpload [[1], [2]],
    .recordUpload]

def sampleClaim : UploadSession where
  uploadId := "upload-7"
  ownerId := "worker"
  uploadKey := "result"
  expectedDigest := sampleArtifact.digest
  expectedSizeBytes := 2
  mediaType := "application/json"
  committedOffset := 2
  state := .opened
  expiresAtMs := 100
  artifact := none

abbrev sampleStore : Machine.System StoreState StoreAction StoreReply := @uploadStore transparentSha256 sampleLimits

end AlloyPort.Artifacts
