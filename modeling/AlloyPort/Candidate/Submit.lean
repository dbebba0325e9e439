import AlloyPort.Candidate.Gates
import AlloyPort.Candidate.Correctness
import AlloyPort.Library.Machine

/-! Assembling a candidate from a submission, whole or on top of an earlier manifest, and the identity it gets. -/

namespace AlloyPort.Candidate

open Database Transaction

structure CandidateToolConfig where
  taskId : TaskId
  migrationSpecDigest : Sha256Digest
  generationStrategy : GenerationStrategy
  publicSymbol : String
  buildTarget : String
  inputSourcePaths : List BundlePath
  targetArchitecture : String

def CandidateToolConfig.matchesManifest (config : CandidateToolConfig) (manifest : CandidateSourceManifest) : Bool :=
  manifest.spec.taskId = config.taskId ∧ manifest.spec.migrationSpecDigest = config.migrationSpecDigest ∧
  manifest.spec.generationStrategy = config.generationStrategy ∧ manifest.spec.publicSymbol = config.publicSymbol ∧
  manifest.spec.buildTarget = config.buildTarget ∧ manifest.spec.inputSourcePaths = config.inputSourcePaths

inductive CitationFailure where
  | unresolvedManifest (digest : Sha256Digest)
  | invalidManifest (error : String)
  | foreignManifest
  | changedBuildReceipt
  | invalidBuildReceipt (error : String)
  | otherBuildReceipt
  | otherManifest
  | foreignBuildReceipt
  deriving DecidableEq

inductive AdapterFailure where
  | invalidSubmission (error : GeneratedSourceError)
  | invalidIdentity
  | invalidSource (error : CandidateSourceError)
  | artifactNotFound (digest : Sha256Digest)
  | artifactExceedsBound
  | materialization (error : CandidateMaterializationError)
  | sourceReceiptExceedsBound
  | foreignManifest
  | build (error : CandidateBuildError)
  | invalidAttemptIdentity
  | attempt (error : AttemptError)
  | candidateNotUtf8
  | correctness (error : ReductionCorrectnessError)
  | invalidRunReceipt (label : String)
  | invalidExecutionBundle
  | oracle (detail : String)
  | unknownReference (document : String)
  deriving DecidableEq

inductive ToolGatewayError where
  | unexpectedRequest
  | citation (failure : CitationFailure)
  | adapter (failure : AdapterFailure)
  deriving DecidableEq

inductive ToolOperationStatus where
  | succeeded
  | candidateFailed
  | timedOut
  | cancelled
  | infraFailed

structure Completed where
  status : ToolOperationStatus
  resultDigest : Sha256Digest
  receiptDigests : List Sha256Digest
  satisfiesSubtask : Bool

structure SubmitCandidateBundleArguments where
  parentCandidateId : Option CandidateId
  inheritFromManifestDigest : Option Sha256Digest
  bundle : GeneratedSourceChange

structure SubmitCandidateBundleResult where
  candidateId : CandidateId
  manifest : ArtifactDescriptor
  sourceBundleDigest : Sha256Digest
  files : List String

/-- The JSON library the code links against. What it says of a document that it cannot read may quote the document. -/
class CandidateJson where
  manifestBytes : CandidateSourceManifestDocument → List UInt8
  parseManifest : List UInt8 → Option CandidateSourceManifestDocument
  manifestError : List UInt8 → String
  resultBytes : SubmitCandidateBundleResult → List UInt8

abbrev GatewayAction := Transaction GatewayState ToolGatewayError

def MAX_MANIFEST_BYTES : Nat := 1024 * 1024

def candidatePrefix (config : CandidateToolConfig) : List UInt8 :=
  utf8 "alloyport-candidate-v1" ++ 0 :: utf8 config.taskId.text ++ 0 :: config.migrationSpecDigest.bytes ++
    [config.generationStrategy.tag]

def candidateInput (config : CandidateToolConfig) (parent : Option CandidateId) (bundleDigest : Sha256Digest) :
    List UInt8 :=
  candidatePrefix config ++ (bundleDigest.bytes ++ match parent with
    | some parent => utf8 parent.text
    | none => [])

section gateway

variable [Sha256]

def candidateId (config : CandidateToolConfig) (parent : Option CandidateId) (bundleDigest : Sha256Digest) :
    Except ToolGatewayError CandidateId :=
  match ValidatedId.tryFrom
      ("candidate-" ++ (Sha256.digestBytes (candidateInput config parent bundleDigest)).hexadecimal) with
  | some id => .ok id
  | none => .error (.adapter .invalidIdentity)

def ingestBytes (bytes : List UInt8) : GatewayAction Sha256Digest := do
  write fun s => { s with artifacts := s.artifacts.ingest bytes }
  return Sha256.digestBytes bytes

def readBounded (digest : Sha256Digest) (maximum : Nat) : GatewayAction (List UInt8) := do
  let s ← read
  match s.artifacts.openArtifact digest with
  | none => raise (.adapter (.artifactNotFound digest))
  | some bytes => if bytes.length > maximum then raise (.adapter .artifactExceedsBound) else return bytes

def sourceDescriptor (file : GeneratedSourceFile) : ArtifactDescriptor :=
  ⟨Sha256.digestBytes (utf8 file.contents), (utf8 file.contents).length, SOURCE_MEDIA_TYPE⟩

def ingestSourceFile (file : GeneratedSourceFile) : GatewayAction CandidateSourceFile := do
  let _ ← ingestBytes (utf8 file.contents)
  match CandidateSourceFile.new file.path file.kind (sourceDescriptor file) with
  | .ok source => return source
  | .error error => raise (.adapter (.invalidSource error))

def insertByPath (assembled : List CandidateSourceFile) (source : CandidateSourceFile) : List CandidateSourceFile :=
  (assembled.filter fun other => other.path ≠ source.path).orderedInsert (fun l r => ¬ r.path.text < l.path.text) source

def ingestSourceFiles (assembled : List CandidateSourceFile) : List GeneratedSourceFile →
    GatewayAction (List CandidateSourceFile)
  | [] => return assembled
  | file :: rest => do
    let source ← ingestSourceFile file
    ingestSourceFiles (insertByPath assembled source) rest

variable [CandidateJson]

def parseManifest (bytes : List UInt8) : Option CandidateSourceManifest :=
  (CandidateJson.parseManifest bytes).bind CandidateSourceManifestDocument.manifest

def loadInheritableManifest (config : CandidateToolConfig) (digest : Sha256Digest) :
    GatewayAction CandidateSourceManifest := do
  let bytes ← (readBounded digest MAX_MANIFEST_BYTES).mapError fun _ => .citation (.unresolvedManifest digest)
  match parseManifest bytes with
  | none => raise (.citation (.invalidManifest (CandidateJson.manifestError bytes)))
  | some manifest =>
    if config.matchesManifest manifest = true then return manifest else raise (.citation .foreignManifest)

def loadInherited (config : CandidateToolConfig) (arguments : SubmitCandidateBundleArguments) :
    GatewayAction (Option CandidateSourceManifest) :=
  match arguments.inheritFromManifestDigest with
  | none => return none
  | some digest => do
    let manifest ← loadInheritableManifest config digest
    return some manifest

structure Submission where
  arguments : SubmitCandidateBundleArguments
  inherited : Option CandidateSourceManifest
  manifest : CandidateSourceManifest

def SubmitCandidateBundleArguments.parent (arguments : SubmitCandidateBundleArguments) :
    Option CandidateSourceManifest → Option CandidateId
  | none => arguments.parentCandidateId
  | some manifest => some manifest.candidateId

def inheritedFiles : Option CandidateSourceManifest → List CandidateSourceFile
  | none => []
  | some manifest => manifest.files.foldl insertByPath []

def requireWhole (arguments : SubmitCandidateBundleArguments) : Option CandidateSourceManifest → GatewayAction Unit
  | some _ => return ()
  | none => match arguments.bundle.requireComplete with
    | .ok () => return ()
    | .error error => raise (.adapter (.invalidSubmission error))

/-- The first half of `submit`, up to the manifest. -/
def assemble (config : CandidateToolConfig) (arguments : SubmitCandidateBundleArguments) :
    GatewayAction Submission := do
  let inherited ← loadInherited config arguments
  requireWhole arguments inherited
  let parent := arguments.parent inherited
  let id ← attempt (candidateId config parent arguments.bundle.digest)
  let files ← ingestSourceFiles (inheritedFiles inherited) arguments.bundle.files
  match CandidateSourceManifest.new
      { candidateId := id, taskId := config.taskId, parentCandidateId := parent,
        migrationSpecDigest := config.migrationSpecDigest, generationStrategy := config.generationStrategy,
        publicSymbol := config.publicSymbol, buildTarget := config.buildTarget,
        inputSourcePaths := config.inputSourcePaths, sourceBundleDigest := arguments.bundle.digest, files } with
  | .ok manifest => return ⟨arguments, inherited, manifest⟩
  | .error error => raise (.adapter (.invalidSource error))

def manifestBytes (manifest : CandidateSourceManifest) : List UInt8 := CandidateJson.manifestBytes manifest.document

def submissionResult (manifest : CandidateSourceManifest) : SubmitCandidateBundleResult where
  candidateId := manifest.candidateId
  manifest :=
    ⟨Sha256.digestBytes (manifestBytes manifest), (manifestBytes manifest).length,
      "application/vnd.alloyport.candidate-source-manifest+json"⟩
  sourceBundleDigest := manifest.spec.sourceBundleDigest
  files := manifest.files.map fun file => file.path.text

/-- The second half of `submit`: the manifest is stored and materialized. -/
def publish (manifest : CandidateSourceManifest) : GatewayAction Completed := do
  let manifestDigest ← ingestBytes (manifestBytes manifest)
  (CandidateMaterialization.materialize manifest).mapError fun error => .adapter (.materialization error)
  let resultDigest ← ingestBytes (CandidateJson.resultBytes (submissionResult manifest))
  return ⟨.succeeded, resultDigest, [manifestDigest], false⟩

def submit (config : CandidateToolConfig) (arguments : SubmitCandidateBundleArguments) : GatewayAction Completed := do
  let submission ← assemble config arguments
  publish submission.manifest

end gateway

section history

open Machine

variable [Sha256] [CandidateJson]

structure MigrationState where
  gateway : GatewayState
  submissions : List Submission

/-- `submit`, with what it has assembled. -/
def submitRecorded (config : CandidateToolConfig) (arguments : SubmitCandidateBundleArguments) :
    GatewayAction (Submission × Completed) := do
  let submission ← assemble config arguments
  let completed ← publish submission.manifest
  return (submission, completed)

def migration (config : CandidateToolConfig) (artifacts : ArtifactStore) :
    System MigrationState SubmitCandidateBundleArguments Completed where
  initial := ⟨⟨artifacts, []⟩, []⟩
  act s arguments := match submitRecorded config arguments s.gateway with
    | (.ok (submission, completed), gateway) => some (⟨gateway, s.submissions ++ [submission]⟩, completed)
    | (.error _, _) => none

/-- The submission builds on nothing, or on a manifest that an earlier one has returned. -/
def Continues (s : MigrationState) (arguments : SubmitCandidateBundleArguments) : Prop :=
  ∀ digest, arguments.inheritFromManifestDigest = some digest →
    ∃ earlier ∈ s.submissions, Sha256.digestBytes (manifestBytes earlier.manifest) = digest

/-- A length of 2 ^ 56 would have to be in memory to be mistaken for something else in a digest. -/
def GeneratedSourceChange.InMemory (change : GeneratedSourceChange) : Prop :=
  (∀ file ∈ change.files, Framing.Fits (utf8 file.path.text)) ∧ ∀ note ∈ change.authorNotes, Framing.Fits (utf8 note)

def Proper : Guard MigrationState SubmitCandidateBundleArguments Completed :=
  fun _ s arguments => Continues s arguments ∧ arguments.bundle.InMemory

end history

end AlloyPort.Candidate
