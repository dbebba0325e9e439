import AlloyPort.Candidate.Source

/-! What the two sides of a correctness experiment are given. -/

namespace AlloyPort.Candidate

inductive ReductionRunRole where
  | cudaReference
  | ascendCandidate
  deriving DecidableEq

inductive ReductionCaseKind where
  | valid
  | nullInput
  | nullOutput
  | unsupportedSize
  deriving DecidableEq

structure ReductionCorpusCase where
  caseId : String
  repetition : Nat
  elements : Nat
  seed : Nat
  kind : ReductionCaseKind
  deriving DecidableEq

structure ReductionCorpus where
  revision : String
  cases : List ReductionCorpusCase
  deriving DecidableEq

inductive ReductionCorrectnessError where
  | invalidObservation
  | invalidRunContext
  | duplicateObservation
  | referenceRoleRequired
  | experimentIdentityMismatch
  | invalidCorpus
  | invalidExecutionSource
  | invalidExecutionBundle
  | noiseFloorUnavailable
  deriving DecidableEq

def MAX_EXECUTION_SOURCE_BYTES : Nat := 16 * 1024 * 1024

structure ReductionExecutionFile where
  path : BundlePath
  digest : Sha256Digest
  sizeBytes : Nat
  contents : String
  deriving DecidableEq

def ReductionExecutionFile.new [Sha256] (path : BundlePath) (contents : String) :
    Except ReductionCorrectnessError ReductionExecutionFile :=
  if utf8 contents = [] ∨ (utf8 contents).length > MAX_EXECUTION_SOURCE_BYTES then .error .invalidExecutionSource
  else .ok ⟨path, Sha256.digestBytes (utf8 contents), (utf8 contents).length, contents⟩

structure CorrectnessCallable where
  publicSymbol : String
  referenceBuildTarget : String
  candidateBuildTarget : String
  deriving DecidableEq

def isCallableName (name : String) : Bool :=
  let cs := name.toList
  cs ≠ [] && (utf8 name).length ≤ 128 && !(cs.head?.any Char.isDigit) && cs.all fun c => c.isAlphanum || c == '_'

def CorrectnessCallable.isValid (callable : CorrectnessCallable) : Bool :=
  [callable.publicSymbol, callable.referenceBuildTarget, callable.candidateBuildTarget].all isCallableName

structure ReductionCorrectnessExperiment where
  experimentDigest : Sha256Digest
  taskId : TaskId
  candidateId : CandidateId
  migrationSpecDigest : Sha256Digest
  manifestDigest : Sha256Digest
  sourceGateReceiptDigest : Sha256Digest
  buildGateReceiptDigest : Sha256Digest
  corpusDigest : Sha256Digest
  tolerancePlanDigest : Sha256Digest
  deriving DecidableEq

def ReductionCorrectnessExperiment.new [Sha256] (taskId : TaskId) (candidateId : CandidateId)
    (migrationSpecDigest manifestDigest sourceGateReceiptDigest buildGateReceiptDigest corpusDigest
      tolerancePlanDigest :
      Sha256Digest) : ReductionCorrectnessExperiment where
  experimentDigest := Sha256.digestBytes (utf8 "alloyport-reduction-correctness-experiment-v1" ++
    0 :: utf8 taskId.text ++
    utf8 candidateId.text ++ [migrationSpecDigest, manifestDigest, sourceGateReceiptDigest, buildGateReceiptDigest,
      corpusDigest, tolerancePlanDigest].flatMap Sha256Digest.bytes)
  taskId := taskId
  candidateId := candidateId
  migrationSpecDigest := migrationSpecDigest
  manifestDigest := manifestDigest
  sourceGateReceiptDigest := sourceGateReceiptDigest
  buildGateReceiptDigest := buildGateReceiptDigest
  corpusDigest := corpusDigest
  tolerancePlanDigest := tolerancePlanDigest

structure ReductionExecutionBundle where
  schemaVersion : Nat
  experiment : ReductionCorrectnessExperiment
  role : ReductionRunRole
  candidateId : Option CandidateId
  implementationDigest : Sha256Digest
  callable : CorrectnessCallable
  corpus : ReductionCorpus
  files : List ReductionExecutionFile
  deriving DecidableEq

def REDUCTION_EXECUTION_BUNDLE_SCHEMA_V1 : Nat := 1

def ReductionRunRole.expectedRoot : ReductionRunRole → String
  | .cudaReference => "input/"
  | .ascendCandidate => "generated/"

def ReductionRunRole.candidate (experiment : ReductionCorrectnessExperiment) : ReductionRunRole → Option CandidateId
  | .cudaReference => none
  | .ascendCandidate => some experiment.candidateId

def implementationIdentity [Sha256] (files : List ReductionExecutionFile) : Sha256Digest :=
  Sha256.digestBytes (utf8 "alloyport-reduction-implementation-v1" ++
    0 :: files.flatMap fun file => utf8 file.path.text ++ file.digest.bytes)

def ReductionExecutionBundle.new [Sha256] (experiment : ReductionCorrectnessExperiment) (role : ReductionRunRole)
    (callable : CorrectnessCallable) (corpus : ReductionCorpus) (corpusDigest : Sha256Digest)
    (files : List ReductionExecutionFile) : Except ReductionCorrectnessError ReductionExecutionBundle :=
  if callable.isValid = true ∧ files ≠ [] ∧ corpusDigest = experiment.corpusDigest ∧
      (files.map fun file => (utf8 file.contents).length).sum ≤ MAX_EXECUTION_SOURCE_BYTES ∧
      (∀ file ∈ files, file.path.startsWith role.expectedRoot = true) ∧
      (files.map ReductionExecutionFile.path).Nodup then
    .ok ⟨REDUCTION_EXECUTION_BUNDLE_SCHEMA_V1, experiment, role, role.candidate experiment,
      implementationIdentity files, callable, corpus, files⟩
  else .error .invalidExecutionBundle

structure ReductionCorrectnessAttemptSpec where
  experiment : ReductionCorrectnessExperiment
  referenceBundle : ArtifactDescriptor
  candidateBundle : ArtifactDescriptor
  deriving DecidableEq

inductive ReductionCorrectnessAttemptObservation where
  | pending (diagnosticDigest : Sha256Digest)
  | finished (referenceRun candidateRun : ArtifactDescriptor)

inductive CorrectnessVerdict where
  | pass
  | fail
  | unverifiable
  | infraError
  deriving DecidableEq

end AlloyPort.Candidate
