import AlloyPort.Attempts.Adapter
import AlloyPort.Library.Laying
import AlloyPort.Migration.Project

/-! The sandboxes that a worker lays out for correctness runs and for builds: every file of the bundle is created or
compared, and so are the files of the policy. The devices and the images of a policy are left out. -/

namespace AlloyPort.Sandbox

open Attempts Candidate FileTree Crashing

abbrev SandboxDisk := Folder (List Char) UInt8

inductive ContractError where
  | assignment (text : String)
  | artifact
  | bundle (text : String)
  | unsafePath
  | io
  | json (error : String)
  deriving DecidableEq

section disk

variable [Sha256]

def createRealDirectory (path : List (List Char)) : Crashing SandboxDisk ContractError Unit :=
  match path.getLast? with
  | none => pure ()
  | some name => do
    let disk ← get
    if disk.tree.node path.dropLast = some .directory then
      (Tree.makeDirsFrom path.dropLast [name]).mapError fun _ => .unsafePath
    else raise .io

def createRealParents (root path : List (List Char)) : Crashing SandboxDisk ContractError Unit :=
  (Tree.makeDirsFrom root path.dropLast).mapError fun _ => .unsafePath

def writeError : Tree.WriteError → ContractError
  | .missingDirectory => .io
  | .notAFile => .io
  | .conflictingContents => .unsafePath

def writeOnce (parent : List (List Char)) (name : List Char) (bytes : List UInt8) :
    Crashing SandboxDisk ContractError Unit :=
  (Tree.layOnce parent name bytes).mapError writeError

def layBundleFile (directory path : List (List Char)) (bytes : List UInt8) : Crashing SandboxDisk ContractError Unit :=
  match path.getLast? with
  | none => raise .unsafePath
  | some name => do
    createRealParents directory path
    writeOnce (directory ++ path.dropLast) name bytes

def verifyFile (path : List (List Char)) (digest : Sha256Digest) (size : Nat) :
    Crashing SandboxDisk ContractError Unit := do
  let disk ← get
  match disk.tree.node path with
  | some (.file bytes) =>
    if bytes.length ≠ size ∨ Sha256.digestBytes bytes ≠ digest then raise .unsafePath else pure ()
  | _ => raise .io

def verifyExactTree (root : List (List Char)) (expected : List (List (List Char))) :
    Crashing SandboxDisk ContractError Unit := do
  let disk ← get
  if (∀ path ∈ disk.files root, path ∈ expected) ∧ ∀ path ∈ expected, path ∈ disk.files root then pure ()
  else raise .unsafePath

def readBundle (artifacts : ArtifactStore) (bundle : ArtifactDescriptor) (mismatch : String) :
    Except ContractError (List UInt8) :=
  match artifacts.openArtifact bundle.digest with
  | none => .error .artifact
  | some stored =>
    let bytes := stored.take (bundle.sizeBytes + 1)
    if bytes.length ≠ bundle.sizeBytes ∨ Sha256.digestBytes bytes ≠ bundle.digest then .error (.bundle mismatch)
    else .ok bytes

end disk

section assignments

structure ResourceCeilings where
  timeoutMs : Nat
  cpuMillis : Nat
  memoryBytes : Nat
  diskBytes : Nat
  processCount : Nat
  outputBytes : Nat

def MINIMUM_DISK_BYTES : Nat := 128 * 1024 * 1024

/-- `validate_limits`; the policies differ in the number of devices and in the texts. -/
def validateLimits (deviceCount : Nat) (missing exceeded : String) (execution : ExecutionContract)
    (ceilings : ResourceCeilings) : Except ContractError Unit :=
  match execution.limits with
  | none => .error (.assignment missing)
  | some limits =>
    if execution.timeoutMs = 0 ∨ execution.timeoutMs > ceilings.timeoutMs ∨ limits.cpuMillis = 0 ∨
        limits.cpuMillis > ceilings.cpuMillis ∨ limits.memoryBytes = 0 ∨ limits.memoryBytes > ceilings.memoryBytes ∨
        limits.diskBytes < MINIMUM_DISK_BYTES ∨ limits.diskBytes > ceilings.diskBytes ∨ limits.processCount = 0 ∨
        limits.processCount > ceilings.processCount ∨ limits.outputBytes = 0 ∨
          limits.outputBytes > ceilings.outputBytes ∨
        limits.deviceCount ≠ deviceCount ∨ limits.network ≠ .disabled then .error (.assignment exceeded)
    else .ok ()

def isSafeCharacter (c : Char) : Bool := c.isAlphanum || c = '-' || c = '_'

end assignments

/-- The documents that the worker reads and writes, and the texts of its runners. What is read as a bundle has passed
the checks of its constructor. -/
class SandboxTexts [Sha256] where
  parseExecutionBundle : List UInt8 → Except String ReductionExecutionBundle
  parseBuildBundle : List UInt8 → Except String CandidateBuildBundle
  execution_new : ∀ bytes bundle, parseExecutionBundle bytes = .ok bundle → ∃ corpusDigest,
    ReductionExecutionBundle.new bundle.experiment bundle.role bundle.callable bundle.corpus corpusDigest bundle.files =
      .ok bundle
  build_new : ∀ bytes bundle, parseBuildBundle bytes = .ok bundle →
    (CandidateBuildBundle.fromParts bundle.candidateId bundle.taskId bundle.manifestDigest
      bundle.sourceGateReceiptDigest
      bundle.migrationSpecDigest bundle.generationStrategy bundle.publicSymbol bundle.targetArchitecture bundle.files =
        .ok bundle) ∧
    ∀ file ∈ bundle.files, CandidateBuildFile.new file.path file.kind file.digest file.sizeBytes file.contents =
      .ok file
  runnerConfig : Sha256Digest → List UInt8
  correctnessRunner : List UInt8
  buildRunner : List UInt8

section correctness

variable [Sha256] [SandboxTexts]

def BUNDLE_FILENAME : List Char := "execution-bundle.json".toList
def CONFIG_FILENAME : List Char := "runner-config.json".toList
def CORRECTNESS_RUNNER_FILENAME : List Char := "run_correctness.py".toList
def MAX_EXECUTION_BUNDLE_BYTES : Nat := 32 * 1024 * 1024

structure ReductionCorrectnessPolicy where
  role : ReductionRunRole
  imageManifestDigest : Sha256Digest
  imageMediaType : String
  sandboxRoot : List (List Char)
  ceilings : ResourceCeilings
  environmentDigest : Sha256Digest

structure CorrectnessSandbox where
  directory : List (List Char)
  implementationDigest : Sha256Digest

namespace ReductionCorrectnessPolicy

def validateAttemptId (value : String) : Except ContractError Unit :=
  if value = "" ∨ value.utf8ByteSize > 128 ∨ value.toList.all isSafeCharacter = false then
    .error (.assignment "attempt ID is unsafe for a correctness sandbox path")
  else .ok ()

def validateAssignment (policy : ReductionCorrectnessPolicy) (assignment : AssignmentContract) :
    Except ContractError Unit := do
  let execution := assignment.execution
  validateAttemptId assignment.attemptId.text
  if execution.executorKind ≠ (roleFacts policy.role).executorKind ∨
      assignment.requiredFeatures ≠ [(roleFacts policy.role).feature] ∨ execution.argv ≠ [RUNNER_ARGV] ∨
      execution.workingDirectory ≠ "." ∨ execution.environment ≠ [] then
    throw (.assignment "executor, feature, argv, cwd, or environment is not the fixed correctness contract")
  else if execution.bundle.mediaType ≠ REDUCTION_EXECUTION_BUNDLE_MEDIA_TYPE ∨ execution.bundle.sizeBytes = 0 ∨
      execution.bundle.sizeBytes > MAX_EXECUTION_BUNDLE_BYTES then
    throw (.assignment "execution bundle descriptor is not allowed")
  else if execution.image.digest ≠ policy.imageManifestDigest ∨ execution.image.mediaType ≠ policy.imageMediaType then
    throw (.assignment "correctness image identity is not locally allowed")
  else
    validateLimits 1 "correctness resource limits are required"
      "correctness limits exceed local policy or enable network access" execution policy.ceilings

def directory (policy : ReductionCorrectnessPolicy) (assignment : AssignmentContract) : List (List Char) :=
  policy.sandboxRoot ++ [assignment.attemptId.text.toList]

def bundleFiles (bundle : ReductionExecutionBundle) : List (List (List Char) × List UInt8) :=
  bundle.files.map fun file => (Migration.components file.path.text, utf8 file.contents)

def ownFiles (policy : ReductionCorrectnessPolicy) (bytes : List UInt8) : List (List (List Char) × List UInt8) :=
  [([BUNDLE_FILENAME], bytes), ([CONFIG_FILENAME], SandboxTexts.runnerConfig policy.environmentDigest),
    ([CORRECTNESS_RUNNER_FILENAME], SandboxTexts.correctnessRunner)]

def layBundle (policy : ReductionCorrectnessPolicy) (directory : List (List Char)) (bundle : ReductionExecutionBundle)
    (bytes : List UInt8) : Crashing SandboxDisk ContractError Unit := do
  Tree.layEach (fun file => layBundleFile directory (Migration.components file.path.text) (utf8 file.contents))
    bundle.files
  writeOnce directory BUNDLE_FILENAME bytes
  writeOnce directory CONFIG_FILENAME (SandboxTexts.runnerConfig policy.environmentDigest)
  writeOnce directory CORRECTNESS_RUNNER_FILENAME SandboxTexts.correctnessRunner

def materializeBundle (policy : ReductionCorrectnessPolicy) (assignment : AssignmentContract)
    (artifacts : ArtifactStore) : Crashing SandboxDisk ContractError CorrectnessSandbox := do
  attempt (policy.validateAssignment assignment)
  let bytes ← attempt (readBundle artifacts assignment.execution.bundle
    "execution bundle bytes do not match the assignment identity")
  let bundle ← attempt ((SandboxTexts.parseExecutionBundle bytes).mapError .json)
  if bundle.role ≠ policy.role ∨ bundle.experiment.taskId ≠ assignment.taskId ∨
      bundle.experiment.candidateId ≠ assignment.candidateId then
    raise (.bundle "execution bundle role or lineage does not match the assignment")
  else do
    let directory := policy.directory assignment
    createRealDirectory policy.sandboxRoot
    createRealDirectory directory
    policy.layBundle directory bundle bytes
    verifyExactTree directory ((bundle.files.map fun file => Migration.components file.path.text) ++
      [[BUNDLE_FILENAME], [CONFIG_FILENAME], [CORRECTNESS_RUNNER_FILENAME]])
    return ⟨directory, bundle.implementationDigest⟩

end ReductionCorrectnessPolicy

end correctness

section build

variable [Sha256] [SandboxTexts]

def BUILD_RUNNER_FILENAME : List Char := "run_build.py".toList
def MAX_BUILD_BUNDLE_BYTES : Nat := 12 * 1024 * 1024

structure AscendBuildPolicy where
  imageManifestDigest : Sha256Digest
  imageMediaType : String
  sandboxRoot : List (List Char)
  ceilings : ResourceCeilings
  /-- Of the environment. -/
  architecture : String

structure AscendBuildSandbox where
  directory : List (List Char)
  bundleDigest : Sha256Digest

namespace AscendBuildPolicy

def validateAttemptId (value : String) : Except ContractError Unit :=
  if value = "." ∨ value = ".." ∨ value.toList.all isSafeCharacter = false then
    .error (.assignment "attempt ID is unsafe for a build sandbox path")
  else .ok ()

def validateAssignment (policy : AscendBuildPolicy) (assignment : AssignmentContract) : Except ContractError Unit := do
  let execution := assignment.execution
  validateAttemptId assignment.attemptId.text
  if execution.executorKind ≠ .ascendBuild ∨ assignment.requiredFeatures ≠ [ASCEND_BUILD_FEATURE] ∨
      execution.argv ≠ ["build-v1"] ∨ execution.workingDirectory ≠ "." ∨ execution.environment ≠ [] then
    throw (.assignment "executor, feature, argv, cwd, or environment is not the fixed build contract")
  else if execution.bundle.mediaType ≠ ASCEND_BUILD_BUNDLE_MEDIA_TYPE ∨ execution.bundle.sizeBytes = 0 ∨
      execution.bundle.sizeBytes > MAX_BUILD_BUNDLE_BYTES then
    throw (.assignment "build bundle identity or size is not allowed")
  else if execution.image.digest ≠ policy.imageManifestDigest ∨ execution.image.mediaType ≠ policy.imageMediaType then
    throw (.assignment "build image identity is not locally allowed")
  else
    validateLimits 0 "build resource limits are required" "build limits exceed local policy or enable network access"
      execution policy.ceilings

def directory (policy : AscendBuildPolicy) (assignment : AssignmentContract) : List (List Char) :=
  policy.sandboxRoot ++ [assignment.attemptId.text.toList]

def bundleFiles (bundle : CandidateBuildBundle) : List (List (List Char) × List UInt8) :=
  bundle.files.map fun file => (Migration.components file.path.text, utf8 file.contents)

def ownFiles : List (List (List Char) × List UInt8) := [([BUILD_RUNNER_FILENAME], SandboxTexts.buildRunner)]

def layFile (directory : List (List Char)) (file : CandidateBuildFile) : Crashing SandboxDisk ContractError Unit := do
  layBundleFile directory (Migration.components file.path.text) (utf8 file.contents)
  verifyFile (directory ++ Migration.components file.path.text) file.digest file.sizeBytes

def layBundle (directory : List (List Char)) (bundle : CandidateBuildBundle) :
    Crashing SandboxDisk ContractError Unit := do
  Tree.layEach (layFile directory) bundle.files
  writeOnce directory BUILD_RUNNER_FILENAME SandboxTexts.buildRunner

def createSandboxRoot (path : List (List Char)) : Crashing SandboxDisk ContractError Unit := do
  (Tree.makeDirs path).mapError fun _ => .io
  let disk ← get
  if disk.tree.node path = some .directory then pure () else raise .unsafePath

def materializeBundle (policy : AscendBuildPolicy) (assignment : AssignmentContract) (artifacts : ArtifactStore) :
    Crashing SandboxDisk ContractError AscendBuildSandbox := do
  attempt (policy.validateAssignment assignment)
  let bytes ← attempt (readBundle artifacts assignment.execution.bundle
    "build bundle bytes do not match the assignment identity")
  let bundle ← attempt ((SandboxTexts.parseBuildBundle bytes).mapError .json)
  if bundle.candidateId ≠ assignment.candidateId ∨ bundle.taskId ≠ assignment.taskId ∨
      bundle.targetArchitecture ≠ policy.architecture then
    raise (.bundle "build bundle lineage or target does not match the assignment")
  else do
    let directory := policy.directory assignment
    createSandboxRoot policy.sandboxRoot
    createRealDirectory directory
    layBundle directory bundle
    verifyExactTree directory ((bundle.files.map fun file => Migration.components file.path.text) ++
      [[BUILD_RUNNER_FILENAME]])
    return ⟨directory, assignment.execution.bundle.digest⟩

end AscendBuildPolicy

end build

end AlloyPort.Sandbox
