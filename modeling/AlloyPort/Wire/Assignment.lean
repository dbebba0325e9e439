import AlloyPort.Service.Record

/-! Assignments as they travel: the message, what validation asks of it, and the three mappings between
the message and the contract that server and worker keep. A mapping that reaches one of its `expect`s
on an absent value ends in a panic. -/

namespace AlloyPort

/-- The executor numbers of the protocol; unlike the domain's they have an unspecified one. -/
inductive WireExecutorKind where
  | unspecified
  | known (kind : ExecutionKind)
  deriving DecidableEq

def ExecutionKind.number : ExecutionKind → Int
  | .process => 1
  | .container => 2
  | .shell => 3
  | .cudaFixture => 4
  | .ascendFixture => 5
  | .ascendBuild => 6
  | .cudaCorrectness => 7
  | .ascendCorrectness => 8

def ExecutionKind.tryFrom : Int → Option ExecutionKind
  | 1 => some .process
  | 2 => some .container
  | 3 => some .shell
  | 4 => some .cudaFixture
  | 5 => some .ascendFixture
  | 6 => some .ascendBuild
  | 7 => some .cudaCorrectness
  | 8 => some .ascendCorrectness
  | _ => none

def WireExecutorKind.tryFrom (value : Int) : Option WireExecutorKind :=
  if value = 0 then some .unspecified else (ExecutionKind.tryFrom value).map .known

def NetworkPolicy.number : NetworkPolicy → Int
  | .unspecified => 0
  | .disabled => 1
  | .dependencyFetch => 2

def NetworkPolicy.tryFrom : Int → Option NetworkPolicy
  | 0 => some .unspecified
  | 1 => some .disabled
  | 2 => some .dependencyFetch
  | _ => none

variable {value : Int} {α β ε : Type} {field message message' : String} {artifact : WireArtifact}
variable {descriptor : ArtifactDescriptor} {contract : AssignmentContract} {f : α → Except ε β} {a : α}

theorem ExecutionKind.number_of_tryFrom {kind : ExecutionKind} (h : tryFrom value = some kind) :
    kind.number = value := by
  unfold tryFrom at h
  split at h <;> cases h <;> rfl

theorem NetworkPolicy.number_of_tryFrom {policy : NetworkPolicy} (h : tryFrom value = some policy) :
    policy.number = value := by
  unfold tryFrom at h
  split at h <;> cases h <;> rfl

structure EnvironmentVariable where
  name : String
  value : String

structure ResourceLimits where
  cpuMillis : Nat
  memoryBytes : Nat
  diskBytes : Nat
  processCount : Nat
  outputBytes : Nat
  deviceCount : Nat
  network : Int

structure ExecutionSpec where
  executorKind : Int
  argv : List String
  workingDirectory : String
  environment : List EnvironmentVariable
  timeoutMs : Nat
  bundle : Option WireArtifact
  image : Option WireArtifact
  limits : Option ResourceLimits

structure WireAssignment where
  assignmentId : String
  attemptId : String
  attemptNumber : Nat
  idempotencyKey : String
  taskId : String
  candidateId : String
  execution : Option ExecutionSpec
  requiredFeatures : List String

inductive Component where
  | rootDir
  | curDir
  | parentDir
  | normal (name : String)
  deriving DecidableEq

def component : List Char → Option Component
  | [] | ['.'] => none
  | ['.', '.'] => some .parentDir
  | name => some (.normal (String.ofList name))

/-- `Path::components` on Unix: repeated separators disappear, and so does a `.` unless it comes first. -/
def components (path : String) : List Component :=
  match path.toList.splitOn '/' with
  | [] | [[]] => []
  | [] :: rest => .rootDir :: rest.filterMap component
  | ['.'] :: rest => .curDir :: rest.filterMap component
  | first :: rest => (first :: rest).filterMap component

def validateSandboxPath (path : String) : Except ValidationError Unit :=
  if path.isEmpty then .error ("assignment.execution.working_directory", "missing")
  else if (components path).any fun component => component = .parentDir || component = .rootDir then
    .error ("assignment.execution.working_directory", "must stay relative to the sandbox")
  else .ok ()

def validateArtifact (field : String) : Option WireArtifact → Except ValidationError Unit
  | none => .error (field, "missing")
  | some artifact =>
    match Sha256Digest.fromStr artifact.digest with
    | .ok _ => .ok ()
    | .error _ => .error (field, "digest must be canonical SHA-256")

def validateExecution (execution : ExecutionSpec) : Except ValidationError Unit := do
  if (WireExecutorKind.tryFrom execution.executorKind).getD .unspecified = .unspecified then
    throw ("assignment.execution.executor_kind", "unspecified or unknown")
  else if execution.argv.head?.getD "" = "" then
    throw ("assignment.execution.argv", "must contain a non-empty executable")
  else
    validateSandboxPath execution.workingDirectory
    validateArtifact "assignment.execution.bundle" execution.bundle
    validateArtifact "assignment.execution.image" execution.image

def validateAssignment (assignment : WireAssignment) : Except ValidationError Unit := do
  validateText "assignment.assignment_id" assignment.assignmentId
  validateText "assignment.attempt_id" assignment.attemptId
  validateText "assignment.idempotency_key" assignment.idempotencyKey
  validateText "assignment.task_id" assignment.taskId
  validateText "assignment.candidate_id" assignment.candidateId
  match assignment.execution with
  | none => throw ("assignment.execution", "missing")
  | some execution => validateExecution execution

structure Panic where
  message : String
  deriving DecidableEq

def expect {α : Type} (message : String) : Option α → Except Panic α
  | none => .error ⟨message⟩
  | some value => .ok value

def artifactTo (message : String) (artifact : WireArtifact) : Except Panic ArtifactDescriptor := do
  let digest ← expect message (Sha256Digest.fromStr artifact.digest).toOption
  return ⟨digest, artifact.sizeBytes, artifact.mediaType⟩

def limitsTo (limits : ResourceLimits) : Except Panic ResourceContract := do
  let network ← expect "validated assignment contains a known network policy" (NetworkPolicy.tryFrom limits.network)
  return ⟨limits.cpuMillis, limits.memoryBytes, limits.diskBytes, limits.processCount, limits.outputBytes,
    limits.deviceCount, network⟩

def executionTo (message : String) (execution : ExecutionSpec) : Except Panic ExecutionContract := do
  let executorKind ← expect "validated assignment contains a known executor kind"
    (ExecutionKind.tryFrom execution.executorKind)
  let bundle ← expect "validated assignment contains bundle" execution.bundle
  let bundle ← artifactTo message bundle
  let image ← expect "validated assignment contains image" execution.image
  let image ← artifactTo message image
  let limits ← execution.limits.mapM limitsTo
  return {
    executorKind
    argv := execution.argv
    workingDirectory := execution.workingDirectory
    environment := execution.environment.map fun entry => ⟨entry.name, entry.value⟩
    timeoutMs := execution.timeoutMs
    bundle
    image
    limits }

/-- The mapping of server and worker; they differ in what they say of an unparsable digest. -/
def assignmentTo (message : String) (assignment : WireAssignment) : Except Panic AssignmentContract := do
  let execution ← expect "validated assignment contains execution" assignment.execution
  let assignmentId ← expect "validated assignment contains a non-empty assignment ID"
    (ValidatedId.tryFrom assignment.assignmentId)
  let attemptId ← expect "validated assignment contains a non-empty attempt ID"
    (ValidatedId.tryFrom assignment.attemptId)
  let taskId ← expect "validated assignment contains a non-empty task ID" (ValidatedId.tryFrom assignment.taskId)
  let candidateId ← expect "validated assignment contains a non-empty candidate ID"
    (ValidatedId.tryFrom assignment.candidateId)
  let execution ← executionTo message execution
  return {
    assignmentId
    attemptId
    attemptNumber := assignment.attemptNumber
    idempotencyKey := assignment.idempotencyKey
    taskId
    candidateId
    execution
    requiredFeatures := assignment.requiredFeatures }

def assignmentToContract (assignment : WireAssignment) : Except Panic AssignmentContract :=
  assignmentTo "validated Artifact contains a canonical SHA-256 digest" assignment

def assignmentToStored (assignment : WireAssignment) : Except Panic AssignmentContract :=
  assignmentTo "validated assignment contains a canonical SHA-256 digest" assignment

def identityToArtifact (identity : ArtifactDescriptor) : WireArtifact :=
  ⟨toString identity.digest, identity.sizeBytes, identity.mediaType⟩

def limitsFrom (limits : ResourceContract) : ResourceLimits :=
  ⟨limits.cpuMillis, limits.memoryBytes, limits.diskBytes, limits.processCount, limits.outputBytes,
    limits.deviceCount, limits.network.number⟩

def contractToAssignment (contract : AssignmentContract) : WireAssignment where
  assignmentId := toString contract.assignmentId
  attemptId := toString contract.attemptId
  attemptNumber := contract.attemptNumber
  idempotencyKey := contract.idempotencyKey
  taskId := toString contract.taskId
  candidateId := toString contract.candidateId
  execution := some {
    executorKind := contract.execution.executorKind.number
    argv := contract.execution.argv
    workingDirectory := contract.execution.workingDirectory
    environment := contract.execution.environment.map fun entry => ⟨entry.name, entry.value⟩
    timeoutMs := contract.execution.timeoutMs
    bundle := some (identityToArtifact contract.execution.bundle)
    image := some (identityToArtifact contract.execution.image)
    limits := contract.execution.limits.map limitsFrom }
  requiredFeatures := contract.requiredFeatures

def WireArtifact.toLower (artifact : WireArtifact) : WireArtifact :=
  { artifact with digest := artifact.digest.toLower }

def WireAssignment.toLower (assignment : WireAssignment) : WireAssignment :=
  { assignment with
    execution := assignment.execution.map fun execution =>
      { execution with
        bundle := execution.bundle.map WireArtifact.toLower
        image := execution.image.map WireArtifact.toLower } }

@[simp] theorem expect_eq_ok {value : Option α} : expect message value = .ok a ↔ value = some a := by
  cases value <;> simp [expect]

@[simp] theorem toOption_eq_some {result : Except ε α} : result.toOption = some a ↔ result = .ok a := by
  cases result <;> simp [Except.toOption]

theorem bind_eq_ok {x : Except ε α} {b : β} :
    x >>= f = .ok b ↔ ∃ a, x = .ok a ∧ f a = .ok b := by
  cases x <;> simp [bind, Except.bind]

theorem ok_bind : (.ok a : Except ε α) >>= f = f a := rfl

theorem artifactTo_eq_ok : artifactTo message artifact = .ok descriptor ↔
      Sha256Digest.fromStr artifact.digest = .ok descriptor.digest ∧
        artifact.sizeBytes = descriptor.sizeBytes ∧ artifact.mediaType = descriptor.mediaType := by
  simp only [artifactTo, bind_eq_ok, expect_eq_ok, toOption_eq_some]
  constructor
  · rintro ⟨digest, hdigest, h⟩
    cases h
    exact ⟨hdigest, rfl, rfl⟩
  · rintro ⟨hdigest, hsize, hmedia⟩
    exact ⟨descriptor.digest, hdigest, by rw [hsize, hmedia]; rfl⟩

theorem artifactTo_toLower
    (h : artifactTo message artifact = .ok descriptor) : identityToArtifact descriptor = artifact.toLower := by
  obtain ⟨hdigest, hsize, hmedia⟩ := artifactTo_eq_ok.mp h
  simp only [identityToArtifact, WireArtifact.toLower, Sha256Digest.fromStr_toLower hdigest, hsize, hmedia]

theorem limitsTo_eq_ok {limits : ResourceLimits} {contract : ResourceContract}
    (h : limitsTo limits = .ok contract) : limitsFrom contract = limits := by
  obtain ⟨network, hnetwork, h⟩ := bind_eq_ok.mp h
  cases h
  simp only [limitsFrom, NetworkPolicy.number_of_tryFrom (expect_eq_ok.mp hnetwork)]

def WireAssignment.NetworkKnown (assignment : WireAssignment) : Prop :=
  ∀ execution ∈ assignment.execution, ∀ limits ∈ execution.limits, 0 ≤ limits.network ∧ limits.network ≤ 2

theorem NetworkPolicy.tryFrom_isSome : (tryFrom value).isSome ↔ 0 ≤ value ∧ value ≤ 2 := by
  constructor
  · intro h
    unfold tryFrom at h
    split at h
    · decide
    · decide
    · decide
    · cases h
  · rintro ⟨hlow, hhigh⟩
    obtain rfl | rfl | rfl : value = 0 ∨ value = 1 ∨ value = 2 := by omega
    · rfl
    · rfl
    · rfl

variable {limits : Option ResourceLimits} {execution : ExecutionSpec} {assignment : WireAssignment}

theorem mapM_limitsTo_eq_ok {contract : Option ResourceContract} (h : limits.mapM limitsTo = .ok contract) :
    contract.map limitsFrom = limits ∧ ∀ l ∈ limits, 0 ≤ l.network ∧ l.network ≤ 2 := by
  cases limits with
  | none =>
    cases h
    simp
  | some limits =>
    rw [Option.mapM_some] at h
    cases hresources : limitsTo limits with
    | error panic =>
      rw [hresources] at h
      cases h
    | ok resources =>
      rw [hresources] at h
      cases h
      obtain ⟨network, hnetwork, -⟩ := bind_eq_ok.mp hresources
      have hknown := NetworkPolicy.tryFrom_isSome.mp (Option.isSome_iff_exists.mpr ⟨_, expect_eq_ok.mp hnetwork⟩)
      simpa [limitsTo_eq_ok hresources] using hknown

theorem mapM_limitsTo_of_known
    (h : ∀ l ∈ limits, 0 ≤ l.network ∧ l.network ≤ 2) : ∃ contract, limits.mapM limitsTo = .ok contract := by
  cases limits with
  | none => exact ⟨none, rfl⟩
  | some limits =>
    obtain ⟨network, hnetwork⟩ := Option.isSome_iff_exists.mp (NetworkPolicy.tryFrom_isSome.mpr (h limits rfl))
    have hlimits : limitsTo limits = .ok _ := bind_eq_ok.mpr ⟨network, expect_eq_ok.mpr hnetwork, rfl⟩
    exact ⟨some _, by rw [Option.mapM_some, hlimits]; rfl⟩

theorem executionTo_message {contract : ExecutionContract}
    (h : executionTo message execution = .ok contract) : executionTo message' execution = .ok contract := by
  simp only [executionTo, bind_eq_ok] at h ⊢
  obtain ⟨kind, hkind, wireBundle, hwireBundle, bundle, hbundle, wireImage, hwireImage, image, himage, h⟩ := h
  have hbundle' : artifactTo message' wireBundle = .ok bundle := artifactTo_eq_ok.mpr (artifactTo_eq_ok.mp hbundle)
  have himage' : artifactTo message' wireImage = .ok image := artifactTo_eq_ok.mpr (artifactTo_eq_ok.mp himage)
  exact ⟨kind, hkind, wireBundle, hwireBundle, bundle, hbundle', wireImage, hwireImage, image, himage', h⟩

theorem assignmentTo_message (h : assignmentTo message assignment = .ok contract) :
    assignmentTo message' assignment = .ok contract := by
  simp only [assignmentTo, bind_eq_ok] at h ⊢
  obtain ⟨execution, hexecution, assignmentId, hassignment, attemptId, hattempt, taskId, htask, candidateId,
    hcandidate, contract', hcontract, h⟩ := h
  exact ⟨execution, hexecution, assignmentId, hassignment, attemptId, hattempt, taskId, htask, candidateId,
    hcandidate, contract', executionTo_message hcontract, h⟩

theorem executionTo_eq_ok {contract : ExecutionContract} (h : executionTo message execution = .ok contract) :
    (contract.executorKind.number = execution.executorKind ∧ contract.argv = execution.argv ∧
      contract.workingDirectory = execution.workingDirectory ∧
      contract.environment.map (fun entry => (⟨entry.name, entry.value⟩ : EnvironmentVariable)) =
        execution.environment ∧
      contract.timeoutMs = execution.timeoutMs ∧
      some (identityToArtifact contract.bundle) = execution.bundle.map WireArtifact.toLower ∧
      some (identityToArtifact contract.image) = execution.image.map WireArtifact.toLower) ∧
      contract.limits.map limitsFrom = execution.limits ∧
        ∀ l ∈ execution.limits, 0 ≤ l.network ∧ l.network ≤ 2 := by
  simp only [executionTo, bind_eq_ok] at h
  obtain ⟨kind, hkind, wireBundle, hwireBundle, bundle, hbundle, wireImage, hwireImage, image, himage,
    limits, hlimits, h⟩ := h
  cases h
  refine ⟨⟨ExecutionKind.number_of_tryFrom (expect_eq_ok.mp hkind), rfl, rfl, ?_, rfl, ?_, ?_⟩,
    mapM_limitsTo_eq_ok hlimits⟩
  · simp [Function.comp_def]
  · rw [expect_eq_ok.mp hwireBundle, Option.map_some, artifactTo_toLower hbundle]
  · rw [expect_eq_ok.mp hwireImage, Option.map_some, artifactTo_toLower himage]

theorem assignmentTo_eq_ok (h : assignmentTo message assignment = .ok contract) :
    contractToAssignment contract = assignment.toLower ∧ assignment.NetworkKnown := by
  simp only [assignmentTo, bind_eq_ok] at h
  obtain ⟨execution, hexecution, assignmentId, hassignment, attemptId, hattempt, taskId, htask, candidateId,
    hcandidate, contract', hcontract, h⟩ := h
  cases h
  obtain ⟨⟨hkind, hargv, hdirectory, henvironment, htimeout, hbundle, himage⟩, hlimits, hknown⟩ :=
    executionTo_eq_ok hcontract
  have hsome := expect_eq_ok.mp hexecution
  constructor
  · simp only [contractToAssignment, WireAssignment.toLower, hsome, Option.map_some, ToString.toString,
      ValidatedId.tryFrom_text (expect_eq_ok.mp hassignment), ValidatedId.tryFrom_text (expect_eq_ok.mp hattempt),
      ValidatedId.tryFrom_text (expect_eq_ok.mp htask), ValidatedId.tryFrom_text (expect_eq_ok.mp hcandidate),
      hkind, hargv, hdirectory, henvironment, htimeout, hbundle, himage, hlimits]
  · intro execution' hexecution'
    rw [hsome, Option.mem_some] at hexecution'
    exact hexecution' ▸ hknown

theorem validateText_eq_ok (kind : IdKind) {value : String} (h : validateText field value = .ok ()) :
    ∃ id : ValidatedId kind, ValidatedId.tryFrom value = some id := by
  unfold validateText at h
  split at h
  · cases h
  · rename_i hblank
    exact ⟨_, dif_neg hblank⟩

theorem validateArtifact_eq_ok (message : String) {artifact : Option WireArtifact}
    (h : validateArtifact field artifact = .ok ()) :
    ∃ wire descriptor, artifact = some wire ∧ artifactTo message wire = .ok descriptor := by
  cases artifact with
  | none => cases h
  | some wire =>
    unfold validateArtifact at h
    cases hdigest : Sha256Digest.fromStr wire.digest with
    | error error => simp [hdigest] at h
    | ok digest =>
      exact ⟨wire, ⟨digest, wire.sizeBytes, wire.mediaType⟩, rfl, artifactTo_eq_ok.mpr ⟨hdigest, rfl, rfl⟩⟩

theorem validateExecution_eq_ok (message : String)
    (h : validateExecution execution = .ok ()) (hknown : ∀ l ∈ execution.limits, 0 ≤ l.network ∧ l.network ≤ 2) :
    ∃ contract, executionTo message execution = .ok contract := by
  unfold validateExecution at h
  split at h
  · cases h
  · rename_i hkind
    split at h
    · cases h
    · obtain ⟨_, -, h⟩ := bind_eq_ok.mp h
      obtain ⟨_, hbundle, himage⟩ := bind_eq_ok.mp h
      obtain ⟨bundle, bundleDescriptor, hbundle, hb⟩ := validateArtifact_eq_ok message hbundle
      obtain ⟨image, imageDescriptor, himage, hi⟩ := validateArtifact_eq_ok message himage
      obtain ⟨limits, hlimits⟩ := mapM_limitsTo_of_known hknown
      cases hexecutor : ExecutionKind.tryFrom execution.executorKind with
      | none =>
        rw [WireExecutorKind.tryFrom, hexecutor] at hkind
        split at hkind <;> exact absurd rfl hkind
      | some kind =>
        simp only [executionTo, hexecutor, hbundle, himage, hlimits, expect, ok_bind, hb, hi]
        exact ⟨_, rfl⟩

theorem validateAssignment_eq_ok (h : validateAssignment assignment = .ok ()) (hknown : assignment.NetworkKnown) :
    ∃ contract, assignmentTo message assignment = .ok contract := by
  unfold validateAssignment at h
  obtain ⟨_, hassignment, h⟩ := bind_eq_ok.mp h
  obtain ⟨_, hattempt, h⟩ := bind_eq_ok.mp h
  obtain ⟨_, -, h⟩ := bind_eq_ok.mp h
  obtain ⟨_, htask, h⟩ := bind_eq_ok.mp h
  obtain ⟨_, hcandidate, h⟩ := bind_eq_ok.mp h
  obtain ⟨assignmentId, hassignment⟩ := validateText_eq_ok .assignment hassignment
  obtain ⟨attemptId, hattempt⟩ := validateText_eq_ok .attempt hattempt
  obtain ⟨taskId, htask⟩ := validateText_eq_ok .task htask
  obtain ⟨candidateId, hcandidate⟩ := validateText_eq_ok .candidate hcandidate
  cases hexecution : assignment.execution with
  | none => simp [hexecution, throw, throwThe, MonadExceptOf.throw] at h
  | some execution =>
    rw [hexecution] at h
    obtain ⟨contract, hcontract⟩ := validateExecution_eq_ok message h (hknown execution hexecution)
    simp only [assignmentTo, hexecution, hassignment, hattempt, htask, hcandidate, expect, ok_bind, hcontract]
    exact ⟨_, rfl⟩

theorem ExecutionKind.tryFrom_number (kind : ExecutionKind) : tryFrom kind.number = some kind := by
  cases kind <;> rfl

theorem NetworkPolicy.tryFrom_number (policy : NetworkPolicy) : tryFrom policy.number = some policy := by
  cases policy <;> rfl

theorem ValidatedId.tryFrom_toString {kind : IdKind} (id : ValidatedId kind) :
    ValidatedId.tryFrom (toString id) = some id := by
  have hnonblank : ¬ isBlank id.text = true := by simp [id.nonblank]
  exact dif_neg hnonblank

theorem artifactTo_identityToArtifact (h : descriptor.digest.bytes.length = 32) :
    artifactTo message (identityToArtifact descriptor) = .ok descriptor :=
  artifactTo_eq_ok.mpr ⟨Sha256Digest.fromStr_toString h, rfl, rfl⟩

theorem limitsTo_limitsFrom {limits : Option ResourceContract} :
    (limits.map limitsFrom).mapM limitsTo = .ok limits := by
  cases limits with
  | none => rfl
  | some limits =>
    simp only [Option.map_some, Option.mapM_some, limitsTo, limitsFrom, NetworkPolicy.tryFrom_number, expect, ok_bind]
    rfl

theorem assignmentTo_contractToAssignment (hbundle : contract.execution.bundle.digest.bytes.length = 32)
    (himage : contract.execution.image.digest.bytes.length = 32) :
    assignmentTo message (contractToAssignment contract) = .ok contract := by
  simp only [assignmentTo, contractToAssignment, executionTo, expect, ok_bind, ValidatedId.tryFrom_toString,
    ExecutionKind.tryFrom_number, artifactTo_identityToArtifact hbundle, artifactTo_identityToArtifact himage,
    limitsTo_limitsFrom, List.map_map, Function.comp_def, List.map_id']
  rfl

/-- The server and the worker read back the contract of whatever the server sends. -/
theorem sent_contract_read_back (hbundle : contract.execution.bundle.digest.bytes.length = 32)
    (himage : contract.execution.image.digest.bytes.length = 32) :
    assignmentToContract (contractToAssignment contract) = .ok contract ∧
      assignmentToStored (contractToAssignment contract) = .ok contract :=
  ⟨assignmentTo_contractToAssignment hbundle himage, assignmentTo_contractToAssignment hbundle himage⟩

def sentContract : AssignmentContract :=
  let artifact : ArtifactDescriptor := ⟨⟨List.replicate 32 1⟩, 1, "application/octet-stream"⟩
  { sampleContract with execution := { sampleExecution with bundle := artifact, image := artifact } }

theorem sent_contract_read_back_sample : assignmentToStored (contractToAssignment sentContract) = .ok sentContract :=
  (sent_contract_read_back rfl rfl).2

/-- Both mappings of a valid assignment reach the same contract, from which the message can be read back
with its digests in lower case, exactly when its network number is one the protocol defines. -/
theorem mappings_agree_iff_networkKnown {assignment : WireAssignment}
    (hvalid : validateAssignment assignment = .ok ()) :
    (∃ contract, assignmentToContract assignment = .ok contract ∧ assignmentToStored assignment = .ok contract ∧
      contractToAssignment contract = assignment.toLower) ↔ assignment.NetworkKnown := by
  constructor
  · rintro ⟨contract, hcontract, -, -⟩
    exact (assignmentTo_eq_ok hcontract).2
  · intro hknown
    obtain ⟨contract, hcontract⟩ := validateAssignment_eq_ok hvalid hknown
    exact ⟨contract, hcontract, assignmentTo_message hcontract, (assignmentTo_eq_ok hcontract).1⟩

def sampleWireAssignment (network : Int) : WireAssignment where
  assignmentId := "assignment-1"
  attemptId := "attempt-1"
  attemptNumber := 1
  idempotencyKey := "candidate-1:build"
  taskId := "task-1"
  candidateId := "candidate-1"
  execution := some {
    executorKind := 2
    argv := ["cmake", "--build", "build"]
    workingDirectory := "source"
    environment := []
    timeoutMs := 30000
    bundle := some ⟨"sha256:" ++ String.ofList (List.replicate 64 'A'), 1, "application/octet-stream"⟩
    image := some ⟨"sha256:" ++ String.ofList (List.replicate 64 'b'), 1, "application/octet-stream"⟩
    limits := some ⟨1000, 1, 1, 1, 1, 0, network⟩ }
  requiredFeatures := []

theorem mappings_agree_iff_networkKnown_disabled :
    validateAssignment (sampleWireAssignment 1) = .ok () ∧
      ∃ contract, assignmentToContract (sampleWireAssignment 1) = .ok contract ∧
        assignmentToStored (sampleWireAssignment 1) = .ok contract ∧
        contractToAssignment contract = (sampleWireAssignment 1).toLower := by
  have hvalid : validateAssignment (sampleWireAssignment 1) = .ok () := by decide +kernel
  have hknown : (sampleWireAssignment 1).NetworkKnown := by
    intro execution hexecution limits hlimits
    cases hexecution
    cases hlimits
    decide
  exact ⟨hvalid, (mappings_agree_iff_networkKnown hvalid).mpr hknown⟩

/-- A network number the protocol does not define passes validation and ends both mappings in a panic. -/
theorem mappings_panic_on_unknown_network :
    validateAssignment (sampleWireAssignment 3) = .ok () ∧
      assignmentToContract (sampleWireAssignment 3) =
        .error ⟨"validated assignment contains a known network policy"⟩ ∧
      assignmentToStored (sampleWireAssignment 3) =
        .error ⟨"validated assignment contains a known network policy"⟩ := by
  decide +kernel

end AlloyPort
