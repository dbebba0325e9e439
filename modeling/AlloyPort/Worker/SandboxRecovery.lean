import AlloyPort.Worker.SandboxLayout

/-! When a sandbox is laid out on what interrupted calls have left. A file that was created and not written to its end
is taken for a foreign one. -/

namespace AlloyPort.Sandbox

open Attempts Candidate FileTree Crashing

section policies

variable [Sha256] [SandboxTexts] {assignment : AssignmentContract} {artifacts : ArtifactStore} {bytes : List UInt8}
variable {crashed disk disk' : SandboxDisk}

namespace ReductionCorrectnessPolicy

variable {policy : ReductionCorrectnessPolicy} {bundle : ReductionExecutionBundle}

structure Accepts (policy : ReductionCorrectnessPolicy) (assignment : AssignmentContract) (artifacts : ArtifactStore)
    (bytes : List UInt8) (bundle : ReductionExecutionBundle) : Prop where
  allowed : policy.validateAssignment assignment = .ok ()
  read : readBundle artifacts assignment.execution.bundle
    "execution bundle bytes do not match the assignment identity" = .ok bytes
  parsed : SandboxTexts.parseExecutionBundle bytes = .ok bundle
  role : bundle.role = policy.role
  taskId : bundle.experiment.taskId = assignment.taskId
  candidateId : bundle.experiment.candidateId = assignment.candidateId

def sandboxFiles (policy : ReductionCorrectnessPolicy) (bytes : List UInt8) (bundle : ReductionExecutionBundle) :
    List (List (List Char) × List UInt8) := bundleFiles bundle ++ policy.ownFiles bytes

theorem Accepts.materialize (h : policy.Accepts assignment artifacts bytes bundle) :
    policy.materializeBundle assignment artifacts = laying (createRealDirectory policy.sandboxRoot)
      (createRealDirectory (policy.directory assignment)) (policy.layBundle (policy.directory assignment) bundle bytes)
      (policy.directory assignment) ((policy.sandboxFiles bytes bundle).map Prod.fst)
      ⟨policy.directory assignment, bundle.implementationDigest⟩ := by
  have hmatches : ¬ (bundle.role ≠ policy.role ∨ bundle.experiment.taskId ≠ assignment.taskId ∨
      bundle.experiment.candidateId ≠ assignment.candidateId) := by
    simp [h.role, h.taskId, h.candidateId]
  have hexpected : (bundle.files.map fun file => Migration.components file.path.text) ++
      [[BUNDLE_FILENAME], [CONFIG_FILENAME], [CORRECTNESS_RUNNER_FILENAME]] =
        (policy.sandboxFiles bytes bundle).map Prod.fst := by
    simp [sandboxFiles, bundleFiles, ownFiles]
  unfold materializeBundle
  simp only [h.allowed, h.read, h.parsed, mapError_ok, attempt_ok_bind, if_neg hmatches, ← hexpected]
  rfl

theorem bundleFiles_below (h : policy.Accepts assignment artifacts bytes bundle) :
    ∃ first, (first = "input".toList ∨ first = "generated".toList) ∧
      ∀ file ∈ bundleFiles bundle, ∃ rest, file.1 = first :: rest := by
  obtain ⟨corpusDigest, hnew⟩ := SandboxTexts.execution_new bytes bundle h.parsed
  have hroots : ∀ file ∈ bundle.files, file.path.startsWith bundle.role.expectedRoot = true := by
    unfold ReductionExecutionBundle.new at hnew
    split at hnew
    · rename_i hvalid
      exact hvalid.2.2.2.2.1
    · cases hnew
  have hfiles : ∀ first, '/' ∉ first → bundle.role.expectedRoot.toList = first ++ ['/'] →
      ∀ file ∈ bundleFiles bundle, ∃ rest, file.1 = first :: rest := by
    intro first hplain hroot file hfile
    obtain ⟨source, hsource, rfl⟩ := List.mem_map.mp hfile
    exact components_below hroot hplain (hroots source hsource)
  cases hrole : bundle.role with
  | cudaReference => exact ⟨_, .inl rfl, hfiles "input".toList (by decide) (by rw [hrole]; rfl)⟩
  | ascendCandidate => exact ⟨_, .inr rfl, hfiles "generated".toList (by decide) (by rw [hrole]; rfl)⟩

theorem Accepts.layout (h : policy.Accepts assignment artifacts bytes bundle) :
    Layout policy.sandboxRoot assignment.attemptId.text.toList (policy.sandboxFiles bytes bundle) True
      (createRealDirectory policy.sandboxRoot) (createRealDirectory (policy.directory assignment))
      (policy.layBundle (policy.directory assignment) bundle bytes) where
  toRoot := makes_realDirectory (List.prefix_append _ _)
  toDirectory := makes_realDirectory List.prefix_rfl
  body := by
    obtain ⟨first, _, hbelow⟩ := bundleFiles_below h
    have hown : ∀ {name contents}, ([name], contents) ∈ policy.ownFiles bytes →
        ([name], contents) ∈ policy.sandboxFiles bytes bundle := fun hmem => List.mem_append_right _ hmem
    have hbundle : Tree.Lays (policy.directory assignment) (policy.sandboxFiles bytes bundle) (bundleFiles bundle)
        (Tree.layEach (fun file => layBundleFile (policy.directory assignment) (Migration.components file.path.text)
          (utf8 file.contents)) bundle.files) := by
      apply Tree.lays_each
      intro file hfile
      have hmem : (Migration.components file.path.text, utf8 file.contents) ∈ bundleFiles bundle :=
        List.mem_map_of_mem hfile
      apply lays_bundleFile (List.mem_append_left _ hmem)
      obtain ⟨rest, hpath⟩ := hbelow _ hmem
      rw [show Migration.components file.path.text = first :: rest from hpath]
      nofun
    apply hbundle.bind
    apply (lays_ownFile (hown (by simp [ownFiles]))).bind
    apply (lays_ownFile (hown (by simp [ownFiles]))).bind
    exact lays_ownFile (hown (by simp [ownFiles]))

theorem Accepts.crossless_iff (h : policy.Accepts assignment artifacts bytes bundle) :
    Tree.Crossless (policy.sandboxFiles bytes bundle) ↔ Tree.Crossless (bundleFiles bundle) := by
  obtain ⟨first, hfirst, hbelow⟩ := bundleFiles_below h
  apply crossless_append_iff [(BUNDLE_FILENAME, bytes),
    (CONFIG_FILENAME, SandboxTexts.runnerConfig policy.environmentDigest),
    (CORRECTNESS_RUNNER_FILENAME, SandboxTexts.correctnessRunner)] hbelow
  · change first ∉ [BUNDLE_FILENAME, CONFIG_FILENAME, CORRECTNESS_RUNNER_FILENAME]
    rcases hfirst with rfl | rfl <;> decide
  · change [BUNDLE_FILENAME, CONFIG_FILENAME, CORRECTNESS_RUNNER_FILENAME].Nodup
    decide

theorem materializeBundle_run_ok {sandbox : CorrectnessSandbox}
    (h : (policy.materializeBundle assignment artifacts).run disk = .ok (sandbox, disk')) :
    ∃ bytes bundle, policy.Accepts assignment artifacts bytes bundle := by
  obtain ⟨_, _, hallowed, h₁⟩ := run_bind_ok.mp h
  obtain ⟨bytes, _, hread, h₂⟩ := run_bind_ok.mp h₁
  obtain ⟨bundle, _, hparsed, h₃⟩ := run_bind_ok.mp h₂
  obtain ⟨hallowed, _⟩ := run_attempt_ok.mp hallowed
  obtain ⟨hread, _⟩ := run_attempt_ok.mp hread
  obtain ⟨hparsed, _⟩ := run_attempt_ok.mp hparsed
  by_cases hother : bundle.role ≠ policy.role ∨ bundle.experiment.taskId ≠ assignment.taskId ∨
      bundle.experiment.candidateId ≠ assignment.candidateId
  · rw [if_pos hother] at h₃
    cases h₃
  · simp only [ne_eq, not_or, not_not] at hother
    exact ⟨bytes, bundle, hallowed, hread, Effect.mapError_eq_ok.mp hparsed, hother.1, hother.2.1, hother.2.2⟩

end ReductionCorrectnessPolicy

namespace AscendBuildPolicy

variable {policy : AscendBuildPolicy} {bundle : CandidateBuildBundle}

structure Accepts (policy : AscendBuildPolicy) (assignment : AssignmentContract) (artifacts : ArtifactStore)
    (bytes : List UInt8) (bundle : CandidateBuildBundle) : Prop where
  allowed : policy.validateAssignment assignment = .ok ()
  read : readBundle artifacts assignment.execution.bundle
    "build bundle bytes do not match the assignment identity" = .ok bytes
  parsed : SandboxTexts.parseBuildBundle bytes = .ok bundle
  candidateId : bundle.candidateId = assignment.candidateId
  taskId : bundle.taskId = assignment.taskId
  architecture : bundle.targetArchitecture = policy.architecture

def sandboxFiles (bundle : CandidateBuildBundle) : List (List (List Char) × List UInt8) :=
  bundleFiles bundle ++ ownFiles

theorem Accepts.materialize (h : policy.Accepts assignment artifacts bytes bundle) :
    policy.materializeBundle assignment artifacts = laying (createSandboxRoot policy.sandboxRoot)
      (createRealDirectory (policy.directory assignment)) (layBundle (policy.directory assignment) bundle)
      (policy.directory assignment) ((sandboxFiles bundle).map Prod.fst)
      ⟨policy.directory assignment, assignment.execution.bundle.digest⟩ := by
  have hmatches : ¬ (bundle.candidateId ≠ assignment.candidateId ∨ bundle.taskId ≠ assignment.taskId ∨
      bundle.targetArchitecture ≠ policy.architecture) := by
    simp [h.candidateId, h.taskId, h.architecture]
  have hexpected : (bundle.files.map fun file => Migration.components file.path.text) ++ [[BUILD_RUNNER_FILENAME]] =
      (sandboxFiles bundle).map Prod.fst := by
    simp [sandboxFiles, bundleFiles, ownFiles]
  unfold materializeBundle
  simp only [h.allowed, h.read, h.parsed, mapError_ok, attempt_ok_bind, if_neg hmatches, ← hexpected]
  rfl

theorem Accepts.file_new (h : policy.Accepts assignment artifacts bytes bundle) {file : CandidateBuildFile}
    (hfile : file ∈ bundle.files) : file.path.startsWith GENERATED_ROOT = true ∧
      (utf8 file.contents).length = file.sizeBytes ∧ Sha256.digestBytes (utf8 file.contents) = file.digest := by
  have hnew := (SandboxTexts.build_new bytes bundle h.parsed).2 file hfile
  unfold CandidateBuildFile.new at hnew
  split at hnew
  · rename_i hvalid
    exact ⟨hvalid.1, hvalid.2.2.1.symm, hvalid.2.2.2.symm⟩
  · cases hnew

theorem bundleFiles_below (h : policy.Accepts assignment artifacts bytes bundle) :
    ∀ file ∈ bundleFiles bundle, ∃ rest, file.1 = "generated".toList :: rest := by
  intro file hfile
  obtain ⟨source, hsource, rfl⟩ := List.mem_map.mp hfile
  exact components_below (show GENERATED_ROOT.toList = "generated".toList ++ ['/'] from rfl) (by decide)
    (h.file_new hsource).1

theorem Accepts.layout (h : policy.Accepts assignment artifacts bytes bundle) :
    Layout policy.sandboxRoot assignment.attemptId.text.toList (sandboxFiles bundle) False
      (createSandboxRoot policy.sandboxRoot) (createRealDirectory (policy.directory assignment))
      (layBundle (policy.directory assignment) bundle) where
  toRoot := makes_sandboxRoot (List.prefix_append _ _)
  toDirectory := makes_realDirectory List.prefix_rfl
  body := by
    have hbundle : Tree.Lays (policy.directory assignment) (sandboxFiles bundle) (bundleFiles bundle)
        (Tree.layEach (layFile (policy.directory assignment)) bundle.files) := by
      apply Tree.lays_each
      intro file hfile
      have hmem : (Migration.components file.path.text, utf8 file.contents) ∈ bundleFiles bundle :=
        List.mem_map_of_mem hfile
      obtain ⟨_, hsize, hdigest⟩ := h.file_new hfile
      apply lays_verified (lays_bundleFile (List.mem_append_left _ hmem) _) hsize hdigest
      obtain ⟨rest, hpath⟩ := bundleFiles_below h _ hmem
      rw [show Migration.components file.path.text = "generated".toList :: rest from hpath]
      nofun
    exact hbundle.bind (lays_ownFile (List.mem_append_right _ (List.mem_singleton_self _)))

theorem Accepts.crossless_iff (h : policy.Accepts assignment artifacts bytes bundle) :
    Tree.Crossless (sandboxFiles bundle) ↔ Tree.Crossless (bundleFiles bundle) := by
  apply crossless_append_iff [(BUILD_RUNNER_FILENAME, SandboxTexts.buildRunner)] (bundleFiles_below h)
  · change "generated".toList ∉ [BUILD_RUNNER_FILENAME]
    decide
  · exact List.nodup_singleton _

theorem materializeBundle_run_ok {sandbox : AscendBuildSandbox}
    (h : (policy.materializeBundle assignment artifacts).run disk = .ok (sandbox, disk')) :
    ∃ bytes bundle, policy.Accepts assignment artifacts bytes bundle := by
  obtain ⟨_, _, hallowed, h₁⟩ := run_bind_ok.mp h
  obtain ⟨bytes, _, hread, h₂⟩ := run_bind_ok.mp h₁
  obtain ⟨bundle, _, hparsed, h₃⟩ := run_bind_ok.mp h₂
  obtain ⟨hallowed, _⟩ := run_attempt_ok.mp hallowed
  obtain ⟨hread, _⟩ := run_attempt_ok.mp hread
  obtain ⟨hparsed, _⟩ := run_attempt_ok.mp hparsed
  by_cases hother : bundle.candidateId ≠ assignment.candidateId ∨ bundle.taskId ≠ assignment.taskId ∨
      bundle.targetArchitecture ≠ policy.architecture
  · rw [if_pos hother] at h₃
    cases h₃
  · simp only [ne_eq, not_or, not_not] at hother
    exact ⟨bytes, bundle, hallowed, hread, Effect.mapError_eq_ok.mp hparsed, hother.1, hother.2.1, hother.2.2⟩

end AscendBuildPolicy

/-- A call on what earlier ones have left returns the sandbox, which holds the files and no others. -/
def Recovers {α : Type} (materialize : Crashing SandboxDisk ContractError α) (sandbox : α)
    (directory : List (List Char)) (files : List (List (List Char) × List UInt8)) (crashed : SandboxDisk) : Prop :=
  ∃ disk', materialize.run crashed = .ok (sandbox, disk') ∧ Tree.Exactly directory files disk'.tree

end policies

/-- Whatever number of calls were stopped before, the next one returns the sandbox exactly when no path of the bundle is
a directory of another and every file that is there has its whole contents. No other tree is returned. -/
theorem interrupted_sandbox_recovers_iff [Sha256] [SandboxTexts] :
    (∀ (policy : ReductionCorrectnessPolicy) assignment artifacts bytes bundle before crashed,
      policy.Accepts assignment artifacts bytes bundle →
      Fresh policy.sandboxRoot (policy.directory assignment) before →
      (policy.sandboxRoot ≠ [] → before.tree.node policy.sandboxRoot.dropLast = some .directory) →
      Relation.ReflTransGen (Leaves (policy.materializeBundle assignment artifacts)) before crashed →
      (Recovers (policy.materializeBundle assignment artifacts) ⟨policy.directory assignment,
          bundle.implementationDigest⟩ (policy.directory assignment) (policy.sandboxFiles bytes bundle) crashed ↔
        Tree.Crossless (ReductionCorrectnessPolicy.bundleFiles bundle) ∧
          Tree.Whole (policy.directory assignment) (policy.sandboxFiles bytes bundle) crashed.tree)) ∧
    (∀ (policy : AscendBuildPolicy) assignment artifacts bytes bundle before crashed,
      policy.Accepts assignment artifacts bytes bundle →
      Fresh policy.sandboxRoot (policy.directory assignment) before →
      Relation.ReflTransGen (Leaves (policy.materializeBundle assignment artifacts)) before crashed →
      (Recovers (policy.materializeBundle assignment artifacts)
          ⟨policy.directory assignment, assignment.execution.bundle.digest⟩ (policy.directory assignment)
          (AscendBuildPolicy.sandboxFiles bundle) crashed ↔
        Tree.Crossless (AscendBuildPolicy.bundleFiles bundle) ∧
          Tree.Whole (policy.directory assignment) (AscendBuildPolicy.sandboxFiles bundle) crashed.tree)) ∧
    (∀ (policy : ReductionCorrectnessPolicy) assignment artifacts disk disk' sandbox,
      (policy.materializeBundle assignment artifacts).run disk = .ok (sandbox, disk') →
      ∃ bytes bundle, policy.Accepts assignment artifacts bytes bundle ∧
        Tree.Exactly (policy.directory assignment) (policy.sandboxFiles bytes bundle) disk'.tree) ∧
    ∀ (policy : AscendBuildPolicy) assignment artifacts disk disk' sandbox,
      (policy.materializeBundle assignment artifacts).run disk = .ok (sandbox, disk') →
      ∃ bytes bundle, policy.Accepts assignment artifacts bytes bundle ∧
        Tree.Exactly (policy.directory assignment) (AscendBuildPolicy.sandboxFiles bundle) disk'.tree := by
  refine ⟨?_, ?_, ?_, ?_⟩
  · intro policy assignment artifacts bytes bundle before crashed h hfresh hparent hcrashed
    rw [h.materialize] at hcrashed
    rw [← h.crossless_iff, Recovers, h.materialize]
    exact laying_recovers_iff h.layout rfl hfresh (fun _ => hparent) hcrashed
  · intro policy assignment artifacts bytes bundle before crashed h hfresh hcrashed
    rw [h.materialize] at hcrashed
    rw [← h.crossless_iff, Recovers, h.materialize]
    exact laying_recovers_iff h.layout rfl hfresh (fun h => h.elim) hcrashed
  · intro policy assignment artifacts disk disk' sandbox h
    obtain ⟨bytes, bundle, haccepts⟩ := policy.materializeBundle_run_ok h
    rw [haccepts.materialize] at h
    exact ⟨bytes, bundle, haccepts, laying_exactly haccepts.layout.body rfl h⟩
  · intro policy assignment artifacts disk disk' sandbox h
    obtain ⟨bytes, bundle, haccepts⟩ := policy.materializeBundle_run_ok h
    rw [haccepts.materialize] at h
    exact ⟨bytes, bundle, haccepts, laying_exactly haccepts.layout.body rfl h⟩

section samples

attribute [local instance] transparentSha256

def sandboxFile : ReductionExecutionFile := ⟨⟨"input/k.cu", Eq.refl true⟩, Sha256.digestBytes (utf8 "sum"), 3, "sum"⟩

def sandboxExperiment : ReductionCorrectnessExperiment :=
  ⟨⟨[1]⟩, sampleContract.taskId, sampleContract.candidateId, ⟨[2]⟩, ⟨[3]⟩, ⟨[4]⟩, ⟨[5]⟩, ⟨[6]⟩, ⟨[7]⟩⟩

def sandboxBundle : ReductionExecutionBundle :=
  ⟨1, sandboxExperiment, .cudaReference, none, implementationIdentity [sandboxFile], ⟨"sum", "reference", "candidate"⟩,
    ⟨"r1", []⟩, [sandboxFile]⟩

theorem sandboxBundle_new : ReductionExecutionBundle.new sandboxBundle.experiment sandboxBundle.role
    sandboxBundle.callable sandboxBundle.corpus ⟨[6]⟩ sandboxBundle.files = .ok sandboxBundle := by
  apply if_pos
  decide

@[reducible] def sandboxTexts : SandboxTexts where
  parseExecutionBundle bytes := if bytes = [10] then .ok sandboxBundle else .error "no bundle"
  parseBuildBundle _ := .error "no bundle"
  execution_new bytes bundle h := by
    split at h
    · cases h
      exact ⟨_, sandboxBundle_new⟩
    · cases h
  build_new bytes bundle h := by cases h
  runnerConfig _ := [1]
  correctnessRunner := [2]
  buildRunner := [3]

attribute [local instance] sandboxTexts

def sandboxPolicy : ReductionCorrectnessPolicy where
  role := .cudaReference
  imageManifestDigest := ⟨[9]⟩
  imageMediaType := "image"
  sandboxRoot := [['s']]
  ceilings := ⟨1, 1, 1, MINIMUM_DISK_BYTES, 1, 1⟩
  environmentDigest := ⟨[8]⟩

def sandboxAssignment : AssignmentContract := { sampleContract with
  execution :=
    { executorKind := .cudaCorrectness
      argv := [RUNNER_ARGV]
      workingDirectory := "."
      environment := []
      timeoutMs := 1
      bundle := ⟨⟨[10]⟩, 1, REDUCTION_EXECUTION_BUNDLE_MEDIA_TYPE⟩
      image := ⟨⟨[9]⟩, 1, "image"⟩
      limits := some ⟨1, 1, MINIMUM_DISK_BYTES, 1, 1, 1, .disabled⟩ }
  requiredFeatures := [CUDA_REDUCTION_CORRECTNESS_FEATURE] }

theorem sandbox_accepted : sandboxPolicy.Accepts sandboxAssignment [[10]] [10] sandboxBundle where
  allowed := by decide
  read := by decide
  parsed := rfl
  role := rfl
  taskId := rfl
  candidateId := rfl

theorem sandbox_fresh : Fresh sandboxPolicy.sandboxRoot (sandboxPolicy.directory sandboxAssignment) Folder.empty where
  way q _ contents hfile := by
    have hnode : (if q = [] then some (Node.directory (F := List UInt8)) else none) = some (.file contents) := hfile
    split at hnode <;> cases hnode
  below rel := rfl

def sandboxSteps : Crashing SandboxDisk ContractError CorrectnessSandbox :=
  sandboxPolicy.materializeBundle sandboxAssignment [[10]]

def sandboxCrash (steps : Nat) : SandboxDisk := ((sandboxSteps Folder.empty).2[steps]?).getD Folder.empty

theorem sandboxCrash_leaves (steps : Nat) : Leaves sandboxSteps Folder.empty (sandboxCrash steps) := by
  unfold sandboxCrash
  cases hpassed : (sandboxSteps Folder.empty).2[steps]? with
  | none => exact .inl rfl
  | some disk => exact .inr (.inl (List.mem_of_getElem? hpassed))

/-- Stopped before the file of the bundle was created, the next call returns the sandbox. -/
theorem interrupted_sandbox_recovers_sample : ∃ crashed, Leaves sandboxSteps Folder.empty crashed ∧
    Recovers sandboxSteps ⟨sandboxPolicy.directory sandboxAssignment, sandboxBundle.implementationDigest⟩
      (sandboxPolicy.directory sandboxAssignment) (sandboxPolicy.sandboxFiles [10] sandboxBundle) crashed := by
  have hapart : Tree.Crossless (ReductionCorrectnessPolicy.bundleFiles sandboxBundle) := by
    intro file hfile other hother _
    obtain rfl := List.mem_singleton.mp hfile
    exact (List.mem_singleton.mp hother).symm
  have hwhole : Tree.Whole (sandboxPolicy.directory sandboxAssignment) (sandboxPolicy.sandboxFiles [10] sandboxBundle)
      (sandboxCrash 2).tree := Tree.whole_of_all (by decide +kernel)
  refine ⟨sandboxCrash 2, sandboxCrash_leaves 2, ?_⟩
  exact (interrupted_sandbox_recovers_iff.1 sandboxPolicy sandboxAssignment [[10]] [10] sandboxBundle Folder.empty
    (sandboxCrash 2) sandbox_accepted sandbox_fresh (fun _ => rfl) (.single (sandboxCrash_leaves 2))).mpr ⟨hapart,
      hwhole⟩

/-- Stopped in the middle of the file, every later call refuses what it finds. -/
theorem torn_sandbox_not_recovered : sandboxPolicy.Accepts sandboxAssignment [[10]] [10] sandboxBundle ∧
    Fresh sandboxPolicy.sandboxRoot (sandboxPolicy.directory sandboxAssignment) Folder.empty ∧
    ∃ crashed, Leaves sandboxSteps Folder.empty crashed ∧
      ∀ sandbox disk, sandboxSteps.run crashed ≠ .ok (sandbox, disk) := by
  have hfails : (match sandboxSteps.run (sandboxCrash 4) with
      | .error error => some error
      | .ok _ => none) = some .unsafePath := by
    decide +kernel
  refine ⟨sandbox_accepted, sandbox_fresh, sandboxCrash 4, sandboxCrash_leaves 4, fun sandbox disk hdone => ?_⟩
  rw [hdone] at hfails
  cases hfails

end samples

end AlloyPort.Sandbox
