import AlloyPort.Candidate.Adding
import AlloyPort.Candidate.Digests

/-! Where the receipts come from that a correctness request cites. The gateway authors them, but what the model
submits as source text lies in the same store. -/

namespace AlloyPort.Candidate

open Database Machine Transaction

inductive GatewayEvent where
  | called (operationId : ToolOperationId) (call : ToolCall) (answers : AttemptAnswers)
  | undecodable (tool detail : String)
  /-- Somebody else, such as a worker, stores bytes. -/
  | stored (bytes : List UInt8)

structure AuthoredReceipt where
  bundle : CandidateBuildBundle
  assignment : AssignmentContract
  terminal : AscendBuildTerminal
  receipt : AscendBuildReceipt
  authored : AscendBuildReceipt.new bundle assignment terminal = .ok receipt

structure GatewayReply where
  authored : Option AuthoredReceipt
  dispatched : Option ReductionCorrectnessAttemptSpec

def writtenTexts : GatewayEvent → List (List UInt8)
  | .called _ (.submitCandidateBundle arguments) _ => arguments.bundle.files.map fun file => utf8 file.contents
  | _ => []

def authorTerminal (bundle : CandidateBuildBundle) (assignment : AssignmentContract) (terminal : AscendBuildTerminal) :
    Option AuthoredReceipt :=
  match h : AscendBuildReceipt.new bundle assignment terminal with
  | .ok receipt => some ⟨bundle, assignment, terminal, receipt, h⟩
  | .error _ => none

def authorReceipt (bundle : CandidateBuildBundle) (assignment : AssignmentContract) :
    Except AttemptError AscendBuildAttemptObservation → Option AuthoredReceipt
  | .ok (.finished terminal) => authorTerminal bundle assignment terminal
  | _ => none

section gatewayLife

variable [Sha256] [GatewayJson]

section machine

variable (gateway : CandidateToolGateway)

def authoredBy (s : GatewayState) : GatewayEvent → Option AuthoredReceipt
  | .called operationId (.requestAscendBuild arguments) answers => match gateway.build with
    | none => none
    | some policy => match (prepareBuild gateway.config policy operationId arguments s).1 with
      | .ok (.ready bundle assignment) => authorReceipt bundle assignment answers.build
      | _ => none
  | _ => none

def dispatchedBy (s : GatewayState) : GatewayEvent → Option ReductionCorrectnessAttemptSpec
  | .called _ (.requestReductionCorrectness arguments) _ => match gateway.correctness with
    | none => none
    | some policy => (prepareCorrectness gateway.config policy arguments s).1.toOption
  | _ => none

variable [CorrectnessOracle]

def serve : GatewayEvent → GatewayAction Unit
  | .called operationId call answers => match validateCall gateway call with
    | .ok () => do
      let _ ← execute gateway operationId call answers
      return ()
    | .error defect => do
      let _ ← ingestDocument (.inputRejection call.name defect)
      return ()
  | .undecodable tool detail => do
    let _ ← ingestDocument (.inputRejection tool (.undecodable detail))
    return ()
  | .stored bytes => do
    let _ ← ingestBytes bytes
    return ()

def gatewayLife : System GatewayState GatewayEvent GatewayReply where
  initial := ⟨[], []⟩
  act s event := some ((serve gateway event s).2, ⟨authoredBy gateway s event, dispatchedBy gateway s event⟩)

end machine

section honesty

variable (config : CandidateToolConfig)

/-- The bytes do not read as a passing receipt for this task. -/
def NotPassing (bytes : List UInt8) : Prop :=
  ∀ receipt, parseReceipt bytes = some receipt → ¬ (receipt.passed = true ∧ receipt.taskId = config.taskId)

/-- The bytes read as nothing that a tool asks for. -/
def NoDocument (bytes : List UInt8) : Prop :=
  parseManifest bytes = none ∧ parseReceipt bytes = none ∧ ∀ receipt, sourceGateReceiptBytes receipt ≠ bytes

def Honest : Guard GatewayState GatewayEvent GatewayReply := fun _ _ event =>
  (∀ bytes ∈ writtenTexts event, NoDocument bytes) ∧ ∀ bytes, event = .stored bytes → NotPassing config bytes

/-- What JSON promises: a document of one kind does not read as one of another, and a receipt reads as itself. -/
structure TellsKinds [CorrectnessOracle] : Prop where
  documents : ∀ document read, GatewayJson.parseBuildReceipt (GatewayJson.documentBytes document) = some read →
    document = .buildReceipt read
  manifests : ∀ document, GatewayJson.parseBuildReceipt (CandidateJson.manifestBytes document) = none
  results : ∀ result, GatewayJson.parseBuildReceipt (CandidateJson.resultBytes result) = none
  judgements : ∀ experiment referenceBundle candidateBundle reference candidate judgement,
    CorrectnessOracle.judge experiment referenceBundle candidateBundle reference candidate = .ok judgement →
    GatewayJson.parseBuildReceipt judgement.calibration = none ∧ GatewayJson.parseBuildReceipt judgement.receipt = none

/-- The manifests, the build receipts and the source receipts that an event reads, under the digests it cites. -/
inductive Cited (s : GatewayState) : GatewayEvent → Sha256Digest → Prop where
  | inherited {operationId arguments answers digest} (h : arguments.inheritFromManifestDigest = some digest) :
      Cited s (.called operationId (.submitCandidateBundle arguments) answers) digest
  | gated {operationId digest answers} : Cited s (.called operationId (.requestSourceGate digest) answers) digest
  | reported {operationId digest answers} : Cited s (.called operationId (.readBuildDiagnostics digest) answers) digest
  | reportedManifest {operationId digest answers bytes receipt} (hopen : s.artifacts.openArtifact digest = some bytes)
      (h : parseReceipt bytes = some receipt) :
      Cited s (.called operationId (.readBuildDiagnostics digest) answers) receipt.manifestDigest
  | built {operationId arguments answers} :
      Cited s (.called operationId (.requestAscendBuild arguments) answers) arguments.manifestDigest
  | builtGate {operationId arguments answers} :
      Cited s (.called operationId (.requestAscendBuild arguments) answers) arguments.sourceGateReceiptDigest
  | judged {operationId arguments answers} :
      Cited s (.called operationId (.requestReductionCorrectness arguments) answers) arguments.manifestDigest
  | judgedBuild {operationId arguments answers} :
      Cited s (.called operationId (.requestReductionCorrectness arguments) answers) arguments.buildGateReceiptDigest

/-- The bytes are cited, and they are a manifest or a receipt to the tool that reads them. -/
def Accepted (s : GatewayState) (event : GatewayEvent) (bytes : List UInt8) : Prop :=
  (∃ digest, Cited s event digest ∧ s.artifacts.openArtifact digest = some bytes) ∧
    (parseManifest bytes ≠ none ∨ parseReceipt bytes ≠ none ∨ ∃ receipt, sourceGateReceiptBytes receipt = bytes)

end honesty

section dispatching

variable {config : CandidateToolConfig} {s : GatewayState} {policy : CandidateCorrectnessToolConfig}
  {arguments : RequestReductionCorrectnessArguments}

structure CitesReceipt (config : CandidateToolConfig) (arguments : RequestReductionCorrectnessArguments)
    (s : GatewayState) (receipt : AscendBuildReceipt) : Prop where
  passed : receipt.passed = true
  taskId : receipt.taskId = config.taskId
  candidateId : receipt.candidateId = arguments.candidateId
  manifestDigest : receipt.manifestDigest = arguments.manifestDigest
  sourceGateReceiptDigest : receipt.sourceGateReceiptDigest = arguments.sourceGateReceiptDigest
  stored : ∃ bytes, s.artifacts.openArtifact arguments.buildGateReceiptDigest = some bytes ∧
    parseReceipt bytes = some receipt

theorem readBuildReceipt_wp : (readBuildReceipt config arguments).wp s
    (fun receipt s' => s' = s ∧ CitesReceipt config arguments s receipt) fun _ _ => True := by
  simp only [readBuildReceipt, wp_bind]
  refine wp_mono readBounded_wp ?_ fun _ _ _ => trivial
  rintro bytes s' ⟨hsame, hopen⟩
  subst hsame
  simp only [wp_ite, wp_raise]
  split
  · cases hparse : parseReceipt bytes with
    | none => trivial
    | some receipt =>
      simp only [wp_ite, wp_pure, wp_raise]
      split
      · rename_i hchecked
        obtain ⟨hpassed, htask, hcandidate, hmanifest, hsource⟩ := hchecked
        exact ⟨trivial, hpassed, htask, hcandidate, hmanifest, hsource, bytes, hopen, hparse⟩
      · trivial
  · trivial

theorem prepareCorrectness_wp : (prepareCorrectness config policy arguments).wp s
    (fun spec _ => spec.experiment = correctnessExperiment config policy arguments ∧
      ∃ receipt, CitesReceipt config arguments s receipt) fun _ _ => True := by
  simp only [prepareCorrectness, wp_bind]
  refine wp_mono readBuildReceipt_wp ?_ fun _ _ _ => trivial
  rintro receipt s₁ ⟨_, hcites⟩
  refine wp_mono wp_trivial ?_ fun _ _ _ => trivial
  intro manifest s₂ _
  simp only [wp_ite, wp_raise, wp_bind]
  split
  · refine wp_mono wp_trivial ?_ fun _ _ _ => trivial
    intro sources s₃ _
    simp only [wp_attempt]
    refine ⟨fun files _ => ⟨fun reference _ => ⟨fun candidate _ => ?_, fun _ _ => trivial⟩, fun _ _ => trivial⟩,
      fun _ _ => trivial⟩
    refine wp_mono wp_trivial ?_ fun _ _ _ => trivial
    intro referenceArtifact s₄ _
    refine wp_mono wp_trivial ?_ fun _ _ _ => trivial
    intro candidateArtifact s₅ _
    exact ⟨rfl, receipt, hcites⟩
  · trivial

end dispatching

section runs

variable [CorrectnessOracle] {gateway : CandidateToolGateway} {config : CandidateToolConfig} {s : GatewayState}
  {event : GatewayEvent} {log : History GatewayEvent GatewayReply}

/-- What a step stores: no passing receipt but the one that it authors. -/
def Kept (config : CandidateToolConfig) (authored : Option AuthoredReceipt) (bytes : List UInt8) : Prop :=
  NotPassing config bytes ∨ ∃ made, authored = some made ∧ bytes = buildReceiptBytes made.receipt

/-- What a step stores: bytes of a sort, and the receipt that it authors. -/
def KeptBut (N : List UInt8 → Prop) (authored : Option AuthoredReceipt) (bytes : List UInt8) : Prop :=
  N bytes ∨ ∃ made, authored = some made ∧ bytes = buildReceiptBytes made.receipt

/-- What does not read as a receipt is of the sort. -/
def Spares (N : List UInt8 → Prop) : Prop := ∀ bytes, GatewayJson.parseBuildReceipt bytes = none → N bytes

variable {N : List UInt8 → Prop}

omit [Sha256] [CorrectnessOracle] in
theorem spares_notPassing : Spares (NotPassing config) := by
  intro bytes h receipt hreceipt
  rw [parseReceipt, h] at hreceipt
  cases hreceipt

omit [Sha256] in
theorem covers_kept (htells : TellsKinds) (hN : Spares N) (authored : Option AuthoredReceipt) :
    Covers (KeptBut N authored) where
  documents := by
    intro document hkind
    refine .inl (hN _ ?_)
    by_contra hread
    obtain ⟨read, hread⟩ := Option.ne_none_iff_exists'.mp hread
    exact hkind read (htells.documents document read hread)
  manifests document := .inl (hN _ (htells.manifests document))
  results result := .inl (hN _ (htells.results result))
  judgements experiment referenceBundle candidateBundle reference candidate judgement hjudge := by
    obtain ⟨hcalibration, hreceipt⟩ := htells.judgements _ _ _ _ _ _ hjudge
    exact ⟨.inl (hN _ hcalibration), .inl (hN _ hreceipt)⟩

variable {bundle : CandidateBuildBundle} {assignment : AssignmentContract} {terminal : AscendBuildTerminal}
variable {operationId : ToolOperationId} {answers : AttemptAnswers} {authored : Option AuthoredReceipt}
  {call : ToolCall}

omit [Sha256] [GatewayJson] [CorrectnessOracle] in
theorem authorTerminal_new
    {receipt : AscendBuildReceipt} (h : AscendBuildReceipt.new bundle assignment terminal = .ok receipt) :
    authorTerminal bundle assignment terminal = some ⟨bundle, assignment, terminal, receipt, h⟩ := by
  unfold authorTerminal
  split
  · rename_i found hfound
    have heq : found = receipt := Except.ok.inj (hfound.symm.trans h)
    subst heq
    rfl
  · rename_i heq
    rw [h] at heq
    cases heq

theorem adds_observeBuild (htells : TellsKinds) (hN : Spares N) :
      Respects (Adds (KeptBut N (authorTerminal bundle assignment terminal)))
      (observeBuild bundle assignment (.finished terminal)) := by
  have hP : Covers (KeptBut N (authorTerminal bundle assignment terminal)) := covers_kept htells hN _
  simp only [observeBuild]
  cases hnew : AscendBuildReceipt.new bundle assignment terminal with
  | error error => exact fun s => Adds.refl s
  | ok receipt =>
    have hkept : KeptBut N (authorTerminal bundle assignment terminal) (buildReceiptBytes receipt) :=
      .inr ⟨_, authorTerminal_new hnew, rfl⟩
    exact fun s => adds_bind (adds_publish hP hkept) (fun _ => adds_pure) s

theorem adds_answered (htells : TellsKinds) (hN : Spares N)
    {answer : Except AttemptError AscendBuildAttemptObservation} :
    Respects (Adds (KeptBut N (authorReceipt bundle assignment answer)))
      (attempt (answer.mapError fun error => .adapter (.attempt error)) >>= observeBuild bundle assignment) := by
  cases answer with
  | error error => exact fun s => Adds.refl s
  | ok observation => cases observation with
    | pending digest => exact fun s => Adds.refl s
    | finished terminal => exact fun s => adds_observeBuild htells hN s

theorem adds_requestAscendBuild (htells : TellsKinds) (hN : Spares N) {policy : CandidateBuildToolConfig}
    {arguments : RequestAscendBuildArguments} (hbuild : gateway.build = some policy) :
    Adds (KeptBut N (authoredBy gateway s (.called operationId (.requestAscendBuild arguments) answers))) s
      (requestAscendBuild gateway.config policy operationId arguments answers.build s).2 := by
  have hP (authored : Option AuthoredReceipt) : Covers (KeptBut N authored) := covers_kept htells hN authored
  refine respects_bind_wp Adds.trans (adds_prepareBuild (hP _) s) wp_self ?_
  intro preparation s' hprepared
  cases preparation with
  | candidateRejected digest => exact Adds.refl s'
  | ready bundle assignment =>
    have hauthored : authoredBy gateway s (.called operationId (.requestAscendBuild arguments) answers) =
        authorReceipt bundle assignment answers.build := by
      simp only [authoredBy, hbuild, hprepared]
    rw [hauthored]
    exact adds_answered htells hN s'

theorem adds_recoverable (htells : TellsKinds) (hN : Spares N) {tool guidance : String}
    {reason : ToolGatewayError} : Respects (Adds (KeptBut N authored)) (publishRecoverable tool reason guidance) :=
  adds_bind (adds_ingestDocument (covers_kept htells hN authored) (by simp)) fun _ => adds_pure

theorem adds_invoke (htells : TellsKinds) (hN : Spares N)
    (hfiles : ∀ arguments, call = .submitCandidateBundle arguments →
      ∀ file ∈ arguments.bundle.files, KeptBut N authored (utf8 file.contents)) :
    Respects (Adds (KeptBut N authored)) (invoke gateway call) := by
  have hP : Covers (KeptBut N authored) := covers_kept htells hN authored
  have hinstrument : ∀ action, Respects (Adds (KeptBut N authored)) action →
      Respects (Adds (KeptBut N authored)) (asInstrument call.name action) := by
    intro action haction
    refine adds_recover haction fun error action' hanswer => ?_
    cases error with
    | adapter failure =>
      cases hanswer
      exact adds_recoverable htells hN
    | unexpectedRequest | citation => cases hanswer
  refine adds_recover ?_ fun error action' hanswer => ?_
  · cases call with
    | submitCandidateBundle arguments => exact adds_bind (adds_submit hP (hfiles arguments rfl)) fun _ => adds_pure
    | requestSourceGate digest => exact adds_sourceGate hP
    | readReference document =>
      dsimp only
      split
      · exact adds_raise
      · exact hinstrument _ (adds_readReference hP)
    | readBuildDiagnostics digest => exact hinstrument _ (adds_readBuildDiagnostics hP)
    | requestAscendBuild | requestReductionCorrectness => exact adds_raise
  · cases error with
    | citation failure =>
      cases hanswer
      exact adds_recoverable htells hN
    | unexpectedRequest | adapter => cases hanswer

theorem adds_execute (htells : TellsKinds) (hN : Spares N)
    (hfiles : ∀ arguments, call = .submitCandidateBundle arguments →
      ∀ file ∈ arguments.bundle.files, N (utf8 file.contents)) :
    Adds (KeptBut N (authoredBy gateway s (.called operationId call answers))) s
      (execute gateway operationId call answers s).2 := by
  have hinvoke : ∀ authored, Respects (Adds (KeptBut N authored)) (invoke gateway call) :=
    fun authored => adds_invoke htells hN fun arguments hcall file hfile => .inl (hfiles arguments hcall file hfile)
  cases call with
  | requestAscendBuild arguments =>
    cases hbuild : gateway.build with
    | none =>
      simp only [execute, hbuild]
      exact Adds.refl s
    | some policy =>
      simp only [execute, hbuild]
      exact respects_bind_wp Adds.trans (adds_requestAscendBuild htells hN hbuild) wp_self fun _ s' _ => Adds.refl s'
  | requestReductionCorrectness arguments =>
    have hP : Covers (KeptBut N none) := covers_kept htells hN none
    cases hcorrectness : gateway.correctness with
    | none =>
      simp only [execute, hcorrectness]
      exact Adds.refl s
    | some policy =>
      simp only [execute, hcorrectness]
      refine adds_bind (adds_prepareCorrectness hP) (fun spec => ?_) s
      exact adds_bind adds_attempt fun observation => adds_observeCorrectness hP
  | submitCandidateBundle | requestSourceGate | readReference | readBuildDiagnostics => exact hinvoke _ s

theorem serve_adds_but (htells : TellsKinds) (hN : Spares N) (hwritten : ∀ bytes ∈ writtenTexts event, N bytes)
    (hstored : ∀ bytes, event = .stored bytes → N bytes) :
    Adds (KeptBut N (authoredBy gateway s event)) s (serve gateway event s).2 := by
  have hP (authored : Option AuthoredReceipt) : Covers (KeptBut N authored) := covers_kept htells hN authored
  cases event with
  | called operationId call answers =>
    cases hvalid : validateCall gateway call with
    | error defect =>
      simp only [serve, hvalid]
      exact adds_bind (adds_ingestDocument (hP _) (by simp)) (fun _ => adds_pure) s
    | ok =>
      simp only [serve, hvalid]
      refine respects_bind_wp Adds.trans (adds_execute htells hN ?_) wp_self fun _ s' _ => Adds.refl s'
      intro arguments hcall file hfile
      refine hwritten _ ?_
      rw [hcall]
      exact List.mem_map_of_mem hfile
  | undecodable tool detail => exact adds_bind (adds_ingestDocument (hP _) (by simp)) (fun _ => adds_pure) s
  | stored bytes => exact adds_bind (adds_ingestBytes (.inl (hstored bytes rfl))) (fun _ => adds_pure) s

theorem serve_adds (htells : TellsKinds) (hhonest : Honest gateway.config log s event) :
    Adds (Kept gateway.config (authoredBy gateway s event)) s (serve gateway event s).2 := by
  refine serve_adds_but htells spares_notPassing (fun bytes hbytes receipt hreceipt => ?_) hhonest.2
  have hplain := hhonest.1 bytes hbytes
  rw [hplain.2.1] at hreceipt
  cases hreceipt

/-- A passing receipt that is stored has been authored, and no source text is a document. -/
structure Traced (config : CandidateToolConfig) (log : History GatewayEvent GatewayReply) (s : GatewayState) :
    Prop where
  authored : ∀ bytes ∈ s.artifacts, ∀ receipt, parseReceipt bytes = some receipt →
    receipt.passed = true ∧ receipt.taskId = config.taskId →
    ∃ entry ∈ log, ∃ made, entry.2.authored = some made ∧ bytes = buildReceiptBytes made.receipt
  plain : ∀ entry ∈ log, ∀ bytes ∈ writtenTexts entry.1, NoDocument bytes

theorem run_traced (htells : TellsKinds) (h : Run (gatewayLife gateway) (Honest gateway.config) log s) :
    Traced gateway.config log s := by
  apply h.invariant (I := Traced gateway.config)
  · constructor
    · intro bytes hbytes
      cases hbytes
    · intro entry hentry
      cases hentry
  · intro log s event s' reply htraced hhonest hact
    cases hact
    constructor
    · intro bytes hbytes receipt hreceipt hpassing
      rcases (serve_adds htells hhonest).only bytes hbytes with hold | hplain | ⟨made, hmade, hsame⟩
      · obtain ⟨entry, hentry, hauthored⟩ := htraced.authored bytes hold receipt hreceipt hpassing
        exact ⟨entry, List.mem_append_left _ hentry, hauthored⟩
      · exact absurd hpassing (hplain receipt hreceipt)
      · exact ⟨_, List.mem_append_right _ (List.mem_singleton_self _), made, hmade, hsame⟩
    · intro entry hentry
      rcases List.mem_append.mp hentry with hentry | hentry
      · exact htraced.plain entry hentry
      · rw [List.mem_singleton.mp hentry]
        exact hhonest.1

omit [Sha256] in
theorem parseReceipt_written (htells : TellsKinds) {made receipt : AscendBuildReceipt}
    (h : parseReceipt (buildReceiptBytes made) = some receipt) : receipt = made := by
  obtain ⟨document, hdocument, hreceipt⟩ := Option.bind_eq_some_iff.mp h
  have hsame : made.document = document := GatewayDocument.buildReceipt.inj (htells.documents _ _ hdocument)
  unfold AscendBuildReceiptDocument.receipt at hreceipt
  split at hreceipt
  · cases hreceipt
    cases made
    cases hsame
    rfl
  · cases hreceipt

structure ProvenFor (experiment : ReductionCorrectnessExperiment) (receipt : AscendBuildReceipt) : Prop where
  passed : receipt.passed = true
  cited : Sha256.digestBytes (buildReceiptBytes receipt) = experiment.buildGateReceiptDigest
  candidateId : receipt.candidateId = experiment.candidateId
  manifestDigest : receipt.manifestDigest = experiment.manifestDigest
  sourceGateReceiptDigest : receipt.sourceGateReceiptDigest = experiment.sourceGateReceiptDigest

theorem Traced.dispatched (htraced : Traced gateway.config log s) (htells : TellsKinds)
    {spec : ReductionCorrectnessAttemptSpec} (h : dispatchedBy gateway s event = some spec) :
    ∃ entry ∈ log, ∃ made, entry.2.authored = some made ∧ ProvenFor spec.experiment made.receipt := by
  cases event with
  | undecodable tool detail => cases h
  | stored bytes => cases h
  | called operationId call answers => cases call with
    | requestReductionCorrectness arguments =>
      cases hcorrectness : gateway.correctness with
      | none =>
        simp only [dispatchedBy, hcorrectness] at h
        cases h
      | some policy =>
        simp only [dispatchedBy, hcorrectness] at h
        cases hprepare : prepareCorrectness gateway.config policy arguments s with
        | mk answer s' => cases answer with
          | error error =>
            rw [hprepare] at h
            cases h
          | ok found =>
            rw [hprepare] at h
            cases h
            obtain ⟨hexperiment, receipt, hcites⟩ := wp_ok prepareCorrectness_wp hprepare
            obtain ⟨bytes, hopen, hparse⟩ := hcites.stored
            obtain ⟨entry, hentry, made, hmade, hbytes⟩ :=
              htraced.authored bytes (openArtifact_mem hopen) receipt hparse ⟨hcites.passed, hcites.taskId⟩
            rw [hbytes] at hparse
            have hsame := parseReceipt_written htells hparse
            refine ⟨entry, hentry, made, hmade, ?_⟩
            rw [← hsame, hexperiment]
            exact ⟨hcites.passed, by rw [hsame, ← hbytes]; exact openArtifact_digest hopen, hcites.candidateId,
              hcites.manifestDigest, hcites.sourceGateReceiptDigest⟩
    | _ => cases h

/-- Every correctness attempt follows a build whose receipt it cites, and no source text is accepted as a receipt or a
manifest, as long as no source text is a document and nobody else stores a passing receipt. -/
theorem correctness_follows_authored_receipt (htells : TellsKinds) {s' : GatewayState} {reply : GatewayReply}
    (h : Run (gatewayLife gateway) (Honest gateway.config) log s) (hhonest : Honest gateway.config log s event)
    (hact : (gatewayLife gateway).act s event = some (s', reply)) :
    (∀ spec, reply.dispatched = some spec →
      ∃ entry ∈ log, ∃ made, entry.2.authored = some made ∧ ProvenFor spec.experiment made.receipt) ∧
    ∀ bytes, Accepted s event bytes → bytes ∉ writtenTexts event ∧ ∀ entry ∈ log, bytes ∉ writtenTexts entry.1 := by
  have htraced := run_traced htells h
  have hrefused : ∀ bytes, Accepted s event bytes → ¬ NoDocument bytes := by
    rintro bytes ⟨_, hread⟩ ⟨hmanifest, hreceipt, hsource⟩
    rcases hread with hread | hread | ⟨receipt, hread⟩
    · exact hread hmanifest
    · exact hread hreceipt
    · exact hsource receipt hread
  cases hact
  refine ⟨fun spec hspec => htraced.dispatched htells hspec, fun bytes haccepted => ⟨fun hwritten => ?_, ?_⟩⟩
  · exact hrefused bytes haccepted (hhonest.1 bytes hwritten)
  · intro entry hentry hwritten
    exact hrefused bytes haccepted (htraced.plain entry hentry bytes hwritten)

end runs

end gatewayLife

section sample

def bundleOf (files : List (String × GeneratedSourceKind × String)) : Option GeneratedSourceChange := do
  let files ← files.mapM fun (name, kind, contents) => do
    let path ← BundlePath.tryFrom ("generated/" ++ name)
    (GeneratedSourceFile.new path kind contents).toOption
  (GeneratedSourceChange.new files []).toOption

def sumBundle (name mapping : String) : Option GeneratedSourceChange :=
  bundleOf [("a.asc", .ascendCDevice, "k"), ("a.cpp", .ascendHost, "extern \"C\" sum"),
    ("CMakeLists.txt", .buildIntegration, "sum a.asc a.cpp"), (name, .componentMapping, mapping)]

def honestBundle : GeneratedSourceChange :=
  (sumBundle "map" "k.cu generated/a.asc generated/a.cpp generated/CMakeLists.txt").get (by decide)

def forgingBundle : GeneratedSourceChange := (sumBundle "map" "receipt").get (by decide)

def sumConfig : CandidateToolConfig where
  taskId := ⟨"task", Eq.refl false⟩
  migrationSpecDigest := ⟨[1]⟩
  generationStrategy := .directAscendC
  publicSymbol := "sum"
  buildTarget := "sum"
  inputSourcePaths := [⟨"k.cu", by decide⟩]
  targetArchitecture := "ascend910b"

def imageDescriptor : ArtifactDescriptor := ⟨⟨[9]⟩, 1, "image"⟩

def sumGateway : CandidateToolGateway where
  config := sumConfig
  build := some ⟨imageDescriptor, 1, ⟨1, 1, 1, 1, 1, 0, .disabled⟩⟩
  correctness := some ⟨⟨[8]⟩, ⟨"sum", "reference", "candidate"⟩, ⟨"corpus", []⟩,
    [⟨⟨"input/k.cu", by decide +kernel⟩, ⟨[7]⟩, 1, "k"⟩]⟩
  reference := none

def sumTexts : List (List UInt8) :=
  [generatedSourceBytes honestBundle.files [], generatedSourceBytes forgingBundle.files [],
    candidateInput sumConfig none ⟨[0]⟩, candidateInput sumConfig none ⟨[1]⟩, [1], [2], [3],
    utf8 "alloyport-ascend-build-attempt-v1" ++ 0 :: utf8 "build" ++ [6, 9]]

@[reducible] def sumSha256 : Sha256 := tableSha256 sumTexts

def sumAssignment : AssignmentContract where
  assignmentId := ⟨"assignment-build-07", by decide⟩
  attemptId := ⟨"attempt-build-07", by decide⟩
  attemptNumber := 1
  idempotencyKey := "ascend-build:build"
  taskId := sumConfig.taskId
  candidateId := ⟨"candidate-02", Eq.refl false⟩
  execution :=
    ⟨.ascendBuild, ["build-v1"], ".", [], 1, ⟨⟨[6]⟩, 1, ASCEND_BUILD_BUNDLE_MEDIA_TYPE⟩, imageDescriptor,
      some ⟨1, 1, 1, 1, 1, 0, .disabled⟩⟩
  requiredFeatures := [ASCEND_BUILD_FEATURE]

def sumTerminal : AscendBuildTerminal where
  assignmentId := sumAssignment.assignmentId
  attemptId := sumAssignment.attemptId
  outcome := .succeeded
  exitCode := some 0
  elapsedMs := 5
  detail := "built"
  buildCompleted := true
  environment := ⟨"ascend910b", "8", "25", "7"⟩
  workerReceipt := none
  stdout := none
  stderr := none

def sumReceipt : AscendBuildReceiptDocument where
  schemaVersion := ASCEND_BUILD_RECEIPT_SCHEMA_V1
  gateRevision := ASCEND_BUILD_GATE_REVISION_V1
  candidateId := sumAssignment.candidateId
  manifestDigest := ⟨[4]⟩
  sourceGateReceiptDigest := ⟨[6]⟩
  assignment := sumAssignment
  passed := true
  outcome := .succeeded
  exitCode := some 0
  elapsedMs := 5
  detail := "built"
  environment := sumTerminal.environment
  workerReceipt := none
  stdout := none
  stderr := none

@[reducible] def sumCandidateJson (known : Option CandidateSourceManifestDocument) : CandidateJson where
  manifestBytes document := if some document = known then [1] else 0 :: utf8 document.spec.candidateId.text
  parseManifest bytes := if bytes = [1] then known else none
  manifestError _ := "invalid JSON"
  resultBytes result := 4 :: utf8 result.candidateId.text

def sumManifest : Option CandidateSourceManifestDocument :=
  ((@assemble sumSha256 (sumCandidateJson none) sumConfig ⟨none, none, honestBundle⟩ ⟨[], []⟩).1).toOption.map
    fun submission => submission.manifest.document

@[reducible] def sumJson : GatewayJson where
  toCandidateJson := sumCandidateJson sumManifest
  documentBytes document := if document = .buildReceipt sumReceipt then [2] else [3]
  parseBuildReceipt bytes := if bytes = [2] ∨ bytes = utf8 "receipt" then some sumReceipt else none
  buildReceiptError _ := "invalid JSON"

@[reducible] def sumOracle : CorrectnessOracle := ⟨fun _ _ _ _ _ => .error "unmeasured"⟩

def sumLife : System GatewayState GatewayEvent GatewayReply := @gatewayLife sumSha256 sumJson sumGateway sumOracle

def sumCall (operation : Option ToolOperationId) (call : ToolCall) : GatewayEvent :=
  .called (operation.getD ⟨"call", by decide⟩) call ⟨.ok (.finished sumTerminal), .ok (.pending ⟨[]⟩)⟩

def sumBuildCall : GatewayEvent := sumCall (some ⟨"build", by decide⟩) (.requestAscendBuild ⟨⟨[4]⟩, ⟨[6]⟩⟩)

def sumSubmission (bundle : GeneratedSourceChange) : GatewayEvent :=
  sumCall none (.submitCandidateBundle ⟨none, none, bundle⟩)

def sumCorrectness (receiptDigest : Sha256Digest) : GatewayEvent :=
  sumCall none (.requestReductionCorrectness ⟨sumReceipt.candidateId, ⟨[4]⟩, ⟨[6]⟩, receiptDigest⟩)

def forgingCalls : List GatewayEvent :=
  [sumSubmission honestBundle, sumSubmission forgingBundle,
    sumCorrectness (@Sha256.digestBytes sumSha256 (utf8 "receipt"))]

def forgingPlay : Played sumLife (fun _ _ _ => true) forgingCalls (fun log _ =>
    (log.all fun entry => entry.2.authored.isNone) && log.any fun entry => entry.2.dispatched.isSome) :=
  ⟨by decide +kernel⟩

theorem forged_receipt_dispatches : ∃ log s, Run sumLife anything log s ∧ log.map Prod.fst = forgingCalls ∧
    (∀ entry ∈ log, entry.2.authored.isNone = true) ∧ ∃ entry ∈ log, entry.2.dispatched.isSome = true := by
  obtain ⟨log, s, hrun, hlog, hcheck⟩ := forgingPlay.reaches_freely
  simp only [Bool.and_eq_true, List.all_eq_true, List.any_eq_true] at hcheck
  exact ⟨log, s, hrun, hlog, hcheck⟩

def honestCalls : List GatewayEvent :=
  [sumSubmission honestBundle, sumCall none (.requestSourceGate ⟨[4]⟩), sumBuildCall]

def honestTest (event : GatewayEvent) : Bool :=
  match event with
  | .stored _ => false
  | _ => (writtenTexts event).all fun bytes => bytes ≠ [1] ∧ bytes ≠ [2] ∧ bytes ≠ [3] ∧ bytes ≠ utf8 "receipt"

theorem honestTest_honest {log : History GatewayEvent GatewayReply} {s : GatewayState} {event : GatewayEvent}
    (h : honestTest event = true) : @Honest sumJson sumGateway.config log s event := by
  have hplain : ∀ bytes : List UInt8, bytes ≠ [1] ∧ bytes ≠ [2] ∧ bytes ≠ [3] ∧ bytes ≠ utf8 "receipt" →
      @NoDocument sumJson bytes := by
    rintro bytes ⟨hmanifest, hreceipt, hother, htext⟩
    refine ⟨?_, ?_, fun receipt hsame => ?_⟩
    · change (if bytes = [1] then sumManifest else none).bind CandidateSourceManifestDocument.manifest = none
      rw [if_neg hmanifest, Option.bind_none]
    · change (if bytes = [2] ∨ bytes = utf8 "receipt" then some sumReceipt else none).bind
        AscendBuildReceiptDocument.receipt = none
      rw [if_neg (not_or.mpr ⟨hreceipt, htext⟩), Option.bind_none]
    · exact hother hsame.symm
  cases event with
  | stored bytes => cases h
  | undecodable tool detail => exact ⟨fun bytes hbytes => (List.not_mem_nil hbytes).elim, nofun⟩
  | called operationId call answers =>
    refine ⟨fun bytes hbytes => hplain bytes ?_, nofun⟩
    exact of_decide_eq_true (List.all_eq_true.mp h bytes hbytes)

theorem sumJson_unread {bytes : List UInt8} (hreceipt : bytes ≠ [2]) (htext : bytes.head? ≠ some 114) :
    sumJson.parseBuildReceipt bytes = none := by
  have hne : bytes ≠ utf8 "receipt" := by
    intro heq
    rw [heq] at htext
    exact absurd htext (by decide)
  exact if_neg (not_or.mpr ⟨hreceipt, hne⟩)

theorem sumJson_tellsKinds : @TellsKinds sumJson sumOracle := by
  refine @TellsKinds.mk sumJson sumOracle ?_ ?_ ?_ ?_
  · intro document read h
    by_cases hdocument : document = .buildReceipt sumReceipt
    · have hbytes : sumJson.documentBytes document = [2] := if_pos hdocument
      have hread : sumJson.parseBuildReceipt [2] = some sumReceipt := if_pos (.inl rfl)
      rw [hbytes, hread] at h
      rw [hdocument, Option.some.inj h]
    · have hbytes : sumJson.documentBytes document = [3] := if_neg hdocument
      rw [hbytes, sumJson_unread (by decide) (by decide)] at h
      cases h
  · intro document
    by_cases hknown : some document = sumManifest
    · have hbytes : (sumCandidateJson sumManifest).manifestBytes document = [1] := if_pos hknown
      rw [hbytes, sumJson_unread (by decide) (by decide)]
    · have hbytes : (sumCandidateJson sumManifest).manifestBytes document = 0 :: utf8 document.spec.candidateId.text :=
        if_neg hknown
      rw [hbytes, sumJson_unread (by simp) (by simp)]
  · exact fun result => @sumJson_unread (4 :: utf8 result.candidateId.text) (by simp) (by simp)
  · intro _ _ _ _ _ _ h
    cases h

def honestPlay : Played sumLife (fun _ _ event => honestTest event) honestCalls (fun log s =>
    (@dispatchedBy sumSha256 sumJson sumGateway s (sumCorrectness ⟨[5]⟩)).isSome &&
      log.any fun entry => entry.2.authored.isSome) :=
  ⟨by decide +kernel⟩

theorem correctness_follows_authored_receipt_sample : ∃ log s spec,
    Run sumLife (@Honest sumJson sumGateway.config) log s ∧
      @dispatchedBy sumSha256 sumJson sumGateway s (sumCorrectness ⟨[5]⟩) = some spec ∧
      ∃ entry ∈ log, ∃ made, entry.2.authored = some made ∧
        @ProvenFor sumSha256 sumJson spec.experiment made.receipt := by
  obtain ⟨log, s, hrun, -, hcheck⟩ := honestPlay.reaches (fun _ _ _ h => honestTest_honest h)
  obtain ⟨spec, hspec⟩ := Option.isSome_iff_exists.mp ((Bool.and_eq_true _ _).mp hcheck).1
  have hhonest := @honestTest_honest log s (sumCorrectness ⟨[5]⟩) (by decide)
  have hstep := @correctness_follows_authored_receipt sumSha256 sumJson sumOracle sumGateway s _ log sumJson_tellsKinds
    _ _ hrun hhonest rfl
  exact ⟨log, s, spec, hrun, hspec, hstep.1 spec hspec⟩

end sample

end AlloyPort.Candidate
