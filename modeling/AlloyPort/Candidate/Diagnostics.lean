import AlloyPort.Candidate.Provenance
import AlloyPort.Library.Prog

/-! What the diagnostics tool shows of the artifact store. The receipt that is cited says which artifacts are shown,
and whoever writes receipts into the store has a say in that. -/

namespace AlloyPort.Candidate

open Database Machine Transaction

section views

variable [Sha256] [GatewayJson]

abbrev Look := Sha256Digest → Option (List UInt8)

def boundedView (look : Look) (digest : Sha256Digest) (maximum : Nat) : Except ToolGatewayError (List UInt8) :=
  match look digest with
  | none => .error (.adapter (.artifactNotFound digest))
  | some bytes => if bytes.length > maximum then .error (.adapter .artifactExceedsBound) else .ok bytes

def streamView (look : Look) : Option ArtifactDescriptor → Except ToolGatewayError (Option DiagnosticStream)
  | none => .ok none
  | some descriptor => match look descriptor.digest with
    | none => .error (.adapter (.artifactNotFound descriptor.digest))
    | some bytes => .ok (some (streamOf bytes MAX_DIAGNOSTIC_BYTES))

def manifestView (look : Look) (digest : Sha256Digest) : Except ToolGatewayError CandidateSourceManifest :=
  match boundedView look digest MAX_MANIFEST_BYTES with
  | .error error => .error error
  | .ok bytes => match parseManifest bytes with
    | none => .error (.citation (.invalidManifest (CandidateJson.manifestError bytes)))
    | some manifest => .ok manifest

def streamsView (look : Look) (receipt : AscendBuildReceipt) : Except ToolGatewayError GatewayDocument :=
  match streamView look receipt.document.stdout with
  | .error error => .error error
  | .ok stdout => match streamView look receipt.document.stderr with
    | .error error => .error error
    | .ok stderr => .ok (.buildDiagnostics receipt.document.outcome receipt.document.exitCode receipt.document.detail
      stdout stderr)

def diagnosticsView (config : CandidateToolConfig) (cited : Sha256Digest) (look : Look) :
    Except ToolGatewayError GatewayDocument :=
  match boundedView look cited MAX_SOURCE_GATE_RECEIPT_BYTES with
  | .error error => .error error
  | .ok bytes => match parseReceipt bytes with
    | none => .ok (.unresolvedCitation READ_BUILD_DIAGNOSTICS_TOOL "build_gate_receipt_digest" cited
        ASCEND_BUILD_RECEIPT_MEDIA_TYPE)
    | some receipt => match manifestView look receipt.manifestDigest with
      | .error error => .error error
      | .ok manifest =>
        if config.matchesManifest manifest = true then streamsView look receipt
          else .error (.citation .foreignBuildReceipt)

def shown (view : Except ToolGatewayError GatewayDocument) : GatewayDocument :=
  match view with
  | .ok document => document
  | .error (.citation failure) => .refusal READ_BUILD_DIAGNOSTICS_TOOL (.citation failure)
      "nothing was built, run, or changed. Reissue this call naming a value an earlier tool result gave you."
  | .error error => .refusal READ_BUILD_DIAGNOSTICS_TOOL error
      ("this tool only reports; nothing was built, run, or changed. Correct the arguments " ++
        "and reissue, or continue without it.")

def shownOutcome (document : GatewayDocument) : ToolGatewayOutcome :=
  let digest := Sha256.digestBytes (GatewayJson.documentBytes document)
  match document with
  | .buildDiagnostics .. => .completed ⟨.succeeded, digest, [], false⟩
  | .unresolvedCitation .. => candidateRejected digest
  | _ => .completed ⟨.candidateFailed, digest, [], false⟩

variable {s : GatewayState} {config : CandidateToolConfig} {cited : Sha256Digest}
variable {digest : Sha256Digest} {descriptor : Option ArtifactDescriptor} {error : ToolGatewayError} {look : Look}
  {maximum : Nat}

omit [GatewayJson] in
theorem readBounded_eq :
    readBounded digest maximum s = (boundedView s.artifacts.openArtifact digest maximum, s) := by
  unfold readBounded boundedView
  rw [bind_ok (show read s = (.ok s, s) from rfl)]
  cases s.artifacts.openArtifact digest with
  | none => rfl
  | some bytes =>
    dsimp only
    by_cases hlarge : bytes.length > maximum
    · rw [if_pos hlarge, if_pos hlarge]
      rfl
    · rw [if_neg hlarge, if_neg hlarge]
      rfl

omit [GatewayJson] in
theorem readStream_eq : readStream descriptor s = (streamView s.artifacts.openArtifact descriptor, s) := by
  cases descriptor with
  | none => rfl
  | some descriptor =>
    unfold readStream streamView
    dsimp only
    rw [bind_ok (show Transaction.read s = (.ok s, s) from rfl)]
    cases s.artifacts.openArtifact descriptor.digest <;> rfl

theorem readManifest_eq : readManifest digest s = (manifestView s.artifacts.openArtifact digest, s) := by
  unfold readManifest manifestView
  cases hview : boundedView s.artifacts.openArtifact digest MAX_MANIFEST_BYTES with
  | error error => rw [bind_error (hview ▸ readBounded_eq)]
  | ok bytes =>
    rw [bind_ok (hview ▸ readBounded_eq)]
    dsimp only
    cases parseManifest bytes <;> rfl

theorem streams_fst {receipt : AscendBuildReceipt} : ((do
    let stdout ← readStream receipt.document.stdout
    let stderr ← readStream receipt.document.stderr
    let resultDigest ← ingestDocument
      (.buildDiagnostics receipt.document.outcome receipt.document.exitCode receipt.document.detail stdout stderr)
    return .completed ⟨.succeeded, resultDigest, [], false⟩ : GatewayAction ToolGatewayOutcome) s).1 =
      (streamsView s.artifacts.openArtifact receipt).map shownOutcome := by
  unfold streamsView
  cases hstdout : streamView s.artifacts.openArtifact receipt.document.stdout with
  | error error =>
    rw [bind_error (hstdout ▸ readStream_eq)]
    rfl
  | ok stdout =>
    rw [bind_ok (hstdout ▸ readStream_eq)]
    cases hstderr : streamView s.artifacts.openArtifact receipt.document.stderr with
    | error error =>
      rw [bind_error (hstderr ▸ readStream_eq)]
      rfl
    | ok stderr =>
      rw [bind_ok (hstderr ▸ readStream_eq)]
      rfl

theorem readBuildDiagnostics_fst : (readBuildDiagnostics config cited s).1 =
    (diagnosticsView config cited s.artifacts.openArtifact).map shownOutcome := by
  unfold readBuildDiagnostics diagnosticsView
  cases hview : boundedView s.artifacts.openArtifact cited MAX_SOURCE_GATE_RECEIPT_BYTES with
  | error error =>
    rw [bind_error (hview ▸ readBounded_eq)]
    rfl
  | ok bytes =>
    rw [bind_ok (hview ▸ readBounded_eq)]
    cases hparse : parseReceipt bytes with
    | none =>
      simp only [hparse]
      rfl
    | some receipt =>
      simp only [hparse]
      cases hmanifest : manifestView s.artifacts.openArtifact receipt.manifestDigest with
      | error error =>
        rw [bind_error (hmanifest ▸ readManifest_eq)]
        rfl
      | ok manifest =>
        rw [bind_ok (hmanifest ▸ readManifest_eq)]
        by_cases hmatches : config.matchesManifest manifest = true
        · simp only [if_pos hmatches]
          exact streams_fst
        · simp only [if_neg hmatches]
          rfl

/-- A refusal that says which artifact is missing or too large, or that the receipt is foreign, and no more. -/
inductive Plain : ToolGatewayError → Prop where
  | missing (digest : Sha256Digest) : Plain (.adapter (.artifactNotFound digest))
  | large : Plain (.adapter .artifactExceedsBound)
  | foreign : Plain (.citation .foreignBuildReceipt)

variable {bytes : List UInt8} {receipt : AscendBuildReceipt} {manifest : CandidateSourceManifest}

section cases

omit [Sha256] [GatewayJson]

theorem boundedView_error (h : boundedView look digest maximum = .error error) : Plain error := by
  unfold boundedView at h
  split at h
  · cases h
    exact .missing digest
  · split at h
    · cases h
      exact .large
    · cases h

theorem boundedView_ok (h : boundedView look digest maximum = .ok bytes) : look digest = some bytes := by
  unfold boundedView at h
  split at h
  · cases h
  · rename_i found hfound
    split at h
    · cases h
    · cases h
      exact hfound

theorem streamView_error (h : streamView look descriptor = .error error) : Plain error := by
  unfold streamView at h
  split at h
  · cases h
  · split at h
    · cases h
      exact .missing _
    · cases h

theorem streamsView_error (h : streamsView look receipt = .error error) : Plain error := by
  unfold streamsView at h
  split at h
  · rename_i hstdout
    cases h
    exact streamView_error hstdout
  · split at h
    · rename_i hstderr
      cases h
      exact streamView_error hstderr
    · cases h

end cases

section reading

omit [Sha256]

theorem manifestView_ok (h : manifestView look digest = .ok manifest) :
    ∃ bytes, look digest = some bytes ∧ parseManifest bytes = some manifest := by
  unfold manifestView at h
  split at h
  · cases h
  · rename_i bytes hbytes
    split at h
    · cases h
    · rename_i found hfound
      cases h
      exact ⟨bytes, boundedView_ok hbytes, hfound⟩

theorem manifestView_error (h : manifestView look digest = .error error) :
    Plain error ∨ ∃ bytes, look digest = some bytes ∧ parseManifest bytes = none ∧
      error = .citation (.invalidManifest (CandidateJson.manifestError bytes)) := by
  unfold manifestView at h
  split at h
  · rename_i hbytes
    cases h
    exact .inl (boundedView_error hbytes)
  · rename_i bytes hbytes
    split at h
    · rename_i hparse
      cases h
      exact .inr ⟨bytes, boundedView_ok hbytes, hparse, rfl⟩
    · cases h

/-- The tool refuses, and it quotes nothing unless what the receipt names as its manifest is none; or it does not know
the citation, or it goes on to the streams. -/
theorem diagnosticsView_cases (config : CandidateToolConfig) (cited : Sha256Digest) (look : Look) :
    (∃ error, Plain error ∧ diagnosticsView config cited look = .error error) ∨
    (∃ bytes receipt manifestBytes, look cited = some bytes ∧ parseReceipt bytes = some receipt ∧
      look receipt.manifestDigest = some manifestBytes ∧ parseManifest manifestBytes = none ∧
      diagnosticsView config cited look =
        .error (.citation (.invalidManifest (CandidateJson.manifestError manifestBytes)))) ∨
    diagnosticsView config cited look = .ok (.unresolvedCitation READ_BUILD_DIAGNOSTICS_TOOL
      "build_gate_receipt_digest" cited ASCEND_BUILD_RECEIPT_MEDIA_TYPE) ∨
    ∃ bytes receipt manifest, look cited = some bytes ∧ parseReceipt bytes = some receipt ∧
      manifestView look receipt.manifestDigest = .ok manifest ∧ config.matchesManifest manifest = true ∧
      diagnosticsView config cited look = streamsView look receipt := by
  unfold diagnosticsView
  cases hcited : boundedView look cited MAX_SOURCE_GATE_RECEIPT_BYTES with
  | error error => exact .inl ⟨error, boundedView_error hcited, rfl⟩
  | ok bytes =>
    have hopen := boundedView_ok hcited
    cases hparse : parseReceipt bytes with
    | none => exact .inr (.inr (.inl (by simp only [hparse])))
    | some receipt =>
      simp only [hparse]
      cases hmanifest : manifestView look receipt.manifestDigest with
      | error error =>
        rcases manifestView_error hmanifest with hplain | ⟨manifestBytes, hnamed, hread, rfl⟩
        · exact .inl ⟨error, hplain, rfl⟩
        · exact .inr (.inl ⟨bytes, receipt, manifestBytes, hopen, hparse, hnamed, hread, rfl⟩)
      | ok manifest =>
        by_cases hours : config.matchesManifest manifest = true
        · simp only [if_pos hours]
          exact .inr (.inr (.inr ⟨bytes, receipt, manifest, hopen, hparse, hmanifest, hours, rfl⟩))
        · simp only [if_neg hours]
          exact .inl ⟨_, .foreign, rfl⟩

theorem diagnosticsView_error (h : diagnosticsView config cited look = .error error) : error ≠ .unexpectedRequest := by
  have hplain : ∀ {e}, Plain e → e ≠ .unexpectedRequest := by
    rintro _ (_ | _ | _) heq <;> cases heq
  rcases diagnosticsView_cases config cited look with
    ⟨e, he, hview⟩ | ⟨_, _, _, _, _, _, _, hview⟩ | hview | ⟨_, _, _, _, _, _, _, hview⟩
  · rw [hview] at h
    exact Except.error.inj h ▸ hplain he
  · rw [hview] at h
    exact Except.error.inj h ▸ (by simp)
  · rw [hview] at h
    cases h
  · exact hplain (streamsView_error (hview ▸ h))

end reading

theorem execute_readBuildDiagnostics_fst [CorrectnessOracle] {gateway : CandidateToolGateway}
    {operationId : ToolOperationId}
    {answers : AttemptAnswers} : (execute gateway operationId (.readBuildDiagnostics cited) answers s).1 =
      .ok (shownOutcome (shown (diagnosticsView gateway.config cited s.artifacts.openArtifact))) := by
  have hfst : (readBuildDiagnostics gateway.config cited s).1 =
      (diagnosticsView gateway.config cited s.artifacts.openArtifact).map shownOutcome := readBuildDiagnostics_fst
  simp only [execute, invoke, recoverCitations, asInstrument, recover]
  cases hread : readBuildDiagnostics gateway.config cited s with
  | mk answer s' =>
    rw [hread] at hfst
    cases hview : diagnosticsView gateway.config cited s.artifacts.openArtifact with
    | ok document =>
      rw [hview] at hfst
      obtain rfl : answer = .ok (shownOutcome document) := hfst
      rfl
    | error error =>
      rw [hview] at hfst
      obtain rfl : answer = .error error := hfst
      cases error with
      | unexpectedRequest => exact absurd rfl (diagnosticsView_error hview)
      | citation failure => rfl
      | adapter failure => rfl

end views

section confinement

variable [Sha256] [GatewayJson] {gateway : CandidateToolGateway} {config : CandidateToolConfig}
variable {log : History GatewayEvent GatewayReply} {s : GatewayState} {event : GatewayEvent} {cited : Sha256Digest}
variable {look look₂ : Look} {digest : Sha256Digest} {bytes : List UInt8}

/-- What the bytes, read as a receipt, name as their manifest is one, and of another migration. -/
def NotOurs (config : CandidateToolConfig) (bytes : List UInt8) : Prop :=
  ∀ receipt, parseReceipt bytes = some receipt → ∀ manifestBytes,
    Sha256.digestBytes manifestBytes = receipt.manifestDigest →
    ∃ manifest, parseManifest manifestBytes = some manifest ∧ config.matchesManifest manifest = false

/-- Nobody but the build tool writes a receipt for a candidate of this migration. -/
def Unforged (config : CandidateToolConfig) : Guard GatewayState GatewayEvent GatewayReply := fun _ _ event =>
  (∀ bytes ∈ writtenTexts event, NotOurs config bytes) ∧ ∀ bytes, event = .stored bytes → NotOurs config bytes

/-- A build that the tool has dispatched and that has ended. -/
def Built (log : History GatewayEvent GatewayReply) (made : AuthoredReceipt) : Prop :=
  ∃ entry ∈ log, entry.2.authored = some made

/-- What the model may be given: no bytes of the store, or the streams of a build that the tool has dispatched. -/
inductive Shows (log : History GatewayEvent GatewayReply) (look : Look) : GatewayDocument → Prop where
  | refusal {reason} (hplain : Plain reason) (guidance : String) :
      Shows log look (.refusal READ_BUILD_DIAGNOSTICS_TOOL reason guidance)
  | unresolved (cited : Sha256Digest) :
      Shows log look (.unresolvedCitation READ_BUILD_DIAGNOSTICS_TOOL "build_gate_receipt_digest" cited
        ASCEND_BUILD_RECEIPT_MEDIA_TYPE)
  | streams {made stdout stderr} (hmade : Built log made) (hstdout : streamView look made.terminal.stdout = .ok stdout)
      (hstderr : streamView look made.terminal.stderr = .ok stderr) :
      Shows log look (.buildDiagnostics made.terminal.outcome made.terminal.exitCode made.terminal.detail stdout stderr)

omit [Sha256] [GatewayJson] in
theorem Shows.built {log : History GatewayEvent GatewayReply} {look : Look} {outcome : AttemptOutcome}
    {exitCode : Option Int} {detail : String} {stdout stderr : Option DiagnosticStream}
    (h : Shows log look (.buildDiagnostics outcome exitCode detail stdout stderr)) : ∃ made, Built log made := by
  generalize hdocument : GatewayDocument.buildDiagnostics outcome exitCode detail stdout stderr = document at h
  cases h with
  | refusal | unresolved => cases hdocument
  | streams hmade hstdout hstderr => exact ⟨_, hmade⟩

/-- Two stores that differ only in what the tool has no business with: the document that is cited is the same, and so
are the manifest it names and the streams of the builds that the tool has dispatched. -/
structure Agrees (log : History GatewayEvent GatewayReply) (cited : Sha256Digest) (look look₂ : Look) : Prop where
  citation : look₂ cited = look cited
  manifest : ∀ bytes receipt, look cited = some bytes → parseReceipt bytes = some receipt →
    look₂ receipt.manifestDigest = look receipt.manifestDigest
  streams : ∀ made, Built log made → ∀ descriptor, made.terminal.stdout = some descriptor ∨
    made.terminal.stderr = some descriptor → look₂ descriptor.digest = look descriptor.digest

/-- A receipt for a candidate of this migration was authored by the build tool, which has read the manifest it names. -/
structure Vouched (config : CandidateToolConfig) (log : History GatewayEvent GatewayReply) (s : GatewayState) :
    Prop where
  authored : ∀ bytes ∈ s.artifacts, NotOurs config bytes ∨ ∃ made, Built log made ∧
    bytes = buildReceiptBytes made.receipt
  named : ∀ made, Built log made → ∃ bytes manifest,
    s.artifacts.openArtifact made.receipt.manifestDigest = some bytes ∧ parseManifest bytes = some manifest

omit [Sha256] [GatewayJson] in
theorem Built.later {made : AuthoredReceipt} (h : Built log made) (event : GatewayEvent) (reply : GatewayReply) :
    Built (log ++ [(event, reply)]) made := by
  obtain ⟨entry, hentry, hmade⟩ := h
  exact ⟨entry, List.mem_append_left _ hentry, hmade⟩

theorem spares_notOurs : Spares (NotOurs config) := by
  intro bytes h receipt hreceipt
  rw [parseReceipt, h] at hreceipt
  cases hreceipt

omit [Sha256] [GatewayJson] in
theorem authored_document (made : AuthoredReceipt) : made.receipt.document.outcome = made.terminal.outcome ∧
    made.receipt.document.exitCode = made.terminal.exitCode ∧ made.receipt.document.detail = made.terminal.detail ∧
    made.receipt.document.stdout = made.terminal.stdout ∧ made.receipt.document.stderr = made.terminal.stderr ∧
    made.receipt.manifestDigest = made.bundle.manifestDigest := by
  obtain ⟨bundle, assignment, terminal, receipt, hauthored⟩ := made
  unfold AscendBuildReceipt.new at hauthored
  split at hauthored
  · split at hauthored
    · cases hauthored
      exact ⟨rfl, rfl, rfl, rfl, rfl, rfl⟩
    · cases hauthored
  · cases hauthored

omit [Sha256] [GatewayJson] in
theorem authorReceipt_bundle {bundle : CandidateBuildBundle} {assignment : AssignmentContract} {made : AuthoredReceipt}
    {answer : Except AttemptError AscendBuildAttemptObservation}
    (h : authorReceipt bundle assignment answer = some made) : made.bundle = bundle := by
  unfold authorReceipt at h
  split at h
  · unfold authorTerminal at h
    split at h
    · cases h
      rfl
    · cases h
  · cases h

theorem bundle_named {manifest : CandidateSourceManifest} {manifestDigest sourceGateReceiptDigest : Sha256Digest}
    {targetArchitecture : String} {sources : Sources} {bundle : CandidateBuildBundle}
    (h : CandidateBuildBundle.new manifest manifestDigest sourceGateReceiptDigest targetArchitecture sources =
      .ok bundle) :
    bundle.manifestDigest = manifestDigest := by
  simp only [CandidateBuildBundle.new] at h
  split at h
  · split at h
    · obtain ⟨files, -, hparts⟩ := Effect.bind_eq_ok.mp h
      unfold CandidateBuildBundle.fromParts at hparts
      repeat' split at hparts
      all_goals cases hparts
      rfl
    · cases h
  · cases h

theorem readManifest_wp {digest : Sha256Digest} : (readManifest digest).wp s
    (fun manifest _ => ∃ bytes, s.artifacts.openArtifact digest = some bytes ∧ parseManifest bytes = some manifest)
    fun _ _ => True := by
  simp only [readManifest, wp_bind]
  refine wp_mono readBounded_wp ?_ fun _ _ _ => trivial
  rintro bytes s' ⟨-, hopen⟩
  cases hparse : parseManifest bytes with
  | none => trivial
  | some manifest => exact ⟨bytes, hopen, hparse⟩

theorem prepareBuild_named {policy : CandidateBuildToolConfig} {operationId : ToolOperationId}
    {arguments : RequestAscendBuildArguments} : (prepareBuild config policy operationId arguments).wp s
    (fun preparation _ => ∀ bundle assignment, preparation = .ready bundle assignment → ∃ bytes manifest,
      s.artifacts.openArtifact bundle.manifestDigest = some bytes ∧ parseManifest bytes = some manifest)
    fun _ _ => True := by
  simp only [prepareBuild, wp_bind]
  refine wp_mono readManifest_wp ?_ fun _ _ _ => trivial
  rintro manifest s₁ ⟨bytes, hopen, hparse⟩
  simp only [wp_ite, wp_raise, wp_bind]
  split
  · refine wp_mono wp_trivial ?_ fun _ _ _ => trivial
    intro sources s₂ _
    refine wp_mono wp_trivial ?_ fun _ _ _ => trivial
    intro rejected s₃ _
    cases rejected with
    | some digest => exact fun bundle assignment hready => by cases hready
    | none =>
      simp only [wp_bind, wp_attempt, Effect.mapError_eq_ok]
      refine ⟨fun bundle hbundle => ?_, fun _ _ => trivial⟩
      refine wp_mono wp_trivial ?_ fun _ _ _ => trivial
      intro digest s₄ _
      refine ⟨fun assignment _ other otherAssignment hready => ?_, fun _ _ => trivial⟩
      cases hready
      rw [bundle_named hbundle]
      exact ⟨bytes, manifest, hopen, hparse⟩
  · trivial

theorem authoredBy_named {made : AuthoredReceipt} (h : authoredBy gateway s event = some made) : ∃ bytes manifest,
    s.artifacts.openArtifact made.receipt.manifestDigest = some bytes ∧ parseManifest bytes = some manifest := by
  unfold authoredBy at h
  split at h
  · split at h
    · cases h
    · rename_i operationId arguments answers _ policy _
      split at h
      · rename_i bundle assignment hready
        have hprepared : prepareBuild gateway.config policy operationId arguments s =
            (.ok (.ready bundle assignment), (prepareBuild gateway.config policy operationId arguments s).2) :=
          Prod.ext hready rfl
        have hnamed := wp_ok prepareBuild_named hprepared bundle assignment rfl
        obtain ⟨-, -, -, -, -, hsame⟩ := authored_document made
        rw [hsame, authorReceipt_bundle h]
        exact hnamed
      · cases h
  · cases h

theorem run_vouched [CorrectnessOracle] (htells : TellsKinds)
    (h : Run (gatewayLife gateway) (Unforged gateway.config) log s) : Vouched gateway.config log s := by
  apply h.invariant (I := Vouched gateway.config)
  · constructor
    · intro bytes hbytes
      cases hbytes
    · rintro made ⟨entry, hentry, -⟩
      cases hentry
  · intro log s event s' reply hvouched hunforged hact
    cases hact
    have hadds : Adds (KeptBut (NotOurs gateway.config) (authoredBy gateway s event)) s (serve gateway event s).2 :=
      serve_adds_but htells spares_notOurs hunforged.1 hunforged.2
    constructor
    · intro bytes hbytes
      rcases hadds.only bytes hbytes with hold | hforeign | ⟨made, hmade, hsame⟩
      · refine (hvouched.authored bytes hold).imp_right ?_
        rintro ⟨made, hbuilt, hsame⟩
        exact ⟨made, hbuilt.later _ _, hsame⟩
      · exact .inl hforeign
      · exact .inr ⟨made, ⟨_, List.mem_append_right _ (List.mem_singleton_self _), hmade⟩, hsame⟩
    · rintro made ⟨entry, hentry, hmade⟩
      have hread : ∃ bytes manifest, s.artifacts.openArtifact made.receipt.manifestDigest = some bytes ∧
          parseManifest bytes = some manifest := by
        rcases List.mem_append.mp hentry with hbefore | hlast
        · exact hvouched.named made ⟨entry, hbefore, hmade⟩
        · rw [List.mem_singleton.mp hlast] at hmade
          exact authoredBy_named hmade
      obtain ⟨bytes, manifest, hopen, hparse⟩ := hread
      exact ⟨bytes, manifest, hadds.keeps _ _ hopen, hparse⟩

theorem Vouched.built [CorrectnessOracle] (htells : TellsKinds) (hvouched : Vouched config log s)
    {receipt : AscendBuildReceipt} {manifestBytes : List UInt8}
    (hopen : s.artifacts.openArtifact cited = some bytes) (hparse : parseReceipt bytes = some receipt)
    (hnamed : s.artifacts.openArtifact receipt.manifestDigest = some manifestBytes)
    (hours : ∀ manifest, parseManifest manifestBytes = some manifest → config.matchesManifest manifest = true) :
    ∃ made, Built log made ∧ receipt = made.receipt := by
  rcases hvouched.authored bytes (openArtifact_mem hopen) with hforeign | ⟨made, hbuilt, hsame⟩
  · obtain ⟨manifest, hread, hother⟩ := hforeign receipt hparse manifestBytes (openArtifact_digest hnamed)
    rw [hours manifest hread] at hother
    cases hother
  · rw [hsame] at hparse
    exact ⟨made, hbuilt, parseReceipt_written htells hparse⟩

theorem Vouched.ours [CorrectnessOracle] (htells : TellsKinds) (hvouched : Vouched config log s)
    {receipt : AscendBuildReceipt} {manifest : CandidateSourceManifest}
    (hopen : s.artifacts.openArtifact cited = some bytes) (hparse : parseReceipt bytes = some receipt)
    (hmanifest : manifestView s.artifacts.openArtifact receipt.manifestDigest = .ok manifest)
    (hours : config.matchesManifest manifest = true) : ∃ made, Built log made ∧ receipt = made.receipt := by
  obtain ⟨manifestBytes, hnamed, hread⟩ := manifestView_ok hmanifest
  refine hvouched.built htells hopen hparse hnamed fun other hother => ?_
  rw [hread] at hother
  exact Option.some.inj hother ▸ hours

theorem Vouched.shows [CorrectnessOracle] (htells : TellsKinds) (hvouched : Vouched config log s) :
    Shows log s.artifacts.openArtifact (shown (diagnosticsView config cited s.artifacts.openArtifact)) := by
  have hrefused : ∀ {error}, Plain error → Shows log s.artifacts.openArtifact (shown (.error error)) := by
    intro error hplain
    cases hplain with
    | missing digest => exact .refusal (.missing digest) _
    | large => exact .refusal .large _
    | foreign => exact .refusal .foreign _
  rcases diagnosticsView_cases config cited s.artifacts.openArtifact with
    ⟨error, hplain, hview⟩ | ⟨bytes, receipt, manifestBytes, hopen, hparse, hnamed, hread, hview⟩ | hview |
    ⟨bytes, receipt, manifest, hopen, hparse, hmanifest, hours, hview⟩
  · rw [hview]
    exact hrefused hplain
  · -- the manifest that an authored receipt names has been read
    have hnone : ∀ manifest, parseManifest manifestBytes = some manifest → config.matchesManifest manifest = true := by
      intro manifest hsome
      rw [hread] at hsome
      cases hsome
    obtain ⟨made, hbuilt, rfl⟩ := hvouched.built htells hopen hparse hnamed hnone
    obtain ⟨other, manifest, hother, hsome⟩ := hvouched.named made hbuilt
    rw [hnamed] at hother
    rw [← Option.some.inj hother, hread] at hsome
    cases hsome
  · rw [hview]
    exact .unresolved cited
  · obtain ⟨made, hbuilt, rfl⟩ := hvouched.ours htells hopen hparse hmanifest hours
    obtain ⟨houtcome, hexit, hdetail, hstdout, hstderr, -⟩ := authored_document made
    rw [hview]
    cases hstreams : streamsView s.artifacts.openArtifact made.receipt with
    | error error => exact hrefused (streamsView_error hstreams)
    | ok document =>
      unfold streamsView at hstreams
      rw [houtcome, hexit, hdetail, hstdout, hstderr] at hstreams
      split at hstreams
      · cases hstreams
      · rename_i stdout hout
        split at hstreams
        · cases hstreams
        · rename_i stderr herr
          cases hstreams
          exact .streams hbuilt hout herr

theorem Vouched.alike [CorrectnessOracle] (htells : TellsKinds) (hvouched : Vouched config log s)
    (hagrees : Agrees log cited s.artifacts.openArtifact look₂) :
    diagnosticsView config cited look₂ = diagnosticsView config cited s.artifacts.openArtifact := by
  have hbounded : ∀ {digest maximum}, look₂ digest = s.artifacts.openArtifact digest →
      boundedView look₂ digest maximum = boundedView s.artifacts.openArtifact digest maximum := by
    intro digest maximum hsame
    rw [boundedView, hsame, boundedView]
  unfold diagnosticsView
  rw [hbounded hagrees.citation]
  cases hcited : boundedView s.artifacts.openArtifact cited MAX_SOURCE_GATE_RECEIPT_BYTES with
  | error error => rfl
  | ok bytes =>
    cases hparse : parseReceipt bytes with
    | none => simp only [hparse]
    | some receipt =>
      have hopen := boundedView_ok hcited
      have hmanifestView : manifestView look₂ receipt.manifestDigest =
          manifestView s.artifacts.openArtifact receipt.manifestDigest := by
        rw [manifestView, hbounded (hagrees.manifest bytes receipt hopen hparse), manifestView]
      simp only [hparse, hmanifestView]
      cases hmanifest : manifestView s.artifacts.openArtifact receipt.manifestDigest with
      | error error => rfl
      | ok manifest =>
        by_cases hours : config.matchesManifest manifest = true
        · obtain ⟨made, hbuilt, rfl⟩ := hvouched.ours htells hopen hparse hmanifest hours
          obtain ⟨-, -, -, hstdout, hstderr, -⟩ := authored_document made
          have hstream : ∀ descriptor, made.terminal.stdout = descriptor ∨ made.terminal.stderr = descriptor →
              streamView look₂ descriptor = streamView s.artifacts.openArtifact descriptor := by
            intro descriptor hof
            cases descriptor with
            | none => rfl
            | some descriptor => rw [streamView, hagrees.streams made hbuilt descriptor hof, streamView]
          simp only [if_pos hours, streamsView, hstdout, hstderr, hstream _ (.inl rfl), hstream _ (.inr rfl)]
        · simp only [if_neg hours]

/-- While nobody but the build tool writes a receipt for a candidate of the migration, whatever digest is cited: the
model is given no bytes of the store, or those of the streams of a build that the tool has dispatched, and what else
the store holds makes no difference. -/
theorem diagnostics_confined [CorrectnessOracle] (htells : TellsKinds)
    (h : Run (gatewayLife gateway) (Unforged gateway.config) log s) (operationId : ToolOperationId)
    (cited : Sha256Digest) (answers : AttemptAnswers) :
    (∃ document, Shows log s.artifacts.openArtifact document ∧
      (execute gateway operationId (.readBuildDiagnostics cited) answers s).1 = .ok (shownOutcome document)) ∧
    ∀ s₂ : GatewayState, Agrees log cited s.artifacts.openArtifact s₂.artifacts.openArtifact →
      (execute gateway operationId (.readBuildDiagnostics cited) answers s₂).1 =
        (execute gateway operationId (.readBuildDiagnostics cited) answers s).1 := by
  have hvouched := run_vouched htells h
  refine ⟨⟨_, hvouched.shows htells, execute_readBuildDiagnostics_fst⟩, fun s₂ hagrees => ?_⟩
  rw [execute_readBuildDiagnostics_fst, execute_readBuildDiagnostics_fst, hvouched.alike htells hagrees]

end confinement

section sample

theorem honestTest_unforged {log : History GatewayEvent GatewayReply} {s : GatewayState} {event : GatewayEvent}
    (h : honestTest event = true) : @Unforged sumSha256 sumJson sumGateway.config log s event := by
  have hhonest : @Honest sumJson sumGateway.config log s event := honestTest_honest h
  obtain ⟨hplain, -⟩ := hhonest
  refine ⟨fun bytes hbytes receipt hreceipt => ?_, ?_⟩
  · rw [(hplain bytes hbytes).2.1] at hreceipt
    cases hreceipt
  · rintro bytes rfl
    cases h

theorem diagnostics_confined_sample : ∃ log s, Run sumLife (@Unforged sumSha256 sumJson sumGateway.config) log s ∧
    (∃ entry ∈ log, entry.2.authored.isSome = true) ∧
    ∃ document, Shows log (@ArtifactStore.openArtifact sumSha256 s.artifacts) document ∧
      (@execute sumSha256 sumJson sumGateway sumOracle ⟨"call", by decide⟩ (.readBuildDiagnostics ⟨[5]⟩)
        ⟨.error (.unavailable ""), .error (.unavailable "")⟩ s).1 = .ok (@shownOutcome sumSha256 sumJson document) := by
  obtain ⟨log, s, hrun, -, hcheck⟩ := honestPlay.reaches (fun _ _ _ h => honestTest_unforged h)
  have hconfined := @diagnostics_confined sumSha256 sumJson sumGateway log s sumOracle sumJson_tellsKinds hrun
    ⟨"call", by decide⟩ ⟨[5]⟩ ⟨.error (.unavailable ""), .error (.unavailable "")⟩
  exact ⟨log, s, hrun, List.any_eq_true.mp ((Bool.and_eq_true _ _).mp hcheck).2, hconfined.1⟩

def secret : List UInt8 := [42]

def leakReceipt : AscendBuildReceiptDocument :=
  { sumReceipt with stdout := some ⟨@Sha256.digestBytes sumSha256 secret, 1, "stdout"⟩ }

@[reducible] def leakJson : GatewayJson where
  toCandidateJson := sumCandidateJson sumManifest
  documentBytes document := if document = .buildReceipt leakReceipt then [2] else [3]
  parseBuildReceipt bytes := if bytes = [2] ∨ bytes = utf8 "receipt" then some leakReceipt else none
  buildReceiptError _ := "invalid JSON"

def leakCalls : List GatewayEvent := [.stored secret, sumSubmission honestBundle, sumSubmission forgingBundle]

def citedForgery : Sha256Digest := @Sha256.digestBytes sumSha256 (utf8 "receipt")

def leakedDocument : GatewayDocument := .buildDiagnostics .succeeded (some 0) "built" (some ⟨secret, 1, false⟩) none

def leakPlay : Played (@gatewayLife sumSha256 leakJson sumGateway sumOracle) (fun _ _ _ => true) leakCalls (fun log s =>
    (log.all fun entry => entry.2.authored.isNone) && decide (shown (@diagnosticsView leakJson sumConfig citedForgery
      (@ArtifactStore.openArtifact sumSha256 s.artifacts)) = leakedDocument)) :=
  ⟨by decide +kernel⟩

/-- Nothing has been built, and the model is shown what somebody else has stored. -/
theorem forged_receipt_leaks : ∃ log s,
    Run (@gatewayLife sumSha256 leakJson sumGateway sumOracle) anything log s ∧ log.map Prod.fst = leakCalls ∧
    ∃ cited stream, stream.kept = secret ∧ ¬ Shows log (@ArtifactStore.openArtifact sumSha256 s.artifacts)
      (.buildDiagnostics .succeeded (some 0) "built" (some stream) none) ∧
      (@execute sumSha256 leakJson sumGateway sumOracle ⟨"call", by decide⟩ (.readBuildDiagnostics cited)
        ⟨.error (.unavailable ""), .error (.unavailable "")⟩ s).1 =
        .ok (@shownOutcome sumSha256 leakJson (.buildDiagnostics .succeeded (some 0) "built" (some stream) none)) := by
  obtain ⟨log, s, hrun, hlog, hcheck⟩ := leakPlay.reaches_freely
  simp only [Bool.and_eq_true, List.all_eq_true, decide_eq_true_eq] at hcheck
  refine ⟨log, s, hrun, hlog, citedForgery, ⟨secret, 1, false⟩, rfl, fun hshows => ?_, ?_⟩
  · obtain ⟨made, entry, hentry, hsome⟩ := hshows.built
    have hnone := hcheck.1 entry hentry
    rw [hsome] at hnone
    cases hnone
  · have hexecute := @execute_readBuildDiagnostics_fst sumSha256 leakJson s citedForgery sumOracle sumGateway
      ⟨"call", by decide⟩ ⟨.error (.unavailable ""), .error (.unavailable "")⟩
    rw [hexecute]
    exact congrArg (fun d => Except.ok (@shownOutcome sumSha256 leakJson d)) hcheck.2

end sample

end AlloyPort.Candidate
