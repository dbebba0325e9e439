import AlloyPort.Candidate.Assembly
import AlloyPort.Candidate.Gateway

/-! What each tool adds to the artifact store, however it ends. -/

namespace AlloyPort.Candidate

open Database Transaction GatewayState

variable [Sha256] [GatewayJson]

section materializing

open CandidateMaterialization

omit [GatewayJson]

variable {root : String} {manifest : CandidateSourceManifest}

theorem materializeFile_keeps {file : CandidateSourceFile} :
    Keeps artifacts (materializeFile root file) := by
  have hverify : Keeps artifacts (verifyFile root file) := by
    refine keeps_bind keeps_read fun s => ?_
    split
    · exact keeps_ite keeps_pure keeps_raise
    · exact keeps_raise
  refine keeps_bind (keeps_forEach (fun path => ?_) _) fun _ => keeps_bind keeps_read fun s => ?_
  · refine keeps_bind keeps_read fun s => ?_
    split
    · exact keeps_write fun _ => rfl
    · exact keeps_pure
    · exact keeps_raise
  · split
    · exact keeps_raise
    · exact hverify
    · refine keeps_bind keeps_read fun s => ?_
      split
      · exact keeps_raise
      · exact keeps_ite (keeps_bind (keeps_write fun _ => rfl) fun _ => hverify) keeps_raise

theorem verifyCompleteTree_keeps : Keeps artifacts (verifyCompleteTree root manifest) := by
  refine keeps_bind keeps_read fun s => keeps_ite (keeps_forEach (fun file => ?_) _) keeps_raise
  refine keeps_bind keeps_read fun s => ?_
  split
  · exact keeps_ite keeps_pure keeps_raise
  · exact keeps_raise

theorem materialize_keeps : Keeps artifacts (materialize manifest) := by
  refine keeps_ite (keeps_bind (keeps_write fun _ => rfl) fun _ => ?_) keeps_raise
  exact keeps_bind (keeps_forEach (fun file => materializeFile_keeps) _) fun _ => verifyCompleteTree_keeps

theorem readVerifiedFiles_keeps {files : List CandidateSourceFile} :
    Keeps artifacts (readVerifiedFiles root files) := by
  induction files with
  | nil => exact keeps_pure
  | cons file rest ih =>
    refine keeps_bind (keeps_bind keeps_read fun s => ?_) fun _ => keeps_bind ih fun _ => keeps_pure
    split
    · exact keeps_ite keeps_pure keeps_raise
    · exact keeps_raise

theorem materializeSources_keeps : Keeps artifacts (materializeSources manifest) := by
  refine keeps_mapError (keeps_bind materialize_keeps fun _ => ?_)
  exact keeps_bind verifyCompleteTree_keeps fun _ => keeps_bind readVerifiedFiles_keeps fun _ => keeps_pure

theorem readBounded_keeps {digest : Sha256Digest} {maximum : Nat} :
    Keeps artifacts (readBounded digest maximum) := by
  refine keeps_bind keeps_read fun s => ?_
  split
  · exact keeps_raise
  · exact keeps_ite keeps_raise keeps_pure

end materializing

section adding

structure Adds (P : List UInt8 → Prop) (s s' : GatewayState) : Prop where
  keeps : ∀ digest bytes, s.artifacts.openArtifact digest = some bytes → s'.artifacts.openArtifact digest = some bytes
  only : ∀ bytes ∈ s'.artifacts, bytes ∈ s.artifacts ∨ P bytes

variable {P : List UInt8 → Prop} {s s' s'' : GatewayState}

omit [GatewayJson]

theorem Adds.refl (s : GatewayState) : Adds P s s := ⟨fun _ _ hopen => hopen, fun _ hbytes => .inl hbytes⟩

theorem Adds.trans (h : Adds P s s') (h' : Adds P s' s'') : Adds P s s'' := by
  refine ⟨fun digest bytes hopen => h'.keeps digest bytes (h.keeps digest bytes hopen), fun bytes hbytes => ?_⟩
  rcases h'.only bytes hbytes with hmem | hP
  · exact h.only bytes hmem
  · exact .inr hP

theorem adds_of_artifacts (h : s'.artifacts = s.artifacts) : Adds P s s' := by
  constructor
  · intro digest bytes hopen
    rw [h, hopen]
  · intro bytes hbytes
    rw [h] at hbytes
    exact .inl hbytes

variable {α : Type} {t : GatewayAction α}

theorem adds_pure {a : α} : Respects (Adds P) (pure a : GatewayAction α) := respects_pure Adds.refl

theorem adds_raise {e : ToolGatewayError} : Respects (Adds P) (raise e : GatewayAction α) :=
  respects_raise Adds.refl

theorem adds_attempt {x : Except ToolGatewayError α} : Respects (Adds P) (attempt x : GatewayAction α) :=
  respects_attempt Adds.refl

theorem adds_bind {β : Type} {f : α → GatewayAction β} (h : Respects (Adds P) t)
    (hf : ∀ a, Respects (Adds P) (f a)) : Respects (Adds P) (t >>= f) := respects_bind Adds.trans h hf

theorem adds_ite {p : Prop} [Decidable p] {t' : GatewayAction α} (h : Respects (Adds P) t)
    (h' : Respects (Adds P) t') : Respects (Adds P) (if p then t else t') := by
  split
  · exact h
  · exact h'

theorem adds_keeps (h : Keeps artifacts t) : Respects (Adds P) t :=
  h.respects fun _ _ => adds_of_artifacts

theorem adds_recover {answer : ToolGatewayError → Option (GatewayAction α)}
    (h : Respects (Adds P) t) (hanswer : ∀ e t', answer e = some t' → Respects (Adds P) t') :
    Respects (Adds P) (t.recover answer) := respects_recover (R := Adds P) Adds.trans h hanswer

theorem adds_ingestBytes {bytes : List UInt8} (h : P bytes) : Respects (Adds P) (ingestBytes bytes) := by
  refine adds_bind (respects_write fun s => ⟨fun _ _ hopen => openArtifact_ingest hopen, fun other hother => ?_⟩)
    fun _ => adds_pure
  change other ∈ s.artifacts.ingest bytes at hother
  unfold ArtifactStore.ingest at hother
  split at hother
  · exact .inl hother
  · rcases List.mem_append.mp hother with hmem | hmem
    · exact .inl hmem
    · rw [List.mem_singleton.mp hmem]
      exact .inr h

section reading

theorem adds_ingestSourceFiles {assembled : List CandidateSourceFile} {files : List GeneratedSourceFile}
    (hfiles : ∀ file ∈ files, P (utf8 file.contents)) : Respects (Adds P) (ingestSourceFiles assembled files) := by
  induction files generalizing assembled with
  | nil => exact adds_pure
  | cons file rest ih =>
    refine adds_bind (adds_bind (adds_ingestBytes (hfiles file List.mem_cons_self)) fun _ => ?_) fun _ => ?_
    · split
      · exact adds_pure
      · exact adds_raise
    · exact ih fun other hother => hfiles other (List.mem_cons_of_mem _ hother)

theorem adds_materializeSources {manifest : CandidateSourceManifest} :
    Respects (Adds P) (materializeSources manifest) :=
  adds_keeps materializeSources_keeps

theorem adds_readStream {descriptor : Option ArtifactDescriptor} : Respects (Adds P) (readStream descriptor) := by
  unfold readStream
  split
  · exact adds_pure
  · refine adds_bind (respects_read Adds.refl) fun s => ?_
    split
    · exact adds_raise
    · exact adds_pure

theorem adds_readManifest [GatewayJson] {digest : Sha256Digest} : Respects (Adds P) (readManifest digest) := by
  refine adds_bind (adds_keeps readBounded_keeps) fun bytes => ?_
  split
  · exact adds_raise
  · exact adds_pure

end reading

end adding

section tools

variable {P : List UInt8 → Prop} {config : CandidateToolConfig} {gateway : CandidateToolGateway}

/-- Whatever the gateway writes of itself, but for build receipts, is of the sort. -/
structure Covers [CorrectnessOracle] (P : List UInt8 → Prop) : Prop where
  documents : ∀ document, (∀ receipt, document ≠ .buildReceipt receipt) → P (GatewayJson.documentBytes document)
  manifests : ∀ document, P (CandidateJson.manifestBytes document)
  results : ∀ result, P (CandidateJson.resultBytes result)
  judgements : ∀ experiment referenceBundle candidateBundle reference candidate judgement,
    CorrectnessOracle.judge experiment referenceBundle candidateBundle reference candidate = .ok judgement →
    P judgement.calibration ∧ P judgement.receipt

variable [CorrectnessOracle] {digest : Sha256Digest}

theorem adds_ingestDocument (hP : Covers P) {document : GatewayDocument}
    (h : ∀ receipt, document ≠ .buildReceipt receipt) :
    Respects (Adds P) (ingestDocument document) := adds_ingestBytes (hP.documents document h)

theorem adds_publish (hP : Covers P) {receiptBytes : List UInt8} {mediaType : String}
    {also : List (String × ArtifactDescriptor)}
    (h : P receiptBytes) : Respects (Adds P) (publishGateResultWith receiptBytes mediaType also) :=
  adds_bind (adds_ingestBytes h) fun _ => adds_bind (adds_ingestDocument hP (by simp)) fun _ => adds_pure

theorem adds_submit (hP : Covers P) {arguments : SubmitCandidateBundleArguments}
    (hfiles : ∀ file ∈ arguments.bundle.files, P (utf8 file.contents)) :
    Respects (Adds P) (submit config arguments) := by
  have hinherited : Respects (Adds P) (loadInherited config arguments) := by
    unfold loadInherited
    split
    · exact adds_pure
    · refine adds_bind (adds_bind (respects_mapError (adds_keeps readBounded_keeps)) fun bytes => ?_) fun _ => adds_pure
      split
      · exact adds_raise
      · exact adds_ite adds_pure adds_raise
  have hwhole : ∀ inherited, Respects (Adds P) (requireWhole arguments inherited) := by
    intro inherited
    unfold requireWhole
    split
    · exact adds_pure
    · split
      · exact adds_pure
      · exact adds_raise
  refine adds_bind (adds_bind hinherited fun inherited => adds_bind (hwhole inherited) fun _ => ?_) fun submission => ?_
  · refine adds_bind adds_attempt fun id => adds_bind (adds_ingestSourceFiles hfiles) fun files => ?_
    split
    · exact adds_pure
    · exact adds_raise
  · refine adds_bind (adds_ingestBytes (hP.manifests _)) fun _ => adds_bind ?_ fun _ => ?_
    · exact respects_mapError ((materialize_keeps).respects fun _ _ => adds_of_artifacts)
    · exact adds_bind (adds_ingestBytes (hP.results _)) fun _ => adds_pure

theorem adds_sourceGate (hP : Covers P) : Respects (Adds P) (sourceGate gateway digest) := by
  refine adds_bind adds_readManifest fun manifest =>
    adds_ite (adds_bind adds_materializeSources fun sources => ?_) adds_raise
  refine adds_ite adds_raise (adds_bind (adds_publish hP (hP.documents _ (by simp))) fun _ => adds_pure)

theorem adds_readReference (hP : Covers P) {corpus : ReferenceCorpus} {document : Option String} :
    Respects (Adds P) (readReference corpus document) := by
  intro s
  refine respects_bind_wp (Q := fun result _ => ∀ receipt, result ≠ .buildReceipt receipt) Adds.trans
    (adds_attempt s) ?_ ?_
  · rw [wp_attempt]
    refine ⟨fun result hresult => ?_, fun _ _ => trivial⟩
    cases document with
    | none =>
      cases hresult
      simp
    | some id =>
      unfold ReferenceCorpus.read at hresult
      dsimp only at hresult
      split at hresult
      · cases hresult
      · split at hresult
        · cases hresult
        · cases hresult
          simp
  · intro result s' hresult
    exact adds_bind (adds_ingestDocument hP hresult) (fun _ => adds_pure) s'

theorem adds_readBuildDiagnostics (hP : Covers P) : Respects (Adds P) (readBuildDiagnostics config digest) := by
  refine adds_bind (adds_keeps readBounded_keeps) fun bytes => ?_
  split
  · exact adds_bind (adds_ingestDocument hP (by simp)) fun _ => adds_pure
  · refine adds_bind adds_readManifest fun manifest => adds_ite (adds_bind adds_readStream fun stdout => ?_) adds_raise
    exact adds_bind adds_readStream fun stderr => adds_bind (adds_ingestDocument hP (by simp)) fun _ => adds_pure

theorem adds_prepareBuild (hP : Covers P) {policy : CandidateBuildToolConfig} {operationId : ToolOperationId}
    {arguments : RequestAscendBuildArguments} :
    Respects (Adds P) (prepareBuild config policy operationId arguments) := by
  have hverify : ∀ manifest sources, Respects (Adds P) (verifySourceGateReceipt manifest arguments sources) := by
    intro manifest sources
    refine adds_bind (adds_keeps readBounded_keeps) fun supplied => adds_ite (adds_ite adds_pure ?_) ?_
    · exact adds_bind (adds_ingestDocument hP (by simp)) fun _ => adds_pure
    · exact adds_bind (adds_publish hP (hP.documents _ (by simp))) fun _ => adds_pure
  refine adds_bind adds_readManifest fun manifest =>
    adds_ite (adds_bind adds_materializeSources fun sources => ?_) adds_raise
  refine adds_bind (hverify manifest sources) fun rejected => ?_
  split
  · exact adds_pure
  · refine adds_bind adds_attempt fun bundle => adds_bind (adds_ingestBytes (hP.documents _ (by simp))) fun _ => ?_
    exact adds_bind adds_attempt fun _ => adds_pure

theorem adds_prepareCorrectness (hP : Covers P) {policy : CandidateCorrectnessToolConfig}
    {arguments : RequestReductionCorrectnessArguments} :
    Respects (Adds P) (prepareCorrectness config policy arguments) := by
  have hreceipt : Respects (Adds P) (readBuildReceipt config arguments) := by
    refine adds_bind (adds_keeps readBounded_keeps) fun bytes => adds_ite ?_ adds_raise
    split
    · exact adds_raise
    · exact adds_ite adds_pure adds_raise
  have hingest : ∀ bundle, Respects (Adds P) (ingestExecutionBundle bundle) :=
    fun bundle => adds_bind (adds_ingestBytes (hP.documents _ (by simp))) fun _ => adds_pure
  refine adds_bind hreceipt fun _ => adds_bind adds_readManifest fun manifest => adds_ite ?_ adds_raise
  refine adds_bind adds_materializeSources fun sources => adds_bind adds_attempt fun files => ?_
  refine adds_bind adds_attempt fun reference => adds_bind adds_attempt fun candidate => ?_
  exact adds_bind (hingest reference) fun _ => adds_bind (hingest candidate) fun _ => adds_pure

theorem adds_observeCorrectness (hP : Covers P) {spec : ReductionCorrectnessAttemptSpec}
    {observation : ReductionCorrectnessAttemptObservation} :
    Respects (Adds P) (observeCorrectness spec observation) := by
  have hread : ∀ descriptor maximum failure, Respects (Adds P) (readDescribed descriptor maximum failure) := by
    intro descriptor maximum failure
    exact adds_ite adds_raise (adds_bind (adds_keeps readBounded_keeps) fun _ => adds_ite adds_pure adds_raise)
  cases observation with
  | pending digest => exact adds_pure
  | finished referenceRun candidateRun =>
    refine adds_bind (hread _ _ _) fun reference => adds_bind (hread _ _ _) fun candidate => ?_
    refine adds_bind (hread _ _ _) fun referenceBundle => adds_bind (hread _ _ _) fun candidateBundle => ?_
    intro s
    refine respects_bind_wp (Q := fun judgement _ => P judgement.calibration ∧ P judgement.receipt) Adds.trans
      (adds_attempt s) ?_ ?_
    · rw [wp_attempt]
      refine ⟨fun judgement hjudged => ?_, fun _ _ => trivial⟩
      cases hjudge : CorrectnessOracle.judge spec.experiment referenceBundle candidateBundle reference candidate with
      | error detail =>
        rw [hjudge] at hjudged
        cases hjudged
      | ok found =>
        rw [hjudge] at hjudged
        cases hjudged
        exact hP.judgements _ _ _ _ _ _ hjudge
    · rintro judgement s' ⟨hcalibration, hreceipt⟩
      refine adds_bind (adds_ingestBytes hcalibration) (fun _ => ?_) s'
      exact adds_bind (adds_publish hP hreceipt) fun _ => adds_pure

end tools

end AlloyPort.Candidate
