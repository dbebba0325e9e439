import AlloyPort.Candidate.Assembly
import AlloyPort.Candidate.Digests

/-! The identity of a candidate and its files. Two submissions share an identity without sharing their files just
when one merely names the parent that the other inherits from. -/

namespace AlloyPort.Candidate

open Database Machine Transaction

theorem parentBytes_inj {a b : Option CandidateId}
    (h : (match a with | some parent => utf8 parent.text | none => []) =
      match b with | some parent => utf8 parent.text | none => []) : a = b := by
  have hblank : ∀ id : CandidateId, utf8 id.text ≠ [] := by
    intro id hnil
    have hempty : id.text = "" := utf8_inj hnil
    have hid := id.nonblank
    rw [hempty] at hid
    exact absurd hid (by decide)
  cases a with
  | none => cases b with
    | none => rfl
    | some id => exact absurd h.symm (hblank id)
  | some id => cases b with
    | none => exact absurd h (hblank id)
    | some other => rw [ValidatedId.ext_text (utf8_inj h)]

section submissions

variable [Sha256]

section identity

variable {config : CandidateToolConfig} {id : CandidateId}

theorem candidateId_text {parent : Option CandidateId} {digest : Sha256Digest}
    (h : candidateId config parent digest = .ok id) :
    id.text = "candidate-" ++ (Sha256.digestBytes (candidateInput config parent digest)).hexadecimal := by
  unfold candidateId at h
  split at h
  · rename_i found hfound
    cases h
    exact ValidatedId.tryFrom_text hfound
  · cases h

theorem candidateId_inj (hcf : Sha256.CollisionFree) (hdelimited : DigestsDelimited)
    {parent parent' : Option CandidateId} {change change' : GeneratedSourceChange}
    (h : candidateId config parent change.digest = .ok id) (h' : candidateId config parent' change'.digest = .ok id) :
    parent = parent' ∧ change.digest = change'.digest := by
  have htext := (candidateId_text h).symm.trans (candidateId_text h')
  have hhex := String.toList_inj.mpr htext
  rw [String.toList_append, String.toList_append] at hhex
  have hdigest := hexadecimal_inj (String.toList_inj.mp (List.append_cancel_left hhex))
  have hinput := hcf hdigest
  unfold candidateInput at hinput
  have hrest := List.append_cancel_left hinput
  have hbundle : change.digest = change'.digest := hdelimited _ _ _ _ hrest
  rw [hbundle] at hrest
  exact ⟨parentBytes_inj (List.append_cancel_left hrest), hbundle⟩

end identity

/-- A whole submission names the parent that another one, of the same bundle, inherits a further file from. -/
def Clash (whole inheriting : Submission) : Prop :=
  whole.inherited = none ∧ ∃ parent, inheriting.inherited = some parent ∧
    whole.arguments.parentCandidateId = some parent.candidateId ∧
    whole.arguments.bundle.digest = inheriting.arguments.bundle.digest ∧
    ∃ source ∈ parent.files, ∀ file ∈ whole.arguments.bundle.files, file.path ≠ source.path

def NoClash (submissions : List Submission) : Prop := ∀ u ∈ submissions, ∀ v ∈ submissions, ¬ Clash u v

def SameFiles (u v : Submission) : Prop := ∀ source, source ∈ u.manifest.files ↔ source ∈ v.manifest.files

def IdentityTellsFiles (submissions : List Submission) : Prop :=
  ∀ u ∈ submissions, ∀ v ∈ submissions, u.manifest.candidateId = v.manifest.candidateId → SameFiles u v

section pairs

variable {config : CandidateToolConfig} {u v : Submission}

theorem overrides_congr {base base' : List CandidateSourceFile} {files files' : List GeneratedSourceFile}
    (hfiles : ∀ file, file ∈ files ↔ file ∈ files') (hbase : ∀ source, source ∈ base ↔ source ∈ base')
    (source : CandidateSourceFile) : Overrides base files source ↔ Overrides base' files' source := by
  unfold Overrides
  simp only [hfiles, hbase]

theorem overrides_covered {base : List CandidateSourceFile} {files : List GeneratedSourceFile}
    (h : ∀ source ∈ base, ∃ file ∈ files, file.path = source.path) (source : CandidateSourceFile) :
    Overrides base files source ↔ Overrides [] files source := by
  constructor
  · rintro (hauthored | ⟨hbase, hclear⟩)
    · exact .inl hauthored
    · obtain ⟨file, hfile, hpath⟩ := h source hbase
      exact absurd hpath (hclear file hfile)
  · rintro (hauthored | ⟨hnil, -⟩)
    · exact .inl hauthored
    · cases hnil

theorem same_parent (hcf : Sha256.CollisionFree) (hdelimited : DigestsDelimited) (hu : Assembled config u)
    (hv : Assembled config v) (hid : u.manifest.candidateId = v.manifest.candidateId) :
    u.arguments.parent u.inherited = v.arguments.parent v.inherited ∧
      u.arguments.bundle.digest = v.arguments.bundle.digest := by
  have hidentity := hu.identity
  rw [hid] at hidentity
  exact candidateId_inj hcf hdelimited hidentity hv.identity

theorem sameFiles_mixed (hcf : Sha256.CollisionFree) (hdelimited : DigestsDelimited) (hu : Assembled config u)
    (hv : Assembled config v) (hmu : u.arguments.bundle.InMemory) (hmv : v.arguments.bundle.InMemory)
    (hid : u.manifest.candidateId = v.manifest.candidateId) {parent : CandidateSourceManifest}
    (hwhole : u.inherited = none) (hinherits : v.inherited = some parent) (hclash : ¬ Clash u v) : SameFiles u v := by
  obtain ⟨hparent, hdigest⟩ := same_parent hcf hdelimited hu hv hid
  have hfiles := digest_files hcf hmu hmv hdigest
  rw [hwhole, hinherits] at hparent
  have hcovered : ∀ source ∈ parent.files, ∃ file ∈ u.arguments.bundle.files, file.path = source.path := by
    intro source hsource
    by_contra hnone
    refine hclash ⟨hwhole, parent, hinherits, hparent, hdigest, source, hsource, ?_⟩
    intro file hfile hpath
    exact hnone ⟨file, hfile, hpath⟩
  intro source
  rw [hu.files, hv.files, hwhole, hinherits, ← overrides_congr hfiles fun _ => Iff.rfl]
  refine (overrides_covered (fun source hsource => ?_) source).symm
  exact hcovered source (mem_inheritedFiles.mp hsource)

theorem sameFiles_of_id (hcf : Sha256.CollisionFree) (hdelimited : DigestsDelimited) {earlier : List Submission}
    (hearlier : IdentityTellsFiles earlier) (hu : Assembled config u) (hv : Assembled config v)
    (hmu : u.arguments.bundle.InMemory) (hmv : v.arguments.bundle.InMemory)
    (hiu : ∀ parent, u.inherited = some parent → ∃ e ∈ earlier, e.manifest = parent)
    (hiv : ∀ parent, v.inherited = some parent → ∃ e ∈ earlier, e.manifest = parent)
    (huv : ¬ Clash u v) (hvu : ¬ Clash v u) (hid : u.manifest.candidateId = v.manifest.candidateId) :
    SameFiles u v := by
  obtain ⟨hparent, hdigest⟩ := same_parent hcf hdelimited hu hv hid
  have hfiles := digest_files hcf hmu hmv hdigest
  cases hinheritsU : u.inherited with
  | none => cases hinheritsV : v.inherited with
    | none =>
      intro source
      rw [hu.files, hv.files, hinheritsU, hinheritsV]
      exact overrides_congr hfiles (fun _ => Iff.rfl) source
    | some parent => exact sameFiles_mixed hcf hdelimited hu hv hmu hmv hid hinheritsU hinheritsV huv
  | some parent => cases hinheritsV : v.inherited with
    | none =>
      have hsame := sameFiles_mixed hcf hdelimited hv hu hmv hmu hid.symm hinheritsV hinheritsU hvu
      exact fun source => (hsame source).symm
    | some parent' =>
      rw [hinheritsU, hinheritsV] at hparent
      obtain ⟨e, he, rfl⟩ := hiu parent hinheritsU
      obtain ⟨e', he', rfl⟩ := hiv parent' hinheritsV
      have hsame := hearlier e he e' he' (Option.some.inj hparent)
      intro source
      rw [hu.files, hv.files, hinheritsU, hinheritsV]
      apply overrides_congr hfiles
      intro source
      rw [mem_inheritedFiles, mem_inheritedFiles]
      exact hsame source

theorem Clash.id_eq (h : Clash u v) (hu : Assembled config u) (hv : Assembled config v) :
    u.manifest.candidateId = v.manifest.candidateId := by
  obtain ⟨hwhole, parent, hinherits, hparent, hdigest, -⟩ := h
  have hidentity := hu.identity
  rw [hwhole, show u.arguments.parent none = u.arguments.parentCandidateId from rfl, hparent, hdigest] at hidentity
  have hidentity' := hv.identity
  rw [hinherits, show v.arguments.parent (some parent) = some parent.candidateId from rfl, hidentity] at hidentity'
  exact Except.ok.inj hidentity'

theorem Clash.path (hcf : Sha256.CollisionFree) (h : Clash u v) (hu : Assembled config u) (hv : Assembled config v)
    (hmu : u.arguments.bundle.InMemory) (hmv : v.arguments.bundle.InMemory) :
    ∃ source ∈ v.manifest.files, ∀ other ∈ u.manifest.files, other.path ≠ source.path := by
  obtain ⟨hwhole, parent, hinherits, -, hdigest, source, hsource, hclear⟩ := h
  have hfiles := digest_files hcf hmu hmv hdigest
  refine ⟨source, ?_, ?_⟩
  · rw [hv.files, hinherits]
    exact .inr ⟨mem_inheritedFiles.mpr hsource, fun file hfile => hclear file ((hfiles file).mpr hfile)⟩
  · intro other hother
    rw [hu.files, hwhole] at hother
    rcases hother with ⟨file, hfile, hstands⟩ | ⟨hnil, -⟩
    · rw [hstands.1]
      exact hclear file hfile
    · cases hnil

end pairs

section runs

variable [CandidateJson] {config : CandidateToolConfig} {artifacts : ArtifactStore} {s s' : MigrationState}
  {log : History SubmitCandidateBundleArguments Completed} {arguments : SubmitCandidateBundleArguments}
  {fresh : Submission}

def ReadsBack : Prop := ∀ document read : CandidateSourceManifestDocument,
  CandidateJson.parseManifest (CandidateJson.manifestBytes document) = some read → read = document

omit [Sha256] in
theorem parseManifest_written (hreads : ReadsBack) {manifest read : CandidateSourceManifest}
    (h : parseManifest (manifestBytes manifest) = some read) : read = manifest := by
  obtain ⟨document, hdocument, hread⟩ := Option.bind_eq_some_iff.mp h
  rw [hreads _ _ hdocument] at hread
  unfold CandidateSourceManifestDocument.manifest at hread
  rw [if_pos (show manifest.document.schemaVersion = CANDIDATE_SOURCE_MANIFEST_SCHEMA_V1 from rfl)] at hread
  cases hnew : CandidateSourceManifest.new manifest.document.spec with
  | error e =>
    rw [hnew] at hread
    cases hread
  | ok found =>
    rw [hnew] at hread
    cases hread
    have hspec : read.spec = manifest.spec := new_spec hnew
    cases read
    cases manifest
    cases hspec
    rfl

structure Sound (config : CandidateToolConfig) (s : MigrationState) : Prop where
  assembled : ∀ u ∈ s.submissions, Assembled config u
  inMemory : ∀ u ∈ s.submissions, u.arguments.bundle.InMemory
  stored : ∀ u ∈ s.submissions,
    s.gateway.artifacts.openArtifact (Sha256.digestBytes (manifestBytes u.manifest)) = some (manifestBytes u.manifest)
  builds : ∀ u ∈ s.submissions, ∀ parent, u.inherited = some parent → ∃ e ∈ s.submissions, e.manifest = parent
  tells : NoClash s.submissions → IdentityTellsFiles s.submissions
  present : ∀ u ∈ s.submissions, s.gateway.workspace.lookup u.manifest.candidateId.text ≠ none
  holds : ∀ root tree, s.gateway.workspace.lookup root = some tree →
    ∃ u ∈ s.submissions, u.manifest.candidateId.text = root ∧ tree.Holds u.manifest.files

theorem sound_initial : Sound config ⟨⟨artifacts, []⟩, []⟩ where
  assembled := by
    intro u hu
    cases hu
  inMemory := by
    intro u hu
    cases hu
  stored := by
    intro u hu
    cases hu
  builds := by
    intro u hu
    cases hu
  tells := by
    intro _ u hu
    cases hu
  present := by
    intro u hu
    cases hu
  holds := by
    intro root tree htree
    cases htree

structure Ready (config : CandidateToolConfig) (s : MigrationState) (fresh : Submission) : Prop where
  assembled : Assembled config fresh
  inMemory : fresh.arguments.bundle.InMemory
  builds : ∀ parent, fresh.inherited = some parent → ∃ e ∈ s.submissions, e.manifest = parent

theorem Sound.ready (hs : Sound config s) (hreads : ReadsBack) (hcontinues : Continues s arguments)
    (hmemory : arguments.bundle.InMemory) (harguments : fresh.arguments = arguments)
    (hcites : Cites s.gateway arguments fresh.inherited) (hassembled : Assembled config fresh) :
    Ready config s fresh where
  assembled := hassembled
  inMemory := by
    rw [harguments]
    exact hmemory
  builds parent hparent := by
    unfold Cites at hcites
    cases hdigest : arguments.inheritFromManifestDigest with
    | none =>
      rw [hdigest] at hcites
      rw [show fresh.inherited = none from hcites] at hparent
      cases hparent
    | some digest =>
      rw [hdigest] at hcites
      obtain ⟨bytes, manifest, hopen, hparse, hinherited⟩ := hcites
      obtain ⟨e, he, rfl⟩ := hcontinues digest hdigest
      rw [hs.stored e he] at hopen
      cases hopen
      rw [hinherited] at hparent
      cases hparent
      exact ⟨e, he, (parseManifest_written hreads hparse).symm⟩

theorem Sound.tells_fresh (hs : Sound config s) (hcf : Sha256.CollisionFree) (hdelimited : DigestsDelimited)
    (hready : Ready config s fresh) (hclash : NoClash (s.submissions ++ [fresh])) :
    IdentityTellsFiles (s.submissions ++ [fresh]) := by
  have hold : IdentityTellsFiles s.submissions :=
    hs.tells fun u hu v hv => hclash u (List.mem_append_left _ hu) v (List.mem_append_left _ hv)
  have hof : ∀ u ∈ s.submissions ++ [fresh], Ready config s u := by
    intro u hu
    rcases List.mem_append.mp hu with hu | hu
    · exact ⟨hs.assembled u hu, hs.inMemory u hu, hs.builds u hu⟩
    · rw [List.mem_singleton.mp hu]
      exact hready
  intro u hu v hv hid
  have hu' := hof u hu
  have hv' := hof v hv
  exact sameFiles_of_id hcf hdelimited hold hu'.assembled hv'.assembled hu'.inMemory hv'.inMemory hu'.builds hv'.builds
    (hclash u hu v hv) (hclash v hv u hu) hid

variable {gateway : GatewayState}

theorem Sound.step (hs : Sound config s) (hcf : Sha256.CollisionFree) (hdelimited : DigestsDelimited)
    {fresh : Submission} (hready : Ready config s fresh) (hpublished : Published s.gateway gateway fresh.manifest) :
    Sound config ⟨gateway, s.submissions ++ [fresh]⟩ where
  assembled := by
    intro u hu
    rcases List.mem_append.mp hu with hu | hu
    · exact hs.assembled u hu
    · rw [List.mem_singleton.mp hu]
      exact hready.assembled
  inMemory := by
    intro u hu
    rcases List.mem_append.mp hu with hu | hu
    · exact hs.inMemory u hu
    · rw [List.mem_singleton.mp hu]
      exact hready.inMemory
  stored := by
    intro u hu
    rcases List.mem_append.mp hu with hu | hu
    · exact hpublished.artifacts _ _ (hs.stored u hu)
    · rw [List.mem_singleton.mp hu]
      exact hpublished.stored
  builds := by
    intro u hu parent hparent
    have hearlier : ∃ e ∈ s.submissions, e.manifest = parent := by
      rcases List.mem_append.mp hu with hu | hu
      · exact hs.builds u hu parent hparent
      · rw [List.mem_singleton.mp hu] at hparent
        exact hready.builds parent hparent
    obtain ⟨e, he, hmanifest⟩ := hearlier
    exact ⟨e, List.mem_append_left _ he, hmanifest⟩
  tells := hs.tells_fresh hcf hdelimited hready
  present := by
    intro u hu
    by_cases hroot : u.manifest.candidateId.text = fresh.manifest.candidateId.text
    · obtain ⟨tree, htree, -⟩ := hpublished.materialized
      show gateway.workspace.lookup u.manifest.candidateId.text ≠ none
      rw [hroot, htree]
      exact Option.some_ne_none tree
    · rcases List.mem_append.mp hu with hu | hu
      · show gateway.workspace.lookup u.manifest.candidateId.text ≠ none
        rw [hpublished.others _ hroot]
        exact hs.present u hu
      · rw [List.mem_singleton.mp hu] at hroot
        exact absurd rfl hroot
  holds := by
    intro root tree htree
    by_cases hroot : root = fresh.manifest.candidateId.text
    · obtain ⟨found, hfound, hholds⟩ := hpublished.materialized
      have heq : tree = found := by
        rw [hroot] at htree
        exact Option.some.inj (htree.symm.trans hfound)
      rw [heq]
      exact ⟨fresh, List.mem_append_right _ (List.mem_singleton_self fresh), hroot.symm, hholds⟩
    · have hold : s.gateway.workspace.lookup root = some tree := by
        rw [← hpublished.others root hroot]
        exact htree
      obtain ⟨u, hu, hid, hholds⟩ := hs.holds root tree hold
      exact ⟨u, List.mem_append_left _ hu, hid, hholds⟩

theorem submitRecorded_wp (hcf : Sha256.CollisionFree) : (submitRecorded config arguments).wp gateway
    (fun answer gateway' => answer.1.arguments = arguments ∧ Cites gateway arguments answer.1.inherited ∧
      Assembled config answer.1 ∧ Published gateway gateway' answer.1.manifest) fun _ _ => True := by
  simp only [submitRecorded, wp_bind]
  refine wp_mono (assemble_wp hcf) ?_ fun _ _ _ => trivial
  rintro fresh gateway₁ ⟨harguments, hcites, hassembled, hstores⟩
  refine wp_mono (publish_wp hcf) ?_ fun _ _ _ => trivial
  intro completed gateway' hpublished
  refine ⟨harguments, hcites, hassembled, ?_, hpublished.stored, ?_, hpublished.materialized⟩
  · exact fun digest bytes hopen => hpublished.artifacts digest bytes (hstores.artifacts digest bytes hopen)
  · intro other hother
    rw [hpublished.others other hother, hstores.workspace]

theorem run_sound (hcf : Sha256.CollisionFree) (hdelimited : DigestsDelimited) (hreads : ReadsBack)
    (h : Run (migration config artifacts) Proper log s) : Sound config s := by
  apply h.invariant (I := fun _ s => Sound config s)
  · exact sound_initial
  · intro log s arguments s' completed hs hproper hact
    simp only [migration] at hact
    cases hrun : submitRecorded config arguments s.gateway with
    | mk answer gateway => cases answer with
      | error e =>
        rw [hrun] at hact
        cases hact
      | ok answer =>
        obtain ⟨fresh, completed'⟩ := answer
        rw [hrun] at hact
        cases hact
        obtain ⟨harguments, hcites, hassembled, hpublished⟩ := wp_ok (submitRecorded_wp hcf) hrun
        exact hs.step hcf hdelimited (hs.ready hreads hproper.1 hproper.2 harguments hcites hassembled) hpublished

/-- The directory of a new submission, where there is one, holds the files of the submission. -/
def DirectoryHolds (s : MigrationState) (fresh : Submission) : Prop :=
  ∀ tree, s.gateway.workspace.lookup fresh.manifest.candidateId.text = some tree → tree.Holds fresh.manifest.files

theorem Sound.directory (hs : Sound config s) (htells : IdentityTellsFiles (s.submissions ++ [fresh])) :
    DirectoryHolds s fresh := by
  intro tree htree
  obtain ⟨u, hu, hid, hholds⟩ := hs.holds _ tree htree
  have hsame := htells u (List.mem_append_left _ hu) fresh (List.mem_append_right _ (List.mem_singleton_self fresh))
    (ValidatedId.ext_text hid)
  exact hholds.congr hsame

theorem Sound.covered (hs : Sound config s) {u : Submission} (htells : IdentityTellsFiles s.submissions)
    (hdirectory : DirectoryHolds s fresh) (hu : u ∈ s.submissions)
    (hid : u.manifest.candidateId = fresh.manifest.candidateId) : ∃ tree : Tree, tree.Holds u.manifest.files ∧
      tree.Holds fresh.manifest.files := by
  obtain ⟨tree, htree⟩ := Option.ne_none_iff_exists'.mp (hs.present u hu)
  obtain ⟨w, hw, hidentity, hholds⟩ := hs.holds _ tree htree
  have hsame := htells w hw u hu (ValidatedId.ext_text hidentity)
  rw [hid] at htree
  exact ⟨tree, hholds.congr hsame, hdirectory tree htree⟩

theorem Sound.noClash (hs : Sound config s) (hcf : Sha256.CollisionFree) (hready : Ready config s fresh)
    (htells : IdentityTellsFiles s.submissions) (hdirectory : DirectoryHolds s fresh) :
    NoClash (s.submissions ++ [fresh]) := by
  intro u hu v hv hclash
  rcases List.mem_append.mp hu with hu | hu
  · rcases List.mem_append.mp hv with hv | hv
    · have hu' := hs.assembled u hu
      have hv' := hs.assembled v hv
      obtain ⟨source, hsource, hother⟩ := hclash.path hcf hu' hv' (hs.inMemory u hu) (hs.inMemory v hv)
      exact hother source ((htells u hu v hv (hclash.id_eq hu' hv') source).mpr hsource) rfl
    · rw [List.mem_singleton.mp hv] at hclash
      have hu' := hs.assembled u hu
      obtain ⟨source, hsource, hother⟩ := hclash.path hcf hu' hready.assembled (hs.inMemory u hu) hready.inMemory
      obtain ⟨tree, hholds, hholds'⟩ := hs.covered htells hdirectory hu (hclash.id_eq hu' hready.assembled)
      obtain ⟨other, hmem, hpath⟩ := hholds'.covered hholds hsource
      exact hother other hmem hpath
  · rw [List.mem_singleton.mp hu] at hclash
    rcases List.mem_append.mp hv with hv | hv
    · have hv' := hs.assembled v hv
      obtain ⟨source, hsource, hother⟩ := hclash.path hcf hready.assembled hv' hready.inMemory (hs.inMemory v hv)
      obtain ⟨tree, hholds, hholds'⟩ := hs.covered htells hdirectory hv (hclash.id_eq hready.assembled hv').symm
      obtain ⟨other, hmem, hpath⟩ := hholds.covered hholds' hsource
      exact hother other hmem hpath
    · rw [List.mem_singleton.mp hv] at hclash
      obtain ⟨hwhole, parent, hinherits, -⟩ := hclash
      rw [hwhole] at hinherits
      cases hinherits

/-- Files are what has been inherited under what has been authored; an identity tells them, and a new submission finds
no other files in its directory, just when no submissions clash. -/
theorem candidates_told_by_identity_iff (hcf : Sha256.CollisionFree) (hdelimited : DigestsDelimited)
    (hreads : ReadsBack)
    (h : Run (migration config artifacts) Proper log s) (hcontinues : Continues s arguments)
    (hmemory : arguments.bundle.InMemory)
    {fresh : Submission} (hfresh : (assemble config arguments s.gateway).1 = .ok fresh) :
    (∀ u ∈ s.submissions ++ [fresh], ∀ source,
      source ∈ u.manifest.files ↔ Overrides (inheritedFiles u.inherited) u.arguments.bundle.files source) ∧
    ((IdentityTellsFiles (s.submissions ++ [fresh]) ∧ DirectoryHolds s fresh) ↔
      NoClash (s.submissions ++ [fresh])) := by
  have hs := run_sound hcf hdelimited hreads h
  have hready : Ready config s fresh := by
    cases hassemble : assemble config arguments s.gateway with
    | mk answer gateway =>
      rw [hassemble] at hfresh
      rw [show answer = .ok fresh from hfresh] at hassemble
      obtain ⟨harguments, hcites, hassembled, -⟩ := wp_ok (assemble_wp hcf) hassemble
      exact hs.ready hreads hcontinues hmemory harguments hcites hassembled
  refine ⟨?_, ?_, ?_⟩
  · intro u hu
    rcases List.mem_append.mp hu with hu | hu
    · exact (hs.assembled u hu).files
    · rw [List.mem_singleton.mp hu]
      exact hready.assembled.files
  · rintro ⟨htells, hdirectory⟩
    have hold : IdentityTellsFiles s.submissions :=
      fun u hu v hv => htells u (List.mem_append_left _ hu) v (List.mem_append_left _ hv)
    exact hs.noClash hcf hready hold hdirectory
  · intro hclash
    have htells := hs.tells_fresh hcf hdelimited hready hclash
    exact ⟨htells, hs.directory htells⟩

end runs

end submissions

section sample

def sampleBundle (directory : String) : Option GeneratedSourceChange := do
  let kinds := [("device.asc", GeneratedSourceKind.ascendCDevice), ("host.cpp", .ascendHost),
    ("CMakeLists.txt", .buildIntegration), ("mapping.json", .componentMapping)]
  let files ← kinds.mapM fun (name, kind) => do
    let path ← BundlePath.tryFrom ("generated/" ++ directory ++ name)
    (GeneratedSourceFile.new path kind "x").toOption
  (GeneratedSourceChange.new files []).toOption

def firstBundle : GeneratedSourceChange := (sampleBundle "a/").get (by decide +kernel)

def secondBundle : GeneratedSourceChange := (sampleBundle "c/").get (by decide +kernel)

def sampleConfig : CandidateToolConfig where
  taskId := ⟨"task", Eq.refl false⟩
  migrationSpecDigest := ⟨[1]⟩
  generationStrategy := .directAscendC
  publicSymbol := "vector_add"
  buildTarget := "vector_add"
  inputSourcePaths := [⟨"kernel.cu", Eq.refl true⟩]
  targetArchitecture := "ascend910b"

def sampleTexts : List (List UInt8) :=
  [generatedSourceBytes firstBundle.files [], generatedSourceBytes secondBundle.files [],
    candidateInput sampleConfig none ⟨[0]⟩, candidateInput sampleConfig (some ⟨"candidate-02", by decide⟩) ⟨[1]⟩,
    utf8 "x", [1]]

@[reducible] def sampleSha256 : Sha256 := tableSha256 sampleTexts

@[reducible] def jsonOf (known : Option CandidateSourceManifestDocument) : CandidateJson where
  manifestBytes document := if some document = known then [1] else 0 :: utf8 document.spec.candidateId.text
  parseManifest bytes := if bytes = [1] then known else none
  manifestError _ := "invalid JSON"
  resultBytes result := utf8 result.candidateId.text

theorem jsonOf_readsBack (known : Option CandidateSourceManifestDocument) : @ReadsBack (jsonOf known) := by
  intro document read h
  change (if (if some document = known then ([1] : List UInt8) else 0 :: utf8 document.spec.candidateId.text) = [1]
    then known else none) = some read at h
  by_cases hknown : some document = known
  · rw [if_pos hknown, if_pos rfl, ← hknown] at h
    exact (Option.some.inj h).symm
  · rw [if_neg hknown, if_neg (by simp)] at h
    cases h

def firstSubmission : Option Submission :=
  ((@assemble sampleSha256 (jsonOf none) sampleConfig ⟨none, none, firstBundle⟩ ⟨[], []⟩).1).toOption

@[reducible] def sampleJson : CandidateJson :=
  jsonOf (firstSubmission.map fun submission => submission.manifest.document)

def firstId : Option CandidateId := firstSubmission.map fun submission => submission.manifest.candidateId

def namingParent : SubmitCandidateBundleArguments := ⟨firstId, none, secondBundle⟩

def inheritingParent : SubmitCandidateBundleArguments :=
  ⟨none, some (@Sha256.digestBytes sampleSha256 [1]), secondBundle⟩

def sampleSubmissions : List SubmitCandidateBundleArguments := [⟨none, none, firstBundle⟩, namingParent]

def properTest (s : MigrationState) (arguments : SubmitCandidateBundleArguments) : Bool :=
  (match arguments.inheritFromManifestDigest with
    | none => true
    | some digest => s.submissions.any fun earlier =>
      @Sha256.digestBytes sampleSha256 (@manifestBytes sampleJson earlier.manifest) = digest) &&
  ((arguments.bundle.files.all fun file => (utf8 file.path.text).length < 2 ^ 56) &&
    arguments.bundle.authorNotes.all fun note => (utf8 note).length < 2 ^ 56)

theorem properTest_proper {s : MigrationState} {arguments : SubmitCandidateBundleArguments}
    (h : properTest s arguments = true) :
    @Continues sampleSha256 sampleJson s arguments ∧ arguments.bundle.InMemory := by
  unfold properTest at h
  simp only [Bool.and_eq_true, List.all_eq_true, decide_eq_true_eq] at h
  obtain ⟨hcontinues, hfiles, hnotes⟩ := h
  refine ⟨?_, hfiles, hnotes⟩
  intro digest hdigest
  rw [hdigest] at hcontinues
  obtain ⟨earlier, hearlier, hsame⟩ := List.any_eq_true.mp hcontinues
  exact ⟨earlier, hearlier, of_decide_eq_true hsame⟩

abbrev ProperPlay (actions : List SubmitCandidateBundleArguments) (check : MigrationState → Bool) : Type :=
  Played (@migration sampleSha256 sampleJson sampleConfig []) (fun _ => properTest) actions (fun _ => check)

theorem proper_reaches {actions : List SubmitCandidateBundleArguments} {check : MigrationState → Bool}
    (h : ProperPlay actions check) :
    ∃ log s, Run (@migration sampleSha256 sampleJson sampleConfig []) (@Proper sampleSha256 sampleJson) log s ∧
      check s = true := by
  obtain ⟨log, s, hrun, -, hcheck⟩ := h.reaches (fun _ _ _ h => @properTest_proper _ _ h)
  exact ⟨log, s, hrun, hcheck⟩

def assembles (arguments : SubmitCandidateBundleArguments) (s : MigrationState) : Bool :=
  properTest s arguments && (@assemble sampleSha256 sampleJson sampleConfig arguments s.gateway).1.isOk

def inheritingPlay : ProperPlay [⟨none, none, firstBundle⟩] (fun s =>
    s.submissions ≠ [] && assembles inheritingParent s) :=
  ⟨by decide +kernel⟩

theorem candidates_told_by_identity_sample : ∃ s fresh, s.submissions ≠ [] ∧
    (@assemble sampleSha256 sampleJson sampleConfig inheritingParent s.gateway).1 = .ok fresh ∧
    (∀ u ∈ s.submissions ++ [fresh], ∀ source, source ∈ u.manifest.files ↔
      @Overrides sampleSha256 (inheritedFiles u.inherited) u.arguments.bundle.files source) ∧
    ((IdentityTellsFiles (s.submissions ++ [fresh]) ∧ @DirectoryHolds sampleSha256 s fresh) ↔
      @NoClash sampleSha256 (s.submissions ++ [fresh])) := by
  obtain ⟨log, s, hrun, hcheck⟩ := proper_reaches inheritingPlay
  simp only [assembles, Bool.and_eq_true, decide_eq_true_eq] at hcheck
  obtain ⟨hsome, hproper, hassembles⟩ := hcheck
  obtain ⟨hcontinues, hmemory⟩ := properTest_proper hproper
  cases hfresh : (@assemble sampleSha256 sampleJson sampleConfig inheritingParent s.gateway).1 with
  | error error =>
    rw [hfresh] at hassembles
    cases hassembles
  | ok fresh =>
    exact ⟨s, fresh, hsome, hfresh, @candidates_told_by_identity_iff sampleSha256 sampleJson sampleConfig [] s log
      inheritingParent (tableSha256_collisionFree (by decide +kernel)) (tableSha256_delimited (by decide))
      (jsonOf_readsBack _) hrun hcontinues hmemory fresh hfresh⟩

def sharedIdentity (s : MigrationState) : Bool :=
  s.submissions.any fun u => s.submissions.any fun v =>
    u.manifest.candidateId = v.manifest.candidateId ∧ v.manifest.files.any fun source => source ∉ u.manifest.files

def sharingPlay : ProperPlay (sampleSubmissions ++ [inheritingParent]) sharedIdentity := ⟨by decide +kernel⟩

theorem naming_and_inheriting_share_identity : ∃ log s,
    Run (@migration sampleSha256 sampleJson sampleConfig []) (@Proper sampleSha256 sampleJson) log s ∧
      ¬ IdentityTellsFiles s.submissions := by
  obtain ⟨log, s, hrun, hcheck⟩ := proper_reaches sharingPlay
  refine ⟨log, s, hrun, fun htells => ?_⟩
  obtain ⟨u, hu, hrest⟩ := List.any_eq_true.mp hcheck
  obtain ⟨v, hv, hboth⟩ := List.any_eq_true.mp hrest
  obtain ⟨hid, hmore⟩ := of_decide_eq_true hboth
  obtain ⟨source, hsource, hmissing⟩ := List.any_eq_true.mp hmore
  exact of_decide_eq_true hmissing ((htells u hu v hv hid source).mpr hsource)

end sample

end AlloyPort.Candidate
