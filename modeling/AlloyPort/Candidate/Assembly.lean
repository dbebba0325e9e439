import AlloyPort.Candidate.Submit

/-! What a submission assembles, and what materializing it leaves in its directory. -/

namespace AlloyPort.Candidate

open Database Framing Transaction

section files

variable {files files' : List GeneratedSourceFile} {notes notes' : List String}

theorem tag_ne_zero (kind : GeneratedSourceKind) : kind.tag ≠ 0 := by
  cases kind <;> decide

theorem tag_inj {a b : GeneratedSourceKind} (h : a.tag = b.tag) : a = b := by
  revert h
  cases a <;> cases b <;> decide

theorem BundlePath.ext_text {a b : BundlePath} (h : a.text = b.text) : a = b := by
  cases a
  cases b
  cases h
  rfl

theorem contents_fits (file : GeneratedSourceFile) : Fits (utf8 file.contents) := by
  have hbounded := file.bounded
  unfold MAX_GENERATED_FILE_BYTES at hbounded
  unfold Fits
  omega

theorem fileBytes_append_inj {a b : GeneratedSourceFile} {x y : List UInt8} (ha : Fits (utf8 a.path.text))
    (hb : Fits (utf8 b.path.text)) (h : fileBytes a ++ x = fileBytes b ++ y) : a = b ∧ x = y := by
  simp only [fileBytes, List.append_assoc, List.cons_append] at h
  obtain ⟨hpath, hrest⟩ := frame_append_inj ha hb h
  rw [List.cons.injEq] at hrest
  obtain ⟨hcontents, hrest'⟩ := frame_append_inj (contents_fits a) (contents_fits b) hrest.2
  have hkind := tag_inj hrest.1
  have hpath' := BundlePath.ext_text (utf8_inj hpath)
  have htext := utf8_inj hcontents
  refine ⟨?_, hrest'⟩
  cases a
  cases b
  cases hkind
  cases hpath'
  cases htext
  rfl

theorem notes_ne_file {file : GeneratedSourceFile} {x : List UInt8} (hfile : Fits (utf8 file.path.text))
    (hnotes : ∀ note ∈ notes, Fits (utf8 note)) :
    (notes.flatMap fun note => frame (utf8 note)) ≠ fileBytes file ++ x := by
  intro h
  cases notes with
  | nil =>
    have hlength := congrArg List.length h
    simp [fileBytes] at hlength
  | cons note rest =>
    rw [List.flatMap_cons] at h
    simp only [fileBytes, List.append_assoc, List.cons_append] at h
    obtain ⟨-, hrest⟩ := frame_append_inj (hnotes note List.mem_cons_self) hfile h
    cases rest with
    | nil => cases hrest
    | cons next rest =>
      obtain ⟨tail, htail⟩ := frame_head (hnotes next (List.mem_cons_of_mem _ List.mem_cons_self))
      rw [List.flatMap_cons, htail, List.cons_append, List.cons.injEq] at hrest
      exact tag_ne_zero file.kind hrest.1.symm

theorem sourceBytes_inj (hfiles : ∀ file ∈ files, Fits (utf8 file.path.text))
    (hfiles' : ∀ file ∈ files', Fits (utf8 file.path.text)) (hnotes : ∀ note ∈ notes, Fits (utf8 note))
    (hnotes' : ∀ note ∈ notes', Fits (utf8 note))
    (h : files.flatMap fileBytes ++ (notes.flatMap fun note => frame (utf8 note)) =
      files'.flatMap fileBytes ++ notes'.flatMap fun note => frame (utf8 note)) : files = files' := by
  induction files generalizing files' with
  | nil => cases files' with
    | nil => rfl
    | cons file' rest' =>
      rw [List.flatMap_nil, List.nil_append, List.flatMap_cons, List.append_assoc] at h
      exact absurd h (notes_ne_file (hfiles' file' List.mem_cons_self) hnotes)
  | cons file rest ih => cases files' with
    | nil =>
      rw [List.flatMap_nil, List.nil_append, List.flatMap_cons, List.append_assoc] at h
      exact absurd h.symm (notes_ne_file (hfiles file List.mem_cons_self) hnotes')
    | cons file' rest' =>
      rw [List.flatMap_cons, List.flatMap_cons, List.append_assoc, List.append_assoc] at h
      obtain ⟨hfile, hrest⟩ :=
        fileBytes_append_inj (hfiles file List.mem_cons_self) (hfiles' file' List.mem_cons_self) h
      have htail := ih (fun f hf => hfiles f (List.mem_cons_of_mem _ hf)) (fun f hf =>
        hfiles' f (List.mem_cons_of_mem _ hf)) hrest
      rw [hfile, htail]

theorem digest_files [Sha256] (hcf : Sha256.CollisionFree) {change change' : GeneratedSourceChange}
    (hm : change.InMemory) (hm' : change'.InMemory) (h : change.digest = change'.digest) (file : GeneratedSourceFile) :
    file ∈ change.files ↔ file ∈ change'.files := by
  have hbytes := hcf h
  unfold generatedSourceBytes at hbytes
  simp only [List.append_assoc, List.cons_append] at hbytes
  have hrest := List.append_cancel_left hbytes
  rw [List.cons.injEq] at hrest
  have hsorted : change.files.insertionSort byPath = change'.files.insertionSort byPath := by
    refine sourceBytes_inj ?_ ?_ ?_ ?_ hrest.2
    · exact fun f hf => hm.1 f ((List.mem_insertionSort byPath).mp hf)
    · exact fun f hf => hm'.1 f ((List.mem_insertionSort byPath).mp hf)
    · exact fun note hnote => hm.2 note ((List.mem_insertionSort byText).mp hnote)
    · exact fun note hnote => hm'.2 note ((List.mem_insertionSort byText).mp hnote)
  rw [← List.mem_insertionSort byPath, hsorted, List.mem_insertionSort byPath]

end files

section store

variable [Sha256] {store : ArtifactStore} {digest : Sha256Digest} {bytes : List UInt8}

theorem openArtifact_digest (h : store.openArtifact digest = some bytes) : Sha256.digestBytes bytes = digest := by
  have hfound := List.find?_some h
  exact of_decide_eq_true hfound

theorem openArtifact_mem (h : store.openArtifact digest = some bytes) : bytes ∈ store := List.mem_of_find?_eq_some h

theorem openArtifact_ingest {added : List UInt8} (h : store.openArtifact digest = some bytes) :
    (store.ingest added).openArtifact digest = some bytes := by
  unfold ArtifactStore.ingest
  split
  · exact h
  · unfold ArtifactStore.openArtifact at h ⊢
    rw [List.find?_append, h, Option.some_or]

theorem openArtifact_ingested (hcf : Sha256.CollisionFree) :
    (store.ingest bytes).openArtifact (Sha256.digestBytes bytes) = some bytes := by
  unfold ArtifactStore.ingest
  cases hopen : store.openArtifact (Sha256.digestBytes bytes) with
  | some other =>
    rw [← hcf (openArtifact_digest hopen)]
    exact hcf (openArtifact_digest hopen) ▸ hopen
  | none =>
    unfold ArtifactStore.openArtifact at hopen ⊢
    rw [List.find?_append, hopen, Option.none_or]
    simp

/-- Everything that was stored is still there, and the directories are as they were. -/
structure Stores (s s' : GatewayState) : Prop where
  artifacts : ∀ digest bytes, s.artifacts.openArtifact digest = some bytes →
    s'.artifacts.openArtifact digest = some bytes
  workspace : s'.workspace = s.workspace

theorem Stores.refl (s : GatewayState) : Stores s s := ⟨fun _ _ h => h, rfl⟩

theorem Stores.trans {s s' s'' : GatewayState} (h : Stores s s') (h' : Stores s' s'') : Stores s s'' :=
  ⟨fun digest bytes hb => h'.artifacts digest bytes (h.artifacts digest bytes hb), h'.workspace.trans h.workspace⟩

variable {s : GatewayState}

theorem ingestBytes_wp (hcf : Sha256.CollisionFree) :
    (ingestBytes bytes).wp s (fun digest s' => digest = Sha256.digestBytes bytes ∧ Stores s s' ∧
      s'.artifacts.openArtifact (Sha256.digestBytes bytes) = some bytes) fun _ _ => True := by
  simp only [ingestBytes, wp_bind, wp_write, wp_pure]
  exact ⟨trivial, ⟨fun _ _ h => openArtifact_ingest h, rfl⟩, openArtifact_ingested hcf⟩

theorem readBounded_wp {maximum : Nat} : (readBounded digest maximum).wp s
    (fun bytes s' => s' = s ∧ s.artifacts.openArtifact digest = some bytes) fun _ _ => True := by
  simp only [readBounded, wp_bind, wp_read]
  cases hopen : s.artifacts.openArtifact digest with
  | none => trivial
  | some bytes =>
    simp only [wp_ite, wp_raise, wp_pure]
    split
    · trivial
    · exact ⟨trivial, trivial⟩

end store

section assembly

variable {assembled : List CandidateSourceFile} {source : CandidateSourceFile} {manifest : CandidateSourceManifest}

theorem mem_insertByPath {other : CandidateSourceFile} :
    other ∈ insertByPath assembled source ↔ other = source ∨ other ∈ assembled ∧ other.path ≠ source.path := by
  rw [insertByPath, List.mem_orderedInsert, List.mem_filter, decide_eq_true_eq]

theorem mem_foldl_insertByPath {sources base : List CandidateSourceFile}
    (hdistinct : (sources.map CandidateSourceFile.path).Nodup) : source ∈ sources.foldl insertByPath base ↔
      source ∈ sources ∨ source ∈ base ∧ ∀ other ∈ sources, other.path ≠ source.path := by
  induction sources generalizing base with
  | nil => simp
  | cons first rest ih =>
    rw [List.map_cons, List.nodup_cons] at hdistinct
    have hfirst : ∀ other ∈ rest, other.path ≠ first.path := by
      intro other hother heq
      apply hdistinct.1
      rw [← heq]
      exact List.mem_map_of_mem hother
    rw [List.foldl_cons, ih hdistinct.2, mem_insertByPath, List.mem_cons, List.forall_mem_cons]
    constructor
    · rintro (hrest | ⟨rfl | ⟨hbase, hne⟩, hclear⟩)
      · exact .inl (.inr hrest)
      · exact .inl (.inl rfl)
      · exact .inr ⟨hbase, fun heq => hne heq.symm, hclear⟩
    · rintro ((rfl | hrest) | ⟨hbase, hne, hclear⟩)
      · exact .inr ⟨.inl rfl, hfirst⟩
      · exact .inl hrest
      · exact .inr ⟨.inr ⟨hbase, fun heq => hne heq.symm⟩, hclear⟩

theorem mem_inheritedFiles :
    source ∈ inheritedFiles (some manifest) ↔ source ∈ manifest.files := by
  rw [show inheritedFiles (some manifest) = manifest.spec.files.foldl insertByPath [] from rfl,
    mem_foldl_insertByPath manifest.distinct]
  simp [CandidateSourceManifest.files]

theorem requireWhole_wp {arguments : SubmitCandidateBundleArguments} {inherited : Option CandidateSourceManifest}
    {s : GatewayState} :
    (requireWhole arguments inherited).wp s (fun _ s' => s' = s) fun _ _ => True := by
  cases inherited with
  | some manifest => exact rfl
  | none =>
    unfold requireWhole
    dsimp only
    split
    · exact rfl
    · trivial

theorem new_spec {spec : CandidateSourceManifestSpec}
    (h : CandidateSourceManifest.new spec = .ok manifest) : manifest.spec = spec := by
  unfold CandidateSourceManifest.new at h
  split at h
  · split at h
    · cases h
    · split at h
      · cases h
        rfl
      · cases h
  · cases h

variable [Sha256] {s : GatewayState} {file : GeneratedSourceFile}

/-- The source of a candidate that stands for an authored file. -/
def Stands (source : CandidateSourceFile) (file : GeneratedSourceFile) : Prop :=
  source.path = file.path ∧ source.kind = file.kind ∧ source.artifact = sourceDescriptor file

theorem Stands.unique {source' : CandidateSourceFile} (h : Stands source file)
    (h' : Stands source' file) : source = source' := by
  obtain ⟨hpath, hkind, hartifact⟩ := h
  obtain ⟨hpath', hkind', hartifact'⟩ := h'
  cases source
  cases source'
  cases hpath.trans hpath'.symm
  cases hkind.trans hkind'.symm
  cases hartifact.trans hartifact'.symm
  rfl

theorem ingestSourceFile_wp (hcf : Sha256.CollisionFree) : (ingestSourceFile file).wp s
    (fun source s' => Stands source file ∧ Stores s s') fun _ _ => True := by
  simp only [ingestSourceFile, wp_bind]
  refine wp_mono (ingestBytes_wp hcf) ?_ fun _ _ _ => trivial
  rintro _ s' ⟨_, hstores, _⟩
  split
  · rename_i source hsource
    refine ⟨?_, hstores⟩
    unfold CandidateSourceFile.new at hsource
    split at hsource
    · split at hsource
      · cases hsource
        exact ⟨rfl, rfl, rfl⟩
      · cases hsource
    · cases hsource
  · trivial

/-- The files of `base`, where none of the authored files takes their place, and the authored ones. -/
def Overrides (base : List CandidateSourceFile) (files : List GeneratedSourceFile) (source : CandidateSourceFile) :
    Prop :=
  (∃ file ∈ files, Stands source file) ∨ source ∈ base ∧ ∀ file ∈ files, file.path ≠ source.path

theorem ingestSourceFiles_wp (hcf : Sha256.CollisionFree) {files : List GeneratedSourceFile}
    (hdistinct : (files.map GeneratedSourceFile.path).Nodup) : (ingestSourceFiles assembled files).wp s
    (fun sources s' => (∀ source, source ∈ sources ↔ Overrides assembled files source) ∧
      Stores s s') fun _ _ => True := by
  induction files generalizing assembled s with
  | nil =>
    refine ⟨fun source => ?_, Stores.refl s⟩
    simp [Overrides]
  | cons file rest ih =>
    rw [List.map_cons, List.nodup_cons] at hdistinct
    simp only [ingestSourceFiles, wp_bind]
    refine wp_mono (ingestSourceFile_wp hcf) ?_ fun _ _ _ => trivial
    rintro stored s' ⟨hstands, hstores⟩
    refine wp_mono (ih hdistinct.2) ?_ fun _ _ _ => trivial
    rintro sources s'' ⟨hsources, hstores'⟩
    refine ⟨fun source => ?_, hstores.trans hstores'⟩
    rw [hsources source, Overrides, Overrides, mem_insertByPath]
    constructor
    · rintro (⟨other, hother, hsource⟩ | ⟨rfl | ⟨hmem, hne⟩, hclear⟩)
      · exact .inl ⟨other, List.mem_cons_of_mem _ hother, hsource⟩
      · exact .inl ⟨file, List.mem_cons_self, hstands⟩
      · refine .inr ⟨hmem, fun other hother => ?_⟩
        rcases List.mem_cons.mp hother with rfl | hother
        · rw [← hstands.1]
          exact fun heq => hne heq.symm
        · exact hclear other hother
    · rintro (⟨other, hother, hsource⟩ | ⟨hmem, hclear⟩)
      · rcases List.mem_cons.mp hother with rfl | hother
        · have heq := hsource.unique hstands
          refine .inr ⟨.inl heq, fun next hnext hpath => hdistinct.1 ?_⟩
          rw [← hsource.1, ← hpath]
          exact List.mem_map_of_mem hnext
        · exact .inl ⟨other, hother, hsource⟩
      · have hfile := hclear file List.mem_cons_self
        refine .inr ⟨.inr ⟨hmem, ?_⟩, fun other hother => hclear other (List.mem_cons_of_mem _ hother)⟩
        rw [hstands.1]
        exact fun heq => hfile heq.symm

variable [CandidateJson] {config : CandidateToolConfig} {arguments : SubmitCandidateBundleArguments}

/-- The manifest that is inherited is what the cited artifact reads as. -/
def Cites (s : GatewayState) (arguments : SubmitCandidateBundleArguments)
    (inherited : Option CandidateSourceManifest) : Prop :=
  match arguments.inheritFromManifestDigest with
  | none => inherited = none
  | some digest => ∃ bytes manifest, s.artifacts.openArtifact digest = some bytes ∧
    parseManifest bytes = some manifest ∧ inherited = some manifest

theorem loadInherited_wp : (loadInherited config arguments).wp s (fun inherited s' => s' = s ∧
    Cites s arguments inherited) fun _ _ => True := by
  unfold loadInherited Cites
  cases arguments.inheritFromManifestDigest with
  | none => exact ⟨rfl, rfl⟩
  | some digest =>
    simp only [loadInheritableManifest, wp_bind, wp_mapError]
    refine wp_mono readBounded_wp ?_ fun _ _ _ => trivial
    rintro bytes s' ⟨hsame, hopen⟩
    subst hsame
    cases hparse : parseManifest bytes with
    | none => trivial
    | some manifest =>
      simp only [wp_ite, wp_pure, wp_raise]
      split
      · exact ⟨trivial, bytes, manifest, hopen, hparse, rfl⟩
      · trivial

structure Assembled (config : CandidateToolConfig) (submission : Submission) : Prop where
  identity : candidateId config (submission.arguments.parent submission.inherited) submission.arguments.bundle.digest =
    .ok submission.manifest.candidateId
  files : ∀ source, source ∈ submission.manifest.files ↔
    Overrides (inheritedFiles submission.inherited) submission.arguments.bundle.files source

theorem assemble_wp (hcf : Sha256.CollisionFree) : (assemble config arguments).wp s
    (fun submission s' => submission.arguments = arguments ∧ Cites s arguments submission.inherited ∧
      Assembled config submission ∧ Stores s s') fun _ _ => True := by
  simp only [assemble, wp_bind]
  refine wp_mono loadInherited_wp ?_ fun _ _ _ => trivial
  rintro inherited s' ⟨hsame, hcites⟩
  subst hsame
  refine wp_mono requireWhole_wp ?_ fun _ _ _ => trivial
  intro _ s'' hsame
  subst hsame
  simp only [wp_attempt]
  refine ⟨fun id hid => ?_, fun _ _ => trivial⟩
  refine wp_mono (ingestSourceFiles_wp hcf arguments.bundle.distinct) ?_ fun _ _ _ => trivial
  rintro files s'' ⟨hfiles, hstores⟩
  split
  · rename_i manifest hmanifest
    have hspec := new_spec hmanifest
    refine ⟨rfl, hcites, ⟨?_, ?_⟩, hstores⟩
    · show candidateId _ _ _ = .ok manifest.spec.candidateId
      rw [hspec]
      exact hid
    · intro source
      show source ∈ manifest.spec.files ↔ _
      rw [hspec]
      exact hfiles source
  · trivial

end assembly

section tree

variable {path other : String} {tree : Tree}

theorem lookup_filter_ne {workspace : List (String × Tree)} {root : String} (h : other ≠ root) :
    (workspace.filter fun entry => entry.1 ≠ root).lookup other = workspace.lookup other := by
  induction workspace with
  | nil => rfl
  | cons entry rest ih =>
    by_cases hroot : entry.1 = root
    · have hne : (other == entry.1) = false := by simp [hroot, h]
      rw [List.filter_cons_of_neg (by simpa using hroot), ih, List.lookup_cons, hne]
    · rw [List.filter_cons_of_pos (by simpa using hroot), List.lookup_cons, List.lookup_cons, ih]

variable {s s' s'' : GatewayState} {root : String}

theorem setTree_lookup : (s.setTree root tree).workspace.lookup root = some tree := by
  simp [GatewayState.setTree]

theorem setTree_other (h : other ≠ root) :
    (s.setTree root tree).workspace.lookup other = s.workspace.lookup other := by
  have hne : (other == root) = false := by simpa using h
  rw [GatewayState.setTree, List.lookup_cons, hne, lookup_filter_ne h]

structure Beside (root : String) (s s' : GatewayState) : Prop where
  artifacts : s'.artifacts = s.artifacts
  others : ∀ other, other ≠ root → s'.workspace.lookup other = s.workspace.lookup other
  present : s.workspace.lookup root ≠ none → s'.workspace.lookup root ≠ none

theorem Beside.refl (s : GatewayState) : Beside root s s := ⟨rfl, fun _ _ => rfl, id⟩

theorem Beside.trans (h : Beside root s s') (h' : Beside root s' s'') : Beside root s s'' :=
  ⟨h'.artifacts.trans h.artifacts, fun other hother => (h'.others other hother).trans (h.others other hother),
    fun hs => h'.present (h.present hs)⟩

theorem beside_setTree : Beside root s (s.setTree root tree) where
  artifacts := rfl
  others _ hother := setTree_other hother
  present _ := by
    rw [setTree_lookup]
    exact Option.some_ne_none tree

def Tree.Holds [Sha256] (tree : Tree) (files : List CandidateSourceFile) : Prop :=
  (∀ file ∈ files, ∃ bytes, tree.lookup file.path.text = some (.file bytes) ∧
    CandidateMaterialization.describes file bytes = true) ∧
  ∀ path ∈ tree.paths, ∃ file ∈ files, file.path.text = path

theorem Tree.mem_paths {bytes : List UInt8} (h : tree.lookup path = some (.file bytes)) : path ∈ tree.paths := by
  induction tree with
  | nil => cases h
  | cons entry rest ih =>
    obtain ⟨name, content⟩ := entry
    rw [Tree.paths, List.filterMap_cons]
    by_cases hname : path = name
    · rw [hname, List.lookup_cons_self] at h
      cases h
      rw [hname]
      exact List.mem_cons_self
    · have hne : (path == name) = false := by simpa using hname
      rw [List.lookup_cons, hne] at h
      cases content with
      | directory => exact ih h
      | file _ => exact List.mem_cons_of_mem _ (ih h)

theorem Tree.Holds.congr [Sha256] {files files' : List CandidateSourceFile} (h : tree.Holds files)
    (hsame : ∀ file, file ∈ files ↔ file ∈ files') : tree.Holds files' := by
  refine ⟨fun file hfile => h.1 file ((hsame file).mpr hfile), fun path hpath => ?_⟩
  obtain ⟨file, hfile, htext⟩ := h.2 path hpath
  exact ⟨file, (hsame file).mp hfile, htext⟩

theorem Tree.Holds.covered [Sha256] {files files' : List CandidateSourceFile} (h : tree.Holds files)
    (h' : tree.Holds files') {file : CandidateSourceFile} (hfile : file ∈ files) :
    ∃ other ∈ files', other.path = file.path := by
  obtain ⟨bytes, hlookup, -⟩ := h.1 file hfile
  obtain ⟨other, hother, htext⟩ := h'.2 _ (Tree.mem_paths hlookup)
  exact ⟨other, hother, BundlePath.ext_text htext⟩

open CandidateMaterialization

theorem createDirectory_wp :
    (createDirectory root path).wp s (fun _ s' => Beside root s s') fun _ s' => Beside root s s' := by
  simp only [createDirectory, wp_bind, wp_read]
  split
  · exact beside_setTree
  · exact Beside.refl s
  · exact Beside.refl s

variable [Sha256] {file : CandidateSourceFile} {files : List CandidateSourceFile}

theorem verifyFile_wp : (verifyFile root file).wp s
    (fun _ s' => s' = s ∧ ∃ bytes, (s.tree root).lookup file.path.text = some (.file bytes) ∧
      describes file bytes = true)
    fun _ s' => s' = s := by
  simp only [verifyFile, wp_bind, wp_read]
  split
  · rename_i bytes hlookup
    simp only [wp_ite, wp_pure, wp_raise]
    split
    · rename_i hdescribes
      exact ⟨trivial, bytes, hlookup, hdescribes⟩
    · trivial
  · rfl

theorem verifyFiles_wp : (forEach (verifyFile root) files).wp s
    (fun _ s' => s' = s ∧ ∀ file ∈ files, ∃ bytes, (s.tree root).lookup file.path.text = some (.file bytes) ∧
      describes file bytes = true) fun _ _ => True := by
  induction files with
  | nil => exact ⟨rfl, nofun⟩
  | cons file rest ih =>
    refine wp_bind.mpr (wp_mono verifyFile_wp ?_ fun _ _ _ => trivial)
    rintro _ s' ⟨hsame, hfile⟩
    subst hsame
    refine wp_mono ih ?_ fun _ _ _ => trivial
    rintro _ s'' ⟨hsame, hrest⟩
    exact ⟨hsame, List.forall_mem_cons.mpr ⟨hfile, hrest⟩⟩

theorem materializeFile_wp : (materializeFile root file).wp s (fun _ s' => Beside root s s')
    fun _ s' => Beside root s s' := by
  simp only [materializeFile, wp_bind, wp_read]
  have hdirectories := wp_forEach (R := Beside root) (fun s => Beside.refl s) Beside.trans
    (fun (path : String) (s : GatewayState) =>
      (createDirectory_wp : (createDirectory root path).wp s _ _)) file.path.parents (d := s)
  refine wp_mono hdirectories ?_ fun _ _ h => h
  intro _ s' hbeside
  split
  · exact hbeside
  · refine wp_mono verifyFile_wp ?_ ?_
    · rintro _ s'' ⟨hsame, _⟩
      subst hsame
      exact hbeside
    · intro _ s'' hsame
      subst hsame
      exact hbeside
  · simp only [writeArtifactCreateOnly, wp_bind, wp_read]
    split
    · exact hbeside
    · simp only [wp_ite, wp_bind, wp_write, wp_raise]
      split
      · refine wp_mono verifyFile_wp ?_ ?_
        · rintro _ s'' ⟨hsame, _⟩
          subst hsame
          exact hbeside.trans beside_setTree
        · intro _ s'' hsame
          subst hsame
          exact hbeside.trans beside_setTree
      · exact hbeside

theorem materialize_wp {manifest : CandidateSourceManifest} : (materialize manifest).wp s
    (fun _ s' => Beside manifest.candidateId.text s s' ∧ ∃ tree,
      s'.workspace.lookup manifest.candidateId.text = some tree ∧ tree.Holds manifest.files) fun _ _ => True := by
  simp only [materialize, wp_ite, wp_raise]
  split
  · simp only [createCandidateRoot, wp_bind, wp_write]
    have hfiles := wp_forEach (R := Beside manifest.candidateId.text) (fun s => Beside.refl s) Beside.trans
      (fun (file : CandidateSourceFile) (s : GatewayState) => @materializeFile_wp s manifest.candidateId.text _ file)
      manifest.files (d := s.setTree manifest.candidateId.text (s.tree manifest.candidateId.text))
    refine wp_mono hfiles ?_ fun _ _ _ => trivial
    intro _ s' hbeside
    simp only [verifyCompleteTree, wp_bind, wp_read, wp_ite, wp_raise]
    split
    · rename_i hsame
      refine wp_mono verifyFiles_wp ?_ fun _ _ _ => trivial
      rintro _ s'' ⟨heq, hverified⟩
      rw [heq]
      have hpresent : s'.workspace.lookup manifest.candidateId.text ≠ none := by
        apply hbeside.present
        rw [setTree_lookup]
        exact Option.some_ne_none _
      obtain ⟨tree, htree⟩ := Option.ne_none_iff_exists'.mp hpresent
      have hroot : s'.tree manifest.candidateId.text = tree := by
        rw [GatewayState.tree, htree, Option.getD_some]
      rw [hroot] at hverified hsame
      refine ⟨beside_setTree.trans hbeside, tree, htree, hverified, ?_⟩
      intro path hpath
      exact List.mem_map.mp (hsame.2 hpath)
    · trivial
  · trivial

end tree

section publishing

variable [Sha256] [CandidateJson] {s : GatewayState} {manifest : CandidateSourceManifest}

structure Published (s s' : GatewayState) (manifest : CandidateSourceManifest) : Prop where
  artifacts : ∀ digest bytes, s.artifacts.openArtifact digest = some bytes →
    s'.artifacts.openArtifact digest = some bytes
  stored : s'.artifacts.openArtifact (Sha256.digestBytes (manifestBytes manifest)) = some (manifestBytes manifest)
  others : ∀ other, other ≠ manifest.candidateId.text → s'.workspace.lookup other = s.workspace.lookup other
  materialized : ∃ tree, s'.workspace.lookup manifest.candidateId.text = some tree ∧ tree.Holds manifest.files

theorem publish_wp (hcf : Sha256.CollisionFree) :
    (publish manifest).wp s (fun _ s' => Published s s' manifest) fun _ _ => True := by
  simp only [publish, wp_bind]
  refine wp_mono (ingestBytes_wp hcf) ?_ fun _ _ _ => trivial
  rintro digest s₁ ⟨_, hstores, hstored⟩
  rw [wp_mapError]
  refine wp_mono materialize_wp ?_ fun _ _ _ => trivial
  rintro _ s₂ ⟨hbeside, tree, htree, hholds⟩
  refine wp_mono (ingestBytes_wp hcf) ?_ fun _ _ _ => trivial
  rintro result s₃ ⟨_, hstores', _⟩
  have hkept : ∀ digest bytes, s₁.artifacts.openArtifact digest = some bytes →
    s₃.artifacts.openArtifact digest = some bytes := by
    intro digest bytes hopen
    apply hstores'.artifacts
    rw [hbeside.artifacts]
    exact hopen
  refine ⟨fun digest bytes hopen => hkept digest bytes (hstores.artifacts digest bytes hopen), hkept _ _ hstored, ?_,
    tree, ?_, hholds⟩
  · intro other hother
    rw [hstores'.workspace, hbeside.others other hother, hstores.workspace]
  · rw [hstores'.workspace, htree]

end publishing

end AlloyPort.Candidate
