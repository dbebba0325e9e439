import Mathlib.Data.List.Sort
import AlloyPort.Control.Record
import AlloyPort.Library.Framing
import AlloyPort.Library.Transaction

/-! Generated sources as a model submits them, and the manifest of an assembled candidate. -/

namespace AlloyPort.Candidate

open Framing

/-- The test of `BundlePath::try_from`. -/
def isBundlePath (value : String) : Bool :=
  let cs := value.toList
  !(isBlank value || cs.head? == some '/' || cs.contains (Char.ofNat 0) || cs.contains (Char.ofNat 92) ||
    (value != "." && (cs.splitOn '/').any fun component =>
      component == [] || component == ['.'] || component == ['.', '.']))

structure BundlePath where
  text : String
  valid : isBundlePath text = true
  deriving DecidableEq

def BundlePath.tryFrom (value : String) : Option BundlePath :=
  if h : isBundlePath value = true then some ⟨value, h⟩ else none

def BundlePath.startsWith (path : BundlePath) (root : String) : Bool := root.toList.isPrefixOf path.text.toList

inductive GeneratedSourceKind where
  | ascendCDevice
  | ascendHost
  | buildIntegration
  | componentMapping
  deriving DecidableEq

def GeneratedSourceKind.all : List GeneratedSourceKind :=
  [.ascendCDevice, .ascendHost, .buildIntegration, .componentMapping]

def GeneratedSourceKind.tag : GeneratedSourceKind → UInt8
  | .ascendCDevice => 1
  | .ascendHost => 2
  | .buildIntegration => 3
  | .componentMapping => 4

inductive GenerationStrategy where
  | directAscendC
  | ascendSimtBootstrap
  | verifiedTemplateAdaptation
  | memoryGuidedSynthesis
  deriving DecidableEq

def GenerationStrategy.tag : GenerationStrategy → UInt8
  | .directAscendC => 1
  | .ascendSimtBootstrap => 2
  | .verifiedTemplateAdaptation => 3
  | .memoryGuidedSynthesis => 4

inductive GeneratedSourceError where
  | outsideGeneratedRoot (path : String)
  | emptyFile (path : String)
  | fileTooLarge (path : String)
  | tooManyFiles (count : Nat)
  | duplicatePath (path : String)
  | missingKind (kind : GeneratedSourceKind)
  | emptyAuthorNote
  deriving DecidableEq

def GENERATED_ROOT : String := "generated/"

def MAX_GENERATED_FILES : Nat := 32

def MAX_GENERATED_FILE_BYTES : Nat := 1024 * 1024

structure GeneratedSourceFile where
  path : BundlePath
  kind : GeneratedSourceKind
  contents : String
  placed : path.startsWith GENERATED_ROOT = true ∧ path.text ≠ GENERATED_ROOT
  nonempty : isBlank contents = false
  bounded : (utf8 contents).length ≤ MAX_GENERATED_FILE_BYTES

theorem isBlank_of_ne {text : String} (h : ¬ isBlank text = true) : isBlank text = false := by simpa using h

def GeneratedSourceFile.new (path : BundlePath) (kind : GeneratedSourceKind) (contents : String) :
    Except GeneratedSourceError GeneratedSourceFile :=
  if hplaced : path.startsWith GENERATED_ROOT = true ∧ path.text ≠ GENERATED_ROOT then
    if hempty : isBlank contents = true then .error (.emptyFile path.text)
    else if hbounded : (utf8 contents).length ≤ MAX_GENERATED_FILE_BYTES then
      .ok ⟨path, kind, contents, hplaced, isBlank_of_ne hempty, hbounded⟩
    else .error (.fileTooLarge path.text)
  else .error (.outsideGeneratedRoot path.text)

structure GeneratedSourceChange where
  files : List GeneratedSourceFile
  authorNotes : List String
  few : files.length ≤ MAX_GENERATED_FILES
  distinct : (files.map GeneratedSourceFile.path).Nodup
  noted : ∀ note ∈ authorNotes, isBlank note = false

def firstRepeated {α : Type} [DecidableEq α] (seen : List α) : List α → Option α
  | [] => none
  | a :: rest => if a ∈ seen then some a else firstRepeated (a :: seen) rest

theorem firstRepeated_none {α : Type} [DecidableEq α] {seen l : List α} (h : firstRepeated seen l = none) :
    l.Nodup ∧ ∀ a ∈ l, a ∉ seen := by
  induction l generalizing seen with
  | nil => exact ⟨List.nodup_nil, nofun⟩
  | cons a rest ih =>
    by_cases hseen : a ∈ seen
    · rw [firstRepeated, if_pos hseen] at h
      cases h
    · rw [firstRepeated, if_neg hseen] at h
      obtain ⟨hnodup, hfresh⟩ := ih h
      have ha : a ∉ rest := fun hmem => hfresh a hmem List.mem_cons_self
      refine ⟨List.nodup_cons.mpr ⟨ha, hnodup⟩, ?_⟩
      intro b hb
      rcases List.mem_cons.mp hb with rfl | hb
      · exact hseen
      · exact fun hmem => hfresh b hb (List.mem_cons_of_mem _ hmem)

def GeneratedSourceChange.new (files : List GeneratedSourceFile) (authorNotes : List String) :
    Except GeneratedSourceError GeneratedSourceChange :=
  if hfew : files.length ≤ MAX_GENERATED_FILES then
    match hdistinct : firstRepeated [] (files.map GeneratedSourceFile.path) with
    | some path => .error (.duplicatePath path.text)
    | none =>
      if hnoted : ∀ note ∈ authorNotes, isBlank note = false then
        .ok ⟨files, authorNotes, hfew, (firstRepeated_none hdistinct).1, hnoted⟩
      else .error .emptyAuthorNote
  else .error (.tooManyFiles files.length)

def fileBytes (file : GeneratedSourceFile) : List UInt8 :=
  frame (utf8 file.path.text) ++ file.kind.tag :: frame (utf8 file.contents)

def byPath (l r : GeneratedSourceFile) : Prop := ¬ r.path.text < l.path.text

instance : DecidableRel byPath := fun l r => inferInstanceAs (Decidable (¬ r.path.text < l.path.text))

def byText (l r : String) : Prop := ¬ r < l

instance : DecidableRel byText := fun l r => inferInstanceAs (Decidable (¬ r < l))

def generatedSourceBytes (files : List GeneratedSourceFile) (authorNotes : List String) : List UInt8 :=
  utf8 "alloyport-generated-source-bundle-v1" ++ 0 :: (files.insertionSort byPath).flatMap fileBytes ++
    (authorNotes.insertionSort byText).flatMap fun note => frame (utf8 note)

def generatedSourceDigest [Sha256] (files : List GeneratedSourceFile) (authorNotes : List String) : Sha256Digest :=
  Sha256.digestBytes (generatedSourceBytes files authorNotes)

def GeneratedSourceChange.digest [Sha256] (change : GeneratedSourceChange) : Sha256Digest :=
  generatedSourceDigest change.files change.authorNotes

def GeneratedSourceChange.requireComplete (change : GeneratedSourceChange) : Except GeneratedSourceError Unit :=
  match GeneratedSourceKind.all.find? fun required => !(change.files.any fun file => file.kind = required) with
  | some required => .error (.missingKind required)
  | none => .ok ()

inductive CandidateSourceError where
  | outsideGeneratedRoot
  | invalidArtifact
  | incompleteLineage
  | duplicatePath
  | missingSourceCategory
  deriving DecidableEq

def SOURCE_MEDIA_TYPE : String := "text/plain; charset=utf-8"

structure CandidateSourceFile where
  path : BundlePath
  kind : GeneratedSourceKind
  artifact : ArtifactDescriptor
  placed : path.startsWith GENERATED_ROOT = true
  sized : artifact.sizeBytes ≠ 0
  typed : artifact.mediaType = SOURCE_MEDIA_TYPE
  deriving DecidableEq

def CandidateSourceFile.new (path : BundlePath) (kind : GeneratedSourceKind) (artifact : ArtifactDescriptor) :
    Except CandidateSourceError CandidateSourceFile :=
  if hplaced : path.startsWith GENERATED_ROOT = true then
    if hartifact : artifact.sizeBytes ≠ 0 ∧ artifact.mediaType = SOURCE_MEDIA_TYPE then
      .ok ⟨path, kind, artifact, hplaced, hartifact.1, hartifact.2⟩
    else .error .invalidArtifact
  else .error .outsideGeneratedRoot

structure CandidateSourceManifestSpec where
  candidateId : CandidateId
  taskId : TaskId
  parentCandidateId : Option CandidateId
  migrationSpecDigest : Sha256Digest
  generationStrategy : GenerationStrategy
  publicSymbol : String
  buildTarget : String
  inputSourcePaths : List BundlePath
  sourceBundleDigest : Sha256Digest
  files : List CandidateSourceFile
  deriving DecidableEq

def CandidateSourceManifestSpec.HasLineage (spec : CandidateSourceManifestSpec) : Prop :=
  isBlank spec.publicSymbol = false ∧ isBlank spec.buildTarget = false ∧ spec.inputSourcePaths ≠ []

instance (spec : CandidateSourceManifestSpec) : Decidable spec.HasLineage :=
  inferInstanceAs (Decidable (_ ∧ _ ∧ _))

def CandidateSourceManifestSpec.IsComplete (spec : CandidateSourceManifestSpec) : Prop :=
  ∀ required ∈ GeneratedSourceKind.all, ∃ file ∈ spec.files, file.kind = required

instance (spec : CandidateSourceManifestSpec) : Decidable spec.IsComplete :=
  inferInstanceAs (Decidable (∀ required ∈ GeneratedSourceKind.all, ∃ file ∈ spec.files, file.kind = required))

structure CandidateSourceManifest where
  spec : CandidateSourceManifestSpec
  lineage : spec.HasLineage
  distinct : (spec.files.map CandidateSourceFile.path).Nodup
  complete : spec.IsComplete

def CandidateSourceManifest.new (spec : CandidateSourceManifestSpec) :
    Except CandidateSourceError CandidateSourceManifest :=
  if hlineage : spec.HasLineage then
    match hdistinct : firstRepeated [] (spec.files.map CandidateSourceFile.path) with
    | some _ => .error .duplicatePath
    | none =>
      if hcomplete : spec.IsComplete then .ok ⟨spec, hlineage, (firstRepeated_none hdistinct).1, hcomplete⟩
      else .error .missingSourceCategory
  else .error .incompleteLineage

namespace CandidateSourceManifest

def candidateId (manifest : CandidateSourceManifest) : CandidateId := manifest.spec.candidateId

def files (manifest : CandidateSourceManifest) : List CandidateSourceFile := manifest.spec.files

end CandidateSourceManifest

structure CandidateSourceManifestDocument where
  schemaVersion : Nat
  spec : CandidateSourceManifestSpec
  deriving DecidableEq

def CANDIDATE_SOURCE_MANIFEST_SCHEMA_V1 : Nat := 1

def CandidateSourceManifest.document (manifest : CandidateSourceManifest) : CandidateSourceManifestDocument :=
  ⟨CANDIDATE_SOURCE_MANIFEST_SCHEMA_V1, manifest.spec⟩

def CandidateSourceManifestDocument.manifest (document : CandidateSourceManifestDocument) :
    Option CandidateSourceManifest :=
  if document.schemaVersion = CANDIDATE_SOURCE_MANIFEST_SCHEMA_V1 then (CandidateSourceManifest.new
    document.spec).toOption
  else none

/-! The artifact store and the candidate directories, and how a manifest is materialized. Both are without I/O
failures, and only this code writes to them. -/

open Database Transaction

abbrev ArtifactStore := List (List UInt8)

inductive Entry where
  | directory
  | file (bytes : List UInt8)

abbrev Tree := List (String × Entry)

structure GatewayState where
  artifacts : ArtifactStore
  workspace : List (String × Tree)

inductive CandidateMaterializationError where
  | unsafeWorkspace
  | unsafeCandidateId
  | unsafeEntry (path : BundlePath)
  | fileSetMismatch
  | artifactIdentity
  | artifactNotFound (digest : Sha256Digest)
  deriving DecidableEq

section store

variable [Sha256]

def ArtifactStore.openArtifact (store : ArtifactStore) (digest : Sha256Digest) : Option (List UInt8) :=
  store.find? fun bytes => Sha256.digestBytes bytes = digest

def ArtifactStore.ingest (store : ArtifactStore) (bytes : List UInt8) : ArtifactStore :=
  match store.openArtifact (Sha256.digestBytes bytes) with
  | some _ => store
  | none => store ++ [bytes]

end store

def GatewayState.tree (s : GatewayState) (root : String) : Tree := (s.workspace.lookup root).getD []

def GatewayState.setTree (s : GatewayState) (root : String) (tree : Tree) : GatewayState :=
  { s with workspace := (root, tree) :: s.workspace.filter fun entry => entry.1 ≠ root }

def Tree.paths (tree : Tree) : List String :=
  tree.filterMap fun entry => match entry.2 with
    | .directory => none
    | .file _ => some entry.1

def isSafeCandidateDirectoryName (value : String) : Bool :=
  value != "." && value != ".." && value.toList.all fun c => c.isAlphanum || c == '-' || c == '_' || c == '.'

def parentsFrom (above : List Char) : List Char → List String
  | [] => []
  | c :: rest =>
    if c = '/' then String.ofList above :: parentsFrom (above ++ [c]) rest else parentsFrom (above ++ [c]) rest

def BundlePath.parents (path : BundlePath) : List String := parentsFrom [] path.text.toList

abbrev Materializing := Transaction GatewayState CandidateMaterializationError

namespace CandidateMaterialization

def createCandidateRoot (root : String) : Materializing Unit := write fun s => s.setTree root (s.tree root)

def createDirectory (root path : String) : Materializing Unit := do
  let s ← read
  match (s.tree root).lookup path with
  | none => write fun s => s.setTree root (s.tree root ++ [(path, Entry.directory)])
  | some .directory => return ()
  | some (.file _) => raise .unsafeWorkspace

variable [Sha256]

def describes (file : CandidateSourceFile) (bytes : List UInt8) : Bool :=
  bytes.length = file.artifact.sizeBytes ∧ Sha256.digestBytes bytes = file.artifact.digest

def verifyFile (root : String) (file : CandidateSourceFile) : Materializing Unit := do
  let s ← read
  match (s.tree root).lookup file.path.text with
  | some (.file bytes) => if describes file bytes = true then return () else raise .artifactIdentity
  | _ => raise .unsafeWorkspace

def writeArtifactCreateOnly (root : String) (file : CandidateSourceFile) : Materializing Unit := do
  let s ← read
  match s.artifacts.openArtifact file.artifact.digest with
  | none => raise (.artifactNotFound file.artifact.digest)
  | some bytes =>
    if describes file bytes = true then do
      write fun s => s.setTree root (s.tree root ++ [(file.path.text, Entry.file bytes)])
      verifyFile root file
    else raise .artifactIdentity

def materializeFile (root : String) (file : CandidateSourceFile) : Materializing Unit := do
  forEach (createDirectory root) file.path.parents
  let s ← read
  match (s.tree root).lookup file.path.text with
  | some .directory => raise (.unsafeEntry file.path)
  | some (.file _) => verifyFile root file
  | none => writeArtifactCreateOnly root file

def verifyCompleteTree (root : String) (manifest : CandidateSourceManifest) : Materializing Unit := do
  let s ← read
  let expected := manifest.files.map fun file => file.path.text
  let actual := (s.tree root).paths
  if expected ⊆ actual ∧ actual ⊆ expected then forEach (verifyFile root) manifest.files
  else raise .fileSetMismatch

def materialize (manifest : CandidateSourceManifest) : Materializing Unit :=
  let root := manifest.candidateId.text
  if isSafeCandidateDirectoryName root = true then do
    createCandidateRoot root
    forEach (materializeFile root) manifest.files
    verifyCompleteTree root manifest
  else raise .unsafeCandidateId

end CandidateMaterialization

end AlloyPort.Candidate
