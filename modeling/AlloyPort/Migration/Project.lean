import AlloyPort.Candidate.Source
import AlloyPort.Library.FileTree
import AlloyPort.Library.Prog
import AlloyPort.Library.Protobuf

/-! The CUDA project that a user submits: what a submission is tested for, and how the dispatcher lays the stored
project out below the directory of its task. Nothing else writes there, and the disk does not fail. -/

namespace AlloyPort.Migration

open Candidate (ArtifactStore isBundlePath)
open FileTree Effect

structure ProjectFile where
  path : String
  contents : List UInt8
  deriving DecidableEq

structure MigrationProjectBundle where
  name : String
  /-- Sorted by path. -/
  files : List ProjectFile

def MAX_PROJECT_FILES : Nat := 4096
def MAX_PROJECT_FILE_BYTES : Nat := 4 * 1024 * 1024
def MAX_PROJECT_BYTES : Nat := 60 * 1024 * 1024
def MAX_ENCODED_PROJECT_BYTES : Nat := 64 * 1024 * 1024

section encoding

def ProjectFile.encode (file : ProjectFile) : List UInt8 :=
  Protobuf.bytesField 1 (utf8 file.path) ++ Protobuf.bytesField 2 file.contents

def MigrationProjectBundle.encode (project : MigrationProjectBundle) : List UInt8 :=
  Protobuf.bytesField 1 (utf8 project.name) ++ project.files.flatMap fun file => Protobuf.message 2 file.encode

def ProjectFile.encodedLen (file : ProjectFile) : Nat :=
  Protobuf.bytesLen 1 (utf8 file.path) + Protobuf.bytesLen 2 file.contents

def MigrationProjectBundle.encodedLen (project : MigrationProjectBundle) : Nat :=
  Protobuf.bytesLen 1 (utf8 project.name) + Protobuf.repeatedLen 2 ProjectFile.encodedLen project.files

theorem ProjectFile.length_encode (file : ProjectFile) : file.encode.length = file.encodedLen := by
  have hpath := Protobuf.length_bytesField (show 1 < 16 by omega) (utf8 file.path)
  have hcontents := Protobuf.length_bytesField (show 2 < 16 by omega) file.contents
  simp [encode, encodedLen, hpath, hcontents]

theorem MigrationProjectBundle.length_encode (project : MigrationProjectBundle) :
    project.encode.length = project.encodedLen := by
  have hname := Protobuf.length_bytesField (show 1 < 16 by omega) (utf8 project.name)
  have hfiles : ∀ files : List ProjectFile, (files.flatMap fun file => Protobuf.message 2 file.encode).length =
      Protobuf.repeatedLen 2 ProjectFile.encodedLen files := by
    intro files
    induction files with
    | nil => rfl
    | cons file rest ih =>
      have hfirst := Protobuf.length_message (show 2 < 16 by omega) file.encode
      rw [List.flatMap_cons, List.length_append, ih, hfirst, file.length_encode]
      simp [Protobuf.repeatedLen]
  rw [encode, List.length_append, hname, hfiles, encodedLen]

end encoding

/-- What the platform and the libraries supply: a decoder of stored projects, and the texts of their errors. -/
structure Host where
  decode : List UInt8 → Except String MigrationProjectBundle
  openError : Sha256Digest → String
  directoryError : List (List Char) → String
  createError : List (List Char) → String
  debug : String → String

section validation

def Host.invalidBundlePath (host : Host) (path : String) : String := "invalid bundle-relative path " ++ host.debug path

def requiredText (value field : String) : Except String String :=
  if isBlank value = true then .error (field ++ " is required") else .ok value

def components (path : String) : List (List Char) :=
  (path.toList.splitOn '/').filter fun component => component ≠ [] && component ≠ ['.']

def extension (path : String) : Option (List Char) :=
  match (components path).getLast? with
  | none => none
  | some name => match (name.splitOn '.').dropLast with
    | [] | [[]] => none
    | _ => (name.splitOn '.').getLast?

def isCudaSource (path : String) : Bool := (extension path).any fun extension => extension.map Char.toLower = ['c', 'u']

def validateFiles (host : Host) :
    Option String → Nat → Bool → List ProjectFile → Except String (Nat × Bool)
  | _, total, hasCuda, [] => .ok (total, hasCuda)
  | previous, total, hasCuda, file :: rest =>
    if isBundlePath file.path = false then .error ("invalid project path: " ++ host.invalidBundlePath file.path)
    else if (previous.any fun previous => decide (file.path ≤ previous)) = true then
      .error "project files must be unique and sorted by path"
    else if MAX_PROJECT_FILE_BYTES < file.contents.length then
      .error ("project file " ++ file.path ++ " exceeds the per-file limit")
    else if 2 ^ 64 ≤ total + file.contents.length then .error "project size overflow"
    else if MAX_PROJECT_BYTES < total + file.contents.length then .error "project exceeds the total byte limit"
    else validateFiles host (some file.path) (total + file.contents.length) (hasCuda || isCudaSource file.path) rest

def validateProject (host : Host) (project : MigrationProjectBundle) : Except String (Nat × Nat) := do
  let name ← requiredText project.name "project.name"
  if 255 < name.utf8ByteSize then throw "project.name is too long"
  if project.files = [] ∨ MAX_PROJECT_FILES < project.files.length then
    throw "project file count is outside the supported range"
  let (total, hasCuda) ← validateFiles host none 0 false project.files
  if hasCuda = false then throw "project does not contain a CUDA .cu source file"
  pure (total, project.files.length)

end validation

section materialization

variable [Sha256]

abbrev Disk := Tree (List Char) (List UInt8)

def display (path : List (List Char)) : String := String.ofList (path.flatMap fun name => '/' :: name)

/-- `write_once` at an entry of a directory. -/
def writeProjectFile (host : Host) (disk : Disk) (parent : List (List Char)) (name : List Char)
    (contents : List UInt8) : Except String Disk :=
  match disk.writeOnce parent name contents with
  | .ok disk => .ok disk
  | .error .missingDirectory =>
    .error ("create " ++ display (parent ++ [name]) ++ ": " ++ host.createError (parent ++ [name]))
  | .error .notAFile => .error ("existing project path " ++ display (parent ++ [name]) ++ " is unsafe")
  | .error .conflictingContents =>
    .error ("existing project file " ++ display (parent ++ [name]) ++ " has conflicting contents")

def createDirAll (host : Host) (label : String) (disk : Disk) (path : List (List Char)) : Except String Disk :=
  match disk.createDirs path with
  | some disk => .ok disk
  | none => .error (label ++ ": " ++ host.directoryError path)

def placeProjectFile (host : Host) (inputRoot : List (List Char)) (file : ProjectFile) (disk : Disk) :
    Except String Disk :=
  match (inputRoot ++ components file.path).getLast? with
  | none => .error "stored project path has no parent"
  | some name => do
    let parent := (inputRoot ++ components file.path).dropLast
    let disk ← createDirAll host "create project directory" disk parent
    if ¬ inputRoot <+: parent then throw "stored project directory escapes task input root"
    writeProjectFile host disk parent name file.contents

def placeProjectFiles (host : Host) (inputRoot : List (List Char)) :
    Option String → List ProjectFile → Disk → Except String Disk
  | _, [], disk => .ok disk
  | previous, file :: rest, disk => do
    if isBundlePath file.path = false then throw ("invalid stored project path: " ++ host.invalidBundlePath file.path)
    if (previous.any fun previous => decide (file.path ≤ previous)) = true then
      throw "stored project paths are not unique and sorted"
    let disk ← placeProjectFile host inputRoot file disk
    placeProjectFiles host inputRoot (some file.path) rest disk

def specificationFile : List Char := "migration-spec-v1.json".toList

def inputDirectory (taskRoot : List (List Char)) : List (List Char) := taskRoot ++ ["input".toList]

def isFile (disk : Disk) (path : List (List Char)) : Bool :=
  match disk.node path with
  | some (.file _) => true
  | _ => false

def materializeProject (host : Host) (artifacts : ArtifactStore) (digest : Sha256Digest) (expectedFiles : Nat)
    (taskRoot : List (List Char)) (disk : Disk) : Except String (List (List Char) × Disk) :=
  match artifacts.openArtifact digest with
  | none => .error ("open submitted project: " ++ host.openError digest)
  | some stored => do
    let bytes := stored.take (MAX_ENCODED_PROJECT_BYTES + 1)
    if MAX_ENCODED_PROJECT_BYTES < bytes.length then throw "encoded project exceeds dispatcher limit"
    if Sha256.digestBytes bytes ≠ digest then throw "submitted project digest changed in storage"
    let project ← match host.decode bytes with
      | .ok project => pure project
      | .error error => throw ("decode submitted project: " ++ error)
    if project.files.length ≠ expectedFiles ∨ project.files = [] then throw "submitted project file count changed"
    let disk ← createDirAll host "create task input directory" disk (inputDirectory taskRoot)
    let disk ← placeProjectFiles host (inputDirectory taskRoot) none project.files disk
    if isFile disk (inputDirectory taskRoot ++ [specificationFile]) = false then
      throw "project root must contain migration-spec-v1.json"
    pure (inputDirectory taskRoot, disk)

end materialization

section paths

variable {path : String} {file : ProjectFile}

theorem components_of_ne (hvalid : isBundlePath path = true) (hdot : path ≠ ".") :
    components path = path.toList.splitOn '/' := by
  simp only [isBundlePath, Bool.not_eq_true', Bool.or_eq_false_iff, Bool.and_eq_false_iff] at hvalid
  have hparts := hvalid.2.resolve_left (by simpa using hdot)
  rw [components, List.filter_eq_self]
  intro component hmem
  have hplain := List.any_eq_false.mp hparts component hmem
  simp only [Bool.or_eq_true, beq_iff_eq, not_or] at hplain
  simp [hplain.1.1, hplain.1.2]

theorem components_ne_nil (hvalid : isBundlePath path = true) (hdot : path ≠ ".") : components path ≠ [] := by
  rw [components_of_ne hvalid hdot]
  exact List.splitOn_ne_nil _ _

theorem components_inj {path' : String} (hvalid : isBundlePath path = true) (hvalid' : isBundlePath path' = true)
    (h : components path = components path') : path = path' := by
  by_cases hdot : path = "."
  · by_cases hdot' : path' = "."
    · rw [hdot, hdot']
    · rw [hdot, show components "." = [] by decide] at h
      exact absurd h.symm (components_ne_nil hvalid' hdot')
  · by_cases hdot' : path' = "."
    · rw [hdot', show components "." = [] by decide] at h
      exact absurd h (components_ne_nil hvalid hdot)
    · rw [components_of_ne hvalid hdot, components_of_ne hvalid' hdot'] at h
      have hchars := congrArg (List.intercalate ['/']) h
      rw [List.intercalate_splitOn, List.intercalate_splitOn] at hchars
      exact String.toList_inj.mp hchars

def Sorted : Option String → List ProjectFile → Prop
  | _, [] => True
  | previous, file :: rest =>
    isBundlePath file.path = true ∧ (∀ earlier, previous = some earlier → earlier < file.path) ∧
      Sorted (some file.path) rest

variable {previous : Option String} {files : List ProjectFile}

theorem Sorted.valid (h : Sorted previous files) (hfile : file ∈ files) : isBundlePath file.path = true := by
  induction files generalizing previous with
  | nil => cases hfile
  | cons first rest ih =>
    rcases List.mem_cons.mp hfile with rfl | hrest
    · exact h.1
    · exact ih h.2.2 hrest

theorem Sorted.lt {earlier : String} (h : Sorted (some earlier) files) (hfile : file ∈ files) :
    earlier < file.path := by
  induction files generalizing earlier with
  | nil => cases hfile
  | cons first rest ih =>
    have hfirst := h.2.1 earlier rfl
    rcases List.mem_cons.mp hfile with rfl | hrest
    · exact hfirst
    · exact String.lt_trans hfirst (ih h.2.2 hrest)

theorem Sorted.unique (h : Sorted previous files) {file' : ProjectFile} (hfile : file ∈ files) (hfile' : file' ∈ files)
    (heq : file.path = file'.path) : file = file' := by
  induction files generalizing previous with
  | nil => cases hfile
  | cons first rest ih =>
    rcases List.mem_cons.mp hfile with rfl | hrest
    · rcases List.mem_cons.mp hfile' with rfl | hrest'
      · rfl
      · have hlt := h.2.2.lt hrest'
        rw [heq] at hlt
        exact absurd hlt (String.lt_irrefl _)
    · rcases List.mem_cons.mp hfile' with rfl | hrest'
      · have hlt := h.2.2.lt hrest
        rw [heq] at hlt
        exact absurd hlt (String.lt_irrefl _)
      · exact ih h.2.2 hrest hrest'

theorem not_any_le :
    (previous.any fun previous => decide (path ≤ previous)) = false ↔ ∀ earlier, previous = some earlier →
    earlier < path := by
  cases previous with
  | none => simp
  | some earlier => simp

end paths

section validated

variable {host : Host}

theorem validateFiles_sorted {previous : Option String} {files : List ProjectFile} {total : Nat} {hasCuda : Bool}
    {result : Nat × Bool} (h : validateFiles host previous total hasCuda files = .ok result) :
    Sorted previous files := by
  induction files generalizing previous total hasCuda with
  | nil => trivial
  | cons file rest ih =>
    rw [validateFiles] at h
    by_cases hpath : isBundlePath file.path = false
    · simp [hpath] at h
    · rw [if_neg hpath] at h
      by_cases horder : (previous.any fun previous => decide (file.path ≤ previous)) = true
      · simp [horder] at h
      · rw [if_neg horder] at h
        have hvalid : isBundlePath file.path = true := by simpa using hpath
        have hlater := not_any_le.mp (Bool.eq_false_iff.mpr horder)
        by_cases hfile : MAX_PROJECT_FILE_BYTES < file.contents.length
        · simp [hfile] at h
        · by_cases hsum : 2 ^ 64 ≤ total + file.contents.length
          · simp only [hfile, hsum, if_true, if_false, reduceCtorEq] at h
          · by_cases htotal : MAX_PROJECT_BYTES < total + file.contents.length
            · simp only [hfile, hsum, htotal, if_true, if_false, reduceCtorEq] at h
            · simp only [hfile, hsum, htotal, if_false] at h
              exact ⟨hvalid, hlater, ih h⟩

theorem validateProject_ok {project : MigrationProjectBundle} {total count : Nat}
    (h : validateProject host project = .ok (total, count)) :
    project.files ≠ [] ∧ Sorted none project.files ∧ count = project.files.length := by
  obtain ⟨name, hname, h⟩ := Effect.bind_eq_ok.mp h
  by_cases hlong : 255 < name.utf8ByteSize
  · simp [hlong, Effect.bind_eq_ok] at h
  · rw [if_neg hlong] at h
    by_cases hcount : project.files = [] ∨ MAX_PROJECT_FILES < project.files.length
    · simp [hcount, Effect.bind_eq_ok] at h
    · rw [if_neg hcount] at h
      obtain ⟨⟨size, hasCuda⟩, hfiles, h⟩ := Effect.bind_eq_ok.mp h
      have hsorted := validateFiles_sorted hfiles
      cases hasCuda with
      | false => cases h
      | true =>
        cases h
        exact ⟨fun hempty => hcount (.inl hempty), hsorted, rfl⟩

end validated

section placing

variable {host : Host} {inputRoot : List (List Char)} {before disk : Disk}

def ProjectFile.entry (file : ProjectFile) : List (List Char) × List UInt8 := (components file.path, file.contents)

variable {placed : List (List (List Char) × List UInt8)}

theorem placeProjectFile_ok {file : ProjectFile}
    (hlaid : Tree.Laid inputRoot before disk placed) (hne : components file.path ≠ [])
    (hclear : ∀ other ∈ placed, ¬ other.1 <+: components file.path ∧ ¬ components file.path <+: other.1) :
    ∃ disk', placeProjectFile host inputRoot file disk = .ok disk' ∧
      Tree.Laid inputRoot before disk' (file.entry :: placed) := by
  obtain ⟨above, name, hsplit⟩ : ∃ above name, components file.path = above ++ [name] :=
    ⟨_, _, (List.dropLast_append_getLast hne).symm⟩
  have hlast : (inputRoot ++ components file.path).getLast? = some name := by
    rw [hsplit, ← List.append_assoc, List.getLast?_concat]
  have hparent : (inputRoot ++ components file.path).dropLast = inputRoot ++ above := by
    rw [hsplit, ← List.append_assoc, List.dropLast_concat]
  rw [hsplit] at hclear
  have hsome : (disk.createDirs (inputRoot ++ above)).isSome = true :=
    hlaid.createDirs_isSome.mpr fun other hother hbegins =>
      (hclear other hother).1 (hbegins.trans (List.prefix_append above [name]))
  obtain ⟨disk₁, hdirs⟩ := Option.isSome_iff_exists.mp hsome
  have hwrite : ∃ disk', disk₁.writeOnce (inputRoot ++ above) name file.contents = .ok disk' :=
    (hlaid.writeOnce_ok hdirs).mpr fun other hother hbegins => absurd hbegins (hclear other hother).2
  obtain ⟨disk', hwrite⟩ := hwrite
  have hentry : file.entry = (above ++ [name], file.contents) := by rw [ProjectFile.entry, hsplit]
  refine ⟨disk', ?_, hentry ▸ hlaid.place hdirs hwrite⟩
  have hinside : ¬ ¬ inputRoot <+: inputRoot ++ above := fun hout => hout (List.prefix_append inputRoot above)
  simp only [placeProjectFile, hlast, hparent, createDirAll, hdirs]
  change (do
    if ¬ inputRoot <+: inputRoot ++ above then throw "stored project directory escapes task input root"
    writeProjectFile host disk₁ (inputRoot ++ above) name file.contents : Except String Disk) = _
  rw [if_neg hinside]
  change writeProjectFile host disk₁ (inputRoot ++ above) name file.contents = _
  rw [writeProjectFile, hwrite]

/-- No file stands where another needs a directory, or its own place. -/
def Apart (files : List ProjectFile) : Prop :=
  ∀ file ∈ files, ∀ other ∈ files, components file.path <+: components other.path → file = other

theorem placeProjectFiles_ok {previous : Option String} {files : List ProjectFile} (hsorted : Sorted previous files)
    (hlaid : Tree.Laid inputRoot before disk placed) (hne : ∀ file ∈ files, components file.path ≠ [])
    (hapart : Apart files)
    (hclear : ∀ file ∈ files, ∀ other ∈ placed, ¬ other.1 <+: components file.path ∧
      ¬ components file.path <+: other.1) :
    ∃ disk', placeProjectFiles host inputRoot previous files disk = .ok disk' ∧
      Tree.Laid inputRoot before disk' ((files.map ProjectFile.entry).reverse ++ placed) := by
  induction files generalizing previous disk placed with
  | nil => exact ⟨disk, rfl, hlaid⟩
  | cons file rest ih =>
    have hfirst := @List.mem_cons_self _ file rest
    obtain ⟨disk₁, hplace, hlaid₁⟩ := @placeProjectFile_ok host _ _ _ _ _ hlaid (hne file hfirst) (hclear file hfirst)
    have hclear₁ : ∀ later ∈ rest, ∀ other ∈ file.entry :: placed,
        ¬ other.1 <+: components later.path ∧ ¬ components later.path <+: other.1 := by
      intro later hlater other hother
      have hmem := List.mem_cons_of_mem file hlater
      rcases List.mem_cons.mp hother with rfl | hother
      · have hlt := hsorted.2.2.lt hlater
        have hne : file ≠ later := by
          rintro rfl
          exact String.lt_irrefl _ hlt
        exact ⟨fun hbegins => hne (hapart file hfirst later hmem hbegins),
          fun hbegins => hne (hapart later hmem file hfirst hbegins).symm⟩
      · exact hclear later hmem other hother
    obtain ⟨disk', hrest, hlaid'⟩ := ih hsorted.2.2 hlaid₁ (fun later hlater =>
      hne later (List.mem_cons_of_mem _ hlater))
      (fun f hf g hg => hapart f (List.mem_cons_of_mem _ hf) g (List.mem_cons_of_mem _ hg)) hclear₁
    refine ⟨disk', ?_, ?_⟩
    · have hvalid : ¬ isBundlePath file.path = false := by simp [hsorted.1]
      have horder := not_any_le.mpr hsorted.2.1
      rw [placeProjectFiles, if_neg hvalid, horder]
      change (do
        let disk ← placeProjectFile host inputRoot file disk
        placeProjectFiles host inputRoot (some file.path) rest disk : Except String Disk) = _
      rw [hplace]
      exact hrest
    · rw [List.map_cons, List.reverse_cons, List.append_assoc]
      exact hlaid'

theorem Apart.ne_nil {files : List ProjectFile} {previous : Option String} (hapart : Apart files)
    (hsorted : Sorted previous files)
    {specification : ProjectFile} (hmem : specification ∈ files) (hpath : specification.path ≠ ".") {file : ProjectFile}
    (hfile : file ∈ files) : components file.path ≠ [] := by
  intro hnil
  have hsame := hapart file hfile specification hmem (by rw [hnil]; exact List.nil_prefix)
  rw [hsame] at hnil
  exact components_ne_nil (hsorted.valid hmem) hpath hnil

structure Fresh (taskRoot : List (List Char)) (disk : Disk) : Prop where
  way : ∀ path, path <+: taskRoot → ∀ contents, disk.node path ≠ some (.file contents)
  below : ∀ rel, rel ≠ [] → disk.node (taskRoot ++ rel) = none

theorem Fresh.laid {taskRoot : List (List Char)} (hfresh : Fresh taskRoot disk) :
    ∃ disk', createDirAll host "create task input directory" disk (inputDirectory taskRoot) = .ok disk' ∧
      Tree.Laid (inputDirectory taskRoot) disk disk' [] := by
  have hbelow : ∀ rel, disk.node (inputDirectory taskRoot ++ rel) = none := by
    intro rel
    rw [inputDirectory, List.append_assoc]
    exact hfresh.below _ (by simp)
  have hsome : (disk.createDirs (inputDirectory taskRoot)).isSome = true := by
    rw [Tree.createDirs_isSome]
    intro path hpath contents hnode
    rcases List.prefix_or_prefix_of_prefix hpath (List.prefix_append taskRoot ["input".toList]) with hway | ⟨rel, rfl⟩
    · exact hfresh.way path hway contents hnode
    · by_cases hrel : rel = []
      · rw [hrel, List.append_nil] at hnode
        exact hfresh.way taskRoot List.prefix_rfl contents hnode
      · rw [hfresh.below rel hrel] at hnode
        cases hnode
  obtain ⟨disk', hdirs⟩ := Option.isSome_iff_exists.mp hsome
  have hnode := Tree.createDirs_node hdirs
  refine ⟨disk', by rw [createDirAll, hdirs], ?_, ?_, ?_, ?_⟩
  · rw [hnode, if_pos List.prefix_rfl]
  · intro rel contents
    by_cases hup : inputDirectory taskRoot ++ rel <+: inputDirectory taskRoot
    · simp [hnode, hup]
    · simp [hnode, hup, hbelow]
  · intro rel hne hdirectory
    have hup : ¬ inputDirectory taskRoot ++ rel <+: inputDirectory taskRoot := by
      intro hup
      have hlength := hup.length_le
      rw [List.length_append] at hlength
      exact hne (List.length_eq_zero_iff.mp (by omega))
    rw [hnode, if_neg hup, hbelow] at hdirectory
    cases hdirectory
  · intro path _ contents
    rw [hnode]
    by_cases hup : path <+: inputDirectory taskRoot
    · rw [if_pos hup]
      exact ⟨fun hnone => (by cases hnone), fun hfile =>
        absurd hfile (Tree.createDirs_isSome.mp hsome path hup contents)⟩
    · rw [if_neg hup]

end placing

section execution

variable [Sha256] {host : Host} {artifacts : ArtifactStore} {project : MigrationProjectBundle}
  {taskRoot : List (List Char)} {before disk : Disk} {inputRoot : List (List Char)}

structure LaidOut (project : MigrationProjectBundle) (inputRoot : List (List Char)) (before disk : Disk) : Prop where
  inside : ∀ rel contents, disk.node (inputRoot ++ rel) = some (.file contents) ↔
    ∃ file ∈ project.files, components file.path = rel ∧ file.contents = contents
  outside : ∀ path, ¬ inputRoot <+: path → ∀ contents, disk.node path = some (.file contents) ↔
    before.node path = some (.file contents)

/-- A stored project fits the limit of the dispatcher, which lays it out on a disk as it is. -/
def Executable (host : Host) (artifacts : ArtifactStore) (project : MigrationProjectBundle) (count : Nat)
    (taskRoot : List (List Char)) (before : Disk) : Prop :=
  project.encode.length ≤ MAX_ENCODED_PROJECT_BYTES ∧ ∃ disk,
    materializeProject host artifacts (Sha256.digestBytes project.encode) count taskRoot before =
      .ok (inputDirectory taskRoot, disk) ∧ LaidOut project (inputDirectory taskRoot) before disk

omit [Sha256] in
theorem LaidOut.apart (h : LaidOut project inputRoot before disk) (hsorted : Sorted none project.files) :
    Apart project.files := by
  intro file hfile other hother hbegins
  have hnode := (h.inside _ _).mpr ⟨file, hfile, rfl, rfl⟩
  have hnode' := (h.inside _ _).mpr ⟨other, hother, rfl, rfl⟩
  by_cases heq : components file.path = components other.path
  · exact hsorted.unique hfile hother (components_inj (hsorted.valid hfile) (hsorted.valid hother) heq)
  · have hdirectory := @FileTree.Tree.above _ _ disk (inputRoot ++ components other.path) _ (by rw [hnode']; simp)
      ((List.prefix_append_right_inj inputRoot).mpr hbegins) (by simpa using heq)
    rw [hnode] at hdirectory
    cases hdirectory

omit [Sha256] in
theorem laidOut_of_laid
    (h : Tree.Laid inputRoot before disk ((project.files.map ProjectFile.entry).reverse ++ [])) :
    LaidOut project inputRoot before disk := by
  refine ⟨fun rel contents => ?_, h.elsewhere⟩
  rw [h.content, List.append_nil, List.mem_reverse, List.mem_map]
  simp only [ProjectFile.entry, Prod.mk.injEq]

theorem materializeProject_ok (hsorted : Sorted none project.files)
    (hspec : ∃ file ∈ project.files, file.path = "migration-spec-v1.json")
    (hopen : artifacts.openArtifact (Sha256.digestBytes project.encode) = some project.encode)
    (hdecode : host.decode project.encode = .ok project) (hfresh : Fresh taskRoot before)
    (hlength : project.encode.length ≤ MAX_ENCODED_PROJECT_BYTES) (hapart : Apart project.files) :
    ∃ disk, materializeProject host artifacts (Sha256.digestBytes project.encode) project.files.length taskRoot before =
      .ok (inputDirectory taskRoot, disk) ∧ LaidOut project (inputDirectory taskRoot) before disk := by
  obtain ⟨specification, hmem, hpath⟩ := hspec
  have hplain : specification.path ≠ "." := by
    rw [hpath]
    decide
  obtain ⟨disk₁, hinput, hlaid₁⟩ := @Fresh.laid host _ _ hfresh
  have hne := fun file (hfile : file ∈ project.files) => hapart.ne_nil hsorted hmem hplain hfile
  obtain ⟨disk, hplaced, hlaid⟩ := @placeProjectFiles_ok host _ _ _ _ _ _ hsorted hlaid₁ hne hapart (by simp)
  have hout := laidOut_of_laid hlaid
  have hname : components specification.path = [specificationFile] := by
    rw [hpath]
    decide
  have hfile : isFile disk (inputDirectory taskRoot ++ [specificationFile]) = true := by
    have hnode := (hout.inside [specificationFile] specification.contents).mpr ⟨specification, hmem, hname, rfl⟩
    rw [isFile, hnode]
  refine ⟨disk, ?_, hout⟩
  have hall : project.encode.take (MAX_ENCODED_PROJECT_BYTES + 1) = project.encode :=
    List.take_of_length_le (by omega)
  have hfits : ¬ MAX_ENCODED_PROJECT_BYTES < project.encode.length := by omega
  have hfiles : ¬ (project.files.length ≠ project.files.length ∨ project.files = []) := by
    rintro (hcount | hempty)
    · exact hcount rfl
    · rw [hempty] at hmem
      cases hmem
  simp only [materializeProject, hopen, hall, if_neg hfits, ne_eq, not_true, if_false, hdecode]
  change (do
    if project.files.length ≠ project.files.length ∨
      project.files = [] then throw "submitted project file count changed"
    let disk ← createDirAll host "create task input directory" before (inputDirectory taskRoot)
    let disk ← placeProjectFiles host (inputDirectory taskRoot) none project.files disk
    if isFile disk (inputDirectory taskRoot ++ [specificationFile]) = false then
      throw "project root must contain migration-spec-v1.json"
    pure (inputDirectory taskRoot, disk) : Except String _) = _
  rw [if_neg hfiles, hinput]
  change (do
    let disk ← placeProjectFiles host (inputDirectory taskRoot) none project.files disk₁
    if isFile disk (inputDirectory taskRoot ++ [specificationFile]) = false then
      throw "project root must contain migration-spec-v1.json"
    pure (inputDirectory taskRoot, disk) : Except String _) = _
  rw [hplaced]
  change (if isFile disk (inputDirectory taskRoot ++ [specificationFile]) = false then _ else _) = _
  rw [if_neg (by simp [hfile])]
  rfl

/-- An accepted project with a specification can be executed unless its encoding is too long, or a path of it leads
through another. -/
theorem accepted_project_executable_iff {count total : Nat}
    (haccepted : validateProject host project = .ok (total, count))
    (hspec : ∃ file ∈ project.files, file.path = "migration-spec-v1.json")
    (hopen : artifacts.openArtifact (Sha256.digestBytes project.encode) = some project.encode)
    (hdecode : host.decode project.encode = .ok project) (hfresh : Fresh taskRoot before) :
    Executable host artifacts project count taskRoot before ↔
      project.encodedLen ≤ MAX_ENCODED_PROJECT_BYTES ∧ Apart project.files := by
  obtain ⟨-, hsorted, rfl⟩ := validateProject_ok haccepted
  rw [← project.length_encode]
  constructor
  · rintro ⟨hlength, disk, -, hout⟩
    exact ⟨hlength, hout.apart hsorted⟩
  · rintro ⟨hlength, hapart⟩
    exact ⟨hlength, materializeProject_ok hsorted hspec hopen hdecode hfresh hlength hapart⟩

end execution

section sample

def sampleHost (project : MigrationProjectBundle) : Host where
  decode bytes := if bytes = project.encode then .ok project else .error "failed to decode Protobuf message"
  openError _ := "artifact not found"
  directoryError _ := "File exists (os error 17)"
  createError _ := "No such file or directory (os error 2)"
  debug text := "\"" ++ text ++ "\""

theorem sampleHost_decode (project : MigrationProjectBundle) :
    (sampleHost project).decode project.encode = .ok project := by
  simp [sampleHost]

def sampleRoot : List (List Char) := ["var".toList, "task-1".toList]

theorem fresh_empty : Fresh sampleRoot Tree.empty := by
  constructor
  · intro path _ contents
    simp only [Tree.empty]
    by_cases hroot : path = []
    · simp [hroot]
    · simp [hroot]
  · intro rel hne
    simp [Tree.empty, hne]

def sampleProject : MigrationProjectBundle :=
  ⟨"axpy", [⟨"migration-spec-v1.json", [123, 125]⟩, ⟨"src/axpy.cu", [47, 47]⟩, ⟨"src/axpy.h", []⟩]⟩

theorem sample_project_executable :
    @Executable transparentSha256 (sampleHost sampleProject)
    [sampleProject.encode] sampleProject 3 sampleRoot Tree.empty := by
  have haccepted : validateProject (sampleHost sampleProject) sampleProject = .ok (4, 3) := by decide
  have hspec : ∃ file ∈ sampleProject.files, file.path = "migration-spec-v1.json" := by decide
  have hopen : @ArtifactStore.openArtifact transparentSha256 [sampleProject.encode]
      (transparentSha256.digestBytes sampleProject.encode) = some sampleProject.encode := by decide
  have hfits : sampleProject.encodedLen ≤ MAX_ENCODED_PROJECT_BYTES := by decide
  have hapart : Apart sampleProject.files := by
    unfold Apart
    decide
  exact (@accepted_project_executable_iff transparentSha256 _ _ _ _ _ _ _ haccepted hspec hopen
    (sampleHost_decode _) fresh_empty).mpr ⟨hfits, hapart⟩

def crossedProject : MigrationProjectBundle :=
  ⟨"axpy", [⟨"axpy", [47, 47]⟩, ⟨"axpy/axpy.cu", [47, 47]⟩, ⟨"migration-spec-v1.json", [123, 125]⟩]⟩

/-- A path leads through another; the submission is accepted, and the execution fails. -/
theorem crossed_project_not_executable :
    validateProject (sampleHost crossedProject) crossedProject = .ok (6, 3) ∧
      (∃ file ∈ crossedProject.files, file.path = "migration-spec-v1.json") ∧
      @ArtifactStore.openArtifact transparentSha256 [crossedProject.encode]
        (transparentSha256.digestBytes crossedProject.encode) = some crossedProject.encode ∧
      (sampleHost crossedProject).decode crossedProject.encode = .ok crossedProject ∧ Fresh sampleRoot Tree.empty ∧
      crossedProject.encodedLen ≤ MAX_ENCODED_PROJECT_BYTES ∧
      ¬ @Executable transparentSha256 (sampleHost crossedProject) [crossedProject.encode] crossedProject 3 sampleRoot
        Tree.empty := by
  have hfails : (match @materializeProject transparentSha256 (sampleHost crossedProject) [crossedProject.encode]
        (transparentSha256.digestBytes crossedProject.encode) 3 sampleRoot Tree.empty with
      | .error error => some error
      | .ok _ => none) = some "create project directory: File exists (os error 17)" := by decide
  refine ⟨by decide, by decide, by decide, sampleHost_decode _, fresh_empty, by decide, ?_⟩
  rintro ⟨-, disk, hdone, -⟩
  rw [hdone] at hfails
  cases hfails

end sample

end AlloyPort.Migration
