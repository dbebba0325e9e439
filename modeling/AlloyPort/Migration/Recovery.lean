import AlloyPort.Library.Laying
import AlloyPort.Migration.Project

/-! What a crash of `materialize_project` leaves in the directory of a task, and when the project can be laid out there
after it. Every file passes through its prefixes, and a later call takes whatever it finds for the final contents. -/

namespace AlloyPort.Migration

open Candidate (ArtifactStore isBundlePath)
open FileTree Crashing

section steps

def makeDirAll (host : Host) (label : String) (path : List (List Char)) : Crashing Disk String Unit :=
  (Tree.makeDirs path).mapError fun _ => label ++ ": " ++ host.directoryError path

def writeErrorText (host : Host) (parent : List (List Char)) (name : List Char) : Tree.WriteError → String
  | .missingDirectory => "create " ++ display (parent ++ [name]) ++ ": " ++ host.createError (parent ++ [name])
  | .notAFile => "existing project path " ++ display (parent ++ [name]) ++ " is unsafe"
  | .conflictingContents => "existing project file " ++ display (parent ++ [name]) ++ " has conflicting contents"

def writeOnce (host : Host) (parent : List (List Char)) (name : List Char) (contents : List UInt8) :
    Crashing Disk String Unit :=
  (Tree.layOnce parent name contents).mapError (writeErrorText host parent name)

def layFile (host : Host) (inputRoot : List (List Char)) (file : ProjectFile) : Crashing Disk String Unit :=
  match (inputRoot ++ components file.path).getLast? with
  | none => raise "stored project path has no parent"
  | some name => do
    let parent := (inputRoot ++ components file.path).dropLast
    makeDirAll host "create project directory" parent
    if inputRoot <+: parent then writeOnce host parent name file.contents
    else raise "stored project directory escapes task input root"

def layFiles (host : Host) (inputRoot : List (List Char)) :
    Option String → List ProjectFile → Crashing Disk String Unit
  | _, [] => pure ()
  | previous, file :: rest =>
    if isBundlePath file.path = false then raise ("invalid stored project path: " ++ host.invalidBundlePath file.path)
    else if (previous.any fun previous => decide (file.path ≤ previous)) = true then
      raise "stored project paths are not unique and sorted"
    else do
      layFile host inputRoot file
      layFiles host inputRoot (some file.path) rest

/-- The part of `materialize_project` behind the checks of the stored project. -/
def layProject (host : Host) (files : List ProjectFile) (taskRoot : List (List Char)) :
    Crashing Disk String (List (List Char)) := do
  makeDirAll host "create task input directory" (inputDirectory taskRoot)
  layFiles host (inputDirectory taskRoot) none files
  let disk ← get
  if isFile disk (inputDirectory taskRoot ++ [specificationFile]) = false then
    raise "project root must contain migration-spec-v1.json"
  else return inputDirectory taskRoot

variable [Sha256]

/-- `materialize_project`, step by step. -/
def materialize (host : Host) (artifacts : ArtifactStore) (digest : Sha256Digest) (expectedFiles : Nat)
    (taskRoot : List (List Char)) : Crashing Disk String (List (List Char)) :=
  match artifacts.openArtifact digest with
  | none => raise ("open submitted project: " ++ host.openError digest)
  | some stored =>
    let bytes := stored.take (MAX_ENCODED_PROJECT_BYTES + 1)
    if MAX_ENCODED_PROJECT_BYTES < bytes.length then raise "encoded project exceeds dispatcher limit"
    else if Sha256.digestBytes bytes ≠ digest then raise "submitted project digest changed in storage"
    else match host.decode bytes with
    | .error error => raise ("decode submitted project: " ++ error)
    | .ok project =>
      if project.files.length ≠ expectedFiles ∨ project.files = [] then raise "submitted project file count changed"
      else layProject host project.files taskRoot

end steps

section runs

variable {host : Host} {disk disk' : Disk} {inputRoot parent path taskRoot : List (List Char)} {name : List Char}
variable {contents : List UInt8} {label : String} {file : ProjectFile} {files : List ProjectFile}

theorem makeDirAll_run : (makeDirAll host label path).run disk =
    (createDirAll host label disk path).map fun disk => ((), disk) := by
  rw [makeDirAll, run_mapError, Tree.makeDirs_run, createDirAll]
  cases disk.createDirs path <;> rfl

theorem writeOnce_run : (writeOnce host parent name contents).run disk =
    (writeProjectFile host disk parent name contents).map fun disk => ((), disk) := by
  rw [writeOnce, run_mapError, Tree.layOnce_run, writeProjectFile]
  cases disk.writeOnce parent name contents with
  | ok disk' => rfl
  | error e => cases e <;> rfl

theorem layFile_run : (layFile host inputRoot file).run disk =
    (placeProjectFile host inputRoot file disk).map fun disk => ((), disk) := by
  unfold layFile placeProjectFile
  cases (inputRoot ++ components file.path).getLast? with
  | none => rfl
  | some name =>
    simp only [run_bind, makeDirAll_run]
    cases createDirAll host "create project directory" disk (inputRoot ++ components file.path).dropLast with
    | error e => rfl
    | ok disk₁ =>
      by_cases hinside : inputRoot <+: (inputRoot ++ components file.path).dropLast
      · simp only [Except.map, if_pos hinside, writeOnce_run]
        change _ = Except.map _ (if ¬ inputRoot <+: (inputRoot ++ components file.path).dropLast then _ else _)
        rw [if_neg (not_not.mpr hinside)]
        rfl
      · simp only [Except.map, if_neg hinside]
        change _ = Except.map _ (if ¬ inputRoot <+: (inputRoot ++ components file.path).dropLast then _ else _)
        rw [if_pos hinside]
        rfl

theorem layFiles_run {previous : Option String} : (layFiles host inputRoot previous files).run disk =
    (placeProjectFiles host inputRoot previous files disk).map fun disk => ((), disk) := by
  induction files generalizing previous disk with
  | nil => rfl
  | cons file rest ih =>
    unfold layFiles placeProjectFiles
    by_cases hpath : isBundlePath file.path = false
    · rw [if_pos hpath, if_pos hpath]
      rfl
    · rw [if_neg hpath, if_neg hpath]
      by_cases horder : (previous.any fun previous => decide (file.path ≤ previous)) = true
      · rw [if_pos horder, if_pos horder]
        rfl
      · rw [if_neg horder, if_neg horder]
        change _ = Except.map _ (do
          let disk ← placeProjectFile host inputRoot file disk
          placeProjectFiles host inputRoot (some file.path) rest disk : Except String Disk)
        rw [run_bind, layFile_run]
        cases placeProjectFile host inputRoot file disk with
        | error e => rfl
        | ok disk₁ => exact ih

theorem layProject_run : (layProject host files taskRoot).run disk = (do
    let disk ← createDirAll host "create task input directory" disk (inputDirectory taskRoot)
    let disk ← placeProjectFiles host (inputDirectory taskRoot) none files disk
    if isFile disk (inputDirectory taskRoot ++ [specificationFile]) = false then
      throw "project root must contain migration-spec-v1.json"
    pure (inputDirectory taskRoot, disk) : Except String (List (List Char) × Disk)) := by
  unfold layProject
  rw [run_bind, makeDirAll_run]
  cases createDirAll host "create task input directory" disk (inputDirectory taskRoot) with
  | error e => rfl
  | ok disk₁ =>
    simp only [Except.map, run_bind, layFiles_run]
    change _ = (do
      let disk ← placeProjectFiles host (inputDirectory taskRoot) none files disk₁
      if isFile disk (inputDirectory taskRoot ++ [specificationFile]) = false then
        throw "project root must contain migration-spec-v1.json"
      pure (inputDirectory taskRoot, disk) : Except String (List (List Char) × Disk))
    cases placeProjectFiles host (inputDirectory taskRoot) none files disk₁ with
    | error e => rfl
    | ok disk₂ =>
      change run (if isFile disk₂ (inputDirectory taskRoot ++ [specificationFile]) = false then _ else _) disk₂ =
        (if isFile disk₂ (inputDirectory taskRoot ++ [specificationFile]) = false then _ else _)
      by_cases hfile : isFile disk₂ (inputDirectory taskRoot ++ [specificationFile]) = false
      · rw [if_pos hfile, if_pos hfile]
        rfl
      · rw [if_neg hfile, if_neg hfile]
        rfl

theorem materialize_run [Sha256] {artifacts : ArtifactStore} {digest : Sha256Digest} {count : Nat} :
    (materialize host artifacts digest count taskRoot).run disk =
    materializeProject host artifacts digest count taskRoot disk := by
  unfold materialize materializeProject
  cases artifacts.openArtifact digest with
  | none => rfl
  | some stored =>
    dsimp only
    by_cases hlong : MAX_ENCODED_PROJECT_BYTES < (stored.take (MAX_ENCODED_PROJECT_BYTES + 1)).length
    · rw [if_pos hlong, if_pos hlong]
      rfl
    · rw [if_neg hlong, if_neg hlong]
      by_cases hdigest : Sha256.digestBytes (stored.take (MAX_ENCODED_PROJECT_BYTES + 1)) ≠ digest
      · rw [if_pos hdigest, if_pos hdigest]
        rfl
      · rw [if_neg hdigest, if_neg hdigest]
        cases host.decode (stored.take (MAX_ENCODED_PROJECT_BYTES + 1)) with
        | error error => rfl
        | ok project =>
          change run (if project.files.length ≠ count ∨ project.files = [] then _ else _) disk =
            (if project.files.length ≠ count ∨ project.files = [] then _ else _)
          by_cases hcount : project.files.length ≠ count ∨ project.files = []
          · rw [if_pos hcount, if_pos hcount]
            rfl
          · rw [if_neg hcount, if_neg hcount]
            exact layProject_run

end runs

section crashes

variable {host : Host} {before disk : Disk} {taskRoot inputRoot : List (List Char)} {files : List ProjectFile}

def entries (files : List ProjectFile) : List (List (List Char) × List UInt8) := files.map ProjectFile.entry

/-- Below the input directory is a part of the project, and the other files are as they were. -/
abbrev PartlyLaid (inputRoot : List (List Char)) (files : List ProjectFile) (before disk : Disk) : Prop :=
  Tree.Partly inputRoot (entries files) before disk

theorem layFile_partly {file : ProjectFile} (hfile : file ∈ files) (hinput : inputRoot ≠ []) :
    Preserves (PartlyLaid inputRoot files before) (layFile host inputRoot file) := by
  have hentry : file.entry ∈ entries files := List.mem_map_of_mem hfile
  unfold layFile
  split
  · exact preserves_raise
  · rename_i name hlast
    by_cases hnil : components file.path = []
    · -- the path of the directory itself: its parent is outside, and nothing is written
      have houtside : ¬ inputRoot <+: (inputRoot ++ components file.path).dropLast := by
        intro hup
        have hlength := hup.length_le
        rw [hnil, List.append_nil, List.length_dropLast] at hlength
        have hpositive := List.length_pos_iff.mpr hinput
        omega
      apply preserves_bind
      · apply preserves_mapError
        apply Tree.partly_makeDirs
        intro p hp
        rw [hnil, List.append_nil] at hp
        exact .inl (hp.trans (List.dropLast_prefix inputRoot))
      · intro _
        rw [if_neg houtside]
        exact preserves_raise
    · obtain ⟨above, last, hsplit⟩ : ∃ above last, components file.path = above ++ [last] :=
        ⟨_, _, (List.dropLast_append_getLast hnil).symm⟩
      have hname : last = name := by
        rw [hsplit, ← List.append_assoc, List.getLast?_concat] at hlast
        exact Option.some.inj hlast
      have hparent : (inputRoot ++ components file.path).dropLast = inputRoot ++ above := by
        rw [hsplit, ← List.append_assoc, List.dropLast_concat]
      have hmem : (above ++ [last], file.contents) ∈ entries files := by
        rw [← hsplit]
        exact hentry
      rw [hparent]
      apply preserves_bind
      · exact preserves_mapError (Tree.partly_makeDirs fun p hp => Tree.leads_above hmem hp)
      · intro _
        apply preserves_ite
        · apply preserves_mapError
          rw [← hname]
          exact Tree.partly_layOnce (List.append_assoc inputRoot above [last]) hmem (by simp)
        · exact preserves_raise

theorem layFiles_partly (hinput : inputRoot ≠ []) {previous : Option String} {rest : List ProjectFile}
    (hrest : rest ⊆ files) : Preserves (PartlyLaid inputRoot files before) (layFiles host inputRoot previous rest) := by
  induction rest generalizing previous with
  | nil => exact preserves_pure
  | cons file rest ih =>
    apply preserves_ite preserves_raise
    apply preserves_ite preserves_raise
    apply preserves_bind (layFile_partly (hrest List.mem_cons_self) hinput)
    exact fun _ => ih fun later hlater => hrest (List.mem_cons_of_mem file hlater)

theorem layProject_partly :
    Preserves (PartlyLaid (inputDirectory taskRoot) files before) (layProject host files taskRoot) := by
  have hinput : inputDirectory taskRoot ≠ [] := by simp [inputDirectory]
  apply preserves_bind
  · exact preserves_mapError (Tree.partly_makeDirs fun p hp => .inl hp)
  · intro _
    apply preserves_bind (layFiles_partly hinput (List.Subset.refl files))
    intro _
    apply preserves_bind preserves_get
    exact fun disk => preserves_ite preserves_raise preserves_pure

theorem Fresh.partly (h : Fresh taskRoot before) : PartlyLaid (inputDirectory taskRoot) files before before := by
  have hbelow : ∀ rel, before.node (inputDirectory taskRoot ++ rel) = none := by
    intro rel
    rw [inputDirectory, List.append_assoc]
    exact h.below _ (by simp)
  refine ⟨fun p hp contents hfile => ?_, fun rel contents hfile => ?_, fun rel _ hdirectory => ?_, fun _ _ _ => Iff.rfl⟩
  · rcases List.prefix_or_prefix_of_prefix hp (List.prefix_append taskRoot ["input".toList]) with hway | ⟨rel, rfl⟩
    · exact h.way p hway contents hfile
    · by_cases hrel : rel = []
      · rw [hrel, List.append_nil] at hfile
        exact h.way taskRoot List.prefix_rfl contents hfile
      · rw [h.below rel hrel] at hfile
        cases hfile
  · rw [hbelow] at hfile
    cases hfile
  · rw [hbelow] at hdirectory
    cases hdirectory

variable [Sha256] {artifacts : ArtifactStore} {project : MigrationProjectBundle} {count : Nat}

theorem materialize_partly (hopen : artifacts.openArtifact (Sha256.digestBytes project.encode) = some project.encode)
    (hdecode : host.decode project.encode = .ok project) :
      Preserves (PartlyLaid (inputDirectory taskRoot) project.files before)
      (materialize host artifacts (Sha256.digestBytes project.encode) count taskRoot) := by
  unfold materialize
  simp only [hopen]
  by_cases hlong : MAX_ENCODED_PROJECT_BYTES < (project.encode.take (MAX_ENCODED_PROJECT_BYTES + 1)).length
  · rw [if_pos hlong]
    exact preserves_raise
  · have hall : project.encode.take (MAX_ENCODED_PROJECT_BYTES + 1) = project.encode := by
      rw [List.length_take] at hlong
      exact List.take_of_length_le (by omega)
    rw [if_neg hlong, hall, if_neg (not_not.mpr rfl), hdecode]
    exact preserves_ite preserves_raise layProject_partly

end crashes

section resuming

variable {host : Host} {before disk disk' : Disk} {taskRoot inputRoot : List (List Char)} {files : List ProjectFile}

theorem crossless_of_apart (h : Apart files) : Tree.Crossless (entries files) := by
  intro entry hentry other hother hbegins
  obtain ⟨file, hfile, rfl⟩ := List.mem_map.mp hentry
  obtain ⟨file', hfile', rfl⟩ := List.mem_map.mp hother
  rw [h file hfile file' hfile' hbegins]

structure TakenUp (inputRoot : List (List Char)) (files : List ProjectFile) (before disk disk' : Disk) : Prop where
  partly : PartlyLaid inputRoot files before disk'
  whole : Tree.Whole inputRoot (entries files) disk'
  grows : Tree.Grows disk disk'

theorem layFile_ok {file : ProjectFile} (hpartly : PartlyLaid inputRoot files before disk)
    (hwhole : Tree.Whole inputRoot (entries files) disk) (hapart : Apart files) (hfile : file ∈ files)
    (hne : components file.path ≠ []) : ∃ disk', (layFile host inputRoot file).run disk = .ok ((), disk') ∧
      TakenUp inputRoot files before disk disk' ∧
      disk'.node (inputRoot ++ components file.path) = some (.file file.contents) := by
  obtain ⟨above, name, hsplit⟩ : ∃ above name, components file.path = above ++ [name] :=
    ⟨_, _, (List.dropLast_append_getLast hne).symm⟩
  have hmem : (above ++ [name], file.contents) ∈ entries files := by
    rw [← hsplit]
    exact List.mem_map_of_mem (f := ProjectFile.entry) hfile
  obtain ⟨disk₁, disk', hdirs, hwrite, hpartly', hwhole', hgrows, hnode⟩ :=
    hpartly.resume hwhole (crossless_of_apart hapart) hmem
  refine ⟨disk', ?_, ⟨hpartly', hwhole', hgrows⟩, by rw [hsplit, ← List.append_assoc, hnode]⟩
  have hlast : (inputRoot ++ components file.path).getLast? = some name := by
    rw [hsplit, ← List.append_assoc, List.getLast?_concat]
  have hparent : (inputRoot ++ components file.path).dropLast = inputRoot ++ above := by
    rw [hsplit, ← List.append_assoc, List.dropLast_concat]
  simp only [layFile, hlast, hparent, run_bind, makeDirAll_run, createDirAll, hdirs, Except.map,
    if_pos (List.prefix_append inputRoot above), writeOnce_run, writeProjectFile, hwrite]

theorem layFiles_ok {previous : Option String} {rest : List ProjectFile}
    (hpartly : PartlyLaid inputRoot files before disk)
    (hwhole : Tree.Whole inputRoot (entries files) disk) (hapart : Apart files) (hrest : rest ⊆ files)
    (hsorted : Sorted previous rest) (hne : ∀ file ∈ files, components file.path ≠ []) :
    ∃ disk', (layFiles host inputRoot previous rest).run disk = .ok ((), disk') ∧
      TakenUp inputRoot files before disk disk' ∧
      ∀ file ∈ rest, disk'.node (inputRoot ++ components file.path) = some (.file file.contents) := by
  induction rest generalizing previous disk with
  | nil => exact ⟨disk, rfl, ⟨hpartly, hwhole, fun _ _ h => h⟩, nofun⟩
  | cons file rest ih =>
    have hfile := hrest List.mem_cons_self
    obtain ⟨disk₁, hrun, hresumed, hnode⟩ := @layFile_ok host _ _ _ _ _ hpartly hwhole hapart hfile (hne file hfile)
    obtain ⟨disk', hlater, hresumed', hnodes⟩ := ih hresumed.partly hresumed.whole
      (fun later hlater => hrest (List.mem_cons_of_mem file hlater)) hsorted.2.2
    refine ⟨disk', ?_, ⟨hresumed'.partly, hresumed'.whole, hresumed.grows.trans hresumed'.grows⟩, ?_⟩
    · have hvalid : ¬ isBundlePath file.path = false := by simp [hsorted.1]
      have horder : ¬ (previous.any fun previous => decide (file.path ≤ previous)) = true := by
        simp [not_any_le.mpr hsorted.2.1]
      simp only [layFiles, if_neg hvalid, if_neg horder, run_bind, hrun, hlater]
    · intro file' hfile'
      rcases List.mem_cons.mp hfile' with rfl | hfile'
      · exact hresumed'.grows _ _ hnode
      · exact hnodes file' hfile'

structure Layable (project : MigrationProjectBundle) (count : Nat) : Prop where
  fits : project.encode.length ≤ MAX_ENCODED_PROJECT_BYTES
  counted : project.files.length = count
  sorted : Sorted none project.files
  specified : ∃ file ∈ project.files, file.path = "migration-spec-v1.json"
  apart : Apart project.files

theorem Layable.ne_nil {project : MigrationProjectBundle} {count : Nat} (h : Layable project count) :
    ∀ file ∈ project.files, components file.path ≠ [] := by
  obtain ⟨specification, hmem, hpath⟩ := h.specified
  have hplain : specification.path ≠ "." := by
    rw [hpath]
    decide
  exact fun file hfile => h.apart.ne_nil h.sorted hmem hplain hfile

theorem layProject_ok {project : MigrationProjectBundle} {count : Nat} (h : Layable project count)
    (hpartly : PartlyLaid (inputDirectory taskRoot) project.files before disk)
    (hwhole : Tree.Whole (inputDirectory taskRoot) (entries project.files) disk) :
    ∃ disk', (layProject host project.files taskRoot).run disk = .ok (inputDirectory taskRoot, disk') ∧
      LaidOut project (inputDirectory taskRoot) before disk' := by
  have hsome : (disk.createDirs (inputDirectory taskRoot)).isSome = true := Tree.createDirs_isSome.mpr hpartly.way
  obtain ⟨disk₁, hdirs⟩ := Option.isSome_iff_exists.mp hsome
  have hpartly₁ : PartlyLaid (inputDirectory taskRoot) project.files before disk₁ :=
    (Tree.partly_makeDirs fun p hp => .inl hp).run hpartly (by rw [Tree.makeDirs_run, hdirs])
  have hwhole₁ : Tree.Whole (inputDirectory taskRoot) (entries project.files) disk₁ := by
    intro file hfile contents hnode
    rw [Tree.createDirs_node hdirs] at hnode
    by_cases hup : inputDirectory taskRoot ++ file.1 <+: inputDirectory taskRoot
    · rw [if_pos hup] at hnode
      cases hnode
    · rw [if_neg hup] at hnode
      exact hwhole file hfile contents hnode
  obtain ⟨disk', hrun, hresumed, hnodes⟩ := @layFiles_ok host _ _ _ _ none _ hpartly₁ hwhole₁ h.apart
    (List.Subset.refl _) h.sorted h.ne_nil
  have hout : LaidOut project (inputDirectory taskRoot) before disk' := by
    refine ⟨fun rel contents => ⟨fun hnode => ?_, ?_⟩, hresumed.partly.elsewhere⟩
    · obtain ⟨entry, hentry, hrel, _⟩ := hresumed.partly.content rel contents hnode
      rw [← hrel] at hnode
      obtain ⟨file, hfile, rfl⟩ := List.mem_map.mp hentry
      exact ⟨file, hfile, hrel, (hresumed.whole _ hentry contents hnode).symm⟩
    · rintro ⟨file, hfile, rfl, rfl⟩
      exact hnodes file hfile
  refine ⟨disk', ?_, hout⟩
  obtain ⟨specification, hmem, hpath⟩ := h.specified
  have hname : components specification.path = [specificationFile] := by
    rw [hpath]
    decide
  have hfile : ¬ isFile disk' (inputDirectory taskRoot ++ [specificationFile]) = false := by
    have hnode := (hout.inside [specificationFile] specification.contents).mpr ⟨specification, hmem, hname, rfl⟩
    simp [isFile, hnode]
  simp only [layProject, run_bind, makeDirAll_run, createDirAll, hdirs, Except.map, hrun, run_get, if_neg hfile,
    run_pure]

end resuming

section finished

variable {host : Host} {before disk disk' : Disk} {taskRoot inputRoot : List (List Char)} {files : List ProjectFile}
  {project : MigrationProjectBundle}

theorem makeDirAll_grows {label : String} {path : List (List Char)}
    (h : (makeDirAll host label path).run disk = .ok ((), disk')) : Tree.Grows disk disk' := by
  rw [makeDirAll_run, createDirAll] at h
  cases hdirs : disk.createDirs path with
  | none =>
    rw [hdirs] at h
    cases h
  | some made =>
    rw [hdirs] at h
    cases h
    exact Tree.createDirs_grows hdirs

theorem layFile_grows {file : ProjectFile} (h : (layFile host inputRoot file).run disk = .ok ((), disk')) :
    Tree.Grows disk disk' := by
  unfold layFile at h
  cases hlast : (inputRoot ++ components file.path).getLast? with
  | none =>
    rw [hlast] at h
    cases h
  | some name =>
    simp only [hlast] at h
    obtain ⟨_, disk₁, hdirs, h⟩ := run_bind_ok.mp h
    have hgrows := makeDirAll_grows hdirs
    by_cases hinside : inputRoot <+: (inputRoot ++ components file.path).dropLast
    · rw [if_pos hinside, writeOnce_run, writeProjectFile] at h
      cases hwrite : disk₁.writeOnce (inputRoot ++ components file.path).dropLast name file.contents with
      | ok disk₂ =>
        rw [hwrite] at h
        cases h
        exact hgrows.trans (Tree.writeOnce_grows hwrite)
      | error e =>
        rw [hwrite] at h
        cases e <;> cases h
    · rw [if_neg hinside] at h
      cases h

theorem layFiles_inv {previous : Option String}
    (h : (layFiles host inputRoot previous files).run disk = .ok ((), disk')) :
    Sorted previous files ∧ Tree.Grows disk disk' := by
  induction files generalizing previous disk with
  | nil =>
    cases h
    exact ⟨trivial, fun _ _ h => h⟩
  | cons file rest ih =>
    unfold layFiles at h
    by_cases hpath : isBundlePath file.path = false
    · rw [if_pos hpath] at h
      cases h
    · rw [if_neg hpath] at h
      by_cases horder : (previous.any fun previous => decide (file.path ≤ previous)) = true
      · rw [if_pos horder] at h
        cases h
      · rw [if_neg horder] at h
        obtain ⟨_, disk₁, hfile, hrest⟩ := run_bind_ok.mp h
        obtain ⟨hsorted, hgrows⟩ := ih hrest
        have hvalid : isBundlePath file.path = true := by simpa using hpath
        exact ⟨⟨hvalid, not_any_le.mp (Bool.eq_false_iff.mpr horder), hsorted⟩, (layFile_grows hfile).trans hgrows⟩

theorem layProject_inv {root : List (List Char)} (h : (layProject host files taskRoot).run disk = .ok (root, disk')) :
    Sorted none files ∧ Tree.Grows disk disk' ∧
    isFile disk' (inputDirectory taskRoot ++ [specificationFile]) = true := by
  obtain ⟨_, disk₁, hdirs, h⟩ := run_bind_ok.mp h
  obtain ⟨_, disk₂, hfiles, h⟩ := run_bind_ok.mp h
  obtain ⟨hsorted, hgrows⟩ := layFiles_inv hfiles
  rw [run_bind, run_get] at h
  dsimp only at h
  by_cases hfile : isFile disk₂ (inputDirectory taskRoot ++ [specificationFile]) = false
  · rw [if_pos hfile] at h
    cases h
  · rw [if_neg hfile, run_pure] at h
    cases h
    exact ⟨hsorted, (makeDirAll_grows hdirs).trans hgrows, by simpa using hfile⟩

theorem LaidOut.specified (h : LaidOut project inputRoot before disk)
    (hsorted : Sorted none project.files) (hfile : isFile disk (inputRoot ++ [specificationFile]) = true) :
    ∃ file ∈ project.files, file.path = "migration-spec-v1.json" := by
  unfold isFile at hfile
  split at hfile
  · rename_i contents hnode
    obtain ⟨file, hmem, hname, _⟩ := (h.inside _ _).mp hnode
    refine ⟨file, hmem, components_inj (hsorted.valid hmem) (by decide) ?_⟩
    rw [hname]
    decide
  · cases hfile

theorem LaidOut.whole (h : LaidOut project inputRoot before disk')
    (hsorted : Sorted none project.files) (hgrows : Tree.Grows disk disk') :
    Tree.Whole inputRoot (entries project.files) disk := by
  intro entry hentry contents hnode
  obtain ⟨file, hfile, rfl⟩ := List.mem_map.mp hentry
  obtain ⟨other, hother, hsame, hcontents⟩ := (h.inside _ _).mp (hgrows _ _ hnode)
  have hpath := components_inj (hsorted.valid hother) (hsorted.valid hfile) hsame
  rw [← hsorted.unique hother hfile hpath]
  exact hcontents.symm

end finished

section recovery

variable [Sha256] {host : Host} {artifacts : ArtifactStore} {project : MigrationProjectBundle} {count : Nat}
variable {taskRoot : List (List Char)} {before crashed : Disk}

def Recovers (host : Host) (artifacts : ArtifactStore) (project : MigrationProjectBundle) (count : Nat)
    (taskRoot : List (List Char)) (before crashed : Disk) : Prop :=
  (∃ disk, materializeProject host artifacts (Sha256.digestBytes project.encode) count taskRoot crashed =
    .ok (inputDirectory taskRoot, disk) ∧ LaidOut project (inputDirectory taskRoot) before disk) ∧
  ∀ path, ¬ inputDirectory taskRoot <+: path → ∀ contents,
    crashed.node path = some (.file contents) ↔ before.node path = some (.file contents)

theorem materialize_inv (hopen : artifacts.openArtifact (Sha256.digestBytes project.encode) = some project.encode)
    (hdecode : host.decode project.encode = .ok project) {root : List (List Char)} {disk : Disk}
    (h : (materialize host artifacts (Sha256.digestBytes project.encode) count taskRoot).run crashed =
      .ok (root, disk)) :
    project.encode.length ≤ MAX_ENCODED_PROJECT_BYTES ∧ project.files.length = count ∧
      (layProject host project.files taskRoot).run crashed = .ok (root, disk) := by
  unfold materialize at h
  simp only [hopen] at h
  by_cases hlong : MAX_ENCODED_PROJECT_BYTES < (project.encode.take (MAX_ENCODED_PROJECT_BYTES + 1)).length
  · rw [if_pos hlong] at h
    cases h
  · have hfits : project.encode.length ≤ MAX_ENCODED_PROJECT_BYTES := by
      rw [List.length_take] at hlong
      omega
    have hall : project.encode.take (MAX_ENCODED_PROJECT_BYTES + 1) = project.encode :=
      List.take_of_length_le (by omega)
    rw [if_neg hlong, hall, if_neg (not_not.mpr rfl), hdecode] at h
    dsimp only at h
    by_cases hcount : project.files.length ≠ count ∨ project.files = []
    · rw [if_pos hcount] at h
      cases h
    · rw [if_neg hcount] at h
      exact ⟨hfits, not_not.mp (not_or.mp hcount).1, h⟩

theorem materialize_of_layProject (hopen : artifacts.openArtifact (Sha256.digestBytes project.encode) =
    some project.encode) (hdecode : host.decode project.encode = .ok project) (h : Layable project count) :
    (materialize host artifacts (Sha256.digestBytes project.encode) count taskRoot).run crashed =
      (layProject host project.files taskRoot).run crashed := by
  have hall : project.encode.take (MAX_ENCODED_PROJECT_BYTES + 1) = project.encode :=
    List.take_of_length_le (by have hfits := h.fits; omega)
  have hcount : ¬ (project.files.length ≠ count ∨ project.files = []) := by
    obtain ⟨specification, hmem, _⟩ := h.specified
    rintro (hother | hempty)
    · exact hother h.counted
    · rw [hempty] at hmem
      cases hmem
  unfold materialize
  simp only [hopen, hall, if_neg (Nat.not_lt.mpr h.fits), hdecode, if_neg hcount, ne_eq, not_true_eq_false, if_false]

/-- Whatever number of calls were stopped before, the next one lays the project out exactly when the project can be laid
out at all and every file of it that is there has its whole contents. -/
theorem interrupted_project_recovers_iff
    (hopen : artifacts.openArtifact (Sha256.digestBytes project.encode) = some project.encode)
    (hdecode : host.decode project.encode = .ok project) (hfresh : Fresh taskRoot before)
    (hcrashed : Relation.ReflTransGen
      (Leaves (materialize host artifacts (Sha256.digestBytes project.encode) count taskRoot)) before crashed) :
    Recovers host artifacts project count taskRoot before crashed ↔
      Layable project count ∧ Tree.Whole (inputDirectory taskRoot) (entries project.files) crashed := by
  have hpartly : PartlyLaid (inputDirectory taskRoot) project.files before crashed :=
    (materialize_partly hopen hdecode).retried hfresh.partly hcrashed
  constructor
  · rintro ⟨⟨disk, hdone, hout⟩, _⟩
    rw [← materialize_run] at hdone
    obtain ⟨hfits, hcount, hlaid⟩ := materialize_inv hopen hdecode hdone
    obtain ⟨hsorted, hgrows, hfile⟩ := layProject_inv hlaid
    exact ⟨⟨hfits, hcount, hsorted, hout.specified hsorted hfile, hout.apart hsorted⟩, hout.whole hsorted hgrows⟩
  · rintro ⟨hlayable, hwhole⟩
    obtain ⟨disk, hrun, hout⟩ := @layProject_ok host _ _ _ _ _ hlayable hpartly hwhole
    refine ⟨⟨disk, ?_, hout⟩, hpartly.elsewhere⟩
    rw [← materialize_run, materialize_of_layProject hopen hdecode hlayable]
    exact hrun

end recovery

section samples

attribute [local instance] transparentSha256

theorem sampleProject_layable : Layable sampleProject 3 where
  fits := by
    rw [sampleProject.length_encode]
    decide
  counted := rfl
  sorted := (@validateProject_ok (sampleHost sampleProject) sampleProject 4 3 (by decide)).2.1
  specified := by decide
  apart := by
    unfold Apart
    decide

theorem sampleProject_opened : ArtifactStore.openArtifact [sampleProject.encode]
    (Sha256.digestBytes sampleProject.encode) = some sampleProject.encode := by decide

def sampleMaterialize : Crashing Disk String (List (List Char)) :=
  materialize (sampleHost sampleProject) [sampleProject.encode] (Sha256.digestBytes sampleProject.encode) 3 sampleRoot

def sampleCrash (steps : Nat) : Disk := ((sampleMaterialize Tree.empty).2[steps]?).getD Tree.empty

theorem sampleCrash_leaves (steps : Nat) : Leaves sampleMaterialize Tree.empty (sampleCrash steps) := by
  unfold sampleCrash
  cases hpassed : (sampleMaterialize Tree.empty).2[steps]? with
  | none => exact .inl rfl
  | some disk => exact .inr (.inl (List.mem_of_getElem? hpassed))

/-- Stopped when the specification was written, the sample project is laid out at the next call. -/
theorem sample_project_recovers : ∃ crashed, Leaves sampleMaterialize Tree.empty crashed ∧
    Recovers (sampleHost sampleProject) [sampleProject.encode] sampleProject 3 sampleRoot Tree.empty crashed := by
  have hwhole : Tree.Whole (inputDirectory sampleRoot) (entries sampleProject.files) (sampleCrash 6) :=
    Tree.whole_of_all (by decide +kernel)
  refine ⟨sampleCrash 6, sampleCrash_leaves 6, ?_⟩
  exact (interrupted_project_recovers_iff sampleProject_opened (sampleHost_decode _) fresh_empty
    (.single (sampleCrash_leaves 6))).mpr ⟨sampleProject_layable, hwhole⟩

/-- Stopped in the middle of the specification, every later call refuses what it finds. -/
theorem torn_project_not_recovered : Layable sampleProject 3 ∧ Fresh sampleRoot Tree.empty ∧
    ∃ crashed, Leaves sampleMaterialize Tree.empty crashed ∧ ∀ root disk,
      materializeProject (sampleHost sampleProject) [sampleProject.encode] (Sha256.digestBytes sampleProject.encode) 3
        sampleRoot crashed ≠ .ok (root, disk) := by
  have hfails : (match materializeProject (sampleHost sampleProject) [sampleProject.encode]
        (Sha256.digestBytes sampleProject.encode) 3 sampleRoot (sampleCrash 5) with
      | .error error => some error
      | .ok _ => none) = some "existing project file /var/task-1/input/migration-spec-v1.json has conflicting contents" := by
    decide +kernel
  refine ⟨sampleProject_layable, fresh_empty, sampleCrash 5, sampleCrash_leaves 5, fun root disk hdone => ?_⟩
  rw [hdone] at hfails
  cases hfails

end samples

end AlloyPort.Migration
