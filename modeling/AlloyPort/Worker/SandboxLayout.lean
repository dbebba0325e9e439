import AlloyPort.Worker.Sandbox

/-! The layout that the two policies share: directories that are made when they are missing, files that are created or
compared, and the look at the whole tree. -/

namespace AlloyPort.Sandbox

open Attempts Candidate FileTree Crashing Tree

section directories

variable {directory path : List (List Char)} {p : Crashing SandboxDisk ContractError Unit}

/-- The program makes a directory on the way to a sandbox; it may need the one above. -/
structure Makes (directory path : List (List Char)) (needsParent : Prop) (p : Crashing SandboxDisk ContractError Unit) :
    Prop where
  partly : ∀ files t₀, Preserves (fun disk => Tree.Partly directory files t₀ disk.tree) p
  stays : Tree.Stays p
  grows : ∀ disk disk', p.run disk = .ok ((), disk') → Tree.Grows disk.tree disk'.tree
  made : ∀ disk disk', p.run disk = .ok ((), disk') → disk'.tree.node path = some .directory
  goes : ∀ disk, (needsParent → path ≠ [] → disk.tree.node path.dropLast = some .directory) →
    (∀ q, q <+: path → ∀ contents, disk.tree.node q ≠ some (.file contents)) →
    ∃ disk', p.run disk = .ok ((), disk') ∧
      ∀ q contents, disk'.tree.node q = some (.file contents) → disk.tree.node q = some (.file contents)

theorem makes_realDirectory (hpath : path <+: directory) : Makes directory path True (createRealDirectory path) := by
  unfold createRealDirectory
  cases hlast : path.getLast? with
  | none =>
    obtain rfl := List.getLast?_eq_none_iff.mp hlast
    refine ⟨fun _ _ => preserves_pure, fun _ => preserves_pure, fun disk disk' h => ?_, fun disk disk' h => ?_,
      fun disk _ _ => ⟨disk, rfl, fun _ _ h => h⟩⟩
    · cases h
      exact fun _ _ h => h
    · cases h
      exact disk.tree.root
  | some name =>
    have hsplit : path.dropLast ++ [name] = path := List.dropLast_append_getLast? name hlast
    have hrun : ∀ {disk disk' : SandboxDisk}, Crashing.run (do
        let disk ← get
        if disk.tree.node path.dropLast = some .directory then
          (makeDirsFrom path.dropLast [name]).mapError fun _ => .unsafePath
        else raise .io : Crashing SandboxDisk ContractError Unit) disk = .ok ((), disk') →
        disk.tree.node path.dropLast = some .directory ∧
          disk.tree.createDirsFrom path.dropLast [name] = some disk'.tree := by
      intro disk disk' h
      obtain ⟨_, _, hget, h⟩ := run_bind_ok.mp h
      cases hget
      by_cases hparent : disk.tree.node path.dropLast = some .directory
      · rw [if_pos hparent] at h
        exact ⟨hparent, Folder.makeDirsFrom_run_iff.mp ⟨disk', run_mapError_ok.mp h, rfl⟩⟩
      · rw [if_neg hparent] at h
        cases h
    refine ⟨fun files t₀ => ?_, fun q => ?_, fun disk disk' h => createDirsFrom_grows (hrun h).2,
      fun disk disk' h => ?_, fun disk hparent hfree => ?_⟩
    · apply preserves_bind preserves_get
      intro disk
      apply preserves_ite _ preserves_raise
      apply preserves_mapError
      refine (shows_makeDirsFrom path.dropLast [name]).preserves (partly_makeDirsFrom fun q hq => .inl ?_)
      rw [hsplit] at hq
      exact hq.trans hpath
    · apply preserves_bind preserves_get
      intro disk
      exact preserves_ite (preserves_mapError (stays_makeDirsFrom _ _ q)) preserves_raise
    · obtain ⟨hparent, hdirs⟩ := hrun h
      rw [createDirsFrom_node hparent hdirs, hsplit, if_pos ⟨List.dropLast_prefix path, List.prefix_rfl⟩]
    · have hne : path ≠ [] := by
        rintro rfl
        cases hlast
      have hdirectory := hparent trivial hne
      have hsome : (disk.tree.createDirsFrom path.dropLast [name]).isSome = true := by
        rw [createDirsFrom_isSome hdirectory, hsplit]
        exact fun q _ hq => hfree q hq
      obtain ⟨t', hdirs⟩ := Option.isSome_iff_exists.mp hsome
      obtain ⟨disk', hmade, rfl⟩ := Folder.makeDirsFrom_run_iff.mpr hdirs
      refine ⟨disk', run_bind_ok.mpr ⟨disk, disk, rfl, ?_⟩, fun q contents hfile => ?_⟩
      · rw [if_pos hdirectory]
        exact run_mapError_ok.mpr hmade
      · rw [createDirsFrom_node hdirectory hdirs] at hfile
        split at hfile
        · cases hfile
        · exact hfile

theorem makes_sandboxRoot (hpath : path <+: directory) :
    Makes directory path False (AscendBuildPolicy.createSandboxRoot path) := by
  have hrun : ∀ {disk disk' : SandboxDisk}, (AscendBuildPolicy.createSandboxRoot path).run disk = .ok ((), disk') →
      disk.tree.createDirs path = some disk'.tree := by
    intro disk disk' h
    obtain ⟨_, disk₁, hdirs, h⟩ := run_bind_ok.mp h
    obtain ⟨_, _, hget, h⟩ := run_bind_ok.mp h
    cases hget
    by_cases hdirectory : disk₁.tree.node path = some .directory
    · rw [if_pos hdirectory] at h
      cases h
      exact Folder.makeDirsFrom_run_iff.mp ⟨disk₁, run_mapError_ok.mp hdirs, rfl⟩
    · rw [if_neg hdirectory] at h
      cases h
  refine ⟨fun files t₀ => ?_, fun q => ?_, fun disk disk' h => createDirs_grows (hrun h), fun disk disk' h => ?_,
    fun disk _ hfree => ?_⟩
  · apply preserves_bind
    · apply preserves_mapError
      refine (shows_makeDirsFrom [] path).preserves (partly_makeDirsFrom fun q hq => .inl ?_)
      exact hq.trans hpath
    · intro _
      apply preserves_bind preserves_get
      exact fun disk => preserves_ite preserves_pure preserves_raise
  · apply preserves_bind (preserves_mapError (stays_makeDirsFrom [] path q))
    intro _
    apply preserves_bind preserves_get
    exact fun disk => preserves_ite preserves_pure preserves_raise
  · rw [createDirs_node (hrun h), if_pos List.prefix_rfl]
  · obtain ⟨t', hdirs⟩ := Option.isSome_iff_exists.mp (createDirs_isSome.mpr hfree)
    obtain ⟨disk', hmade, htree⟩ := Folder.makeDirsFrom_run_iff.mpr hdirs
    have hnode : ∀ q, disk'.tree.node q = if q <+: path then some .directory else disk.tree.node q := by
      intro q
      have hmoved := createDirs_node hdirs q
      rwa [← htree] at hmoved
    refine ⟨disk', run_bind_ok.mpr ⟨(), disk', run_mapError_ok.mpr hmade,
      run_bind_ok.mpr ⟨disk', disk', rfl, ?_⟩⟩, fun q contents hfile => ?_⟩
    · rw [hnode, if_pos List.prefix_rfl, if_pos rfl]
      rfl
    · rw [hnode] at hfile
      split at hfile
      · cases hfile
      · exact hfile

end directories

section layout

variable {directory root : List (List Char)} {name : List Char} {all : List (List (List Char) × List UInt8)} {α : Type}
variable {expected : List (List (List Char))} {result : α}
variable {toRoot toDirectory body : Crashing SandboxDisk ContractError Unit}
variable {before crashed disk disk' : SandboxDisk} {needsParent : Prop}

/-- Nothing stands below the directory of an attempt, and no file is on the way to it. -/
structure Fresh (root directory : List (List Char)) (before : SandboxDisk) : Prop where
  way : ∀ q, q <+: root → ∀ contents, before.tree.node q ≠ some (.file contents)
  below : ∀ rel, before.tree.node (directory ++ rel) = none

theorem Fresh.partly (h : Fresh root (root ++ [name]) before) :
    Tree.Partly (root ++ [name]) all before.tree before.tree where
  way q hq contents hfile := by
    rcases List.prefix_concat_iff.mp hq with rfl | hq
    · have hnone := h.below []
      rw [List.append_nil, hfile] at hnone
      cases hnone
    · exact h.way q hq contents hfile
  content rel contents hfile := by
    rw [h.below] at hfile
    cases hfile
  directories rel _ hdirectory := by
    rw [h.below] at hdirectory
    cases hdirectory
  elsewhere _ _ _ := Iff.rfl

theorem verifyExactTree_run : (verifyExactTree directory expected).run disk = .ok ((), disk') ↔
    disk' = disk ∧ ∀ path, path ∈ disk.files directory ↔ path ∈ expected := by
  unfold verifyExactTree
  rw [run_bind, run_get]
  by_cases hsame : (∀ path ∈ disk.files directory, path ∈ expected) ∧ ∀ path ∈ expected, path ∈ disk.files directory
  · simp only [if_pos hsame, run_pure, Except.ok.injEq, Prod.mk.injEq, true_and]
    exact ⟨fun h => ⟨h.symm, fun path => ⟨hsame.1 path, hsame.2 path⟩⟩, fun h => h.1.symm⟩
  · simp only [if_neg hsame, run_raise, reduceCtorEq, false_iff]
    exact fun h => hsame ⟨fun path hpath => (h.2 path).mp hpath, fun path hpath => (h.2 path).mpr hpath⟩

def laying (toRoot toDirectory body : Crashing SandboxDisk ContractError Unit) (directory : List (List Char))
    (expected : List (List (List Char))) (result : α) : Crashing SandboxDisk ContractError α := do
  toRoot
  toDirectory
  body
  verifyExactTree directory expected
  return result

variable {answer : α}

theorem laying_run_ok : (laying toRoot toDirectory body directory expected result).run disk = .ok (answer, disk') ↔
      answer = result ∧ ∃ disk₁ disk₂, toRoot.run disk = .ok ((), disk₁) ∧ toDirectory.run disk₁ = .ok ((), disk₂) ∧
        body.run disk₂ = .ok ((), disk') ∧ ∀ path, path ∈ disk'.files directory ↔ path ∈ expected := by
  unfold laying
  constructor
  · intro h
    obtain ⟨_, disk₁, hroot, hrest⟩ := run_bind_ok.mp h
    obtain ⟨_, disk₂, hdirectory, hlaid⟩ := run_bind_ok.mp hrest
    obtain ⟨_, disk₃, hbody, hlooked⟩ := run_bind_ok.mp hlaid
    obtain ⟨_, disk₄, hverify, hreturn⟩ := run_bind_ok.mp hlooked
    obtain ⟨rfl, hsame⟩ := verifyExactTree_run.mp hverify
    cases hreturn
    exact ⟨rfl, disk₁, disk₂, hroot, hdirectory, hbody, hsame⟩
  · rintro ⟨rfl, disk₁, disk₂, hroot, hdirectory, hbody, hsame⟩
    exact run_bind_ok.mpr ⟨(), disk₁, hroot, run_bind_ok.mpr ⟨(), disk₂, hdirectory,
      run_bind_ok.mpr ⟨(), disk', hbody, run_bind_ok.mpr ⟨(), disk', verifyExactTree_run.mpr ⟨rfl, hsame⟩, rfl⟩⟩⟩⟩

theorem laying_exactly (hbody : Tree.Lays directory all all body) (hexpected : expected = all.map Prod.fst)
    (h : (laying toRoot toDirectory body directory expected result).run disk = .ok (answer, disk')) :
    Tree.Exactly directory all disk'.tree := by
  obtain ⟨_, _, disk₂, _, _, hrun, hsame⟩ := laying_run_ok.mp h
  have hplaced := hbody.placed disk₂ disk' hrun
  intro rel contents
  constructor
  · intro hfile
    have hmem := (hsame rel).mp (Folder.mem_files.mpr ⟨contents, hfile⟩)
    rw [hexpected] at hmem
    obtain ⟨file, hfound, rfl⟩ := List.mem_map.mp hmem
    obtain rfl : file.2 = contents := Node.file.inj (Option.some.inj ((hplaced file hfound).symm.trans hfile))
    exact hfound
  · exact hplaced (rel, contents)

structure Layout (root : List (List Char)) (name : List Char) (all : List (List (List Char) × List UInt8))
    (needsParent : Prop) (toRoot toDirectory body : Crashing SandboxDisk ContractError Unit) : Prop where
  toRoot : Makes (root ++ [name]) root needsParent toRoot
  toDirectory : Makes (root ++ [name]) (root ++ [name]) True toDirectory
  body : Tree.Lays (root ++ [name]) all all body

theorem laying_grows (hlayout : Layout root name all needsParent toRoot toDirectory body)
    (h : (laying toRoot toDirectory body (root ++ [name]) expected result).run disk = .ok (answer, disk')) :
    Tree.Grows disk.tree disk'.tree := by
  obtain ⟨_, disk₁, disk₂, hroot, hdirectory, hrun, _⟩ := laying_run_ok.mp h
  have hgrows := (hlayout.toRoot.grows _ _ hroot).trans (hlayout.toDirectory.grows _ _ hdirectory)
  exact hgrows.trans (hlayout.body.grows _ _ hrun)

theorem laying_partly (hlayout : Layout root name all needsParent toRoot toDirectory body)
    {t₀ : Tree (List Char) (List UInt8)} : Preserves (fun disk => Tree.Partly (root ++ [name]) all t₀ disk.tree)
      (laying toRoot toDirectory body (root ++ [name]) expected result) := by
  apply preserves_bind (hlayout.toRoot.partly all t₀)
  intro _
  apply preserves_bind (hlayout.toDirectory.partly all t₀)
  intro _
  apply preserves_bind (hlayout.body.partly t₀)
  intro _
  apply preserves_bind
  · apply preserves_bind preserves_get
    exact fun disk => preserves_ite preserves_pure preserves_raise
  · exact fun _ => preserves_pure

theorem laying_stays (hlayout : Layout root name all needsParent toRoot toDirectory body) (q : List (List Char)) :
    Preserves (fun disk : SandboxDisk => disk.tree.node q = some .directory)
      (laying toRoot toDirectory body (root ++ [name]) expected result) := by
  apply preserves_bind (hlayout.toRoot.stays q)
  intro _
  apply preserves_bind (hlayout.toDirectory.stays q)
  intro _
  apply preserves_bind (hlayout.body.stays q)
  intro _
  apply preserves_bind
  · apply preserves_bind preserves_get
    exact fun disk => preserves_ite preserves_pure preserves_raise
  · exact fun _ => preserves_pure

/-- However often it was stopped before, the layout goes through exactly when no file is in the way of another and every
file that is there is whole. -/
theorem laying_recovers_iff (hlayout : Layout root name all needsParent toRoot toDirectory body)
    (hexpected : expected = all.map Prod.fst) (hfresh : Fresh root (root ++ [name]) before)
    (hparent : needsParent → root ≠ [] → before.tree.node root.dropLast = some .directory)
    (hcrashed : Relation.ReflTransGen
      (Leaves (laying toRoot toDirectory body (root ++ [name]) expected result)) before crashed) :
    (∃ disk', (laying toRoot toDirectory body (root ++ [name]) expected result).run crashed = .ok (result, disk') ∧
        Tree.Exactly (root ++ [name]) all disk'.tree) ↔
      Tree.Crossless all ∧ Tree.Whole (root ++ [name]) all crashed.tree := by
  have hpartly : Tree.Partly (root ++ [name]) all before.tree crashed.tree :=
    (laying_partly hlayout).retried hfresh.partly hcrashed
  constructor
  · rintro ⟨disk', hrun, hexactly⟩
    exact ⟨hexactly.crossless, hexactly.whole (laying_grows hlayout hrun)⟩
  · rintro ⟨hapart, hwhole⟩
    have hstays : needsParent → root ≠ [] → crashed.tree.node root.dropLast = some .directory := fun hneeds hne =>
      (laying_stays hlayout root.dropLast).retried (hparent hneeds hne) hcrashed
    obtain ⟨disk₁, hroot, hsame₁⟩ := hlayout.toRoot.goes crashed hstays fun q hq =>
      hpartly.way q (hq.trans (List.prefix_append root [name]))
    have hpartly₁ := (hlayout.toRoot.partly all before.tree).run hpartly hroot
    have hparent₁ : (root ++ [name]).dropLast = root := List.dropLast_concat
    obtain ⟨disk₂, hdirectory, hsame₂⟩ := hlayout.toDirectory.goes disk₁
      (fun _ _ => by rw [hparent₁]; exact hlayout.toRoot.made _ _ hroot) fun q hq => hpartly₁.way q hq
    have hpartly₂ := (hlayout.toDirectory.partly all before.tree).run hpartly₁ hdirectory
    have hwhole₂ : Tree.Whole (root ++ [name]) all disk₂.tree := fun file hfile contents hnode =>
      hwhole file hfile contents (hsame₁ _ _ (hsame₂ _ _ hnode))
    obtain ⟨disk', hrun, hwhole'⟩ := hlayout.body.resumes hapart before.tree disk₂ hpartly₂ hwhole₂
      (hlayout.toDirectory.made _ _ hdirectory)
    have hpartly' := (hlayout.body.partly before.tree).run hpartly₂ hrun
    have hplaced := hlayout.body.placed disk₂ disk' hrun
    have hfiles : ∀ path, path ∈ disk'.files (root ++ [name]) ↔ path ∈ expected := by
      intro path
      rw [Folder.mem_files, hexpected, List.mem_map]
      constructor
      · rintro ⟨contents, hfile⟩
        obtain ⟨file, hmem, hpath, _⟩ := hpartly'.content path contents hfile
        exact ⟨file, hmem, hpath⟩
      · rintro ⟨file, hmem, rfl⟩
        exact ⟨file.2, hplaced file hmem⟩
    have hdone : (laying toRoot toDirectory body (root ++ [name]) expected result).run crashed = .ok (result, disk') :=
      laying_run_ok.mpr ⟨rfl, disk₁, disk₂, hroot, hdirectory, hrun, hfiles⟩
    exact ⟨disk', hdone, laying_exactly hlayout.body hexpected hdone⟩

end layout

section files

variable {directory path : List (List Char)} {name : List Char} {bytes : List UInt8}
variable {all : List (List (List Char) × List UInt8)}

theorem lays_bundleFile (hmem : (path, bytes) ∈ all) (hne : path ≠ []) :
    Tree.Lays directory all [(path, bytes)] (layBundleFile directory path bytes) := by
  obtain ⟨above, name, rfl⟩ : ∃ above name, path = above ++ [name] :=
    ⟨_, _, (List.dropLast_append_getLast hne).symm⟩
  unfold layBundleFile createRealParents writeOnce
  rw [List.getLast?_concat, List.dropLast_concat]
  exact lays_below hmem

theorem lays_ownFile (hmem : ([name], bytes) ∈ all) :
    Tree.Lays directory all [([name], bytes)] (writeOnce directory name bytes) :=
  lays_here hmem

variable [Sha256] {digest : Sha256Digest} {size : Nat} {disk disk' : SandboxDisk}

theorem verifyFile_run (h : (verifyFile path digest size).run disk = .ok ((), disk')) : disk' = disk := by
  obtain ⟨_, _, hget, hcheck⟩ := run_bind_ok.mp h
  cases hget
  split at hcheck
  · split at hcheck
    · cases hcheck
    · cases hcheck
      rfl
  · cases hcheck

theorem verifyFile_ok (hsize : bytes.length = size) (hdigest : Sha256.digestBytes bytes = digest)
    (hfile : disk.tree.node path = some (.file bytes)) : (verifyFile path digest size).run disk = .ok ((), disk) := by
  have hmatches : ¬ (bytes.length ≠ size ∨ Sha256.digestBytes bytes ≠ digest) := by
    simp [hsize, hdigest]
  apply run_bind_ok.mpr
  refine ⟨disk, disk, rfl, ?_⟩
  rw [hfile]
  simp only [if_neg hmatches]
  rfl

theorem verifyFile_preserves {I : SandboxDisk → Prop} : Preserves I (verifyFile path digest size) := by
  apply preserves_bind preserves_get
  intro disk
  split
  · exact preserves_ite preserves_raise preserves_pure
  · exact preserves_raise

theorem lays_verified {p : Crashing SandboxDisk ContractError Unit} (h : Tree.Lays directory all [(path, bytes)] p)
    (hsize : bytes.length = size) (hdigest : Sha256.digestBytes bytes = digest) :
    Tree.Lays directory all [(path, bytes)] (do p; verifyFile (directory ++ path) digest size) where
  partly t₀ := preserves_bind (h.partly t₀) fun _ => verifyFile_preserves
  stays q := preserves_bind (h.stays q) fun _ => verifyFile_preserves
  grows disk disk' hrun := by
    obtain ⟨_, disk₁, hlaid, hverify⟩ := run_bind_ok.mp hrun
    rw [verifyFile_run hverify]
    exact h.grows disk disk₁ hlaid
  placed disk disk' hrun := by
    obtain ⟨_, disk₁, hlaid, hverify⟩ := run_bind_ok.mp hrun
    rw [verifyFile_run hverify]
    exact h.placed disk disk₁ hlaid
  resumes hapart t₀ disk hpartly hwhole hroot := by
    obtain ⟨disk', hlaid, hwhole'⟩ := h.resumes hapart t₀ disk hpartly hwhole hroot
    have hfile := h.placed disk disk' hlaid _ (List.mem_singleton_self _)
    exact ⟨disk', run_bind_ok.mpr ⟨(), disk', hlaid, verifyFile_ok hsize hdigest hfile⟩, hwhole'⟩

end files

section paths

variable {first : List Char} {files : List (List (List Char) × List UInt8)}

theorem components_below {path : BundlePath} {root : String} (hroot : root.toList = first ++ ['/'])
    (hplain : '/' ∉ first)
    (h : path.startsWith root = true) : ∃ rest, Migration.components path.text = first :: rest := by
  obtain ⟨rest, hrest⟩ := List.isPrefixOf_iff_prefix.mp h
  rw [hroot, List.append_assoc, List.singleton_append] at hrest
  have hdot : path.text ≠ "." := by
    intro heq
    rw [heq] at hrest
    have hlength := congrArg List.length hrest
    simp only [List.length_append, List.length_cons, show ".".toList.length = 1 from rfl] at hlength
    have hnil : first = [] := List.length_eq_zero_iff.mp (by omega)
    rw [hnil] at hrest
    exact absurd (List.cons.inj hrest).1 (by decide)
  rw [Migration.components_of_ne path.valid hdot, ← hrest, List.splitOn_append_cons_self,
    List.splitOn_eq_singleton hplain]
  exact ⟨_, rfl⟩

theorem crossless_append_iff (own : List (List Char × List UInt8))
    (hbundle : ∀ file ∈ files, ∃ rest, file.1 = first :: rest)
    (hother : first ∉ own.map Prod.fst) (hunique : (own.map Prod.fst).Nodup) :
    Tree.Crossless (files ++ own.map fun file => ([file.1], file.2)) ↔ Tree.Crossless files := by
  have hown : ∀ file ∈ own, file.1 ≠ first := fun file hfile heq => hother (heq ▸ List.mem_map_of_mem hfile)
  constructor
  · exact fun h file hfile other hother => h file (List.mem_append_left _ hfile) other (List.mem_append_left _ hother)
  · intro h file hfile other hother hup
    rcases List.mem_append.mp hfile with hfile | hfile
    · rcases List.mem_append.mp hother with hother | hother
      · exact h file hfile other hother hup
      · obtain ⟨rest, hpath⟩ := hbundle file hfile
        obtain ⟨own', hmem, rfl⟩ := List.mem_map.mp hother
        rw [hpath, List.cons_prefix_cons] at hup
        exact absurd hup.1.symm (hown own' hmem)
    · obtain ⟨own₁, hmem₁, rfl⟩ := List.mem_map.mp hfile
      rcases List.mem_append.mp hother with hother | hother
      · obtain ⟨rest, hpath⟩ := hbundle other hother
        rw [hpath, List.cons_prefix_cons] at hup
        exact absurd hup.1 (hown own₁ hmem₁)
      · obtain ⟨own₂, hmem₂, rfl⟩ := List.mem_map.mp hother
        rw [List.cons_prefix_cons] at hup
        have hsame : own₁ = own₂ := List.inj_on_of_nodup_map hunique hmem₁ hmem₂ hup.1
        rw [hsame]

end paths

end AlloyPort.Sandbox
