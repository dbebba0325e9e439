import AlloyPort.Candidate.Source

/-! The contract of a migration, and the byte string that its digest is taken of. Two fields do not go into it. -/

namespace AlloyPort.Candidate

open Framing

structure RequiredText where
  text : String
  nonblank : isBlank text = false

/-- A `BTreeSet` of paths, in its order. -/
structure PathSet where
  paths : List BundlePath
  ordered : paths.Pairwise fun path next => path.text < next.text

structure CudaSourceSet where
  deviceSources : PathSet
  hostSources : PathSet
  buildFiles : PathSet
  complete : deviceSources.paths ≠ [] ∧ hostSources.paths ≠ [] ∧ buildFiles.paths ≠ []

structure PublicEntryPoint where
  symbol : RequiredText
  contract : RequiredText
  buildTarget : RequiredText

structure ReferenceWorkload where
  workingDirectory : BundlePath
  argv : List RequiredText
  libraryTarget : RequiredText
  nonempty : argv ≠ []

structure AscendTarget where
  soc : RequiredText
  cann : RequiredText
  compiler : RequiredText
  driver : RequiredText
  runtime : RequiredText

def MIGRATION_SPEC_SCHEMA_V1 : Nat := 1

structure MigrationSpec where
  schemaVersion : Nat
  sourceRevision : RequiredText
  sources : CudaSourceSet
  publicEntry : PublicEntryPoint
  reference : ReferenceWorkload
  target : AscendTarget
  supportedDomain : RequiredText
  unsupportedConstructs : List RequiredText
  fallback : RequiredText
  versioned : schemaVersion = MIGRATION_SPEC_SCHEMA_V1

def hashText (value : String) : List UInt8 := frame (utf8 value)

def hashPaths (paths : PathSet) : List UInt8 :=
  beBytes 8 paths.paths.length ++ paths.paths.flatMap fun path => hashText path.text

def hashStrings (values : List RequiredText) : List UInt8 :=
  beBytes 8 values.length ++ values.flatMap fun value => hashText value.text

/-- Everything that `MigrationSpec::digest` hashes, in its order. -/
def MigrationSpec.preimage (spec : MigrationSpec) : List UInt8 :=
  utf8 "alloyport-migration-spec-v1" ++ 0 :: (beBytes 2 spec.schemaVersion ++
    (hashText spec.sourceRevision.text ++
    (hashPaths spec.sources.deviceSources ++
    (hashPaths spec.sources.hostSources ++
    (hashPaths spec.sources.buildFiles ++
    (hashText spec.publicEntry.symbol.text ++
    (hashText spec.publicEntry.contract.text ++
    (hashText spec.reference.workingDirectory.text ++
    (hashStrings spec.reference.argv ++
    (hashText spec.target.soc.text ++
    (hashText spec.target.cann.text ++
    (hashText spec.target.compiler.text ++
    (hashText spec.target.driver.text ++
    (hashText spec.target.runtime.text ++
    (hashText spec.supportedDomain.text ++
    (hashStrings spec.unsupportedConstructs ++ hashText spec.fallback.text))))))))))))))))

def MigrationSpec.digest [Sha256] (spec : MigrationSpec) : Sha256Digest := Sha256.digestBytes spec.preimage

section splitting

variable {x y : List UInt8}

theorem RequiredText.ext_text {a b : RequiredText} (h : a.text = b.text) : a = b := by
  cases a
  cases b
  cases h
  rfl

theorem hashText_split {a b : RequiredText} (hsize : Addressable (hashText a.text ++ x))
    (h : hashText a.text ++ x = hashText b.text ++ y) : a = b ∧ x = y ∧ Addressable x := by
  obtain ⟨hbytes, hrest⟩ := frame_split hsize h
  exact ⟨RequiredText.ext_text (utf8_inj hbytes), hrest⟩

theorem hashPath_split {a b : BundlePath} (hsize : Addressable (hashText a.text ++ x))
    (h : hashText a.text ++ x = hashText b.text ++ y) : a = b ∧ x = y ∧ Addressable x := by
  obtain ⟨hbytes, hrest⟩ := frame_split hsize h
  cases a
  cases b
  cases utf8_inj hbytes
  exact ⟨rfl, hrest⟩

theorem counted_map {α : Type} (bytesOf : α → List UInt8) (values : List α) :
    beBytes 8 values.length ++ (values.flatMap fun value => frame (bytesOf value)) = counted (values.map bytesOf) := by
  rw [counted, List.length_map, List.flatMap_map]

theorem hashPaths_split {a b : PathSet} (hsize : Addressable (hashPaths a ++ x))
    (h : hashPaths a ++ x = hashPaths b ++ y) : a = b ∧ x = y ∧ Addressable x := by
  unfold hashPaths hashText at h hsize
  rw [counted_map fun path : BundlePath => utf8 path.text] at h hsize
  rw [counted_map fun path : BundlePath => utf8 path.text] at h
  obtain ⟨hpaths, hrest⟩ := counted_split hsize h
  refine ⟨?_, hrest⟩
  have hinj : Function.Injective fun path : BundlePath => utf8 path.text := by
    rintro ⟨text, _⟩ ⟨text', _⟩ heq
    cases utf8_inj heq
    rfl
  cases a
  cases b
  cases List.map_injective_iff.mpr hinj hpaths
  rfl

theorem hashStrings_split {a b : List RequiredText} (hsize : Addressable (hashStrings a ++ x))
    (h : hashStrings a ++ x = hashStrings b ++ y) : a = b ∧ x = y ∧ Addressable x := by
  unfold hashStrings hashText at h hsize
  rw [counted_map fun value : RequiredText => utf8 value.text] at h hsize
  rw [counted_map fun value : RequiredText => utf8 value.text] at h
  obtain ⟨hvalues, hrest⟩ := counted_split hsize h
  have hinj : Function.Injective fun value : RequiredText => utf8 value.text :=
    fun _ _ heq => RequiredText.ext_text (utf8_inj heq)
  exact ⟨List.map_injective_iff.mpr hinj hvalues, hrest⟩

end splitting

/-- Specs that are hashed alike are the same but for the two build targets, which are not hashed. -/
theorem spec_preimage_identifies_iff {spec spec' : MigrationSpec} (hsize : Addressable spec.preimage)
    (h : spec.preimage = spec'.preimage) :
    spec = spec' ↔ spec.publicEntry.buildTarget = spec'.publicEntry.buildTarget ∧
      spec.reference.libraryTarget = spec'.reference.libraryTarget := by
  constructor
  · rintro rfl
    exact ⟨rfl, rfl⟩
  · rintro ⟨hbuild, hlibrary⟩
    have hversion : spec.schemaVersion = spec'.schemaVersion := spec.versioned.trans spec'.versioned.symm
    unfold MigrationSpec.preimage at h hsize
    rw [hversion] at h hsize
    have hbehind := List.append_cancel_left (List.cons.inj (List.append_cancel_left h)).2
    have hsize := Nat.lt_of_le_of_lt ((List.sublist_append_right _ _).trans
      ((List.sublist_cons_self _ _).trans (List.sublist_append_right _ _))).length_le hsize
    obtain ⟨hrevision, h, hsize⟩ := hashText_split hsize hbehind
    obtain ⟨hdevice, h, hsize⟩ := hashPaths_split hsize h
    obtain ⟨hhost, h, hsize⟩ := hashPaths_split hsize h
    obtain ⟨hfiles, h, hsize⟩ := hashPaths_split hsize h
    obtain ⟨hsymbol, h, hsize⟩ := hashText_split hsize h
    obtain ⟨hcontract, h, hsize⟩ := hashText_split hsize h
    obtain ⟨hdirectory, h, hsize⟩ := hashPath_split hsize h
    obtain ⟨hargv, h, hsize⟩ := hashStrings_split hsize h
    obtain ⟨hsoc, h, hsize⟩ := hashText_split hsize h
    obtain ⟨hcann, h, hsize⟩ := hashText_split hsize h
    obtain ⟨hcompiler, h, hsize⟩ := hashText_split hsize h
    obtain ⟨hdriver, h, hsize⟩ := hashText_split hsize h
    obtain ⟨hruntime, h, hsize⟩ := hashText_split hsize h
    obtain ⟨hdomain, h, hsize⟩ := hashText_split hsize h
    obtain ⟨hconstructs, h, hsize⟩ := hashStrings_split hsize h
    have hlast : hashText spec.fallback.text ++ [] = hashText spec'.fallback.text ++ [] := by rw [h]
    obtain ⟨hfallback, -⟩ := hashText_split (by rwa [List.append_nil]) hlast
    obtain ⟨version, revision, ⟨device, host, files, _⟩, ⟨symbol, contract, build⟩, ⟨directory, argv, library, _⟩,
      ⟨soc, cann, compiler, driver, runtime⟩, domain, constructs, fallback, _⟩ := spec
    obtain ⟨version', revision', ⟨device', host', files', _⟩, ⟨symbol', contract', build'⟩,
      ⟨directory', argv', library', _⟩, ⟨soc', cann', compiler', driver', runtime'⟩, domain', constructs', fallback',
      _⟩ :=
      spec'
    simp only at *
    subst hversion hrevision hdevice hhost hfiles hsymbol hcontract hbuild hdirectory hargv hlibrary hsoc hcann
      hcompiler
    subst hdriver hruntime hdomain hconstructs hfallback
    rfl

def kernelPath : BundlePath := ⟨"kernel.cu", by decide⟩

def hostPath : BundlePath := ⟨"main.cc", by decide⟩

def makePath : BundlePath := ⟨"makefile", by decide⟩

def singleton (path : BundlePath) : PathSet := ⟨[path], List.pairwise_singleton _ _⟩

def sampleWord : RequiredText := ⟨"sum", by decide⟩

def sampleSpec (buildTarget : RequiredText) : MigrationSpec where
  schemaVersion := MIGRATION_SPEC_SCHEMA_V1
  sourceRevision := sampleWord
  sources := ⟨singleton kernelPath, singleton hostPath, singleton makePath,
    List.cons_ne_nil _ _, List.cons_ne_nil _ _, List.cons_ne_nil _ _⟩
  publicEntry := ⟨sampleWord, sampleWord, buildTarget⟩
  reference := ⟨kernelPath, [sampleWord], sampleWord, List.cons_ne_nil _ _⟩
  target := ⟨sampleWord, sampleWord, sampleWord, sampleWord, sampleWord⟩
  supportedDomain := sampleWord
  unsupportedConstructs := []
  fallback := sampleWord
  versioned := rfl

def otherWord : RequiredText := ⟨"other", by decide⟩

theorem sampleSpec_addressable (buildTarget : RequiredText) : Addressable (sampleSpec buildTarget).preimage := by
  have hlength : (sampleSpec sampleWord).preimage.length < 1000 := by decide +kernel
  exact Nat.lt_trans hlength (by decide)

theorem spec_preimage_identifies_sample :
    sampleSpec sampleWord = sampleSpec otherWord ↔ sampleWord = otherWord ∧ sampleWord = sampleWord :=
  spec_preimage_identifies_iff (sampleSpec_addressable sampleWord) rfl

/-- Two specs that differ in the build target of their public entry alone. -/
theorem spec_preimage_omits_build_target : ¬ ∀ spec spec' : MigrationSpec, Addressable spec.preimage →
    spec.preimage = spec'.preimage → spec = spec' := by
  intro hclaim
  have hsame := hclaim (sampleSpec sampleWord) (sampleSpec otherWord) (sampleSpec_addressable _) rfl
  have htext := congrArg (fun spec => spec.publicEntry.buildTarget.text) hsame
  exact absurd htext (by decide)

end AlloyPort.Candidate
