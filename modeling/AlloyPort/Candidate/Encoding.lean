import AlloyPort.Candidate.Assembly
import AlloyPort.Oracle.Receipt
import Mathlib.Algebra.Order.BigOperators.Group.List

/-! The byte strings that a proposal, a correctness experiment and a corpus case are hashed from, and what can be read
back from them. -/

namespace AlloyPort.Candidate

open Framing

section proposals

structure GeneratedSourceBundle extends GeneratedSourceChange where
  complete : ∀ required ∈ GeneratedSourceKind.all, ∃ file ∈ files, file.kind = required

def GeneratedSourceBundle.preimage (bundle : GeneratedSourceBundle) : List UInt8 :=
  generatedSourceBytes bundle.files bundle.authorNotes

def GeneratedSourceBundle.totalBytes (bundle : GeneratedSourceBundle) : Nat :=
  (bundle.files.map fun file => (utf8 file.path.text).length + (utf8 file.contents).length).sum +
    (bundle.authorNotes.map fun note => (utf8 note).length).sum

variable {bundle : GeneratedSourceBundle} {notes notes' : List String}

theorem GeneratedSourceBundle.path_fits (h : bundle.totalBytes < 2 ^ 56)
    {file : GeneratedSourceFile} (hfile : file ∈ bundle.files) : Fits (utf8 file.path.text) := by
  have hle := List.single_le_sum (fun _ _ => Nat.zero_le _) _
    (List.mem_map_of_mem (f := fun file : GeneratedSourceFile =>
      (utf8 file.path.text).length + (utf8 file.contents).length) hfile)
  unfold totalBytes at h
  unfold Fits
  omega

theorem GeneratedSourceBundle.note_fits (h : bundle.totalBytes < 2 ^ 56) {note : String}
    (hnote : note ∈ bundle.authorNotes) : Fits (utf8 note) := by
  have hle := List.single_le_sum (fun _ _ => Nat.zero_le _) _
    (List.mem_map_of_mem (f := fun note : String => (utf8 note).length) hnote)
  unfold totalBytes at h
  unfold Fits
  omega

theorem notes_inj (h : ∀ note ∈ notes, Fits (utf8 note)) (h' : ∀ note ∈ notes', Fits (utf8 note))
    (heq : (notes.flatMap fun note => frame (utf8 note)) = notes'.flatMap fun note => frame (utf8 note)) :
    notes = notes' := by
  induction notes generalizing notes' with
  | nil =>
    cases notes' with
    | nil => rfl
    | cons note rest =>
      obtain ⟨tail, htail⟩ := frame_head (h' note List.mem_cons_self)
      rw [List.flatMap_cons, htail] at heq
      cases heq
  | cons note rest ih =>
    cases notes' with
    | nil =>
      obtain ⟨tail, htail⟩ := frame_head (h note List.mem_cons_self)
      rw [List.flatMap_cons, htail] at heq
      cases heq
    | cons note' rest' =>
      rw [List.flatMap_cons, List.flatMap_cons] at heq
      obtain ⟨hnote, hrest⟩ := frame_append_inj (h note List.mem_cons_self) (h' note' List.mem_cons_self) heq
      rw [utf8_inj hnote, ih (fun n hn => h n (List.mem_cons_of_mem _ hn)) (fun n hn =>
        h' n (List.mem_cons_of_mem _ hn)) hrest]

instance : Std.Total byText := ⟨fun l r => String.le_total l r⟩

instance : IsTrans String byText := ⟨fun _ _ _ hab hbc => String.le_trans hab hbc⟩

instance : Std.Total byPath := ⟨fun l r => String.le_total l.path.text r.path.text⟩

instance : IsTrans GeneratedSourceFile byPath := ⟨fun _ _ _ hab hbc => String.le_trans hab hbc⟩

theorem sortedNotes_eq_iff : notes.insertionSort byText = notes'.insertionSort byText ↔ notes.Perm notes' := by
  constructor
  · intro h
    exact ((List.perm_insertionSort byText notes).symm.trans (.of_eq h)).trans (List.perm_insertionSort byText notes')
  · intro h
    have hperm := ((List.perm_insertionSort byText notes).trans h).trans (List.perm_insertionSort byText notes').symm
    exact hperm.eq_of_pairwise (fun _ _ _ _ hab hba => String.le_antisymm hab hba)
      (List.pairwise_insertionSort byText notes) (List.pairwise_insertionSort byText notes')

/-- Files under different paths are put in one order, however they are given. -/
theorem sortedFiles_eq {files files' : List GeneratedSourceFile} (h : (files.map GeneratedSourceFile.path).Nodup)
    (h' : (files'.map GeneratedSourceFile.path).Nodup) (hsame : ∀ file, file ∈ files ↔ file ∈ files') :
    files.insertionSort byPath = files'.insertionSort byPath := by
  have hperm : files.Perm files' := (List.perm_ext_iff_of_nodup h.of_map h'.of_map).mpr hsame
  have hsorted := ((List.perm_insertionSort byPath files).trans hperm).trans
    (List.perm_insertionSort byPath files').symm
  refine hsorted.eq_of_pairwise (fun a b ha hb hab hba => ?_) (List.pairwise_insertionSort byPath files)
    (List.pairwise_insertionSort byPath files')
  have hpath : a.path = b.path := BundlePath.ext_text (String.le_antisymm hab hba)
  have ha := (List.mem_insertionSort byPath).mp ha
  have hb := (hsame b).mpr ((List.mem_insertionSort byPath).mp hb)
  exact List.inj_on_of_nodup_map h ha hb hpath

/-- What is hashed of a bundle tells its files and its notes, but not the order that either is given in. -/
theorem bundle_preimage_eq_iff {bundle bundle' : GeneratedSourceBundle} (hsize : bundle.totalBytes < 2 ^ 56)
    (hsize' : bundle'.totalBytes < 2 ^ 56) :
    bundle.preimage = bundle'.preimage ↔
      (∀ file, file ∈ bundle.files ↔ file ∈ bundle'.files) ∧ bundle.authorNotes.Perm bundle'.authorNotes := by
  unfold GeneratedSourceBundle.preimage generatedSourceBytes
  constructor
  · intro h
    simp only [List.append_assoc, List.cons_append] at h
    have hrest := (List.cons.inj (List.append_cancel_left h)).2
    have hfits : ∀ file ∈ bundle.files.insertionSort byPath, Fits (utf8 file.path.text) :=
      fun file hfile => bundle.path_fits hsize ((List.mem_insertionSort byPath).mp hfile)
    have hfits' : ∀ file ∈ bundle'.files.insertionSort byPath, Fits (utf8 file.path.text) :=
      fun file hfile => bundle'.path_fits hsize' ((List.mem_insertionSort byPath).mp hfile)
    have hnote : ∀ note ∈ bundle.authorNotes.insertionSort byText, Fits (utf8 note) :=
      fun note hnote => bundle.note_fits hsize ((List.mem_insertionSort byText).mp hnote)
    have hnote' : ∀ note ∈ bundle'.authorNotes.insertionSort byText, Fits (utf8 note) :=
      fun note hnote => bundle'.note_fits hsize' ((List.mem_insertionSort byText).mp hnote)
    have hfiles := sourceBytes_inj hfits hfits' hnote hnote' hrest
    rw [hfiles] at hrest
    refine ⟨fun file => ?_, sortedNotes_eq_iff.mp (notes_inj hnote hnote' (List.append_cancel_left hrest))⟩
    rw [← List.mem_insertionSort byPath, hfiles, List.mem_insertionSort byPath]
  · rintro ⟨hfiles, hnotes⟩
    rw [sortedFiles_eq bundle.distinct bundle'.distinct hfiles, sortedNotes_eq_iff.mpr hnotes]

def sampleFile (name : String) (kind : GeneratedSourceKind) (h : isBundlePath name = true)
    (hplaced : (BundlePath.mk name h).startsWith GENERATED_ROOT = true ∧ name ≠ GENERATED_ROOT) : GeneratedSourceFile :=
  ⟨⟨name, h⟩, kind, "x", hplaced, by decide, by decide⟩

def sampleFiles : List GeneratedSourceFile :=
  [sampleFile "generated/a" .ascendCDevice (by decide) (by decide),
    sampleFile "generated/b" .ascendHost (by decide) (by decide),
    sampleFile "generated/c" .buildIntegration (by decide) (by decide),
    sampleFile "generated/d" .componentMapping (by decide) (by decide)]

def orderedBundle : GeneratedSourceBundle :=
  ⟨⟨sampleFiles, ["n", "m", "n"], by decide, by decide, by decide⟩, by decide⟩

def shuffledBundle : GeneratedSourceBundle :=
  ⟨⟨sampleFiles.reverse, ["n", "n", "m"], by decide, by decide, by decide⟩, by decide⟩

theorem bundle_preimage_sample : orderedBundle.preimage = shuffledBundle.preimage := by
  refine (bundle_preimage_eq_iff (by decide) (by decide)).mpr ⟨fun file => ?_, by decide⟩
  exact List.mem_reverse.symm

end proposals

section experiments

def ReductionCorrectnessExperiment.digests (experiment : ReductionCorrectnessExperiment) : List Sha256Digest :=
  [experiment.migrationSpecDigest, experiment.manifestDigest, experiment.sourceGateReceiptDigest,
    experiment.buildGateReceiptDigest, experiment.corpusDigest, experiment.tolerancePlanDigest]

/-- What `ReductionCorrectnessExperiment::new` hashes. -/
def ReductionCorrectnessExperiment.preimage (experiment : ReductionCorrectnessExperiment) : List UInt8 :=
  utf8 "alloyport-reduction-correctness-experiment-v1" ++ 0 :: utf8 experiment.taskId.text ++
    utf8 experiment.candidateId.text ++ experiment.digests.flatMap Sha256Digest.bytes

theorem ReductionCorrectnessExperiment.new_hashes [Sha256] {taskId : TaskId} {candidateId : CandidateId}
    {spec manifest sourceGate buildGate corpus plan : Sha256Digest} :
    (new taskId candidateId spec manifest sourceGate buildGate corpus plan).experimentDigest =
      Sha256.digestBytes (new taskId candidateId spec manifest sourceGate buildGate corpus plan).preimage := rfl

def ReductionCorrectnessExperiment.Sized (experiment : ReductionCorrectnessExperiment) : Prop :=
  ∀ digest ∈ experiment.digests, digest.bytes.length = 32

instance (experiment : ReductionCorrectnessExperiment) : Decidable experiment.Sized :=
  inferInstanceAs (Decidable (∀ digest ∈ experiment.digests, digest.bytes.length = 32))

def ReductionCaseKind.tag : ReductionCaseKind → UInt8
  | .valid => 1
  | .nullInput => 2
  | .nullOutput => 3
  | .unsupportedSize => 4

theorem ReductionCaseKind.tag_inj {kind kind' : ReductionCaseKind} (h : kind.tag = kind'.tag) : kind = kind' := by
  cases kind <;> cases kind' <;> first | rfl | cases h

/-- What `input_digest` hashes. -/
def ReductionCorpusCase.preimage (case : ReductionCorpusCase) : List UInt8 :=
  utf8 "alloyport-reduction-input-v1" ++ 0 :: utf8 case.caseId ++ beBytes 2 case.repetition ++
    beBytes 8 case.elements ++ beBytes 4 case.seed ++ [case.kind.tag]

def ReductionCorpusCase.inputDigest [Sha256] (case : ReductionCorpusCase) : Sha256Digest :=
  Sha256.digestBytes case.preimage

theorem caseKindByte_eq (kind : ReductionCaseKind) : Oracle.caseKindByte kind = kind.tag := by
  cases kind <;> rfl

theorem caseInputDigest_eq [Sha256] (case : ReductionCorpusCase) : Oracle.caseInputDigest case = case.inputDigest := by
  rw [Oracle.caseInputDigest, caseKindByte_eq]
  rfl

def ReductionCorpusCase.Sized (case : ReductionCorpusCase) : Prop :=
  case.repetition < 256 ^ 2 ∧ case.elements < 256 ^ 8 ∧ case.seed < 256 ^ 4

instance (case : ReductionCorpusCase) : Decidable case.Sized := inferInstanceAs (Decidable (_ ∧ _ ∧ _))

theorem digests_inj {l l' : List Sha256Digest} (h : ∀ digest ∈ l, digest.bytes.length = 32)
    (h' : ∀ digest ∈ l', digest.bytes.length = 32) (hlength : l.length = l'.length)
    (heq : l.flatMap Sha256Digest.bytes = l'.flatMap Sha256Digest.bytes) : l = l' := by
  induction l generalizing l' with
  | nil => exact (List.length_eq_zero_iff.mp hlength.symm).symm
  | cons digest rest ih =>
    obtain ⟨digest', rest', rfl⟩ := List.exists_cons_of_length_eq_add_one hlength.symm
    simp only [List.flatMap_cons] at heq
    have hsame := (h digest List.mem_cons_self).trans (h' digest' List.mem_cons_self).symm
    obtain ⟨hbytes, hrest⟩ := List.append_inj heq hsame
    cases digest
    cases digest'
    cases hbytes
    rw [ih (fun d hd => h d (List.mem_cons_of_mem _ hd)) (fun d hd => h' d (List.mem_cons_of_mem _ hd))
      (Nat.succ.inj hlength) hrest]

theorem digests_length {l : List Sha256Digest} (h : ∀ digest ∈ l, digest.bytes.length = 32) :
    (l.flatMap Sha256Digest.bytes).length = 32 * l.length := by
  induction l with
  | nil => rfl
  | cons digest rest ih =>
    have hrest := ih fun d hd => h d (List.mem_cons_of_mem _ hd)
    rw [List.flatMap_cons, List.length_append, h digest List.mem_cons_self, hrest, List.length_cons]
    omega

theorem case_preimage_inj {case case' : ReductionCorpusCase} (hs : case.Sized) (hs' : case'.Sized)
    (h : case.preimage = case'.preimage) : case = case' := by
  obtain ⟨id, repetition, elements, seed, kind⟩ := case
  obtain ⟨id', repetition', elements', seed', kind'⟩ := case'
  unfold ReductionCorpusCase.preimage at h
  obtain ⟨h, hkind⟩ := List.append_inj' h rfl
  obtain ⟨h, hseed⟩ := List.append_inj' h (by rw [beBytes_length, beBytes_length])
  obtain ⟨h, helements⟩ := List.append_inj' h (by rw [beBytes_length, beBytes_length])
  obtain ⟨h, hrepetition⟩ := List.append_inj' h (by rw [beBytes_length, beBytes_length])
  have hid := utf8_inj (List.cons.inj (List.append_cancel_left h)).2
  rw [ReductionCorpusCase.mk.injEq]
  exact ⟨hid, beBytes_inj hs.1 hs'.1 hrepetition, beBytes_inj hs.2.1 hs'.2.1 helements,
    beBytes_inj hs.2.2 hs'.2.2 hseed, ReductionCaseKind.tag_inj (List.cons.inj hkind).1⟩

/-- Experiments that are hashed alike are the same just when their task names are equally long; cases that are hashed
alike are the same. -/
theorem correctness_preimages_identify {experiment experiment' : ReductionCorrectnessExperiment}
    {case case' : ReductionCorpusCase} (hexperiment : experiment.Sized) (hexperiment' : experiment'.Sized)
    (hcase : case.Sized) (hcase' : case'.Sized) :
    (experiment.preimage = experiment'.preimage →
      (experiment.taskId = experiment'.taskId ∧ experiment.candidateId = experiment'.candidateId ∧
        experiment.digests = experiment'.digests ↔
      (utf8 experiment.taskId.text).length = (utf8 experiment'.taskId.text).length)) ∧
    (case.preimage = case'.preimage → case = case') := by
  refine ⟨fun h => ⟨fun hsame => by rw [hsame.1], fun hlength => ?_⟩, case_preimage_inj hcase hcase'⟩
  unfold ReductionCorrectnessExperiment.preimage at h
  have hdigests : (experiment.digests.flatMap Sha256Digest.bytes).length =
      (experiment'.digests.flatMap Sha256Digest.bytes).length := by
    rw [digests_length hexperiment, digests_length hexperiment']
    rfl
  obtain ⟨hnames, hbytes⟩ := List.append_inj' h hdigests
  simp only [List.append_assoc, List.cons_append] at hnames
  obtain ⟨htask, hcandidate⟩ := List.append_inj (List.cons.inj (List.append_cancel_left hnames)).2 hlength
  exact ⟨ValidatedId.ext_text (utf8_inj htask), ValidatedId.ext_text (utf8_inj hcandidate),
    digests_inj hexperiment hexperiment' rfl hbytes⟩

def sampleExperiment (taskId : TaskId) (candidateId : CandidateId) : ReductionCorrectnessExperiment :=
  have digest : Sha256Digest := ⟨List.replicate 32 7⟩
  ⟨digest, taskId, candidateId, digest, digest, digest, digest, digest, digest⟩

def earlierExperiment : ReductionCorrectnessExperiment := sampleExperiment ⟨"a", Eq.refl false⟩ ⟨"bc", Eq.refl false⟩

def laterExperiment : ReductionCorrectnessExperiment := sampleExperiment ⟨"ab", by decide⟩ ⟨"c", by decide⟩

def sampleCase : ReductionCorpusCase := ⟨"valid-1", 1, 1, 0x5eed1234, .valid⟩

theorem earlier_later_preimage : earlierExperiment.preimage = laterExperiment.preimage := by decide +kernel

theorem correctness_preimages_sample : earlierExperiment.preimage = laterExperiment.preimage ∧
    (earlierExperiment.taskId = laterExperiment.taskId ∧ earlierExperiment.candidateId = laterExperiment.candidateId ∧
      earlierExperiment.digests = laterExperiment.digests ↔
    (utf8 earlierExperiment.taskId.text).length = (utf8 laterExperiment.taskId.text).length) := by
  have hidentify := @correctness_preimages_identify earlierExperiment laterExperiment sampleCase sampleCase
    (by decide) (by decide) (by decide) (by decide)
  exact ⟨earlier_later_preimage, hidentify.1 earlier_later_preimage⟩

/-- The texts of the two names are not kept apart. -/
theorem experiment_preimages_collide : earlierExperiment.Sized ∧ laterExperiment.Sized ∧
    earlierExperiment.preimage = laterExperiment.preimage ∧ earlierExperiment.taskId ≠ laterExperiment.taskId ∧
    earlierExperiment.candidateId ≠ laterExperiment.candidateId :=
  ⟨by decide, by decide, earlier_later_preimage, by decide, by decide⟩

end experiments

end AlloyPort.Candidate
