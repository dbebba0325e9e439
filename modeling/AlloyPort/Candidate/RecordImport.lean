import Mathlib.Data.List.Dedup
import AlloyPort.Candidate.RecordText

/-! What `git fast-import` makes of the candidate record. Every list that is accepted gives a stream whose commands are
the intended ones. The history is the recorded one just where the marks do not run out, no candidate is its own parent,
and no path of a candidate stands in the way of another one. -/

namespace AlloyPort.Candidate

open FastImport Utf8

section histories

def parentIndex (done : List RecordedCandidate) (candidate : RecordedCandidate) : Option Nat :=
  candidate.parentCandidateId.bind fun parent => done.findIdx? fun earlier => earlier.candidateId = parent

def treeFiles (candidate : RecordedCandidate) : FastImport.Tree :=
  (sortedFiles candidate).map fun file => (utf8 file.path.text, file.bytes)

def commitOf (done : List RecordedCandidate) (candidate : RecordedCandidate) : Commit where
  reference := utf8 (candidateRef candidate)
  author := some (recordIdent candidate.sequence)
  committer := recordIdent candidate.sequence
  message := utf8 (commitMessage candidate (sortedFiles candidate) (parentIndex done candidate).isSome)
  parent := parentIndex done candidate
  tree := FastImport.Tree.ofFiles (treeFiles candidate)

structure Follows (contents : Sha256Digest → List UInt8) (done : List RecordedCandidate) (state : StreamState)
    (repository : Repository) : Prop where
  count : state.nextMark = state.blobMarks.length + state.commitMarks.length
  bounded : state.nextMark < 2 ^ 32
  fresh : ∀ number, state.nextMark < number → repository.marks.lookup number = none
  blobs : ∀ digest mark, state.blobMarks.lookup digest = some mark →
    repository.marks.lookup mark = some (.blob (contents digest))
  revisions : ∀ id mark, state.commitMarks.lookup id = some mark →
    ∃ index, done.findIdx? (fun earlier => earlier.candidateId = id) = some index ∧
      repository.marks.lookup mark = some (.commit index)
  marked : ∀ candidate ∈ done, (state.commitMarks.lookup candidate.candidateId).isSome = true
  seen : ∀ candidate ∈ done, candidate.sequence ∈ state.seenSequences
  length : repository.commits.length = done.length
  commits : ∀ index candidate, done[index]? = some candidate →
    repository.commits[index]? = some (commitOf (done.take index) candidate)
  references : ∀ index candidate, done[index]? = some candidate →
    repository.references.lookup (utf8 (candidateRef candidate)) = some index
  foreign : ∀ name, (∀ candidate ∈ done, utf8 (candidateRef candidate) ≠ name) →
    repository.references.lookup name = none

variable {contents : Sha256Digest → List UInt8} {done : List RecordedCandidate} {state : StreamState}
  {repository : Repository}

theorem follows_start : Follows contents [] .start .empty where
  count := rfl
  bounded := by decide
  fresh := fun _ _ => rfl
  blobs := nofun
  revisions := nofun
  marked := nofun
  seen := nofun
  length := rfl
  commits := nofun
  references := nofun
  foreign := fun _ _ => rfl

variable {mark number : Nat} {object : Object}

theorem Follows.mark_le (h : Follows contents done state repository)
    (hmark : repository.marks.lookup mark = some object) : mark ≤ state.nextMark := by
  by_contra hlarge
  rw [h.fresh mark (Nat.lt_of_not_le hlarge)] at hmark
  cases hmark

theorem Follows.takeMark (h : Follows contents done state repository) :
    state.takeMark = if state.nextMark + 1 < 2 ^ 32 then state.nextMark + 1 else 0 := by
  have hbounded := h.bounded
  rw [StreamState.takeMark]
  by_cases hlt : state.nextMark + 1 < 2 ^ 32
  · rw [if_pos hlt, Nat.mod_eq_of_lt hlt]
  · have heq : state.nextMark + 1 = 2 ^ 32 := by omega
    rw [if_neg hlt, heq, Nat.mod_self]

theorem lookup_new {marks : List (Nat × Object)} (hne : number ≠ mark) :
    ((mark, object) :: marks).lookup number = marks.lookup number := by
  have hother : (number == mark) = false := by simpa using hne
  rw [List.lookup_cons, hother]

theorem Follows.lookup_keep (h : Follows contents done state repository) {other : Object}
    (hnumber : repository.marks.lookup number = some object) :
    ((state.nextMark + 1, other) :: repository.marks).lookup number = some object := by
  have hle := h.mark_le hnumber
  rw [lookup_new (by omega), hnumber]

end histories

section steps

variable {contents : Sha256Digest → List UInt8} {done : List RecordedCandidate} {state : StreamState}
  {repository : Repository} {file : RecordedFile}

theorem blob_step (h : Follows contents done state repository)
    (hcontents : contents file.digest = file.bytes) (hnew : ¬ (state.blobMarks.lookup file.digest).isSome = true) :
    repository.apply (.blob (some state.takeMark) file.bytes) =
      (if state.nextMark + 1 < 2 ^ 32 then
        some { repository with marks := (state.nextMark + 1, .blob file.bytes) :: repository.marks } else none) ∧
    (state.nextMark + 1 < 2 ^ 32 → Follows contents done (appendBlob state file)
      { repository with marks := (state.nextMark + 1, .blob file.bytes) :: repository.marks }) := by
  have htake := h.takeMark
  constructor
  · rw [Repository.apply, remember_some]
    by_cases hlt : state.nextMark + 1 < 2 ^ 32
    · rw [if_pos hlt] at htake
      rw [htake, if_neg (Nat.succ_ne_zero _), if_pos hlt]
      rfl
    · rw [if_neg hlt] at htake
      rw [htake, if_pos rfl, if_neg hlt]
      rfl
  · intro hlt
    rw [if_pos hlt] at htake
    rw [appendBlob, if_neg hnew, htake]
    exact {
      count := by
        have hcount := h.count
        simp only [List.length_cons]
        omega
      bounded := hlt
      fresh := by
        intro number hnumber
        have hlarge : state.nextMark + 1 < number := hnumber
        rw [lookup_new (by omega)]
        exact h.fresh number (by omega)
      blobs := by
        intro digest mark hmark
        by_cases hdigest : digest = file.digest
        · rw [hdigest, List.lookup_cons_self] at hmark
          cases hmark
          rw [List.lookup_cons_self, hdigest, hcontents]
        · have hother : (digest == file.digest) = false := by simpa using hdigest
          rw [List.lookup_cons, hother] at hmark
          exact h.lookup_keep (h.blobs digest mark hmark)
      revisions := by
        intro id mark hmark
        obtain ⟨index, hindex, hobject⟩ := h.revisions id mark hmark
        exact ⟨index, hindex, h.lookup_keep hobject⟩
      marked := h.marked
      seen := h.seen
      length := h.length
      commits := h.commits
      references := h.references
      foreign := h.foreign }

theorem appendBlob_length (hnew : ¬ (state.blobMarks.lookup file.digest).isSome = true) :
    (appendBlob state file).blobMarks.length = state.blobMarks.length + 1 := by
  rw [appendBlob, if_neg hnew, List.length_cons]

theorem appendBlob_le (state : StreamState) (file : RecordedFile) :
    state.blobMarks.length ≤ (appendBlob state file).blobMarks.length := by
  by_cases hmarked : (state.blobMarks.lookup file.digest).isSome = true
  · rw [appendBlob, if_pos hmarked]
  · rw [appendBlob_length hmarked]
    omega

theorem appendBlobs_le (state : StreamState) (files : List RecordedFile) :
    state.blobMarks.length ≤ (files.foldl appendBlob state).blobMarks.length := by
  induction files generalizing state with
  | nil => exact Nat.le_refl _
  | cons file files ih => exact Nat.le_trans (appendBlob_le state file) (ih _)

theorem blobs_step (h : Follows contents done state repository) {files : List RecordedFile}
    (hcontents : ∀ file ∈ files, contents file.digest = file.bytes) :
    (∀ repository', run ((blobEntries state files).map FastImport.Entry.command) repository = some repository' →
      Follows contents done (files.foldl appendBlob state) repository') ∧
    ((files.foldl appendBlob state).blobMarks.length + state.commitMarks.length < 2 ^ 32 →
      (run ((blobEntries state files).map FastImport.Entry.command) repository).isSome = true) := by
  induction files generalizing state repository with
  | nil =>
    refine ⟨fun repository' hrun => ?_, fun _ => rfl⟩
    obtain rfl : repository = repository' := Option.some.inj hrun
    exact h
  | cons file files ih =>
    have hrest := fun other hother => hcontents other (List.mem_cons_of_mem file hother)
    rw [List.foldl_cons]
    by_cases hmarked : (state.blobMarks.lookup file.digest).isSome = true
    · have hsame : appendBlob state file = state := by rw [appendBlob, if_pos hmarked]
      rw [blobEntries, if_pos hmarked, List.nil_append, hsame]
      exact ih h hrest
    · obtain ⟨happly, hfollows⟩ := blob_step h (hcontents file List.mem_cons_self) hmarked
      have hrun : run ((blobEntries state (file :: files)).map FastImport.Entry.command) repository =
          (repository.apply (.blob (some state.takeMark) file.bytes)).bind
            (run ((blobEntries (appendBlob state file) files).map FastImport.Entry.command)) := by
        rw [blobEntries, if_neg hmarked]
        rfl
      rw [hrun, happly]
      by_cases hlt : state.nextMark + 1 < 2 ^ 32
      · rw [if_pos hlt, Option.bind_some]
        have hcommits : (appendBlob state file).commitMarks = state.commitMarks := by rw [appendBlob, if_neg hmarked]
        rw [← hcommits]
        exact ih (hfollows hlt) hrest
      · rw [if_neg hlt]
        refine ⟨(fun _ h => by cases h), fun hfits => ?_⟩
        have hlength := appendBlob_length hmarked
        have hle := appendBlobs_le (appendBlob state file) files
        have hcount := h.count
        omega

structure Taken (state : StreamState) (candidate : RecordedCandidate) : Prop where
  marks : state.nextMark + 1 < 2 ^ 32
  parent : candidate.parentCandidateId ≠ some candidate.candidateId
  canonical : ∀ file ∈ candidate.files, isCanonical (utf8 file.path.text) = true

def committed (repository : Repository) (done : List RecordedCandidate) (candidate : RecordedCandidate) (mark : Nat) :
    Repository where
  marks := (mark, .commit done.length) :: repository.marks
  commits := repository.commits ++ [commitOf done candidate]
  references := repository.point (utf8 (candidateRef candidate)) done.length

variable {candidate : RecordedCandidate}

theorem parentMark_spec (h : Follows contents done state repository)
    (hparent : candidate.parentCandidateId ≠ some candidate.candidateId) :
    ((parentMark state candidate).mapM fun mark => repository.resolve (.mark mark)) =
      some (parentIndex done candidate) ∧
      (parentMark state candidate).isSome = (parentIndex done candidate).isSome := by
  rw [parentMark, parentIndex]
  cases hid : candidate.parentCandidateId with
  | none => exact ⟨rfl, rfl⟩
  | some parent =>
    have hother : (parent == candidate.candidateId) = false := by
      rw [beq_eq_false_iff_ne]
      intro heq
      exact hparent (by rw [hid, heq])
    rw [Option.bind_some, Option.bind_some, List.lookup_cons, hother]
    simp only
    cases hmark : state.commitMarks.lookup parent with
    | none =>
      have hnone : done.findIdx? (fun earlier => earlier.candidateId = parent) = none := by
        rw [List.findIdx?_eq_none_iff]
        intro earlier hearlier
        by_contra hfound
        have hsame : earlier.candidateId = parent := by simpa using hfound
        have hsome := h.marked earlier hearlier
        rw [hsame, hmark] at hsome
        cases hsome
      rw [hnone]
      exact ⟨rfl, rfl⟩
    | some mark =>
      obtain ⟨index, hindex, hobject⟩ := h.revisions parent mark hmark
      rw [hindex]
      refine ⟨?_, rfl⟩
      rw [Option.mapM_some, Repository.resolve, hobject]
      rfl

theorem parentMark_self (h : Follows contents done state repository)
    (hparent : candidate.parentCandidateId = some candidate.candidateId) (hmarks : state.nextMark + 1 < 2 ^ 32) :
    ((parentMark state candidate).mapM fun mark => repository.resolve (.mark mark)) = none := by
  have hmark : parentMark state candidate = some (state.nextMark + 1) := by
    rw [parentMark, hparent, Option.bind_some, List.lookup_cons_self, h.takeMark, if_pos hmarks]
  rw [hmark, Option.mapM_some, Repository.resolve, h.fresh _ (Nat.lt_succ_self _)]
  rfl

theorem commit_apply (h : Follows contents done state repository)
    (hmarked : ∀ file ∈ candidate.files, (state.blobMarks.lookup file.digest).isSome = true)
    (hcontents : ∀ file ∈ candidate.files, contents file.digest = file.bytes)
    (hsequence : ∀ earlier ∈ done, earlier.sequence ≠ candidate.sequence) :
    (Taken state candidate → repository.apply (.commit (revisionOf state candidate).command) =
      some (committed repository done candidate (state.nextMark + 1))) ∧
    (¬ Taken state candidate → repository.apply (.commit (revisionOf state candidate).command) = none) := by
  have hfresh : repository.references.lookup (revisionOf state candidate).reference = none := by
    apply h.foreign
    intro earlier hearlier heq
    exact hsequence earlier hearlier (candidateRef_inj (utf8_inj heq))
  let files := (sortedFiles candidate).map fun file =>
    (((state.blobMarks.lookup file.digest).getD 0, utf8 file.path.text), file.bytes)
  have hfiles : (revisionOf state candidate).files = files.map Prod.fst := by
    rw [List.map_map]
    rfl
  have hblobs : ∀ file ∈ files, repository.marks.lookup file.1.1 = some (.blob file.2) := by
    intro file hfile
    obtain ⟨recorded, hrecorded, rfl⟩ := List.mem_map.mp hfile
    have hmem := mem_sortedFiles.mp hrecorded
    obtain ⟨mark, hmark⟩ := Option.isSome_iff_exists.mp (hmarked recorded hmem)
    rw [hmark, Option.getD_some, h.blobs _ _ hmark, hcontents recorded hmem]
  have hcanonical : (∀ file ∈ files, isCanonical file.1.2 = true) ↔
      ∀ file ∈ candidate.files, isCanonical (utf8 file.path.text) = true := by
    constructor
    · intro hall file hfile
      exact hall _ (List.mem_map_of_mem (mem_sortedFiles.mpr hfile))
    · intro hall file hfile
      obtain ⟨recorded, hrecorded, rfl⟩ := List.mem_map.mp hfile
      exact hall recorded (mem_sortedFiles.mp hrecorded)
  have htree : files.map (fun file => (file.1.2, file.2)) = treeFiles candidate := by
    rw [List.map_map]
    rfl
  have happly : repository.applyCommit (revisionOf state candidate).command = _ :=
    applyCommit_written (isReference_candidate candidate) hfresh hfiles hblobs
  rw [htree] at happly
  have htake := h.takeMark
  constructor
  · intro htaken
    obtain ⟨hparent, hrecorded⟩ := parentMark_spec h htaken.parent
    rw [if_pos htaken.marks] at htake
    have hparent' : ((revisionOf state candidate).parent.mapM fun mark => repository.resolve (.mark mark)) =
        some (parentIndex done candidate) := hparent
    have hmark : (revisionOf state candidate).mark = state.nextMark + 1 := htake
    have hmessage : (revisionOf state candidate).message = (commitOf done candidate).message := by
      show utf8 (commitMessage _ _ (parentMark state candidate).isSome) = _
      rw [hrecorded]
      rfl
    rw [Repository.apply, happly, if_pos ⟨by rw [hmark]; exact Nat.succ_ne_zero _, hcanonical.mpr htaken.canonical⟩,
      hparent', Option.map_some, hmark, hmessage, h.length]
    rfl
  · intro hnot
    rw [Repository.apply, happly]
    by_cases hboth : (revisionOf state candidate).mark ≠ 0 ∧ ∀ file ∈ files, isCanonical file.1.2 = true
    · have hmarks : state.nextMark + 1 < 2 ^ 32 := by
        by_contra hlarge
        rw [if_neg hlarge] at htake
        exact hboth.1 htake
      have hself : candidate.parentCandidateId = some candidate.candidateId := by
        by_contra hother
        exact hnot ⟨hmarks, hother, hcanonical.mp hboth.2⟩
      have hnone : ((revisionOf state candidate).parent.mapM fun mark => repository.resolve (.mark mark)) = none :=
        parentMark_self h hself hmarks
      rw [if_pos hboth, hnone]
      rfl
    · rw [if_neg hboth]

theorem commit_follows (h : Follows contents done state repository)
    (hid : ∀ earlier ∈ done, earlier.candidateId ≠ candidate.candidateId)
    (hsequence : ∀ earlier ∈ done, earlier.sequence ≠ candidate.sequence)
    (hseen : candidate.sequence ∈ state.seenSequences) (hmarks : state.nextMark + 1 < 2 ^ 32) :
    Follows contents (done ++ [candidate]) (afterCommit state candidate)
      (committed repository done candidate (state.nextMark + 1)) := by
  have htake := h.takeMark
  rw [if_pos hmarks] at htake
  have hlast : ∀ index other, (done ++ [candidate])[index]? = some other →
      done[index]? = some other ∨ index = done.length ∧ other = candidate := by
    intro index other hother
    rcases Nat.lt_or_ge index done.length with hlt | hge
    · rw [List.getElem?_append_left hlt] at hother
      exact .inl hother
    · rw [List.getElem?_append_right hge] at hother
      obtain ⟨hzero, hsame⟩ := List.getElem?_eq_some_iff.mp hother
      rw [List.length_singleton] at hzero
      refine .inr ⟨by omega, ?_⟩
      simpa using hsame.symm
  rw [afterCommit, htake]
  exact {
    count := by
      have hcount := h.count
      simp only [List.length_cons]
      omega
    bounded := hmarks
    fresh := by
      intro number hnumber
      have hlarge : state.nextMark + 1 < number := hnumber
      rw [committed, lookup_new (by omega)]
      exact h.fresh number (by omega)
    blobs := fun digest mark hmark => h.lookup_keep (h.blobs digest mark hmark)
    revisions := by
      intro id mark hmark
      by_cases hown : id = candidate.candidateId
      · rw [hown, List.lookup_cons_self] at hmark
        cases hmark
        refine ⟨done.length, ?_, List.lookup_cons_self⟩
        have hnone : done.findIdx? (fun earlier => earlier.candidateId = candidate.candidateId) = none := by
          rw [List.findIdx?_eq_none_iff]
          intro earlier hearlier
          simpa using hid earlier hearlier
        rw [hown, List.findIdx?_append, hnone]
        simp
      · have hother : (id == candidate.candidateId) = false := by simpa using hown
        rw [List.lookup_cons, hother] at hmark
        obtain ⟨index, hindex, hobject⟩ := h.revisions id mark hmark
        refine ⟨index, ?_, h.lookup_keep hobject⟩
        rw [List.findIdx?_append, hindex]
        rfl
    marked := by
      intro other hother
      by_cases hown : other.candidateId = candidate.candidateId
      · rw [hown, List.lookup_cons_self]
        rfl
      · rcases List.mem_append.mp hother with hother | hother
        · have hne : (other.candidateId == candidate.candidateId) = false := by simpa using hown
          rw [List.lookup_cons, hne]
          exact h.marked other hother
        · exact absurd (by rw [List.mem_singleton.mp hother]) hown
    seen := by
      intro other hother
      rcases List.mem_append.mp hother with hother | hother
      · exact h.seen other hother
      · rw [List.mem_singleton.mp hother]
        exact hseen
    length := by
      have hlength := h.length
      simp only [committed, List.length_append, List.length_singleton]
      omega
    commits := by
      intro index other hother
      rcases hlast index other hother with hother | ⟨rfl, rfl⟩
      · have hlt := (List.getElem?_eq_some_iff.mp hother).1
        rw [committed, List.getElem?_append_left (by rw [h.length]; exact hlt), h.commits index other hother,
          List.take_append_of_le_length (Nat.le_of_lt hlt)]
      · rw [committed, ← h.length, List.getElem?_concat_length, h.length, List.take_left]
    references := by
      intro index other hother
      rw [committed, lookup_point]
      rcases hlast index other hother with hother | ⟨rfl, rfl⟩
      · have hmem := List.mem_of_getElem? hother
        rw [if_neg fun heq => hsequence other hmem (candidateRef_inj (utf8_inj heq)), h.references index other hother]
      · rw [if_pos rfl]
    foreign := by
      intro name hname
      rw [committed, lookup_point, if_neg (Ne.symm (hname candidate (List.mem_append_right _ List.mem_cons_self)))]
      exact h.foreign name fun earlier hearlier => hname earlier (List.mem_append_left _ hearlier) }

end steps

section runs

variable {contents : Sha256Digest → List UInt8} {done : List RecordedCandidate} {state state' : StreamState}
variable {repository : Repository}

def withSequence (state : StreamState) (candidate : RecordedCandidate) : StreamState :=
  { state with seenSequences := candidate.sequence :: state.seenSequences }

def withBlobs (state : StreamState) (candidate : RecordedCandidate) : StreamState :=
  (sortedFiles candidate).foldl appendBlob (withSequence state candidate)

def candidateEntries (state : StreamState) (candidate : RecordedCandidate) : List FastImport.Entry :=
  blobEntries (withSequence state candidate) (sortedFiles candidate) ++
    [Entry.revision (revisionOf (withBlobs state candidate) candidate)]

variable {candidate : RecordedCandidate} {todo : List RecordedCandidate}

theorem recordCandidate_ok (h : recordCandidate state candidate = .ok state') :
    candidate.sequence ∉ state.seenSequences ∧
      (∀ file ∈ candidate.files, ((withBlobs state candidate).blobMarks.lookup file.digest).isSome = true) ∧
      state' = afterCommit (withBlobs state candidate) candidate := by
  by_cases hempty : candidate.files = []
  · rw [recordCandidate, if_pos hempty] at h
    cases h
  · by_cases hseen : candidate.sequence ∈ state.seenSequences
    · rw [recordCandidate, if_neg hempty, if_pos hseen] at h
      cases h
    · rw [recordCandidate, if_neg hempty, if_neg hseen] at h
      exact ⟨hseen, appendCommit_ok h⟩

theorem appendBlobs_keep (state : StreamState) (files : List RecordedFile) :
    (files.foldl appendBlob state).commitMarks = state.commitMarks ∧
      (files.foldl appendBlob state).seenSequences = state.seenSequences := by
  induction files generalizing state with
  | nil => exact ⟨rfl, rfl⟩
  | cons file files ih =>
    obtain ⟨hcommits, hseen⟩ := ih (appendBlob state file)
    rw [List.foldl_cons, hcommits, hseen, appendBlob]
    by_cases hmarked : (state.blobMarks.lookup file.digest).isSome = true
    · rw [if_pos hmarked]
      exact ⟨rfl, rfl⟩
    · rw [if_neg hmarked]
      exact ⟨rfl, rfl⟩

def StreamState.marks (state : StreamState) : Nat := state.blobMarks.length + state.commitMarks.length

structure Importable (candidate : RecordedCandidate) : Prop where
  parent : candidate.parentCandidateId ≠ some candidate.candidateId
  canonical : ∀ file ∈ candidate.files, isCanonical (utf8 file.path.text) = true

theorem run_append (commands more : List Command) (repository : Repository) :
    run (commands ++ more) repository = (run commands repository).bind (run more) := List.foldlM_append

theorem recordCandidate_stream (h : recordCandidate state candidate = .ok state') :
    state'.stream = state.stream ++ (candidateEntries state candidate).flatMap (FastImport.Entry.render quotedPath) ∧
      state.marks + 1 ≤ state'.marks := by
  obtain ⟨_, _, rfl⟩ := recordCandidate_ok h
  constructor
  · rw [afterCommit, withBlobs, blobEntries_stream, candidateEntries, List.flatMap_append, List.append_assoc,
      List.flatMap_singleton]
    rfl
  · have hle : state.blobMarks.length ≤ (withBlobs state candidate).blobMarks.length :=
      appendBlobs_le (withSequence state candidate) (sortedFiles candidate)
    have hkeep : (withBlobs state candidate).commitMarks = state.commitMarks :=
      (appendBlobs_keep (withSequence state candidate) (sortedFiles candidate)).1
    simp only [StreamState.marks, afterCommit, hkeep, List.length_cons]
    omega

theorem candidate_step (h : Follows contents done state repository) (hok : recordCandidate state candidate = .ok state')
    (hcontents : ∀ file ∈ candidate.files, contents file.digest = file.bytes)
    (hid : ∀ earlier ∈ done, earlier.candidateId ≠ candidate.candidateId) :
    (∀ repository', run ((candidateEntries state candidate).map FastImport.Entry.command) repository =
      some repository' → Importable candidate ∧ Follows contents (done ++ [candidate]) state' repository') ∧
    (Importable candidate → state'.marks < 2 ^ 32 →
      (run ((candidateEntries state candidate).map FastImport.Entry.command) repository).isSome = true) := by
  obtain ⟨hfresh, hmarked, rfl⟩ := recordCandidate_ok hok
  have hnoted : Follows contents done (withSequence state candidate) repository :=
    { h with seen := fun earlier hearlier => List.mem_cons_of_mem _ (h.seen earlier hearlier) }
  obtain ⟨hblobs, hfits⟩ := blobs_step hnoted fun file hfile => hcontents file (mem_sortedFiles.mp hfile)
  have hfollows : ∀ between, run ((blobEntries (withSequence state candidate) (sortedFiles candidate)).map
      FastImport.Entry.command)
      repository = some between → Follows contents done (withBlobs state candidate) between := hblobs
  have hsequence : ∀ earlier ∈ done, earlier.sequence ≠ candidate.sequence := by
    intro earlier hearlier heq
    exact hfresh (heq ▸ h.seen earlier hearlier)
  obtain ⟨hcommits, hnow⟩ : (withBlobs state candidate).commitMarks = state.commitMarks ∧
      (withBlobs state candidate).seenSequences = candidate.sequence :: state.seenSequences :=
    appendBlobs_keep (withSequence state candidate) (sortedFiles candidate)
  have hrun : run ((candidateEntries state candidate).map FastImport.Entry.command) repository =
      (run ((blobEntries (withSequence state candidate) (sortedFiles candidate)).map FastImport.Entry.command)
        repository).bind
        fun between => between.apply (.commit (revisionOf (withBlobs state candidate) candidate).command) := by
    rw [candidateEntries, List.map_append, run_append]
    congr 1
    funext between
    exact bind_pure _
  rw [hrun]
  constructor
  · intro repository' hsome
    obtain ⟨between, hbetween, hcommit⟩ := Option.bind_eq_some_iff.mp hsome
    obtain ⟨htaken, hrefused⟩ := commit_apply (hfollows between hbetween) hmarked hcontents hsequence
    by_cases hall : Taken (withBlobs state candidate) candidate
    · rw [htaken hall] at hcommit
      rw [← Option.some.inj hcommit]
      have hseen : candidate.sequence ∈ (withBlobs state candidate).seenSequences := by
        rw [hnow]
        exact List.mem_cons_self
      exact ⟨⟨hall.parent, hall.canonical⟩, commit_follows (hfollows between hbetween) hid hsequence hseen hall.marks⟩
    · rw [hrefused hall] at hcommit
      cases hcommit
  · intro himportable hlt
    have hmarks : (withBlobs state candidate).blobMarks.length + (withBlobs state candidate).commitMarks.length + 1 <
        2 ^ 32 := by
      simp only [StreamState.marks, afterCommit, List.length_cons] at hlt
      omega
    have henough : (withBlobs state candidate).blobMarks.length + state.commitMarks.length < 2 ^ 32 := by
      rw [← hcommits]
      omega
    obtain ⟨between, hbetween⟩ := Option.isSome_iff_exists.mp (hfits henough)
    obtain ⟨htaken, _⟩ := commit_apply (hfollows between hbetween) hmarked hcontents hsequence
    have hall : Taken (withBlobs state candidate) candidate := by
      refine ⟨?_, himportable.parent, himportable.canonical⟩
      rw [(hfollows between hbetween).count]
      exact hmarks
    rw [hbetween, Option.bind_some, htaken hall]
    rfl

/-- The commands that are meant: a blob of a file, or the commit of a candidate with its own paths and message. -/
inductive Intended (candidates : List RecordedCandidate) : Command → Prop where
  | blob (mark : Nat) {candidate : RecordedCandidate} (hcandidate : candidate ∈ candidates) {file : RecordedFile}
      (hfile : file ∈ candidate.files) : Intended candidates (.blob (some mark) file.bytes)
  | commit (mark : Nat) (parent : Option Nat) (markOf : RecordedFile → Nat) (recorded : Bool)
      {candidate : RecordedCandidate} (hcandidate : candidate ∈ candidates) : Intended candidates (.commit {
        reference := utf8 (candidateRef candidate)
        mark := some mark
        author := some (recordIdent candidate.sequence)
        committer := recordIdent candidate.sequence
        message := utf8 (commitMessage candidate (sortedFiles candidate) recorded)
        source := parent.map .mark
        changes := .deleteAll :: (sortedFiles candidate).map fun file =>
          .modify MODE (.mark (markOf file)) (utf8 file.path.text) })

theorem Intended.mono {candidates more : List RecordedCandidate} {command : Command} (h : Intended candidates command)
    (hsub : ∀ candidate ∈ candidates, candidate ∈ more) : Intended more command := by
  cases h with
  | blob mark hcandidate hfile => exact .blob mark (hsub _ hcandidate) hfile
  | commit mark parent markOf recorded hcandidate => exact .commit mark parent markOf recorded (hsub _ hcandidate)

theorem mem_blobEntries {files : List RecordedFile} {entry : FastImport.Entry} (h : entry ∈ blobEntries state files) :
    ∃ mark, ∃ file ∈ files, entry = .blob mark file.bytes := by
  induction files generalizing state with
  | nil => cases h
  | cons file files ih =>
    rcases List.mem_append.mp h with h | h
    · by_cases hmarked : (state.blobMarks.lookup file.digest).isSome = true
      · rw [if_pos hmarked] at h
        cases h
      · rw [if_neg hmarked] at h
        exact ⟨state.takeMark, file, List.mem_cons_self, List.mem_singleton.mp h⟩
    · obtain ⟨mark, other, hother, heq⟩ := ih h
      exact ⟨mark, other, List.mem_cons_of_mem _ hother, heq⟩

theorem candidateEntries_intended (state : StreamState) (candidate : RecordedCandidate) :
    ∀ entry ∈ candidateEntries state candidate, entry.Plain ∧ Intended [candidate] entry.command := by
  intro entry hentry
  rcases List.mem_append.mp hentry with hentry | hentry
  · obtain ⟨mark, file, hfile, rfl⟩ := mem_blobEntries hentry
    exact ⟨trivial, .blob mark List.mem_cons_self (mem_sortedFiles.mp hfile)⟩
  · obtain rfl := List.mem_singleton.mp hentry
    refine ⟨revisionOf_plain _ candidate, ?_⟩
    have hchanges : (revisionOf (withBlobs state candidate) candidate).files.map fileChange =
        (sortedFiles candidate).map
        fun file => .modify MODE (.mark (((withBlobs state candidate).blobMarks.lookup file.digest).getD 0))
          (utf8 file.path.text) := by
      rw [revisionOf, List.map_map]
      rfl
    rw [FastImport.Entry.command, Revision.command, hchanges]
    exact .commit _ _ _ _ List.mem_cons_self

def allEntries : StreamState → List RecordedCandidate → List FastImport.Entry
  | _, [] => []
  | state, candidate :: todo =>
    candidateEntries state candidate ++ allEntries (afterCommit (withBlobs state candidate) candidate) todo

theorem allEntries_intended (state : StreamState) (todo : List RecordedCandidate) :
    ∀ entry ∈ allEntries state todo, entry.Plain ∧ Intended todo entry.command := by
  induction todo generalizing state with
  | nil => exact nofun
  | cons candidate todo ih =>
    intro entry hentry
    rcases List.mem_append.mp hentry with hentry | hentry
    · obtain ⟨hplain, hintended⟩ := candidateEntries_intended state candidate entry hentry
      exact ⟨hplain, hintended.mono fun other hother => by rw [List.mem_singleton.mp hother]; exact List.mem_cons_self⟩
    · obtain ⟨hplain, hintended⟩ := ih _ entry hentry
      exact ⟨hplain, hintended.mono fun other hother => List.mem_cons_of_mem _ hother⟩

theorem recordCandidates_stream (h : todo.foldlM recordCandidate state = .ok state') :
    state'.stream = state.stream ++ (allEntries state todo).flatMap (FastImport.Entry.render quotedPath) ∧
      state.marks ≤ state'.marks := by
  induction todo generalizing state with
  | nil =>
    cases h
    exact ⟨by simp [allEntries], Nat.le_refl _⟩
  | cons candidate todo ih =>
    rw [List.foldlM_cons] at h
    obtain ⟨next, hnext, hrest⟩ := Effect.bind_eq_ok.mp h
    obtain ⟨hone, hmarks⟩ := recordCandidate_stream hnext
    obtain ⟨_, _, rfl⟩ := recordCandidate_ok hnext
    obtain ⟨hmore, hmoreMarks⟩ := ih hrest
    refine ⟨?_, by omega⟩
    rw [hmore, hone, allEntries, List.flatMap_append, List.append_assoc]

theorem candidates_run (h : Follows contents done state repository)
    (hok : todo.foldlM recordCandidate state = .ok state')
    (hcontents : ∀ candidate ∈ todo, ∀ file ∈ candidate.files, contents file.digest = file.bytes)
    (hids : ((done ++ todo).map RecordedCandidate.candidateId).Nodup) :
    (∀ repository', run ((allEntries state todo).map FastImport.Entry.command) repository = some repository' →
      (∀ candidate ∈ todo, Importable candidate) ∧ Follows contents (done ++ todo) state' repository') ∧
    ((∀ candidate ∈ todo, Importable candidate) → state'.marks < 2 ^ 32 →
      (run ((allEntries state todo).map FastImport.Entry.command) repository).isSome = true) := by
  induction todo generalizing done state repository with
  | nil =>
    cases hok
    refine ⟨fun repository' hrun => ⟨nofun, ?_⟩, fun _ _ => rfl⟩
    obtain rfl : repository = repository' := Option.some.inj hrun
    simpa using h
  | cons candidate todo ih =>
    rw [List.foldlM_cons] at hok
    obtain ⟨next, hnext, hrest⟩ := Effect.bind_eq_ok.mp hok
    have hid : ∀ earlier ∈ done, earlier.candidateId ≠ candidate.candidateId := by
      intro earlier hearlier heq
      rw [List.map_append, List.nodup_append] at hids
      exact hids.2.2 _ (List.mem_map_of_mem hearlier) _ (List.mem_map_of_mem List.mem_cons_self) heq
    obtain ⟨hstep, hpossible⟩ := candidate_step h hnext (hcontents candidate List.mem_cons_self) hid
    obtain ⟨_, _, rfl⟩ := recordCandidate_ok hnext
    have hlater : ∀ other ∈ todo, ∀ file ∈ other.files, contents file.digest = file.bytes :=
      fun other hother => hcontents other (List.mem_cons_of_mem _ hother)
    have hids' : ((done ++ [candidate] ++ todo).map RecordedCandidate.candidateId).Nodup := by simpa using hids
    rw [allEntries, List.map_append, run_append]
    constructor
    · intro repository' hrun
      obtain ⟨between, hbetween, hmore⟩ := Option.bind_eq_some_iff.mp hrun
      obtain ⟨hthis, hfollows⟩ := hstep between hbetween
      obtain ⟨hall, hend⟩ := (ih hfollows hrest hlater hids').1 repository' hmore
      exact ⟨List.forall_mem_cons.mpr ⟨hthis, hall⟩, by simpa using hend⟩
    · intro hall hlt
      obtain ⟨hthis, hothers⟩ := List.forall_mem_cons.mp hall
      have hmarks := (recordCandidates_stream hrest).2
      obtain ⟨between, hbetween⟩ := Option.isSome_iff_exists.mp (hpossible hthis (by omega))
      rw [hbetween, Option.bind_some]
      exact (ih (hstep between hbetween).2 hrest hlater hids').2 hothers hlt

end runs

section counts

variable {done : List RecordedCandidate} {state state' : StreamState}

def digestsOf (candidates : List RecordedCandidate) : List Sha256Digest :=
  candidates.flatMap fun candidate => candidate.files.map RecordedFile.digest

structure Counted (done : List RecordedCandidate) (state : StreamState) : Prop where
  once : (state.blobMarks.map Prod.fst).Nodup
  digests : ∀ digest, digest ∈ state.blobMarks.map Prod.fst ↔ digest ∈ digestsOf done
  commits : state.commitMarks.length = done.length

theorem lookup_isSome_iff {α β : Type} [DecidableEq α] {l : List (α × β)} {a : α} :
    (l.lookup a).isSome = true ↔ a ∈ l.map Prod.fst := by
  induction l with
  | nil => simp
  | cons entry l ih =>
    by_cases heq : a = entry.1
    · simp [heq]
    · have hother : (a == entry.1) = false := by simpa using heq
      rw [List.lookup_cons, hother, List.map_cons, List.mem_cons, ih]
      simp [heq]

theorem appendBlobs_digests (files : List RecordedFile) (h : (state.blobMarks.map Prod.fst).Nodup) :
    ((files.foldl appendBlob state).blobMarks.map Prod.fst).Nodup ∧
      ∀ digest, digest ∈ (files.foldl appendBlob state).blobMarks.map Prod.fst ↔
        digest ∈ state.blobMarks.map Prod.fst ∨ ∃ file ∈ files, file.digest = digest := by
  induction files generalizing state with
  | nil => exact ⟨h, by simp⟩
  | cons file files ih =>
    rw [List.foldl_cons]
    by_cases hmarked : (state.blobMarks.lookup file.digest).isSome = true
    · have hsame : appendBlob state file = state := by rw [appendBlob, if_pos hmarked]
      rw [hsame]
      obtain ⟨hnodup, hmem⟩ := ih h
      refine ⟨hnodup, fun digest => ?_⟩
      have hfile := lookup_isSome_iff.mp hmarked
      rw [hmem, List.exists_mem_cons_iff]
      constructor
      · rintro (hold | hnew)
        · exact .inl hold
        · exact .inr (.inr hnew)
      · rintro (hold | rfl | hnew)
        · exact .inl hold
        · exact .inl hfile
        · exact .inr hnew
    · have hkeys : (appendBlob state file).blobMarks.map Prod.fst = file.digest :: state.blobMarks.map Prod.fst := by
        rw [appendBlob, if_neg hmarked, List.map_cons]
      have hfile : file.digest ∉ state.blobMarks.map Prod.fst := fun hmem => hmarked (lookup_isSome_iff.mpr hmem)
      obtain ⟨hnodup, hmem⟩ := ih (by rw [hkeys]; exact List.nodup_cons.mpr ⟨hfile, h⟩)
      refine ⟨hnodup, fun digest => ?_⟩
      rw [hmem, hkeys, List.mem_cons, List.exists_mem_cons_iff, or_assoc, or_left_comm, eq_comm]

theorem counted_step (h : Counted done state) {candidate : RecordedCandidate}
    (hok : recordCandidate state candidate = .ok state') : Counted (done ++ [candidate]) state' := by
  obtain ⟨_, _, rfl⟩ := recordCandidate_ok hok
  obtain ⟨hnodup, hmem⟩ : ((withBlobs state candidate).blobMarks.map Prod.fst).Nodup ∧
      ∀ digest, digest ∈ (withBlobs state candidate).blobMarks.map Prod.fst ↔
        digest ∈ state.blobMarks.map Prod.fst ∨ ∃ file ∈ sortedFiles candidate, file.digest = digest :=
    appendBlobs_digests (sortedFiles candidate)
      (show ((withSequence state candidate).blobMarks.map Prod.fst).Nodup from h.once)
  have hcommits : (withBlobs state candidate).commitMarks = state.commitMarks :=
    (appendBlobs_keep (withSequence state candidate) (sortedFiles candidate)).1
  exact {
    once := hnodup
    digests := by
      intro digest
      have hnew : (∃ file ∈ sortedFiles candidate, file.digest = digest) ↔ digest ∈ digestsOf [candidate] := by
        simp [digestsOf, mem_sortedFiles]
      rw [afterCommit, hmem, h.digests, hnew, digestsOf, digestsOf, digestsOf, List.flatMap_append, List.mem_append]
    commits := by
      have hcount := h.commits
      simp only [afterCommit, hcommits, List.length_cons, List.length_append, List.length_nil]
      omega }

theorem counted_run {todo : List RecordedCandidate} (h : Counted done state)
    (hok : todo.foldlM recordCandidate state = .ok state') : Counted (done ++ todo) state' := by
  induction todo generalizing done state with
  | nil =>
    cases hok
    simpa using h
  | cons candidate todo ih =>
    rw [List.foldlM_cons] at hok
    obtain ⟨next, hnext, hrest⟩ := Effect.bind_eq_ok.mp hok
    have hend := ih (counted_step h hnext) hrest
    simpa using hend

theorem counted_marks {candidates : List RecordedCandidate}
    (hok : candidates.foldlM recordCandidate .start = .ok state') :
    state'.marks = (digestsOf candidates).dedup.length + candidates.length := by
  have hstart : Counted [] .start := ⟨List.nodup_nil, fun _ => Iff.rfl, rfl⟩
  have hend : Counted candidates state' := counted_run hstart hok
  have hperm : (state'.blobMarks.map Prod.fst).Perm (digestsOf candidates).dedup := by
    rw [List.perm_ext_iff_of_nodup hend.once (List.nodup_dedup _)]
    intro digest
    rw [hend.digests, List.mem_dedup]
  have hblobs := hperm.length_eq
  rw [List.length_map] at hblobs
  rw [StreamState.marks, hblobs, hend.commits]

end counts

end AlloyPort.Candidate
