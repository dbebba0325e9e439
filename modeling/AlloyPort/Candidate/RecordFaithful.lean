import AlloyPort.Candidate.RecordImport

/-! When the candidate record that `git fast-import` builds is the recorded history, for every list of candidates that
`fastImportStream` accepts. -/

namespace AlloyPort.Candidate

open FastImport Utf8 RecordedCandidate

section paths

theorem isComponent_encode {cs : List Char} (h : isComponent (cs.flatMap String.utf8EncodeChar) = false) :
    cs = [] ∨ cs = ['.'] ∨ cs = ['.', '.'] := by
  have hempty : [] = ([] : List Char).flatMap String.utf8EncodeChar := rfl
  have hdot : [46] = ['.'].flatMap String.utf8EncodeChar := by decide
  have hdots : [46, 46] = ['.', '.'].flatMap String.utf8EncodeChar := by decide
  by_contra hnone
  push Not at hnone
  have hall : isComponent (cs.flatMap String.utf8EncodeChar) = true := by
    simp only [isComponent, Bool.and_eq_true, decide_eq_true_eq]
    exact ⟨⟨fun heq => hnone.1 (encode_inj (heq.trans hempty)), fun heq => hnone.2.1 (encode_inj (heq.trans hdot))⟩,
      fun heq => hnone.2.2 (encode_inj (heq.trans hdots))⟩
  rw [h] at hall
  cases hall

theorem isCanonical_iff (path : BundlePath) : isCanonical (utf8 path.text) = true ↔ path.text ≠ "." := by
  constructor
  · intro hcanonical heq
    rw [heq] at hcanonical
    exact absurd hcanonical (by decide)
  · intro hdot
    have hvalid := path.valid
    simp only [isBundlePath, Bool.not_eq_true', Bool.or_eq_false_iff, Bool.and_eq_false_iff] at hvalid
    obtain ⟨⟨⟨_, hzero⟩, _⟩, hparts⟩ := hvalid
    have hcomponents : ((path.text.toList.splitOn '/').any fun component =>
        component == [] || component == ['.'] || component == ['.', '.']) = false := by
      rcases hparts with hparts | hparts
      · exact absurd (by simpa using hparts) hdot
      · exact hparts
    have hbytes : (utf8 path.text).splitOn SLASH =
        (path.text.toList.splitOn '/').map fun part => part.flatMap String.utf8EncodeChar := by
      rw [utf8_eq_bytesOf, bytesOf_eq]
      exact splitOn_encode (by decide) (by decide) _
    have hnul : (0 : UInt8) ∉ utf8 path.text := by
      intro hmem
      obtain ⟨c, hc, hvalue⟩ := (mem_bytesOf (by decide)).mp hmem
      have hchar : c = Char.ofNat 0 := Char.toNat_inj.mp hvalue
      rw [← hchar, List.contains_eq_mem] at hzero
      simp [hc] at hzero
    rw [isCanonical, hbytes, Bool.and_eq_true]
    constructor
    · rw [List.all_map, List.all_eq_true]
      intro part hpart
      by_contra hbad
      have hno := List.any_eq_false.mp hcomponents part hpart
      rcases isComponent_encode (Bool.eq_false_iff.mpr hbad) with rfl | rfl | rfl
      · exact hno rfl
      · exact hno rfl
      · exact hno rfl
    · simpa using hnul

def BundlePath.isFolderOf (folder path : BundlePath) : Bool := (utf8 (folder.text ++ "/")).isPrefixOf (utf8 path.text)

theorem isBelow_paths (folder path : BundlePath) :
    isBelow (utf8 folder.text) (utf8 path.text) = folder.isFolderOf path := by
  have hslash : bytesOf "/" = [SLASH] := by decide
  rw [isBelow, BundlePath.isFolderOf, utf8_eq_bytesOf, bytesOf_append, hslash]

/-- No path of the candidate stands in the way of another one. -/
def Unobstructed (candidate : RecordedCandidate) : Prop :=
  ∀ file ∈ candidate.files, ∀ other ∈ candidate.files,
    (file.path = other.path → file.bytes = other.bytes) ∧ file.path.isFolderOf other.path = false

theorem treeFiles_plain_iff {candidate : RecordedCandidate} : (treeFiles candidate).Plain ↔ Unobstructed candidate := by
  have hpaths : ∀ path other : BundlePath, utf8 path.text = utf8 other.text ↔ path = other := by
    intro path other
    constructor
    · intro heq
      cases path
      cases other
      cases utf8_inj heq
      rfl
    · intro heq
      rw [heq]
  constructor
  · intro h file hfile other hother
    have hplain := h _ (List.mem_map_of_mem (mem_sortedFiles.mpr hfile)) _
      (List.mem_map_of_mem (mem_sortedFiles.mpr hother))
    simp only [hpaths, isBelow_paths] at hplain
    exact hplain
  · intro h entry hentry other hother
    obtain ⟨file, hfile, rfl⟩ := List.mem_map.mp hentry
    obtain ⟨otherFile, hotherFile, rfl⟩ := List.mem_map.mp hother
    simp only [hpaths, isBelow_paths]
    exact h file (mem_sortedFiles.mp hfile) otherFile (mem_sortedFiles.mp hotherFile)

end paths

section faithful

structure RecordedAs (earlier : List RecordedCandidate) (candidate : RecordedCandidate) (commit : Commit) : Prop where
  reference : commit.reference = utf8 (candidateRef candidate)
  tree : ∀ path bytes, (path, bytes) ∈ commit.tree ↔ ∃ file ∈ candidate.files, utf8 file.path.text = path ∧
    file.bytes = bytes
  parent : commit.parent = parentIndex earlier candidate
  message : commit.message =
    utf8 (commitMessage candidate (sortedFiles candidate) (parentIndex earlier candidate).isSome)

structure Imported (candidates : List RecordedCandidate) (repository : Repository) : Prop where
  length : repository.commits.length = candidates.length
  commits : ∀ index candidate, candidates[index]? = some candidate →
    ∃ commit, repository.commits[index]? = some commit ∧ RecordedAs (candidates.take index) candidate commit
  references : ∀ index candidate, candidates[index]? = some candidate →
    repository.references.lookup (utf8 (candidateRef candidate)) = some index

structure Faithful (candidates : List RecordedCandidate) (stream : List UInt8) : Prop where
  quoted : ∀ path, parsePath (utf8 (quotePath path)) = some (utf8 path)
  commands : ∃ commands mark, parse stream = some
    (commands ++ [Command.reset (utf8 RECORD_BRANCH) (some (.mark mark))]) ∧
    ∀ command ∈ commands, Intended candidates command
  history : ∃ repository, decode stream = some repository ∧ Imported candidates repository

/-- The marks suffice, no candidate is its own parent, and every path of a candidate has its place in a tree. -/
structure Recordable (candidates : List RecordedCandidate) : Prop where
  marks : (digestsOf candidates).dedup.length + candidates.length < 2 ^ 32
  parents : ∀ candidate ∈ candidates, candidate.parentCandidateId ≠ some candidate.candidateId
  paths : ∀ candidate ∈ candidates, ∀ file ∈ candidate.files, file.path.text ≠ "."
  trees : ∀ candidate ∈ candidates, Unobstructed candidate

def Addressed (candidates : List RecordedCandidate) : Prop :=
  ∀ candidate ∈ candidates, ∀ file ∈ candidate.files, ∀ other ∈ candidates, ∀ otherFile ∈ other.files,
    file.digest = otherFile.digest → file.bytes = otherFile.bytes

variable {candidates : List RecordedCandidate} {stream : List UInt8}

def contentsOf (candidates : List RecordedCandidate) (digest : Sha256Digest) : List UInt8 :=
  (((candidates.flatMap RecordedCandidate.files).find? fun file => file.digest = digest).map RecordedFile.bytes).getD []

theorem contentsOf_file (h : Addressed candidates) :
    ∀ candidate ∈ candidates, ∀ file ∈ candidate.files, contentsOf candidates file.digest = file.bytes := by
  intro candidate hcandidate file hfile
  have hmem : file ∈ candidates.flatMap files := List.mem_flatMap.mpr ⟨candidate, hcandidate, hfile⟩
  cases hfound : (candidates.flatMap files).find? fun other => other.digest = file.digest with
  | none =>
    have hno := List.find?_eq_none.mp hfound file hmem
    exact absurd (by simp) hno
  | some found =>
    obtain ⟨other, hother, hfile'⟩ := List.mem_flatMap.mp (List.mem_of_find?_eq_some hfound)
    have hdigest : found.digest = file.digest := by simpa using List.find?_some hfound
    rw [contentsOf, hfound]
    exact h other hother found hfile' candidate hcandidate file hfile hdigest

theorem fastImportStream_ok (h : fastImportStream candidates = .ok stream) :
    ∃ state last mark, candidates.getLast? = some last ∧ candidates.foldlM recordCandidate .start = .ok state ∧
      state.commitMarks.lookup last.candidateId = some mark ∧
      stream = (allEntries .start candidates).flatMap (FastImport.Entry.render quotedPath) ++
        (renderReset (utf8 RECORD_BRANCH) mark ++ (bytesOf "done" ++ [LF])) := by
  cases hlast : candidates.getLast? with
  | none =>
    rw [fastImportStream, hlast] at h
    cases h
  | some last =>
    simp only [fastImportStream, hlast] at h
    obtain ⟨state, hstate, h⟩ := Effect.bind_eq_ok.mp h
    cases hmark : state.commitMarks.lookup last.candidateId with
    | none =>
      rw [hmark] at h
      cases h
    | some mark =>
      rw [hmark] at h
      refine ⟨state, last, mark, rfl, hstate, hmark, (Except.ok.inj h).symm.trans ?_⟩
      have hstream : state.stream = (allEntries .start candidates).flatMap (FastImport.Entry.render quotedPath) :=
        (recordCandidates_stream hstate).1
      have hfrom : bytesOf "\nfrom :" = LF :: (bytesOf "from " ++ bytesOf ":") := by decide
      have hblank : bytesOf "\n\n" = [LF, LF] := by decide
      have hdone : bytesOf "done\n" = bytesOf "done" ++ [LF] := by decide
      rw [hstream, utf8_eq_bytesOf, hdone]
      simp only [bytesOf_append _ "\n\n", bytesOf_append _ (toString mark), bytesOf_append _ "\nfrom :",
        bytesOf_append "reset ", bytesOf_toString, hfrom, hblank, renderReset]
      simp

theorem branch_ne (candidate : RecordedCandidate) : utf8 (candidateRef candidate) ≠ utf8 RECORD_BRANCH := by
  intro heq
  have hsixth := congrArg (fun bytes : List UInt8 => bytes[5]?) heq
  rw [candidateRef_bytes] at hsixth
  have hrefs : bytesOf "refs" = [114, 101, 102, 115] := by decide
  have htags : bytesOf "tags" = [116, 97, 103, 115] := by decide
  have hbranch : (utf8 RECORD_BRANCH)[5]? = some 104 := by decide
  simp only [hrefs, htags, hbranch] at hsixth
  exact absurd hsixth (by simp)

theorem accepted_stream (hok : fastImportStream candidates = .ok stream)
    (hids : (candidates.map RecordedCandidate.candidateId).Nodup) (haddressed : Addressed candidates) :
    ∃ commands mark, parse stream = some (commands ++ [Command.reset (utf8 RECORD_BRANCH) (some (.mark mark))]) ∧
      (∀ command ∈ commands, Intended candidates command) ∧
      (∀ repository, run commands .empty = some repository →
        (digestsOf candidates).dedup.length + candidates.length < 2 ^ 32 ∧
          (∀ candidate ∈ candidates, Importable candidate) ∧
          ∃ state, Follows (contentsOf candidates) candidates state repository ∧
            ∃ index, repository.apply (.reset (utf8 RECORD_BRANCH) (some (.mark mark))) =
              some { repository with references := repository.point (utf8 RECORD_BRANCH) index }) ∧
      ((digestsOf candidates).dedup.length + candidates.length < 2 ^ 32 →
        (∀ candidate ∈ candidates, Importable candidate) → (run commands .empty).isSome = true) := by
  obtain ⟨state, last, mark, _, hstate, hmark, rfl⟩ := fastImportStream_ok hok
  have hintended := allEntries_intended .start candidates
  have hbranch : LF ∉ utf8 RECORD_BRANCH := by decide
  have hparse : parse _ = some (_ ++ [Command.reset (utf8 RECORD_BRANCH) (some (.mark mark))]) :=
    parse_written quoting (fun entry hentry => (hintended entry hentry).1) hbranch
  obtain ⟨hsound, hcomplete⟩ := candidates_run follows_start hstate (contentsOf_file haddressed) (by simpa using hids)
  have hmarks := counted_marks hstate
  refine ⟨_, mark, hparse, ?_, ?_, ?_⟩
  · intro command hcommand
    obtain ⟨entry, hentry, rfl⟩ := List.mem_map.mp hcommand
    exact (hintended entry hentry).2
  · intro repository hrun
    obtain ⟨himportable, hfollows⟩ := hsound repository hrun
    rw [List.nil_append] at hfollows
    have hbounded := hfollows.bounded
    have hcount : state.nextMark = state.marks := hfollows.count
    obtain ⟨index, _, hobject⟩ := hfollows.revisions last.candidateId mark hmark
    refine ⟨by omega, himportable, state, hfollows, index, ?_⟩
    have hvalid : isReference (utf8 RECORD_BRANCH) = true := by decide
    rw [Repository.apply, hvalid, Repository.resolve, hobject]
    rfl
  · intro hfits himportable
    exact hcomplete himportable (by omega)

theorem decode_eq {commands : List Command} {command : Command} (h : parse stream = some (commands ++ [command])) :
    decode stream = (run commands .empty).bind fun repository => repository.apply command := by
  rw [decode, h, Option.bind_some, run_append]
  congr 1
  funext repository
  exact bind_pure _

theorem recordable_of_faithful (hok : fastImportStream candidates = .ok stream)
    (hids : (candidates.map RecordedCandidate.candidateId).Nodup) (haddressed : Addressed candidates)
    (h : Faithful candidates stream) : Recordable candidates := by
  obtain ⟨commands, mark, hparse, _, hsound, _⟩ := accepted_stream hok hids haddressed
  obtain ⟨final, hfinal, himported⟩ := h.history
  rw [decode_eq hparse] at hfinal
  obtain ⟨repository, hrun, hreset⟩ := Option.bind_eq_some_iff.mp hfinal
  obtain ⟨hmarks, himportable, state, hfollows, index, hpoint⟩ := hsound repository hrun
  rw [hpoint] at hreset
  cases hreset
  refine ⟨hmarks, fun candidate hcandidate => (himportable candidate hcandidate).parent, ?_, ?_⟩
  · intro candidate hcandidate file hfile
    exact (isCanonical_iff file.path).mp ((himportable candidate hcandidate).canonical file hfile)
  · intro candidate hcandidate
    obtain ⟨place, hplace⟩ := List.mem_iff_getElem?.mp hcandidate
    obtain ⟨commit, hcommit, hrecorded⟩ := himported.commits place candidate hplace
    have hsame : some commit = some (commitOf (candidates.take place) candidate) :=
      hcommit.symm.trans (hfollows.commits place candidate hplace)
    have htree := hrecorded.tree
    rw [Option.some.inj hsame] at htree
    have hmem : ∀ entry, entry ∈ FastImport.Tree.ofFiles (treeFiles candidate) ↔ entry ∈ treeFiles candidate := by
      rintro ⟨path, bytes⟩
      have hentry : (path, bytes) ∈ FastImport.Tree.ofFiles (treeFiles candidate) ↔ _ := htree path bytes
      rw [hentry, treeFiles, List.mem_map]
      simp [mem_sortedFiles]
    exact treeFiles_plain_iff.mp (FastImport.Tree.ofFiles_mem_iff.mp hmem)

theorem faithful_of_recordable (hok : fastImportStream candidates = .ok stream)
    (hids : (candidates.map RecordedCandidate.candidateId).Nodup) (haddressed : Addressed candidates)
    (h : Recordable candidates) : Faithful candidates stream := by
  obtain ⟨commands, mark, hparse, hintended, hsound, hcomplete⟩ := accepted_stream hok hids haddressed
  have himportable : ∀ candidate ∈ candidates, Importable candidate := by
    intro candidate hcandidate
    exact ⟨h.parents candidate hcandidate, fun file hfile =>
      (isCanonical_iff file.path).mpr (h.paths candidate hcandidate file hfile)⟩
  obtain ⟨repository, hrun⟩ := Option.isSome_iff_exists.mp (hcomplete h.marks himportable)
  obtain ⟨_, _, state, hfollows, index, hpoint⟩ := hsound repository hrun
  refine ⟨fun path => ?_, ⟨commands, mark, hparse, hintended⟩, { repository with
    references := repository.point (utf8 RECORD_BRANCH) index }, ?_, ?_⟩
  · rw [utf8_quotePath]
    exact quoting.reads _
  · rw [decode_eq hparse, hrun]
    exact hpoint
  · refine ⟨hfollows.length, ?_, ?_⟩
    · intro place candidate hplace
      refine ⟨_, hfollows.commits place candidate hplace, rfl, ?_, rfl, rfl⟩
      intro path bytes
      have hcandidate := List.mem_of_getElem? hplace
      have hmem := FastImport.Tree.ofFiles_mem_iff.mpr (treeFiles_plain_iff.mpr (h.trees candidate hcandidate))
        (path, bytes)
      rw [commitOf, hmem, treeFiles, List.mem_map]
      simp [mem_sortedFiles]
    · intro place candidate hplace
      rw [lookup_point, if_neg (branch_ne candidate)]
      exact hfollows.references place candidate hplace

/-- What an import gives of an accepted list is the recorded history just where the list can be recorded. -/
theorem fast_import_faithful_iff (hok : fastImportStream candidates = .ok stream)
    (hids : (candidates.map RecordedCandidate.candidateId).Nodup) (haddressed : Addressed candidates) :
    Faithful candidates stream ↔ Recordable candidates :=
  ⟨recordable_of_faithful hok hids haddressed, faithful_of_recordable hok hids haddressed⟩

end faithful

section accepting

variable {state : StreamState}

theorem modifyLines_total {blobMarks : List (Sha256Digest × Nat)} {files : List RecordedFile}
    (h : ∀ file ∈ files, (blobMarks.lookup file.digest).isSome = true) :
    ∃ lines, files.mapM (modifyLine blobMarks) = .ok lines := by
  induction files with
  | nil => exact ⟨[], rfl⟩
  | cons file files ih =>
    obtain ⟨hfile, hrest⟩ := List.forall_mem_cons.mp h
    obtain ⟨mark, hmark⟩ := Option.isSome_iff_exists.mp hfile
    obtain ⟨lines, hlines⟩ := ih hrest
    rw [List.mapM_cons, modifyLine, hmark, hlines]
    exact ⟨_, rfl⟩

theorem recordCandidate_total (hblobs : (state.blobMarks.map Prod.fst).Nodup) {candidate : RecordedCandidate}
    (hfiles : candidate.files ≠ []) (hsequence : candidate.sequence ∉ state.seenSequences) :
    ∃ state', recordCandidate state candidate = .ok state' ∧ (state'.blobMarks.map Prod.fst).Nodup ∧
      state'.seenSequences = candidate.sequence :: state.seenSequences ∧
      (state'.commitMarks.lookup candidate.candidateId).isSome = true := by
  obtain ⟨hnodup, hmem⟩ : ((withBlobs state candidate).blobMarks.map Prod.fst).Nodup ∧
      ∀ digest, digest ∈ (withBlobs state candidate).blobMarks.map Prod.fst ↔
        digest ∈ state.blobMarks.map Prod.fst ∨ ∃ file ∈ sortedFiles candidate, file.digest = digest :=
    appendBlobs_digests (sortedFiles candidate)
      (show ((withSequence state candidate).blobMarks.map Prod.fst).Nodup from hblobs)
  have hmarked : ∀ file ∈ sortedFiles candidate, ((withBlobs state candidate).blobMarks.lookup file.digest).isSome =
    true :=
    fun file hfile => lookup_isSome_iff.mpr ((hmem file.digest).mpr (.inr ⟨file, hfile, rfl⟩))
  obtain ⟨lines, hlines⟩ := modifyLines_total hmarked
  have hcommit : ∃ state', appendCommit (withBlobs state candidate) candidate (sortedFiles candidate) = .ok state' := by
    rw [appendCommit, hlines]
    exact ⟨_, rfl⟩
  obtain ⟨state', hstate'⟩ := hcommit
  obtain ⟨_, rfl⟩ := appendCommit_ok hstate'
  refine ⟨afterCommit (withBlobs state candidate) candidate, ?_, hnodup, ?_, ?_⟩
  · rw [recordCandidate, if_neg hfiles, if_neg hsequence]
    exact hstate'
  · exact (appendBlobs_keep (withSequence state candidate) (sortedFiles candidate)).2
  · rw [afterCommit, List.lookup_cons_self]
    rfl

theorem recordCandidates_total {todo : List RecordedCandidate} (hblobs : (state.blobMarks.map Prod.fst).Nodup)
    (hfiles : ∀ candidate ∈ todo, candidate.files ≠ [])
    (hsequences : (todo.map sequence).Nodup)
    (hfresh : ∀ candidate ∈ todo, candidate.sequence ∉ state.seenSequences) :
    ∃ state', todo.foldlM recordCandidate state = .ok state' ∧
      ∀ last, todo.getLast? = some last → (state'.commitMarks.lookup last.candidateId).isSome = true := by
  induction todo generalizing state with
  | nil => exact ⟨state, rfl, nofun⟩
  | cons candidate todo ih =>
    obtain ⟨hown, hrest⟩ := List.forall_mem_cons.mp hfiles
    obtain ⟨hnow, hlater⟩ := List.forall_mem_cons.mp hfresh
    obtain ⟨hdistinct, hsequences⟩ := List.nodup_cons.mp hsequences
    obtain ⟨next, hnext, hkeys, hseen, hmarked⟩ := recordCandidate_total hblobs hown hnow
    have hnew : ∀ other ∈ todo, other.sequence ∉ next.seenSequences := by
      intro other hother hmem
      rw [hseen] at hmem
      rcases List.mem_cons.mp hmem with heq | hmem
      · exact hdistinct (heq ▸ List.mem_map_of_mem hother)
      · exact hlater other hother hmem
    obtain ⟨final, hfinal, hlast⟩ := ih hkeys hrest hsequences hnew
    refine ⟨final, by rw [List.foldlM_cons, hnext]; exact hfinal, ?_⟩
    intro last hlast'
    cases todo with
    | nil =>
      cases hlast'
      cases hfinal
      exact hmarked
    | cons other todo => exact hlast last (by rw [List.getLast?_cons_cons] at hlast'; exact hlast')

theorem fastImportStream_accepts {candidates : List RecordedCandidate} (hne : candidates ≠ [])
    (hfiles : ∀ candidate ∈ candidates, candidate.files ≠ []) (hsequences : (candidates.map sequence).Nodup) :
    ∃ stream, fastImportStream candidates = .ok stream := by
  have hblobs : (StreamState.start.blobMarks.map Prod.fst).Nodup := List.nodup_nil
  have hfresh : ∀ candidate ∈ candidates, candidate.sequence ∉ StreamState.start.seenSequences :=
    fun _ _ => List.not_mem_nil
  obtain ⟨state, hstate, hlast⟩ := recordCandidates_total hblobs hfiles hsequences hfresh
  cases hgetLast : candidates.getLast? with
  | none => exact absurd (List.getLast?_eq_none_iff.mp hgetLast) hne
  | some last =>
    obtain ⟨mark, hmark⟩ := Option.isSome_iff_exists.mp (hlast last hgetLast)
    cases hstream : fastImportStream candidates with
    | ok stream => exact ⟨stream, rfl⟩
    | error problem => simp [fastImportStream, hgetLast, hstate, hmark, bind, Except.bind] at hstream

end accepting

section samples

def recordedFile (path : BundlePath) (content : UInt8) : RecordedFile := ⟨path, ⟨[content]⟩, [content]⟩

def filePath : BundlePath := ⟨"generated/a", Eq.refl true⟩

def nestedPath : BundlePath := ⟨"generated/a/b", by decide⟩

def recordedSample (files : List RecordedFile) : RecordedCandidate :=
  ⟨1, ⟨"candidate-1", by decide⟩, none, ⟨[1]⟩, ⟨[2]⟩, files, []⟩

theorem recordedSample_accepted (file : RecordedFile) (files : List RecordedFile) :
    ∃ stream, fastImportStream [recordedSample (file :: files)] = .ok stream := by
  apply fastImportStream_accepts (List.cons_ne_nil _ _)
  · intro candidate hcandidate
    rw [List.mem_singleton.mp hcandidate]
    exact List.cons_ne_nil _ _
  · exact List.nodup_singleton _

theorem fast_import_faithful_iff_sample :
    ∃ stream, fastImportStream [recordedSample [recordedFile filePath 97]] = .ok stream ∧
      Faithful [recordedSample [recordedFile filePath 97]] stream := by
  obtain ⟨stream, hstream⟩ := recordedSample_accepted (recordedFile filePath 97) []
  have haddressed : Addressed [recordedSample [recordedFile filePath 97]] := by
    unfold Addressed
    decide
  have hrecordable : Recordable [recordedSample [recordedFile filePath 97]] := by
    refine ⟨by decide, by decide, by decide, ?_⟩
    unfold Unobstructed
    decide
  exact ⟨stream, hstream, (fast_import_faithful_iff hstream (List.nodup_singleton _) haddressed).mpr hrecordable⟩

/-- A file and a file in a folder of its name are accepted, and the first one is not in the tree. -/
theorem nested_paths_not_faithful :
    ∃ stream, fastImportStream [recordedSample [recordedFile filePath 97, recordedFile nestedPath 98]] = .ok stream ∧
      ¬ Faithful [recordedSample [recordedFile filePath 97, recordedFile nestedPath 98]] stream := by
  obtain ⟨stream, hstream⟩ := recordedSample_accepted (recordedFile filePath 97) [recordedFile nestedPath 98]
  have haddressed : Addressed [recordedSample [recordedFile filePath 97, recordedFile nestedPath 98]] := by
    unfold Addressed
    decide
  refine ⟨stream, hstream, fun hfaithful => ?_⟩
  have htrees := (recordable_of_faithful hstream (List.nodup_singleton _) haddressed hfaithful).trees
  have hfolder := (htrees _ List.mem_cons_self (recordedFile filePath 97) List.mem_cons_self
    (recordedFile nestedPath 98) (List.mem_cons_of_mem _ List.mem_cons_self)).2
  exact absurd hfolder (by decide)

end samples

end AlloyPort.Candidate
