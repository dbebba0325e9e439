import Mathlib.Data.Finset.Card
import AlloyPort.Candidate.Gates

/-! The sources of a candidate that its build names, the ones they include, and when the Source Gate counts
no others. -/

namespace AlloyPort.Candidate

section writing

def isNameChar (c : Char) : Bool := c.isAlphanum || ['_', '-', '.', '+'].contains c

def directories (path : BundlePath) : List (List Char) := (path.text.toList.splitOn '/').dropLast.reverse

/-- The directories that stand directly in front of a name in a text, the nearest one first. -/
def writtenDirectories (front : List Char) : List (List Char) :=
  let run := front.reverse.takeWhile fun c => isNameChar c || c == '/'
  (((run.splitOn '/').drop 1).map List.reverse).takeWhile fun name => name != [] && name != ['.'] && name != ['.', '.']

def fits (written : List (List Char)) (path : BundlePath) : Bool :=
  written.isPrefixOf (directories path) || (directories path).isPrefixOf written

/-- The name of a source as a whole component of a path, which is not that of another source by its directories. -/
def standsFor (sources : List SourceText) (source : SourceText) (front rest : List Char) : Bool :=
  let name := (fileName source.path).toList
  name.isPrefixOf rest && front.getLast?.all (fun c => !isNameChar c) &&
    (rest.drop name.length).head?.all (fun c => !isNameChar c) &&
    sources.all fun other => fileName other.path != fileName source.path ||
      !fits (writtenDirectories front) other.path || fits (writtenDirectories front) source.path

def names (sources : List SourceText) (text : String) (source : SourceText) : Bool :=
  (List.range (text.toList.length + 1)).any fun i => standsFor sources source (text.toList.take i) (text.toList.drop i)

def includeLines (contents : String) : List String :=
  (linesFrom [] contents.toList).filterMap fun line =>
    let line := line.dropWhile isWhiteSpace
    if "#include".toList.isPrefixOf line = true then some (String.ofList line) else none

end writing

/-- A build file names the source, or another source that is reached includes it. -/
inductive Reached (sources : List SourceText) : SourceText → Prop
  | built {source file : SourceText} (hsource : source ∈ sources) (hfile : file ∈ sources)
      (hkind : file.kind = .buildIntegration) (hnames : names sources file.contents source = true) :
      Reached sources source
  | included {source file : SourceText} {line : String} (hsource : source ∈ sources) (hfile : Reached sources file)
      (hother : file.path ≠ source.path) (hline : line ∈ includeLines file.contents)
      (hnames : names sources line source = true) : Reached sources source

def buildText (sources : List SourceText) : String := joinedContents sources .buildIntegration

def BuildNames (sources : List SourceText) (source : SourceText) : Prop :=
  ∃ file ∈ sources, file.kind = .buildIntegration ∧ names sources file.contents source = true

def IncludeNames (sources : List SourceText) (file source : SourceText) : Prop :=
  file.path ≠ source.path ∧ ∃ line ∈ includeLines file.contents, names sources line source = true

/-- The name of a source is part of no text that is searched for it unless the text names the source, or a build file
names it anyway. -/
def NamedApart (sources : List SourceText) : Prop := ∀ source ∈ sources, BuildNames sources source ∨
  contains (buildText sources) (fileName source.path) = false ∧ ∀ file ∈ sources, file.path ≠ source.path →
    includes file.contents (fileName source.path) = true → IncludeNames sources file source

section growing

variable {sources : List SourceText}

def growOne (sources : List SourceText) (reached : List String) (source : SourceText) : List String :=
  if fileName source.path ∈ reached then
    (sourceNames sources).foldl (fun reached candidate =>
      if candidate ∉ reached ∧ includes source.contents candidate = true then reached ++ [candidate]
        else reached) reached
  else reached

variable {reached : List String} {name build : String} {source : SourceText} {rest : List SourceText}
variable {passes : Nat} {P : String → Prop}

theorem mem_addNew {p : String → Prop} [DecidablePred p] {candidates : List String} :
    name ∈ candidates.foldl (fun reached candidate =>
      if candidate ∉ reached ∧ p candidate then reached ++ [candidate] else reached) reached ↔
      name ∈ reached ∨ name ∈ candidates ∧ p name := by
  induction candidates generalizing reached with
  | nil => simp
  | cons candidate rest ih =>
    rw [List.foldl_cons, ih]
    by_cases hnew : candidate ∉ reached ∧ p candidate
    · rw [if_pos hnew, List.mem_append, List.mem_singleton, List.mem_cons]
      grind
    · rw [if_neg hnew, List.mem_cons]
      grind

theorem mem_growOne :
    name ∈ growOne sources reached source ↔ name ∈ reached ∨ fileName source.path ∈ reached ∧
      name ∈ sourceNames sources ∧ includes source.contents name = true := by
  by_cases hreached : fileName source.path ∈ reached
  · rw [growOne, if_pos hreached, mem_addNew]
    simp [hreached]
  · rw [growOne, if_neg hreached]
    simp [hreached]

theorem foldl_growOne_mono (h : name ∈ reached) : name ∈ rest.foldl (growOne sources) reached := by
  induction rest generalizing reached with
  | nil => exact h
  | cons source rest ih => exact ih (mem_growOne.mpr (.inl h))

theorem foldl_growOne_includes
    (hsource : source ∈ rest) (hreached : fileName source.path ∈ reached) (hname : name ∈ sourceNames sources)
    (hincludes : includes source.contents name = true) : name ∈ rest.foldl (growOne sources) reached := by
  induction rest generalizing reached with
  | nil => cases hsource
  | cons first rest ih =>
    rw [List.foldl_cons]
    rcases List.mem_cons.mp hsource with rfl | hsource
    · exact foldl_growOne_mono (mem_growOne.mpr (.inr ⟨hreached, hname, hincludes⟩))
    · exact ih hsource (mem_growOne.mpr (.inl hreached))

theorem foldl_growOne_invariant
    (hstep : ∀ source ∈ rest, P (fileName source.path) → ∀ name ∈ sourceNames sources,
      includes source.contents name = true → P name)
    (hreached : ∀ name ∈ reached, P name) : ∀ name ∈ rest.foldl (growOne sources) reached, P name := by
  induction rest generalizing reached with
  | nil => exact hreached
  | cons source rest ih =>
    refine ih (fun file hfile => hstep file (List.mem_cons_of_mem _ hfile)) fun name hname => ?_
    rcases mem_growOne.mp hname with hname | ⟨hfile, hname, hincludes⟩
    · exact hreached name hname
    · exact hstep source List.mem_cons_self (hreached _ hfile) name hname hincludes

theorem addNew_eq_or (p : String → Prop) [DecidablePred p] (candidates reached : List String) :
    candidates.foldl (fun reached candidate =>
      if candidate ∉ reached ∧ p candidate then reached ++ [candidate] else reached) reached = reached ∨
      ∃ name ∈ candidates, name ∉ reached ∧ p name := by
  induction candidates with
  | nil => exact .inl rfl
  | cons candidate rest ih =>
    by_cases hnew : candidate ∉ reached ∧ p candidate
    · exact .inr ⟨candidate, List.mem_cons_self, hnew⟩
    · rw [List.foldl_cons, if_neg hnew]
      exact ih.imp_right fun ⟨name, hname, h⟩ => ⟨name, List.mem_cons_of_mem _ hname, h⟩

theorem foldl_growOne_eq_or (rest : List SourceText) : rest.foldl (growOne sources) reached = reached ∨
      ∃ name ∈ sourceNames sources, name ∉ reached ∧ name ∈ rest.foldl (growOne sources) reached := by
  induction rest with
  | nil => exact .inl rfl
  | cons source rest ih =>
    have hsame : growOne sources reached source = reached ∨
        ∃ name ∈ sourceNames sources, name ∉ reached ∧ name ∈ growOne sources reached source := by
      by_cases hreached : fileName source.path ∈ reached
      · rcases addNew_eq_or (fun name => includes source.contents name = true) (sourceNames sources) reached with
          hsame | ⟨name, hname, hfresh, hincludes⟩
        · exact .inl ((if_pos hreached).trans hsame)
        · exact .inr ⟨name, hname, hfresh, mem_growOne.mpr (.inr ⟨hreached, hname, hincludes⟩)⟩
      · exact .inl (if_neg hreached)
    rcases hsame with hsame | ⟨name, hname, hfresh, hmem⟩
    · rw [List.foldl_cons, hsame]
      exact ih
    · rw [List.foldl_cons]
      exact .inr ⟨name, hname, hfresh, foldl_growOne_mono hmem⟩

def pendingNames (sources : List SourceText) (reached : List String) : Finset String :=
  (sourceNames sources).toFinset \ reached.toFinset

theorem pendingNames_card_le (reached : List String) : (pendingNames sources reached).card ≤ sources.length := by
  have hnames : (sourceNames sources).toFinset.card ≤ sources.length := by
    simpa [sourceNames] using List.toFinset_card_le (sourceNames sources)
  exact (Finset.card_le_card Finset.sdiff_subset).trans hnames

theorem pendingNames_lt (h : reachIncludes sources reached ≠ reached) :
    (pendingNames sources (reachIncludes sources reached)).card < (pendingNames sources reached).card := by
  obtain ⟨name, hname, hfresh, hmem⟩ := (foldl_growOne_eq_or sources).resolve_left h
  refine Finset.card_lt_card (Finset.ssubset_iff_of_subset ?_ |>.mpr ⟨name, ?_, ?_⟩)
  · refine Finset.sdiff_subset_sdiff (Finset.Subset.refl _) fun name hname => ?_
    exact List.mem_toFinset.mpr (foldl_growOne_mono (List.mem_toFinset.mp hname))
  · simp [pendingNames, hname, hfresh]
  · have hgrown : name ∈ reachIncludes sources reached := hmem
    simp [pendingNames, hgrown]

theorem growReached_closed (h : (pendingNames sources reached).card ≤ passes) :
    reachIncludes sources (growReached sources passes reached) = growReached sources passes reached := by
  induction passes generalizing reached with
  | zero =>
    by_contra hne
    have hlt := pendingNames_lt hne
    rw [growReached] at hlt
    omega
  | succ passes ih =>
    by_cases hnext : reachIncludes sources reached = reached
    · simp only [growReached, hnext, if_true]
    · have hlt := pendingNames_lt hnext
      simp only [growReached, if_neg hnext]
      exact ih (by omega)

theorem growReached_mono (h : name ∈ reached) : name ∈ growReached sources passes reached := by
  induction passes generalizing reached with
  | zero => exact h
  | succ passes ih =>
    by_cases hnext : reachIncludes sources reached = reached
    · simpa only [growReached, hnext, if_true] using h
    · simp only [growReached, if_neg hnext]
      exact ih (foldl_growOne_mono h)

theorem growReached_invariant
    (hstep : ∀ source ∈ sources, P (fileName source.path) → ∀ name ∈ sourceNames sources,
      includes source.contents name = true → P name)
    (hreached : ∀ name ∈ reached, P name) : ∀ name ∈ growReached sources passes reached, P name := by
  induction passes generalizing reached with
  | zero => exact hreached
  | succ passes ih =>
    by_cases hnext : reachIncludes sources reached = reached
    · simpa only [growReached, hnext, if_true] using hreached
    · simp only [growReached, if_neg hnext]
      exact ih (foldl_growOne_invariant hstep hreached)

theorem mem_sourceNames (h : source ∈ sources) : fileName source.path ∈ sourceNames sources :=
  List.mem_map_of_mem h

theorem buildableNames_closed : reachIncludes sources (buildableNames sources build) = buildableNames sources build :=
  growReached_closed (pendingNames_card_le _)

theorem buildableNames_included {file : SourceText} (hsource : source ∈ sources)
    (hfile : file ∈ sources) (hcounted : fileName file.path ∈ buildableNames sources build)
    (h : includes file.contents (fileName source.path) = true) :
    fileName source.path ∈ buildableNames sources build := by
  rw [← buildableNames_closed]
  exact foldl_growOne_includes hfile hcounted (mem_sourceNames hsource) h

/-- The sets that have the names the build text gives, and with a name the ones that its sources include. -/
def ClosedNames (sources : List SourceText) (build : String) : Set (Set String) :=
  {names | (∀ name ∈ sourceNames sources, contains build name = true → name ∈ names) ∧
    ∀ file ∈ sources, fileName file.path ∈ names → ∀ name ∈ sourceNames sources,
      includes file.contents name = true → name ∈ names}

theorem buildableNames_isLeast (sources : List SourceText) (build : String) :
    IsLeast (ClosedNames sources build) {name | name ∈ buildableNames sources build} := by
  refine ⟨⟨?_, ?_⟩, ?_⟩
  · intro name hname hcontains
    exact growReached_mono (List.mem_filter.mpr ⟨hname, hcontains⟩)
  · intro file hfile hcounted name hname hincludes
    obtain ⟨source, hsource, rfl⟩ := List.mem_map.mp hname
    exact buildableNames_included hsource hfile hcounted hincludes
  · rintro names ⟨hbuilt, hclosed⟩ name hname
    refine growReached_invariant (P := (· ∈ names)) hclosed ?_ name hname
    intro first hfirst
    obtain ⟨hfirst, hcontains⟩ := List.mem_filter.mp hfirst
    exact hbuilt first hfirst hcontains

theorem closedNames_perm {sources' : List SourceText} (h : sources.Perm sources') (build : String) :
    ClosedNames sources build = ClosedNames sources' build := by
  have hnames : ∀ name, name ∈ sourceNames sources ↔ name ∈ sourceNames sources' := fun name => (h.map _).mem_iff
  simp only [ClosedNames, hnames, h.mem_iff]

/-- The passes end with the least set of names that is closed, whatever the order they go through the sources in. -/
theorem buildableNames_least_closed {sources' : List SourceText} (h : sources.Perm sources') (build : String) :
    reachIncludes sources (buildableNames sources build) = buildableNames sources build ∧
      IsLeast (ClosedNames sources build) {name | name ∈ buildableNames sources build} ∧
      ∀ name, name ∈ buildableNames sources build ↔ name ∈ buildableNames sources' build := by
  have hleast := buildableNames_isLeast sources build
  have hother := buildableNames_isLeast sources' build
  rw [← closedNames_perm h] at hother
  exact ⟨buildableNames_closed, hleast, fun name => Set.ext_iff.mp (hleast.unique hother) name⟩

end growing

section counting

variable {sources : List SourceText}
variable {source : SourceText}

theorem Reached.mem (h : Reached sources source) : source ∈ sources := by
  cases h with
  | built hsource | included hsource => exact hsource

theorem Reached.named (h : Reached sources source) :
    BuildNames sources source ∨ ∃ file ∈ sources, IncludeNames sources file source := by
  cases h with
  | @built _ file hsource hfile hkind hnames => exact .inl ⟨file, hfile, hkind, hnames⟩
  | @included _ file line hsource hfile hother hline hnames => exact .inr ⟨file, hfile.mem, hother, line, hline, hnames⟩

theorem NamedApart.reached (h : NamedApart sources) :
    ∀ name ∈ buildableNames sources (buildText sources), ∀ source ∈ sources, fileName source.path = name →
      Reached sources source := by
  have hbuilt : ∀ {source}, source ∈ sources → BuildNames sources source → Reached sources source :=
    fun hsource ⟨_, hfile, hkind, hnames⟩ => .built hsource hfile hkind hnames
  refine growReached_invariant ?_ ?_
  · intro file hfile hreached name _ hincludes source hsource hname
    subst hname
    by_cases hself : file.path = source.path
    · exact hreached source hsource (by rw [hself])
    · rcases h source hsource with hnamed | ⟨_, hnamed⟩
      · exact hbuilt hsource hnamed
      · obtain ⟨hother, line, hline, hnames⟩ := hnamed file hfile hself hincludes
        exact .included hsource (hreached file hfile rfl) hother hline hnames
  · intro name hname source hsource hsame
    rcases h source hsource with hnamed | ⟨hunnamed, _⟩
    · exact hbuilt hsource hnamed
    · rw [hsame, (List.mem_filter.mp hname).2] at hunnamed
      cases hunnamed

end counting

section gate

variable [Sha256] {manifest : CandidateSourceManifest} {sources : Sources} {manifestDigest : Sha256Digest}

theorem passed_advisory (h : (evaluateSourceGate manifest sources manifestDigest).passed = true) :
    ∀ failure ∈ sourceGateFailures manifest sources, failure.severity = .advisory := by
  intro failure hfailure
  have hpassed : (sourceGateFailures manifest sources).all (fun failure => failure.severity = .advisory) = true := h
  simpa using List.all_eq_true.mp hpassed failure hfailure

theorem mem_sourceGateFailures {failure : SourceGateFailure} :
    failure ∈ sourceGateFailures manifest sources ↔
      failure ∈ pathSetFailures manifest sources ∨
        (∃ file ∈ manifest.files, failure ∈ (readText sources file).1) ∨
        failure ∈ inspectForbidden (sourceTexts manifest sources) ∨
          failure ∈ inspectDevice (sourceTexts manifest sources) ∨
        failure ∈ inspectHost manifest (sourceTexts manifest sources) ∨
        failure ∈ inspectBuild manifest (sourceTexts manifest sources) ∨
        failure ∈ inspectMapping manifest (sourceTexts manifest sources) := by
  simp only [sourceGateFailures, List.mem_insertionSort, List.mem_append, List.mem_flatMap, or_assoc]

variable {file : CandidateSourceFile}

theorem readText_of_advisory (hset : file.path ∈ sources.map Prod.fst)
    (h : ∀ failure ∈ (readText sources file).1, failure.severity = .advisory) :
    ∃ contents, (readText sources file).2 = [⟨file.path, file.kind, contents⟩] := by
  unfold readText at h ⊢
  cases hbytes : sources.lookup file.path with
  | none =>
    obtain ⟨entry, hentry, hpath⟩ := List.mem_map.mp hset
    have hother := List.lookup_eq_none_iff.mp hbytes entry hentry
    simp [hpath] at hother
  | some bytes =>
    simp only [hbytes] at h ⊢
    by_cases hartifact : file.artifact.sizeBytes = bytes.length ∧ file.artifact.digest = Sha256.digestBytes bytes
    · simp only [if_pos hartifact] at h ⊢
      cases hutf8 : fromUtf8 bytes with
      | some contents => exact ⟨contents, rfl⟩
      | none =>
        rw [hutf8] at h
        cases h _ (List.mem_singleton.mpr rfl)
    · rw [if_neg hartifact] at h
      cases h _ (List.mem_singleton.mpr rfl)

theorem passed_read (h : (evaluateSourceGate manifest sources manifestDigest).passed = true)
    (hfile : file ∈ manifest.files) : ∃ source ∈ sourceTexts manifest sources, source.path = file.path := by
  have hall := passed_advisory h
  have hset : file.path ∈ sources.map Prod.fst := by
    by_cases hsame : manifest.files.map CandidateSourceFile.path ⊆ sources.map Prod.fst ∧
        sources.map Prod.fst ⊆ manifest.files.map CandidateSourceFile.path
    · exact hsame.1 (List.mem_map_of_mem hfile)
    · have hmem : blocking .artifactSetMismatch none
          "source Artifact set does not exactly match the candidate manifest" ∈ pathSetFailures manifest sources := by
        simp only [pathSetFailures, if_neg hsame, List.mem_singleton]
      cases hall _ (mem_sourceGateFailures.mpr (.inl hmem))
  obtain ⟨contents, hcontents⟩ := readText_of_advisory hset fun failure hfailure =>
    hall failure (mem_sourceGateFailures.mpr (.inr (.inl ⟨file, hfile, hfailure⟩)))
  have hread : (⟨file.path, file.kind, contents⟩ : SourceText) ∈ (readText sources file).2 := by
    rw [hcontents]
    exact List.mem_singleton.mpr rfl
  exact ⟨_, (List.mem_insertionSort _).mpr (List.mem_flatMap.mpr ⟨file, hfile, hread⟩), rfl⟩

def IsCode (file : CandidateSourceFile) : Prop := file.kind = .ascendCDevice ∨ file.kind = .ascendHost

instance (file : CandidateSourceFile) : Decidable (IsCode file) := inferInstanceAs (Decidable (_ ∨ _))

theorem passed_counts (h : (evaluateSourceGate manifest sources manifestDigest).passed = true)
    (hfile : file ∈ manifest.files) (hcode : IsCode file) :
    fileName file.path ∈ buildableNames (sourceTexts manifest sources) (buildText (sourceTexts manifest sources)) := by
  by_contra hmissing
  have hall := passed_advisory h
  have hmem : file ∈ manifest.files.filter fun file => (file.kind = .ascendCDevice ∨ file.kind = .ascendHost) ∧
      fileName file.path ∉ buildableNames (sourceTexts manifest sources) (buildText (sourceTexts manifest sources)) :=
    List.mem_filter.mpr ⟨hfile, by simpa using ⟨hcode, hmissing⟩⟩
  have hfailure : ∃ detail, blocking .missingBuildReference none detail ∈
      inspectBuild manifest (sourceTexts manifest sources) := by
    have hne := List.ne_nil_of_mem hmem
    unfold buildText at hne
    unfold inspectBuild
    dsimp only
    rw [if_neg hne]
    exact ⟨_, List.mem_append_left _ (List.mem_singleton.mpr rfl)⟩
  obtain ⟨detail, hfailure⟩ := hfailure
  cases hall _ (mem_sourceGateFailures.mpr (.inr (.inr (.inr (.inr (.inr (.inl hfailure)))))))

/-- What the gate counts is what the build reaches, down to the code of the manifest. -/
def CountsReached (manifest : CandidateSourceManifest) (sources : List SourceText) : Prop :=
  (∀ file ∈ manifest.files, IsCode file → ∃ source ∈ sources, source.path = file.path ∧ Reached sources source) ∧
    ∀ source ∈ sources, fileName source.path ∈ buildableNames sources (buildText sources) → Reached sources source

end gate

section samples

attribute [local instance] transparentSha256

variable {sources : List SourceText}

theorem not_reached {source : SourceText}
    (hbuilt : ∀ file ∈ sources, file.kind = .buildIntegration → names sources file.contents source = false)
    (hincluded : ∀ file ∈ sources, ∀ line ∈ includeLines file.contents, names sources line source = false) :
    ¬ Reached sources source := by
  intro h
  cases h with
  | built _ hfile hkind hnames =>
    rw [hbuilt _ hfile hkind] at hnames
    cases hnames
  | included _ hfile _ hline hnames =>
    rw [hincluded _ hfile.mem _ hline] at hnames
    cases hnames

def reachText (path : String) (kind : GeneratedSourceKind) (contents : String) : SourceText :=
  ⟨(BundlePath.tryFrom path).getD ⟨"x", by decide⟩, kind, contents⟩

def reachTexts (build : String) : List SourceText :=
  [reachText "generated/a.txt" .buildIntegration build, reachText "generated/add.cpp" .ascendCDevice "GM_ADDR",
    reachText "generated/fast_add.cpp" .ascendHost "extern \"C\" sum",
    reachText "generated/map" .componentMapping "k.cu generated/a.txt generated/add.cpp generated/fast_add.cpp"]

def reachSources (build : String) : Sources :=
  (reachTexts build).map fun source => (source.path, utf8 source.contents)

def reachFile (source : SourceText) : Option CandidateSourceFile :=
  (CandidateSourceFile.new source.path source.kind
    ⟨⟨utf8 source.contents⟩, (utf8 source.contents).length, SOURCE_MEDIA_TYPE⟩).toOption

def reachManifest (build : String) : Option CandidateSourceManifest :=
  (CandidateSourceManifest.new ⟨⟨"candidate", Eq.refl false⟩, ⟨"task", Eq.refl false⟩, none, ⟨[1]⟩, .directAscendC,
    "sum", "add", [(reachText "k.cu" .ascendHost "").path], ⟨[2]⟩, (reachTexts build).filterMap reachFile⟩).toOption

theorem reachManifest_passes (build : String) (h : (reachManifest build).any fun manifest =>
      (evaluateSourceGate manifest (reachSources build) ⟨[3]⟩).passed &&
        decide (sourceTexts manifest (reachSources build) = reachTexts build)) : ∃ manifest,
    reachManifest build = some manifest ∧ (evaluateSourceGate manifest (reachSources build) ⟨[3]⟩).passed = true ∧
      sourceTexts manifest (reachSources build) = reachTexts build := by
  obtain ⟨manifest, hmanifest, hchecks⟩ := (Option.any_eq_true _ _).mp h
  obtain ⟨hpassed, htexts⟩ := Bool.and_eq_true_iff.mp hchecks
  exact ⟨manifest, hmanifest, hpassed, of_decide_eq_true htexts⟩

theorem buildableNames_least_closed_sample :
    reachIncludes (reachTexts "add.cpp") (buildableNames (reachTexts "add.cpp") "add.cpp") =
        buildableNames (reachTexts "add.cpp") "add.cpp" ∧
      IsLeast (ClosedNames (reachTexts "add.cpp") "add.cpp")
        {name | name ∈ buildableNames (reachTexts "add.cpp") "add.cpp"} ∧
      ∀ name, name ∈ buildableNames (reachTexts "add.cpp") "add.cpp" ↔
        name ∈ buildableNames (reachTexts "add.cpp").reverse "add.cpp" :=
  buildableNames_least_closed (List.reverse_perm _).symm "add.cpp"

end samples

end AlloyPort.Candidate
