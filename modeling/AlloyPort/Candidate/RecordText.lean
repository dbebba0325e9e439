import Mathlib.Data.List.Infix
import AlloyPort.Candidate.Source
import AlloyPort.Library.FastImport
import AlloyPort.Library.Prog

/-! The candidate record as a stream for `git fast-import`: blobs by digest, one commit for each candidate in the order
of submission, and a branch that stands at the last one. -/

namespace AlloyPort.Candidate

def RECORD_IDENTITY : String := "AlloyPort candidate record <record@alloyport.invalid>"

def FILE_MODE : String := "100644"

def SUBJECT_DETAIL_BYTES : Nat := 160

def BODY_DETAIL_BYTES : Nat := 4 * 1024

def RECORD_BRANCH : String := "refs/heads/main"

inductive RecordedGate where
  | source
  | ascendBuild
  | reductionCorrectness

def RecordedGate.label : RecordedGate → String
  | .source => "source_gate"
  | .ascendBuild => "ascend_build"
  | .reductionCorrectness => "correctness"

structure RecordedFile where
  path : BundlePath
  digest : Sha256Digest
  bytes : List UInt8

structure RecordedGateOutcome where
  gate : RecordedGate
  verdict : String
  detail : Option String
  receiptDigest : Sha256Digest

structure RecordedCandidate where
  sequence : Nat
  candidateId : CandidateId
  parentCandidateId : Option CandidateId
  manifestDigest : Sha256Digest
  sourceBundleDigest : Sha256Digest
  files : List RecordedFile
  outcomes : List RecordedGateOutcome

inductive RecordStreamError where
  | noCandidates
  | emptyCandidate (candidateId : CandidateId)
  | duplicateSequence (sequence : Nat)
  | unmarkedBlob (digest : Sha256Digest)

section texts

/-- The format `03`. -/
def padded (n : Nat) : List Char := List.replicate (3 - (Nat.toDigits 10 n).length) '0' ++ Nat.toDigits 10 n

def isAsciiAlphanumeric (c : Char) : Bool := c.toNat < 128 && c.isAlphanum

def shortId (candidateId : CandidateId) : List Char :=
  ((candidateId.text.toList.filter isAsciiAlphanumeric).reverse.take 12).reverse

def candidateRef (candidate : RecordedCandidate) : String :=
  let short := shortId candidate.candidateId
  if short = [] then "refs/tags/c" ++ String.ofList (padded candidate.sequence)
  else "refs/tags/c" ++ String.ofList (padded candidate.sequence) ++ "-" ++ String.ofList short

def octalDigits (byte : UInt8) : List Char :=
  [Nat.digitChar (byte.toNat / 64), Nat.digitChar (byte.toNat / 8 % 8), Nat.digitChar (byte.toNat % 8)]

def quoteByte (byte : UInt8) : List Char :=
  if byte = 34 then ['\\', '"']
  else if byte = 92 then ['\\', '\\']
  else if byte = 10 then ['\\', 'n']
  else if byte = 13 then ['\\', 'r']
  else if byte = 9 then ['\\', 't']
  else if 0x20 ≤ byte ∧ byte ≤ 0x7e then [Char.ofNat byte.toNat]
  else '\\' :: octalDigits byte

def quotePath (path : String) : String := String.ofList ('"' :: (utf8 path).flatMap quoteByte ++ ['"'])

def trim (cs : List Char) : List Char := ((cs.dropWhile isWhiteSpace).reverse.dropWhile isWhiteSpace).reverse

/-- A line that ended with a line feed loses the carriage return in front of it. -/
def withoutReturn (line : List Char) : List Char := if line.getLast? = some '\r' then line.dropLast else line

/-- What `str::lines` gives. -/
def textLines (text : String) : List (List Char) :=
  let parts := text.toList.splitOn '\n'
  parts.dropLast.map withoutReturn ++ (parts.getLast?.filter (· ≠ [])).toList

def firstLine (text : String) : String := String.ofList (trim ((textLines text).headD []))

def fitting : Nat → List Char → List Char
  | _, [] => []
  | bytes, c :: cs => if c.utf8Size ≤ bytes then c :: fitting (bytes - c.utf8Size) cs else []

def clamp (text : String) (maximum : Nat) : String :=
  if text.utf8ByteSize ≤ maximum then text else String.ofList (fitting maximum text.toList)

def outcomeSubject (outcome : RecordedGateOutcome) : String :=
  let head := outcome.gate.label ++ " " ++ outcome.verdict
  match outcome.detail.map firstLine with
  | some detail =>
    if detail = "" then head
    else
      let shown := clamp detail SUBJECT_DETAIL_BYTES
      let elision := if shown.utf8ByteSize < detail.utf8ByteSize then "…" else ""
      head ++ ": " ++ shown ++ elision
  | none => head

def subjectOutcome (candidate : RecordedCandidate) : String :=
  if candidate.outcomes = [] then "submitted; no gate ran"
    else " | ".intercalate (candidate.outcomes.map outcomeSubject)

def parentLine (candidate : RecordedCandidate) (parentRecorded : Bool) : String :=
  match candidate.parentCandidateId with
  | none => "parent:    none\n"
  | some parent =>
    if parentRecorded = true then "parent:    " ++ parent.text ++ "\n"
    else "parent:    " ++ parent.text ++ " (not recorded in this Episode)\n"

def outcomeBody (outcome : RecordedGateOutcome) : String :=
  let details := match outcome.detail with
    | some detail => (textLines (clamp detail BODY_DETAIL_BYTES)).map fun line => "  " ++ String.ofList line ++ "\n"
    | none => []
  "\n" ++ outcome.gate.label ++ " " ++ outcome.verdict ++ "\n  receipt " ++ toString outcome.receiptDigest ++ "\n" ++
    String.join details

def commitMessage (candidate : RecordedCandidate) (files : List RecordedFile) (parentRecorded : Bool) : String :=
  "c" ++ String.ofList (padded candidate.sequence) ++ " " ++ subjectOutcome candidate ++ "\n\n" ++
    "candidate: " ++ candidate.candidateId.text ++ "\n" ++
    "manifest:  " ++ toString candidate.manifestDigest ++ "\n" ++
    "bundle:    " ++ toString candidate.sourceBundleDigest ++ "\n" ++
    parentLine candidate parentRecorded ++
    "files:     " ++ toString files.length ++ "\n" ++
    (if candidate.outcomes = [] then "\nno gate ran on this candidate\n" else "") ++
    String.join (candidate.outcomes.map outcomeBody) ++
    ("\nThis commit is a projection of the candidate manifest, not evidence. The manifest is authoritative\n" ++
      "for identity and every gate; nothing in the trust path reads this repository. The author date is\n" ++
      "the submission's sequence number, not a time.\n")

end texts

section streams

def recordedByPath (l r : RecordedFile) : Prop := ¬ r.path.text < l.path.text

instance : DecidableRel recordedByPath := fun l r => inferInstanceAs (Decidable (¬ r.path.text < l.path.text))

def appendData (payload : List UInt8) : List UInt8 :=
  utf8 ("data " ++ toString payload.length ++ "\n") ++ payload ++ utf8 "\n"

structure StreamState where
  stream : List UInt8
  nextMark : Nat
  blobMarks : List (Sha256Digest × Nat)
  commitMarks : List (CandidateId × Nat)
  seenSequences : List Nat

def StreamState.start : StreamState := ⟨[], 0, [], [], []⟩

/-- A mark is a `u32` that wraps. -/
def StreamState.takeMark (state : StreamState) : Nat := (state.nextMark + 1) % 2 ^ 32

def appendBlob (state : StreamState) (file : RecordedFile) : StreamState :=
  if (state.blobMarks.lookup file.digest).isSome = true then state
  else
    { state with
      stream := state.stream ++ utf8 ("blob\nmark :" ++ toString state.takeMark ++ "\n") ++ appendData file.bytes
      nextMark := state.takeMark
      blobMarks := (file.digest, state.takeMark) :: state.blobMarks }

def fromLine : Option Nat → List UInt8
  | none => []
  | some mark => utf8 ("from :" ++ toString mark ++ "\n")

def modifyLine (blobMarks : List (Sha256Digest × Nat)) (file : RecordedFile) : Except RecordStreamError (List UInt8) :=
  match blobMarks.lookup file.digest with
  | some mark => .ok (utf8 ("M " ++ FILE_MODE ++ " :" ++ toString mark ++ " " ++ quotePath file.path.text ++ "\n"))
  | none => .error (.unmarkedBlob file.digest)

def appendCommit (state : StreamState) (candidate : RecordedCandidate) (files : List RecordedFile) :
    Except RecordStreamError StreamState := do
  let mark := state.takeMark
  let commitMarks := (candidate.candidateId, mark) :: state.commitMarks
  let parentMark := candidate.parentCandidateId.bind fun parent => commitMarks.lookup parent
  let identity := RECORD_IDENTITY ++ " " ++ (toString candidate.sequence ++ " +0000")
  let lines ← files.mapM (modifyLine state.blobMarks)
  return { state with
    stream := state.stream ++ utf8 ("commit " ++ candidateRef candidate ++ "\nmark :" ++ toString mark ++ "\n") ++
      utf8 ("author " ++ identity ++ "\n") ++ utf8 ("committer " ++ identity ++ "\n") ++
      appendData (utf8 (commitMessage candidate files parentMark.isSome)) ++ fromLine parentMark ++
        utf8 "deleteall\n" ++
      lines.flatten ++ utf8 "\n"
    nextMark := mark
    commitMarks := commitMarks }

def recordCandidate (state : StreamState) (candidate : RecordedCandidate) : Except RecordStreamError StreamState :=
  if candidate.files = [] then .error (.emptyCandidate candidate.candidateId)
  else if candidate.sequence ∈ state.seenSequences then .error (.duplicateSequence candidate.sequence)
  else
    let files := candidate.files.insertionSort recordedByPath
    let seen := { state with seenSequences := candidate.sequence :: state.seenSequences }
    appendCommit (files.foldl appendBlob seen) candidate files

def fastImportStream (candidates : List RecordedCandidate) : Except RecordStreamError (List UInt8) :=
  match candidates.getLast? with
  | none => .error .noCandidates
  | some last => do
    let state ← candidates.foldlM recordCandidate .start
    match state.commitMarks.lookup last.candidateId with
    | none => .error .noCandidates
    | some mark =>
      .ok (state.stream ++ utf8 ("reset " ++ RECORD_BRANCH ++ "\nfrom :" ++ toString mark ++ "\n\n") ++ utf8 "done\n")

end streams

open FastImport Utf8

theorem utf8_eq_bytesOf : utf8 = bytesOf := rfl

section quoting

def quotedByte (byte : UInt8) : List UInt8 := (quoteByte byte).map fun c => UInt8.ofNat c.toNat

def readsBack (byte : UInt8) : List UInt8 → Bool
  | [b] => b = byte && b ≠ 34 && b ≠ 92
  | [backslash, e] => backslash = 92 && escapes.lookup e = some byte
  | [backslash, high, middle, low] => backslash = 92 && escapes.lookup high = none && octal high middle low = some byte
  | _ => false

def quotesWell (byte : UInt8) : Bool :=
  readsBack byte (quotedByte byte) && !(quotedByte byte).contains LF && (quoteByte byte).all fun c => c.toNat < 128

theorem quotesWell_all : (List.range 256).all (fun n => quotesWell (UInt8.ofNat n)) = true := by decide +kernel

theorem quoted_spec (byte : UInt8) :
    readsBack byte (quotedByte byte) = true ∧ LF ∉ quotedByte byte ∧ ∀ c ∈ quoteByte byte, c.toNat < 128 := by
  have h := List.all_eq_true.mp quotesWell_all byte.toNat (List.mem_range.mpr byte.toNat_lt)
  simpa [quotesWell, and_assoc] using h

theorem unquote_byte (byte : UInt8) (rest : List UInt8) :
    unquote (quotedByte byte ++ rest) = prepend byte (unquote rest) := by
  have h := (quoted_spec byte).1
  generalize quotedByte byte = quoted at h
  match quoted, h with
  | [b], h =>
    simp only [readsBack, Bool.and_eq_true, decide_eq_true_eq] at h
    obtain ⟨⟨rfl, hquote⟩, hbackslash⟩ := h
    simp only [List.cons_append, List.nil_append]
    rw [unquote.eq_def]
    simp only [if_neg hquote, if_neg hbackslash]
  | [backslash, e], h =>
    simp only [readsBack, Bool.and_eq_true, decide_eq_true_eq] at h
    obtain ⟨rfl, he⟩ := h
    simp only [List.cons_append, List.nil_append]
    rw [unquote.eq_def]
    simp [he]
  | [backslash, high, middle, low], h =>
    simp only [readsBack, Bool.and_eq_true, decide_eq_true_eq] at h
    obtain ⟨⟨rfl, hhigh⟩, hoctal⟩ := h
    simp only [List.cons_append, List.nil_append]
    rw [unquote.eq_def]
    simp [hhigh, hoctal]

/-- What `quotePath` writes, byte by byte. -/
def quotedPath (path : List UInt8) : List UInt8 := 34 :: (path.flatMap quotedByte ++ [34])

theorem utf8_quotePath (path : String) : utf8 (quotePath path) = quotedPath (utf8 path) := by
  have hascii : ∀ c ∈ '"' :: (utf8 path).flatMap quoteByte ++ ['"'], c.toNat < 128 := by
    intro c hc
    rcases List.mem_append.mp hc with hc | hc
    · rcases List.mem_cons.mp hc with rfl | hc
      · decide
      · obtain ⟨byte, _, hc⟩ := List.mem_flatMap.mp hc
        exact (quoted_spec byte).2.2 c hc
    · obtain rfl := List.mem_singleton.mp hc
      decide
  have hbytes : utf8 (quotePath path) = _ := bytesOf_ascii hascii
  rw [hbytes, List.map_append, List.map_cons, List.map_flatMap]
  rfl

theorem unquote_quoted (path rest : List UInt8) :
    unquote (path.flatMap quotedByte ++ 34 :: rest) = some (path, rest) := by
  induction path with
  | nil =>
    rw [List.flatMap_nil, List.nil_append, unquote.eq_def]
    rfl
  | cons byte path ih =>
    rw [List.flatMap_cons, List.append_assoc, unquote_byte, ih]
    rfl

theorem quoting : Quoting quotedPath where
  reads := by
    intro path
    have hhead : (quotedPath path).head? = some 34 := rfl
    have htail : (quotedPath path).drop 1 = path.flatMap quotedByte ++ [34] := rfl
    rw [parsePath, if_pos hhead, htail, unquote_quoted]
  oneLine := by
    intro path hmem
    rcases List.mem_cons.mp hmem with heq | hmem
    · exact absurd heq (by decide)
    · rcases List.mem_append.mp hmem with hmem | hmem
      · obtain ⟨byte, _, hbyte⟩ := List.mem_flatMap.mp hmem
        exact (quoted_spec byte).2.1 hbyte
      · exact absurd hmem (by decide)

end quoting

section references

def isPlainByte (b : UInt8) : Bool := (48 ≤ b && b ≤ 57) || (65 ≤ b && b ≤ 90) || (97 ≤ b && b ≤ 122) || b = 45

def namesWell (b : UInt8) : Bool :=
  !isPlainByte b || (32 < b && !refusedInNames.contains b && b ≠ 46 && b ≠ 64 && b ≠ SLASH && b ≠ LF)

theorem namesWell_all : (List.range 256).all (fun n => namesWell (UInt8.ofNat n)) = true := by decide +kernel

variable {b : UInt8} {component : List UInt8}

theorem plainByte (h : isPlainByte b = true) :
    (32 < b && !refusedInNames.contains b) = true ∧ b ≠ 46 ∧ b ≠ 64 ∧ b ≠ SLASH ∧ b ≠ LF := by
  have hspec := List.all_eq_true.mp namesWell_all b.toNat (List.mem_range.mpr b.toNat_lt)
  simpa [namesWell, h, and_assoc] using hspec

theorem plain_component (hne : component ≠ []) (h : ∀ b ∈ component, isPlainByte b = true) :
    isNameComponent component = true := by
  have hdot : (46 : UInt8) ∉ component := fun hmem => (plainByte (h _ hmem)).2.1 rfl
  have hat : (64 : UInt8) ∉ component := fun hmem => (plainByte (h _ hmem)).2.2.1 rfl
  have hhead : component.head? ≠ some 46 := fun heq => hdot (List.mem_of_mem_head? heq)
  have hlock : (bytesOf ".lock").isSuffixOf component = false := by
    rw [Bool.eq_false_iff]
    intro hsuffix
    exact hdot ((List.isSuffixOf_iff_suffix.mp hsuffix).subset (by decide))
  have htails : (component.tails.any fun tail =>
      (bytesOf "..").isPrefixOf tail || (bytesOf "@\x7b").isPrefixOf tail) = false := by
    rw [List.any_eq_false]
    intro tail htail hprefix
    have hsub : ∀ b ∈ tail, b ∈ component := fun b hb => ((List.mem_tails _ _).mp htail).subset hb
    rcases Bool.or_eq_true _ _ ▸ hprefix with hprefix | hprefix
    · exact hdot (hsub _ ((List.isPrefixOf_iff_prefix.mp hprefix).subset (by decide)))
    · exact hat (hsub _ ((List.isPrefixOf_iff_prefix.mp hprefix).subset (by decide)))
  have hall : component.all (fun b => 32 < b && !refusedInNames.contains b) = true :=
    List.all_eq_true.mpr fun b hb => (plainByte (h b hb)).1
  simp only [isNameComponent, hlock, htails, hall, Bool.not_false, Bool.and_true, Bool.and_eq_true, decide_eq_true_eq]
  exact ⟨hne, by simpa using hhead⟩

def tagOf (candidate : RecordedCandidate) : List Char :=
  'c' :: (padded candidate.sequence ++
    if shortId candidate.candidateId = [] then [] else '-' :: shortId candidate.candidateId)

theorem candidateRef_eq (candidate : RecordedCandidate) :
    candidateRef candidate = "refs/tags/" ++ String.ofList (tagOf candidate) := by
  apply String.toList_injective
  by_cases hshort : shortId candidate.candidateId = []
  · simp [candidateRef, tagOf, hshort]
  · simp [candidateRef, tagOf, hshort]

def spellsWell (c : Char) : Bool := !(c.isAlphanum || c = '-') || isPlainByte (UInt8.ofNat c.toNat)

theorem spellsWell_all : (List.range 128).all (fun n => spellsWell (Char.ofNat n)) = true := by decide +kernel

variable {c : Char} {candidate : RecordedCandidate}

theorem plain_char (hascii : c.toNat < 128) (h : c.isAlphanum = true ∨ c = '-') :
    isPlainByte (UInt8.ofNat c.toNat) = true := by
  have hspec := List.all_eq_true.mp spellsWell_all c.toNat (List.mem_range.mpr hascii)
  have hchar : (c.isAlphanum || decide (c = '-')) = true := by simpa using h
  simpa only [spellsWell, Char.ofNat_toNat, hchar, Bool.not_true, Bool.false_or] using hspec

theorem padded_isDigit {n : Nat} (hc : c ∈ padded n) : c.isDigit = true := by
  rcases List.mem_append.mp hc with hc | hc
  · rw [List.eq_of_mem_replicate hc]
    decide
  · exact Nat.isDigit_of_mem_toDigits (by decide) (by decide) hc

theorem isDigit_ascii (h : c.isDigit = true) : c.toNat < 128 := by
  simp only [Char.isDigit, Bool.and_eq_true, decide_eq_true_eq] at h
  have hle : c.toNat ≤ 57 := UInt32.le_iff_toNat_le.mp h.2
  omega

theorem tagOf_ascii (hc : c ∈ tagOf candidate) : c.toNat < 128 ∧ (c.isAlphanum = true ∨ c = '-') := by
  rcases List.mem_cons.mp hc with rfl | hc
  · decide
  rcases List.mem_append.mp hc with hc | hc
  · have hdigit := padded_isDigit hc
    exact ⟨isDigit_ascii hdigit, .inl (by rw [Char.isAlphanum, hdigit, Bool.or_true])⟩
  · by_cases hshort : shortId candidate.candidateId = []
    · rw [if_pos hshort] at hc
      cases hc
    · rw [if_neg hshort] at hc
      rcases List.mem_cons.mp hc with rfl | hc
      · decide
      · have hfilter := List.mem_of_mem_take (List.mem_reverse.mp hc)
        have hplain := (List.mem_filter.mp (List.mem_reverse.mp hfilter)).2
        simp only [isAsciiAlphanumeric, Bool.and_eq_true, decide_eq_true_eq] at hplain
        exact ⟨hplain.1, .inl hplain.2⟩

def tagBytes (candidate : RecordedCandidate) : List UInt8 := (tagOf candidate).map fun c => UInt8.ofNat c.toNat

theorem tagBytes_plain (hb : b ∈ tagBytes candidate) : isPlainByte b = true := by
  obtain ⟨c, hc, rfl⟩ := List.mem_map.mp hb
  exact plain_char (tagOf_ascii hc).1 (tagOf_ascii hc).2

theorem candidateRef_bytes (candidate : RecordedCandidate) :
    utf8 (candidateRef candidate) = bytesOf "refs" ++ SLASH :: (bytesOf "tags" ++ SLASH :: tagBytes candidate) := by
  have htag : bytesOf (String.ofList (tagOf candidate)) = tagBytes candidate :=
    bytesOf_ascii fun c hc => (tagOf_ascii hc).1
  have happend : utf8 (candidateRef candidate) = bytesOf ("refs/tags/" ++ String.ofList (tagOf candidate)) := by
    rw [candidateRef_eq]
    rfl
  have hfolders : bytesOf "refs/tags/" = bytesOf "refs" ++ SLASH :: (bytesOf "tags" ++ [SLASH]) := by decide
  rw [happend, bytesOf_append, htag, hfolders]
  simp

theorem splitOn_component {rest : List UInt8} (h : SLASH ∉ component) :
    (component ++ SLASH :: rest).splitOn SLASH = component :: rest.splitOn SLASH := by
  rw [splitOn_append h, List.splitOn_cons_eq_if_modifyHead, if_pos (beq_self_eq_true SLASH), List.modifyHead_cons,
    List.append_nil]

theorem not_mem_candidateRef (hplain : isPlainByte b = false) (hslash : b ≠ SLASH) :
    b ∉ utf8 (candidateRef candidate) := by
  have hfolders : (bytesOf "refs" ++ bytesOf "tags").all isPlainByte = true := by decide
  intro hmem
  have hb : b ∈ bytesOf "refs" ++ bytesOf "tags" ∨ b ∈ tagBytes candidate := by
    rw [candidateRef_bytes] at hmem
    simpa [hslash, or_assoc] using hmem
  rcases hb with hb | hb
  · rw [List.all_eq_true.mp hfolders b hb] at hplain
    cases hplain
  · rw [tagBytes_plain hb] at hplain
    cases hplain

theorem isReference_candidate (candidate : RecordedCandidate) : isReference (utf8 (candidateRef candidate)) = true := by
  have htag : SLASH ∉ tagBytes candidate := fun hmem => (plainByte (tagBytes_plain hmem)).2.2.2.1 rfl
  have hlast : (tagBytes candidate).splitOn SLASH = [tagBytes candidate] := by
    have hsplit : (tagBytes candidate ++ []).splitOn SLASH = _ := splitOn_append htag
    simpa using hsplit
  have hparts : (utf8 (candidateRef candidate)).splitOn SLASH =
    [bytesOf "refs", bytesOf "tags", tagBytes candidate] := by
    rw [candidateRef_bytes, splitOn_component (by decide), splitOn_component (by decide), hlast]
  have hcomponent : isNameComponent (tagBytes candidate) = true :=
    plain_component (List.cons_ne_nil _ _) fun b hb => tagBytes_plain hb
  have hrefs : isNameComponent (bytesOf "refs") = true := by decide
  have htags : isNameComponent (bytesOf "tags") = true := by decide
  have hdot : (utf8 (candidateRef candidate)).getLast? ≠ some 46 := by
    intro heq
    exact not_mem_candidateRef (by decide) (by decide) (List.mem_of_getLast? heq)
  have hat : utf8 (candidateRef candidate) ≠ bytesOf "@" := by
    intro heq
    have hmem : (64 : UInt8) ∉ utf8 (candidateRef candidate) := not_mem_candidateRef (by decide) (by decide)
    rw [heq] at hmem
    exact hmem (by decide)
  rw [isReference, hparts]
  simp [hcomponent, hrefs, htags, hdot, hat]

theorem oneLine_candidateRef (candidate : RecordedCandidate) : LF ∉ utf8 (candidateRef candidate) :=
  not_mem_candidateRef (by decide) (by decide)

theorem ofDigitChars_padded (n : Nat) : Nat.ofDigitChars 10 (padded n) 0 = n := by
  rw [padded, Nat.ofDigitChars_append, Nat.ofDigitChars_replicate_zero, Nat.mul_zero, Nat.ofDigitChars_ten_toDigits]

theorem candidateRef_inj {other : RecordedCandidate} (h : candidateRef candidate = candidateRef other) :
    candidate.sequence = other.sequence := by
  have hread : ∀ candidate : RecordedCandidate, ((candidateRef candidate).toList.drop 11).takeWhile Char.isDigit =
      padded candidate.sequence := by
    intro candidate
    have hdrop : (candidateRef candidate).toList.drop 11 = padded candidate.sequence ++
        if shortId candidate.candidateId = [] then [] else '-' :: shortId candidate.candidateId := by
      rw [candidateRef_eq]
      simp only [String.toList_append, String.toList_ofList]
      rfl
    rw [hdrop, List.takeWhile_append_of_pos fun c hc => padded_isDigit hc]
    by_cases hshort : shortId candidate.candidateId = []
    · rw [if_pos hshort]
      simp
    · rw [if_neg hshort, List.takeWhile_cons_of_neg (by decide), List.append_nil]
  have hpadded : padded candidate.sequence = padded other.sequence := by
    rw [← hread candidate, ← hread other, h]
  rw [← ofDigitChars_padded candidate.sequence, hpadded, ofDigitChars_padded]

end references

section entries

def recordIdent (sequence : Nat) : Ident where
  name := bytesOf "AlloyPort candidate record "
  email := bytesOf "record@alloyport.invalid"
  seconds := sequence
  zone := bytesOf "+0000"

theorem recordIdent_plain (sequence : Nat) : (recordIdent sequence).Plain where
  name := by
    have h : (bytesOf "AlloyPort candidate record ").all (fun b => !isAngle b && b ≠ LF) = true := by decide
    intro b hb
    simpa using List.all_eq_true.mp h b hb
  spaced := by
    have h : (bytesOf "AlloyPort candidate record ").getLast? = some SPACE := by decide
    exact .inr h
  email := by
    have h : (bytesOf "record@alloyport.invalid").all (fun b => !isAngle b && b ≠ LF) = true := by decide
    intro b hb
    simpa using List.all_eq_true.mp h b hb
  zone := by
    have h : isZone (bytesOf "+0000") = true := by decide
    exact h
  oneLine := by
    have h : LF ∉ bytesOf "+0000" := by decide
    exact h

theorem bytesOf_toString (n : Nat) : bytesOf (toString n) = digits n := bytesOf_repr n

theorem recordIdent_written (sequence : Nat) :
    bytesOf (RECORD_IDENTITY ++ " " ++ (toString sequence ++ " +0000")) = renderIdent (recordIdent sequence) := by
  have hidentity : bytesOf RECORD_IDENTITY ++ bytesOf " " = bytesOf "AlloyPort candidate record " ++
      (bytesOf "<" ++ (bytesOf "record@alloyport.invalid" ++ bytesOf "> ")) := by
    decide
  have hzone : bytesOf " +0000" = SPACE :: bytesOf "+0000" := by decide
  rw [bytesOf_append, bytesOf_append, bytesOf_append, hidentity, hzone, bytesOf_toString]
  simp [renderIdent, recordIdent]

theorem appendData_written (payload : List UInt8) : appendData payload = renderData payload := by
  have hline : bytesOf "\n" = [LF] := by decide
  rw [appendData, utf8_eq_bytesOf, bytesOf_append, bytesOf_append, bytesOf_toString, hline]
  simp [renderData]

def sortedFiles (candidate : RecordedCandidate) : List RecordedFile := candidate.files.insertionSort recordedByPath

variable {candidate : RecordedCandidate} {blobMarks : List (Sha256Digest × Nat)} {file : RecordedFile}

theorem mem_sortedFiles :
    file ∈ sortedFiles candidate ↔ file ∈ candidate.files := List.mem_insertionSort recordedByPath

def blobEntries : StreamState → List RecordedFile → List FastImport.Entry
  | _, [] => []
  | state, file :: files =>
    (if (state.blobMarks.lookup file.digest).isSome = true then [] else [Entry.blob state.takeMark file.bytes]) ++
      blobEntries (appendBlob state file) files

theorem appendBlob_stream (state : StreamState) (file : RecordedFile) :
    (appendBlob state file).stream = state.stream ++
      ((if (state.blobMarks.lookup file.digest).isSome = true then []
        else [FastImport.Entry.blob state.takeMark file.bytes]).flatMap (FastImport.Entry.render quotedPath)) := by
  by_cases hmarked : (state.blobMarks.lookup file.digest).isSome = true
  · simp [appendBlob, hmarked]
  · have hhead : bytesOf "blob\nmark :" = bytesOf "blob" ++ LF :: bytesOf "mark :" := by decide
    have hline : bytesOf "\n" = [LF] := by decide
    rw [appendBlob, if_neg hmarked, if_neg hmarked, utf8_eq_bytesOf]
    simp only [bytesOf_append, bytesOf_toString, hhead, hline, appendData_written]
    simp [FastImport.Entry.render, renderMark]

theorem blobEntries_stream (state : StreamState) (files : List RecordedFile) :
    (files.foldl appendBlob state).stream = state.stream ++
    (blobEntries state files).flatMap (FastImport.Entry.render quotedPath) := by
  induction files generalizing state with
  | nil => simp [blobEntries]
  | cons file files ih =>
    rw [List.foldl_cons, ih, appendBlob_stream, blobEntries, List.flatMap_append, List.append_assoc]

def parentMark (state : StreamState) (candidate : RecordedCandidate) : Option Nat :=
  candidate.parentCandidateId.bind fun parent =>
    ((candidate.candidateId, state.takeMark) :: state.commitMarks).lookup parent

def revisionOf (state : StreamState) (candidate : RecordedCandidate) : Revision where
  reference := utf8 (candidateRef candidate)
  mark := state.takeMark
  author := recordIdent candidate.sequence
  committer := recordIdent candidate.sequence
  message := utf8 (commitMessage candidate (sortedFiles candidate) (parentMark state candidate).isSome)
  parent := parentMark state candidate
  files := (sortedFiles candidate).map fun file => ((state.blobMarks.lookup file.digest).getD 0, utf8 file.path.text)

theorem revisionOf_plain (state : StreamState) (candidate : RecordedCandidate) :
    (revisionOf state candidate).Plain where
  reference := oneLine_candidateRef candidate
  author := recordIdent_plain candidate.sequence
  committer := recordIdent_plain candidate.sequence

theorem modifyLine_ok {line : List UInt8} (h : modifyLine blobMarks file = .ok line) :
    (blobMarks.lookup file.digest).isSome = true ∧
      line = renderFile quotedPath ((blobMarks.lookup file.digest).getD 0, utf8 file.path.text) := by
  cases hmark : blobMarks.lookup file.digest with
  | none =>
    rw [modifyLine, hmark] at h
    cases h
  | some mark =>
    rw [modifyLine, hmark] at h
    have hquote : bytesOf (quotePath file.path.text) = quotedPath (utf8 file.path.text) := utf8_quotePath file.path.text
    have hmode : bytesOf FILE_MODE = MODE := by decide
    have hkey : bytesOf " :" = SPACE :: bytesOf ":" := by decide
    have hspace : bytesOf " " = [SPACE] := by decide
    have hline : bytesOf "\n" = [LF] := by decide
    refine ⟨rfl, (Except.ok.inj h).symm.trans ?_⟩
    simp only [utf8_eq_bytesOf, bytesOf_append, bytesOf_toString, hquote, hmode, hkey, hspace, hline, renderFile,
      Option.getD_some]
    simp

theorem modifyLines_ok {files : List RecordedFile} {lines : List (List UInt8)}
    (h : files.mapM (modifyLine blobMarks) = .ok lines) :
    (∀ file ∈ files, (blobMarks.lookup file.digest).isSome = true) ∧
      lines.flatten = (files.map fun file => ((blobMarks.lookup file.digest).getD 0, utf8 file.path.text)).flatMap
        (renderFile quotedPath) := by
  induction files generalizing lines with
  | nil =>
    cases h
    exact ⟨nofun, rfl⟩
  | cons file files ih =>
    rw [List.mapM_cons] at h
    obtain ⟨line, hline, h⟩ := Effect.bind_eq_ok.mp h
    obtain ⟨rest, hrest, h⟩ := Effect.bind_eq_ok.mp h
    cases h
    obtain ⟨hmarked, hwritten⟩ := modifyLine_ok hline
    obtain ⟨hallMarked, hallWritten⟩ := ih hrest
    exact ⟨List.forall_mem_cons.mpr ⟨hmarked, hallMarked⟩, by
      rw [List.flatten_cons, hwritten, hallWritten, List.map_cons, List.flatMap_cons]⟩

def afterCommit (state : StreamState) (candidate : RecordedCandidate) : StreamState where
  stream := state.stream ++ (revisionOf state candidate).render quotedPath
  nextMark := state.takeMark
  blobMarks := state.blobMarks
  commitMarks := (candidate.candidateId, state.takeMark) :: state.commitMarks
  seenSequences := state.seenSequences

theorem appendCommit_ok {state state' : StreamState}
    (h : appendCommit state candidate (sortedFiles candidate) = .ok state') :
    (∀ file ∈ candidate.files, (state.blobMarks.lookup file.digest).isSome = true) ∧
      state' = afterCommit state candidate := by
  obtain ⟨lines, hlines, h⟩ := Effect.bind_eq_ok.mp h
  obtain ⟨hmarked, hwritten⟩ := modifyLines_ok hlines
  refine ⟨fun file hfile => hmarked file (mem_sortedFiles.mpr hfile), (Except.ok.inj h).symm.trans ?_⟩
  have hparent : fromLine (parentMark state candidate) = renderParent (parentMark state candidate) := by
    cases parentMark state candidate with
    | none => rfl
    | some mark =>
      have hkey : bytesOf "from :" = bytesOf "from " ++ bytesOf ":" := by decide
      have hline : bytesOf "\n" = [LF] := by decide
      rw [fromLine, utf8_eq_bytesOf, bytesOf_append, bytesOf_append, bytesOf_toString, hkey, hline]
      simp [renderParent]
  have hmark : bytesOf "\nmark :" = LF :: bytesOf "mark :" := by decide
  have hdelete : bytesOf "deleteall\n" = bytesOf "deleteall" ++ [LF] := by decide
  have hline : bytesOf "\n" = [LF] := by decide
  have hstream : state.stream ++ utf8 ("commit " ++ candidateRef candidate ++ "\nmark :" ++ toString state.takeMark ++
      "\n") ++ utf8 ("author " ++ (RECORD_IDENTITY ++ " " ++ (toString candidate.sequence ++ " +0000")) ++ "\n") ++
      utf8 ("committer " ++ (RECORD_IDENTITY ++ " " ++ (toString candidate.sequence ++ " +0000")) ++ "\n") ++
      appendData (utf8 (commitMessage candidate (sortedFiles candidate) (parentMark state candidate).isSome)) ++
      fromLine (parentMark state candidate) ++ utf8 "deleteall\n" ++ lines.flatten ++ utf8 "\n" =
        state.stream ++ (revisionOf state candidate).render quotedPath := by
    rw [hparent, hwritten, appendData_written]
    simp only [utf8_eq_bytesOf, bytesOf_append _ "\n", bytesOf_append _ (toString state.takeMark),
      bytesOf_append _ "\nmark :",
      bytesOf_append "commit ", bytesOf_append "author ", bytesOf_append "committer ", recordIdent_written,
        bytesOf_toString,
      hmark, hdelete, hline, Revision.render, renderMark, revisionOf]
    simp
  rw [afterCommit, ← hstream]
  rfl

end entries

end AlloyPort.Candidate
