import AlloyPort.Library.Machine
import AlloyPort.Runtime.Record

/-! How the output of a container is read. A follower reads both streams at once under one limit that they share; the
other path reads each stream under the limit and cuts them afterwards. -/

namespace AlloyPort

open Machine

inductive ContainerLogStream where
  | stdout
  | stderr
  deriving DecidableEq

structure ContainerLogChunk where
  stream : ContainerLogStream
  byteOffset : Nat
  bytes : List UInt8

/-- The most bytes that a `Vec` holds, which is `isize::MAX`. -/
def vecCapacity : Nat := 2 ^ 63 - 1

def readBufferLen : Nat := 8192

/-- `Vec::extend_from_slice`, which panics where the capacity overflows. -/
def extendFromSlice (bytes more : List UInt8) : Option (List UInt8) :=
  if bytes.length + more.length ≤ vecCapacity then some (bytes ++ more) else none

structure BoundedRead where
  bytes : List UInt8
  exceeded : Bool

/-- The loop of `read_bounded` over what the reads put into its buffer. A read of no bytes is the end of the stream. -/
def readBoundedFrom (limit : UInt64) (state : BoundedRead) : List (List UInt8) → Option BoundedRead
  | [] => some state
  | buffer :: rest =>
    if buffer = [] then some state
    else
      let keep := min (limit.toNat - state.bytes.length) buffer.length
      match extendFromSlice state.bytes (buffer.take keep) with
      | none => none
      | some bytes => readBoundedFrom limit ⟨bytes, state.exceeded || decide (keep < buffer.length)⟩ rest

def readBounded (limit : UInt64) (reads : List (List UInt8)) : Option BoundedRead :=
  readBoundedFrom limit ⟨[], false⟩ reads

/-- What `run` makes of the streams of a command that has ended. -/
def runOutput (limit : UInt64) (stdoutReads stderrReads : List (List UInt8)) : Option ContainerLogs := do
  let stdout ← readBounded limit stdoutReads
  let stderr ← readBounded limit stderrReads
  return ⟨stdout.bytes, stderr.bytes, stdout.exceeded || stderr.exceeded ||
    decide (limit.toNat < saturatingAdd stdout.bytes.length stderr.bytes.length)⟩

def deliveredBy (reads : List (List UInt8)) : List UInt8 := (reads.takeWhile (· ≠ [])).flatten

inductive ReaderPhase where
  | reading
  | finished
  | failed
  deriving DecidableEq

structure FollowReader where
  bytes : List UInt8
  exceeded : Bool
  phase : ReaderPhase

structure Follower where
  total : Nat
  limitSent : Bool
  reader : ContainerLogStream → FollowReader

inductive FollowAction where
  | read (stream : ContainerLogStream) (buffer : List UInt8)
  | fail (stream : ContainerLogStream)

namespace Follower

def start : Follower := ⟨0, false, fun _ => ⟨[], false, .reading⟩⟩

def withReader (s : Follower) (stream : ContainerLogStream) (reader : FollowReader) : Follower :=
  { s with reader := Function.update s.reader stream reader }

def count (limit : UInt64) (s : Follower) (buffer : List UInt8) : Follower :=
  { s with
    total := saturatingAdd s.total buffer.length
    limitSent := s.limitSent || decide (limit.toNat < saturatingAdd s.total buffer.length) }

def keep (limit : UInt64) (s : Follower) (buffer : List UInt8) : Nat := min (limit.toNat - s.total) buffer.length

/-- One turn of the loop of `read_follow_bounded` once its buffer is filled, with the chunk for the preview. -/
def take (limit : UInt64) (s : Follower) (stream : ContainerLogStream) (buffer : List UInt8) :
    Follower × Option ContainerLogChunk :=
  let reader := s.reader stream
  let keep := s.keep limit buffer
  match extendFromSlice reader.bytes (buffer.take keep) with
  | none => ((s.count limit buffer).withReader stream { reader with phase := .failed }, none)
  | some bytes =>
    ((s.count limit buffer).withReader stream { reader with
        bytes := bytes
        exceeded := reader.exceeded || decide (limit.toNat < saturatingAdd s.total buffer.length) ||
          decide (keep < buffer.length) },
      if 0 < keep then some ⟨stream, reader.bytes.length, buffer.take keep⟩ else none)

def act (limit : UInt64) (s : Follower) : FollowAction → Option (Follower × Option ContainerLogChunk)
  | .read stream buffer =>
    if (s.reader stream).phase = .reading ∧ buffer.length ≤ readBufferLen then
      if buffer = [] then some (s.withReader stream { s.reader stream with phase := .finished }, none)
      else some (s.take limit stream buffer)
    else none
  | .fail stream =>
    if (s.reader stream).phase = .reading then
      some (s.withReader stream { s.reader stream with phase := .failed }, none)
    else none

/-- The flag that `follow_command` returns; `killedForLimit` is whether it has seen the signal of a reader. -/
def outputLimitExceeded (limit : UInt64) (s : Follower) (killedForLimit : Bool) : Bool :=
  killedForLimit || (s.reader .stdout).exceeded || (s.reader .stderr).exceeded || decide (limit.toNat < s.total)

end Follower

def readFollowBounded (limit : UInt64) : System Follower FollowAction (Option ContainerLogChunk) where
  initial := .start
  act := fun s action => s.act limit action

abbrev FollowHistory := History FollowAction (Option ContainerLogChunk)

def FollowAction.buffer (stream : ContainerLogStream) : FollowAction → List UInt8
  | .read other buffer => if other = stream then buffer else []
  | .fail _ => []

def readFrom (stream : ContainerLogStream) (log : FollowHistory) : List UInt8 :=
  log.flatMap fun event => event.1.buffer stream

def readTotal (log : FollowHistory) : Nat := (readFrom .stdout log).length + (readFrom .stderr log).length

section bounded

variable {limit : UInt64}

theorem extendFromSlice_eq {bytes more extended : List UInt8} (h : extendFromSlice bytes more = some extended) :
    extended = bytes ++ more ∧ extended.length ≤ vecCapacity := by
  unfold extendFromSlice at h
  by_cases hroom : bytes.length + more.length ≤ vecCapacity
  · rw [if_pos hroom] at h
    cases h
    exact ⟨rfl, by rw [List.length_append]; exact hroom⟩
  · rw [if_neg hroom] at h
    cases h

theorem deliveredBy_cons {buffer : List UInt8} {rest : List (List UInt8)} (h : buffer ≠ []) :
    deliveredBy (buffer :: rest) = buffer ++ deliveredBy rest := by
  simp [deliveredBy, h]

variable {reads : List (List UInt8)}

theorem readBoundedFrom_spec {state result : BoundedRead}
    (h : readBoundedFrom limit state reads = some result) (hroom : state.bytes.length ≤ vecCapacity) :
    result.bytes = state.bytes ++ (deliveredBy reads).take (limit.toNat - state.bytes.length) ∧
      result.bytes.length ≤ vecCapacity ∧
      (result.exceeded = true ↔ state.exceeded = true ∨
        limit.toNat - state.bytes.length < (deliveredBy reads).length) := by
  induction reads generalizing state with
  | nil =>
    cases h
    exact ⟨by simp [deliveredBy], hroom, by simp [deliveredBy]⟩
  | cons buffer rest ih =>
    rw [readBoundedFrom] at h
    by_cases hend : buffer = []
    · rw [if_pos hend] at h
      cases h
      exact ⟨by simp [deliveredBy, hend], hroom, by simp [deliveredBy, hend]⟩
    · rw [if_neg hend] at h
      cases hextend : extendFromSlice state.bytes
        (buffer.take (min (limit.toNat - state.bytes.length) buffer.length)) with
      | none => simp [hextend] at h
      | some bytes =>
        simp only [hextend] at h
        obtain ⟨rfl, hfits⟩ := extendFromSlice_eq hextend
        obtain ⟨hbytes, hlength, hexceeded⟩ := ih h hfits
        have hkept : (state.bytes ++ buffer.take (min (limit.toNat - state.bytes.length) buffer.length)).length =
            state.bytes.length + min (limit.toNat - state.bytes.length) buffer.length := by
          rw [List.length_append, List.length_take]
          omega
        refine ⟨?_, hlength, ?_⟩
        · have hleft : limit.toNat - (state.bytes.length + min (limit.toNat - state.bytes.length) buffer.length) =
              limit.toNat - state.bytes.length - buffer.length := by omega
          have htake : buffer.take (min (limit.toNat - state.bytes.length) buffer.length) =
              buffer.take (limit.toNat - state.bytes.length) := by
            rw [← List.take_take, List.take_length]
          rw [hbytes, hkept, hleft, htake, deliveredBy_cons hend, List.take_append, List.append_assoc]
        · have hover : (min (limit.toNat - state.bytes.length) buffer.length < buffer.length ∨
                limit.toNat - (state.bytes.length + min (limit.toNat - state.bytes.length) buffer.length) <
                  (deliveredBy rest).length) ↔
              limit.toNat - state.bytes.length < buffer.length + (deliveredBy rest).length := by omega
          rw [hexceeded, hkept, deliveredBy_cons hend, List.length_append, Bool.or_eq_true, decide_eq_true_eq, or_assoc,
            hover]

theorem readBounded_spec {result : BoundedRead} (h : readBounded limit reads = some result) :
    result.bytes = (deliveredBy reads).take limit.toNat ∧ result.bytes.length ≤ vecCapacity ∧
      (result.exceeded = true ↔ limit.toNat < (deliveredBy reads).length) := by
  obtain ⟨hbytes, hlength, hexceeded⟩ := readBoundedFrom_spec h (Nat.zero_le _)
  refine ⟨by simpa using hbytes, hlength, ?_⟩
  simpa using hexceeded

theorem runOutput_exceeded {logs : ContainerLogs} {stdoutReads stderrReads : List (List UInt8)}
    (h : runOutput limit stdoutReads stderrReads = some logs) :
    (enforceOutputLimit logs limit.toNat).outputLimitExceeded = true ↔
      limit.toNat < (deliveredBy stdoutReads).length + (deliveredBy stderrReads).length := by
  simp only [runOutput, Option.bind_eq_bind, Option.bind_eq_some_iff, Option.pure_def, Option.some.injEq] at h
  obtain ⟨stdout, hstdout, stderr, hstderr, rfl⟩ := h
  obtain ⟨hout, houtRoom, houtExceeded⟩ := readBounded_spec hstdout
  obtain ⟨herr, herrRoom, herrExceeded⟩ := readBounded_spec hstderr
  have houtLength : stdout.bytes.length = min limit.toNat
    (deliveredBy stdoutReads).length := by rw [hout, List.length_take]
  have herrLength : stderr.bytes.length = min limit.toNat
    (deliveredBy stderrReads).length := by rw [herr, List.length_take]
  -- neither vector is long enough for the sum of the lengths to saturate
  have hsum : saturatingAdd stdout.bytes.length stderr.bytes.length = stdout.bytes.length + stderr.bytes.length := by
    unfold vecCapacity at houtRoom herrRoom
    unfold saturatingAdd
    omega
  unfold enforceOutputLimit
  by_cases hwithin : saturatingAdd stdout.bytes.length stderr.bytes.length ≤ limit.toNat
  · rw [if_pos hwithin, Bool.or_eq_true, Bool.or_eq_true, decide_eq_true_eq, houtExceeded, herrExceeded]
    omega
  · rw [if_neg hwithin]
    simp only [true_iff]
    omega

end bounded

section following

variable {limit : UInt64} {log : FollowHistory} {s s' : Follower} {stream : ContainerLogStream}
variable {action : FollowAction} {shown : Option ContainerLogChunk} {buffer : List UInt8}

def ContainerLogChunk.SliceOf (chunk : ContainerLogChunk) (bytes : List UInt8) : Prop :=
  chunk.bytes ≠ [] ∧ chunk.bytes = (bytes.drop chunk.byteOffset).take chunk.bytes.length

theorem ContainerLogChunk.SliceOf.append {chunk : ContainerLogChunk} {bytes : List UInt8} (h : chunk.SliceOf bytes)
    (more : List UInt8) : chunk.SliceOf (bytes ++ more) := by
  obtain ⟨hne, hslice⟩ := h
  have hlength := congrArg List.length hslice
  rw [List.length_take, List.length_drop] at hlength
  have hpos : 0 < chunk.bytes.length := List.length_pos_iff.mpr hne
  refine ⟨hne, ?_⟩
  rw [List.drop_append_of_le_length (by omega), List.take_append_of_le_length (by rw [List.length_drop]; omega)]
  exact hslice

theorem readFrom_append : readFrom stream (log ++ [(action, shown)]) = readFrom stream log ++ action.buffer stream := by
  simp [readFrom]

theorem readTotal_read :
    readTotal (log ++ [(FollowAction.read stream buffer, shown)]) = readTotal log + buffer.length := by
  unfold readTotal
  rw [readFrom_append, readFrom_append, List.length_append, List.length_append]
  cases stream with
  | stdout | stderr =>
    simp only [FollowAction.buffer, if_true, reduceCtorEq, if_false, List.length_nil]
    omega

variable {reader : FollowReader} {other : ContainerLogStream}

@[simp] theorem withReader_same : (s.withReader stream reader).reader stream = reader :=
  Function.update_self ..

theorem withReader_other (h : other ≠ stream) : (s.withReader stream reader).reader other = s.reader other :=
  Function.update_of_ne h ..

structure Following (limit : UInt64) (log : FollowHistory) (s : Follower) : Prop where
  counted : s.total = min (readTotal log) (2 ^ 64 - 1)
  retained : ∀ stream, (s.reader stream).bytes <+: readFrom stream log
  complete : readTotal log ≤ limit.toNat → ∀ stream, (s.reader stream).phase ≠ .failed →
    (s.reader stream).bytes = readFrom stream log
  bounded : (s.reader .stdout).bytes.length + (s.reader .stderr).bytes.length ≤ min limit.toNat (readTotal log)
  flagged : ∀ stream, (s.reader stream).exceeded = true → limit.toNat < readTotal log
  signalled : s.limitSent = true → limit.toNat < readTotal log
  raised : limit.toNat < readTotal log →
    (∃ stream, (s.reader stream).phase = .failed) ∨ ∃ stream, (s.reader stream).exceeded = true
  shown : ∀ action chunk, (action, some chunk) ∈ log → chunk.SliceOf (s.reader chunk.stream).bytes

theorem Following.start : Following limit [] .start where
  counted := rfl
  retained _ := List.nil_prefix
  complete _ _ _ := rfl
  bounded := Nat.zero_le _
  flagged _ h := by cases h
  signalled h := by cases h
  raised h := by cases h
  shown _ _ h := by cases h

theorem Following.stop (h : Following limit log s) (phase : ReaderPhase) (hreading : (s.reader stream).phase = .reading)
    (hempty : ∀ other, action.buffer other = []) :
    Following limit (log ++ [(action, none)]) (s.withReader stream { s.reader stream with phase := phase }) := by
  have hread : ∀ other, readFrom other (log ++ [(action, none)]) = readFrom other log := by
    intro other
    rw [readFrom_append, hempty, List.append_nil]
  have htotal : readTotal (log ++ [(action, none)]) = readTotal log := by
    unfold readTotal
    rw [hread, hread]
  have hbytes : ∀ other, ((s.withReader stream { s.reader stream with phase := phase }).reader other).bytes =
      (s.reader other).bytes := by
    intro other
    by_cases hother : other = stream
    · rw [hother, withReader_same]
    · rw [withReader_other hother]
  have hexceeded : ∀ other, ((s.withReader stream { s.reader stream with phase := phase }).reader other).exceeded =
      (s.reader other).exceeded := by
    intro other
    by_cases hother : other = stream
    · rw [hother, withReader_same]
    · rw [withReader_other hother]
  constructor
  · rw [htotal]
    exact h.counted
  · intro other
    rw [hbytes, hread]
    exact h.retained other
  · intro hwithin other hphase
    rw [htotal] at hwithin
    rw [hbytes, hread]
    refine h.complete hwithin other fun hfailed => ?_
    by_cases hother : other = stream
    · rw [hother, hreading] at hfailed
      cases hfailed
    · rw [withReader_other hother] at hphase
      exact hphase hfailed
  · rw [hbytes, hbytes, htotal]
    exact h.bounded
  · intro other
    rw [hexceeded, htotal]
    exact h.flagged other
  · rw [htotal]
    exact h.signalled
  · intro hover
    rw [htotal] at hover
    rcases h.raised hover with ⟨other, hfailed⟩ | ⟨other, hflag⟩
    · refine .inl ⟨other, ?_⟩
      have hother : other ≠ stream := by
        intro hother
        rw [hother, hreading] at hfailed
        cases hfailed
      rw [withReader_other hother]
      exact hfailed
    · exact .inr ⟨other, by rw [hexceeded]; exact hflag⟩
  · intro earlier chunk hmem
    rw [hbytes]
    rw [List.mem_append, List.mem_singleton] at hmem
    rcases hmem with hmem | hmem
    · exact h.shown earlier chunk hmem
    · cases hmem

theorem toNat_le_max (limit : UInt64) : limit.toNat ≤ 2 ^ 64 - 1 := Nat.le_pred_of_lt limit.toNat_lt

theorem Following.keep_all (h : Following limit log s)
    (hwithin : readTotal log + buffer.length ≤ limit.toNat) : s.keep limit buffer = buffer.length := by
  have hcounted := h.counted
  have hmax := toNat_le_max limit
  unfold Follower.keep
  omega

theorem Following.keep_bounded (h : Following limit log s) {buffer : List UInt8} :
    (s.reader .stdout).bytes.length + (s.reader .stderr).bytes.length + s.keep limit buffer ≤
      min limit.toNat (readTotal log + buffer.length) := by
  have hcounted := h.counted
  have hbounded := h.bounded
  have hmax := toNat_le_max limit
  unfold Follower.keep
  omega

theorem Following.keep_behind (h : Following limit log s) (hreading : (s.reader stream).phase = .reading)
    (hkeep : 0 < s.keep limit buffer) : (s.reader stream).bytes = readFrom stream log := by
  have hcounted := h.counted
  have hmax := toNat_le_max limit
  have hwithin : readTotal log ≤ limit.toNat := by
    unfold Follower.keep at hkeep
    omega
  refine h.complete hwithin stream fun hfailed => ?_
  rw [hreading] at hfailed
  cases hfailed

theorem Following.keep_less (h : Following limit log s)
    (hflag : limit.toNat < saturatingAdd s.total buffer.length ∨ s.keep limit buffer < buffer.length) :
    limit.toNat < readTotal log + buffer.length := by
  have hcounted := h.counted
  unfold saturatingAdd Follower.keep at hflag
  omega

theorem Following.less_keep (h : Following limit log s) (hwithin : readTotal log ≤ limit.toNat)
    (hover : limit.toNat < readTotal log + buffer.length) : s.keep limit buffer < buffer.length := by
  have hcounted := h.counted
  have hmax := toNat_le_max limit
  unfold Follower.keep
  omega

theorem Following.keep_none (h : Following limit log s) (hne : buffer ≠ [])
    (hover : limit.toNat < readTotal log) : s.keep limit buffer < buffer.length := by
  have hcounted := h.counted
  have hmax := toNat_le_max limit
  have hpos : 0 < buffer.length := List.length_pos_iff.mpr hne
  unfold Follower.keep
  omega

theorem Following.counted_read (h : Following limit log s) :
    saturatingAdd s.total buffer.length =
      min (readTotal (log ++ [(FollowAction.read stream buffer, shown)])) (2 ^ 64 - 1) := by
  have hcounted := h.counted
  rw [readTotal_read]
  unfold saturatingAdd
  omega

theorem readFrom_read :
    readFrom stream (log ++ [(FollowAction.read stream buffer, shown)]) = readFrom stream log ++ buffer := by
  rw [readFrom_append, FollowAction.buffer, if_pos rfl]

theorem readFrom_read_other (h : other ≠ stream) :
    readFrom other (log ++ [(FollowAction.read stream buffer, shown)]) = readFrom other log := by
  rw [readFrom_append, FollowAction.buffer, if_neg (Ne.symm h), List.append_nil]

theorem Following.read (h : Following limit log s) {more : List UInt8}
    (hreading : (s.reader stream).phase = .reading) (hmore : reader.bytes = (s.reader stream).bytes ++ more)
    (hkept : more.length ≤ s.keep limit buffer) (hretained : reader.bytes <+: readFrom stream log ++ buffer)
    (hcomplete : readTotal log + buffer.length ≤ limit.toNat → reader.phase ≠ .failed →
      reader.bytes = readFrom stream log ++ buffer)
    (hflag : reader.exceeded = true → limit.toNat < readTotal log + buffer.length)
    (hraised : limit.toNat < readTotal log + buffer.length → reader.phase = .failed ∨ reader.exceeded = true)
    (hshown : ∀ chunk, shown = some chunk → chunk.stream = stream ∧ chunk.SliceOf reader.bytes) :
    Following limit (log ++ [(FollowAction.read stream buffer, shown)])
      ((s.count limit buffer).withReader stream reader) := by
  have hother : ∀ other, other ≠ stream →
      ((s.count limit buffer).withReader stream reader).reader other = s.reader other :=
    fun _ hother => withReader_other hother
  have hsame : ((s.count limit buffer).withReader stream reader).reader stream = reader := withReader_same
  constructor
  · exact h.counted_read
  · intro other
    by_cases heq : other = stream
    · rw [heq, hsame, readFrom_read]
      exact hretained
    · rw [hother other heq, readFrom_read_other heq]
      exact h.retained other
  · intro hwithin other hphase
    rw [readTotal_read] at hwithin
    by_cases heq : other = stream
    · rw [heq, hsame] at hphase
      rw [heq, hsame, readFrom_read]
      exact hcomplete hwithin hphase
    · rw [hother other heq] at hphase
      rw [hother other heq, readFrom_read_other heq]
      exact h.complete (by omega) other hphase
  · have hbounded := @Following.keep_bounded _ _ _ h buffer
    have hlength : reader.bytes.length ≤ (s.reader stream).bytes.length + s.keep limit buffer := by
      rw [hmore, List.length_append]
      omega
    rw [readTotal_read]
    cases stream with
    | stdout =>
      rw [hsame, hother .stderr (by decide)]
      omega
    | stderr =>
      rw [hsame, hother .stdout (by decide)]
      omega
  · intro other hexceeded
    rw [readTotal_read]
    by_cases heq : other = stream
    · rw [heq, hsame] at hexceeded
      exact hflag hexceeded
    · rw [hother other heq] at hexceeded
      have hbefore := h.flagged other hexceeded
      omega
  · intro hsent
    rw [readTotal_read]
    have hcases : s.limitSent = true ∨ limit.toNat < saturatingAdd s.total buffer.length := by
      simpa [Follower.withReader, Follower.count] using hsent
    rcases hcases with hsent | hover
    · have hbefore := h.signalled hsent
      omega
    · exact h.keep_less (.inl hover)
  · intro hover
    rw [readTotal_read] at hover
    rcases hraised hover with hfailed | hexceeded
    · exact .inl ⟨stream, by rw [hsame]; exact hfailed⟩
    · exact .inr ⟨stream, by rw [hsame]; exact hexceeded⟩
  · intro earlier chunk hmem
    rw [List.mem_append, List.mem_singleton] at hmem
    rcases hmem with hmem | hmem
    · have hslice := h.shown earlier chunk hmem
      by_cases heq : chunk.stream = stream
      · rw [heq, hsame, hmore]
        rw [heq] at hslice
        exact hslice.append more
      · rw [hother _ heq]
        exact hslice
    · obtain ⟨heq, hslice⟩ := hshown chunk (Prod.mk.inj hmem).2.symm
      rw [heq, hsame]
      exact hslice

theorem Following.take (h : Following limit log s) (hreading : (s.reader stream).phase = .reading)
    (hne : buffer ≠ []) :
    Following limit (log ++ [(FollowAction.read stream buffer, (s.take limit stream buffer).2)])
      (s.take limit stream buffer).1 := by
  have hgrown : readFrom stream log <+: readFrom stream log ++ buffer := List.prefix_append _ _
  rw [Follower.take]
  cases hextend : extendFromSlice (s.reader stream).bytes (buffer.take (s.keep limit buffer)) with
  | none =>
    -- the vector is full, and the thread of the reader panics after the count
    have hmore : (s.reader stream).bytes = (s.reader stream).bytes ++ [] := (List.append_nil _).symm
    refine h.read hreading hmore (Nat.zero_le _) ((h.retained stream).trans hgrown) ?_ ?_ ?_ ?_
    · intro _ hphase
      exact absurd rfl hphase
    · intro hexceeded
      have hbefore := h.flagged stream hexceeded
      omega
    · intro _
      exact .inl rfl
    · intro chunk hchunk
      cases hchunk
  | some bytes =>
    obtain ⟨rfl, _⟩ := extendFromSlice_eq hextend
    have hlength : (buffer.take (s.keep limit buffer)).length = s.keep limit buffer := by
      rw [List.length_take]
      exact Nat.min_eq_left (Nat.min_le_right _ _)
    refine h.read hreading rfl (Nat.le_of_eq hlength) ?_ ?_ ?_ ?_ ?_
    · by_cases hkeep : 0 < s.keep limit buffer
      · rw [h.keep_behind hreading hkeep]
        exact List.prefix_append_right_inj _ |>.mpr (List.take_prefix _ _)
      · rw [Nat.eq_zero_of_not_pos hkeep, List.take_zero, List.append_nil]
        exact (h.retained stream).trans hgrown
    · intro hwithin _
      have hall := h.keep_all hwithin
      have hpos : 0 < s.keep limit buffer := by
        rw [hall]
        exact List.length_pos_iff.mpr hne
      simp only [hall, List.take_length, h.keep_behind hreading hpos]
    · intro hexceeded
      simp only [Bool.or_eq_true, decide_eq_true_eq, or_assoc] at hexceeded
      rcases hexceeded with hbefore | hnow
      · have hbefore := h.flagged stream hbefore
        omega
      · exact h.keep_less hnow
    · intro hover
      refine .inr ?_
      simp only [Bool.or_eq_true, decide_eq_true_eq, or_assoc]
      by_cases hwithin : readTotal log ≤ limit.toNat
      · exact .inr (.inr (h.less_keep hwithin hover))
      · exact .inr (.inr (h.keep_none hne (by omega)))
    · intro chunk hchunk
      by_cases hkeep : 0 < s.keep limit buffer
      · simp only [if_pos hkeep, Option.some.injEq] at hchunk
        subst hchunk
        refine ⟨rfl, ?_, ?_⟩
        · exact List.length_pos_iff.mp (by rw [hlength]; exact hkeep)
        · simp only [List.drop_left, List.take_length]
      · simp only [if_neg hkeep, reduceCtorEq] at hchunk

theorem Following.step (h : Following limit log s) (hact : s.act limit action = some (s', shown)) :
    Following limit (log ++ [(action, shown)]) s' := by
  cases action with
  | read stream buffer =>
    rw [Follower.act] at hact
    by_cases hready : (s.reader stream).phase = .reading ∧ buffer.length ≤ readBufferLen
    · rw [if_pos hready] at hact
      by_cases hend : buffer = []
      · rw [if_pos hend] at hact
        cases hact
        refine h.stop .finished hready.1 fun other => ?_
        simp [FollowAction.buffer, hend]
      · rw [if_neg hend, Option.some.injEq] at hact
        have htaken := h.take hready.1 hend
        rw [hact] at htaken
        exact htaken
    · rw [if_neg hready] at hact
      cases hact
  | fail stream =>
    rw [Follower.act] at hact
    by_cases hready : (s.reader stream).phase = .reading
    · rw [if_pos hready] at hact
      cases hact
      exact h.stop .failed hready fun _ => rfl
    · rw [if_neg hready] at hact
      cases hact

theorem Run.following (h : Run (readFollowBounded limit) anything log s) : Following limit log s :=
  h.invariant Following.start fun _ _ _ _ _ hinv _ hact => hinv.step hact

/-- What a reader of the container's output may rely on once both streams have been read. -/
structure OutputRead (limit : UInt64) (log : FollowHistory) (s : Follower) : Prop where
  flag : ((s.reader .stdout).exceeded || (s.reader .stderr).exceeded) = true ↔ limit.toNat < readTotal log
  returned : ∀ killedForLimit, (killedForLimit = true → s.limitSent = true) →
    (s.outputLimitExceeded limit killedForLimit = true ↔ limit.toNat < readTotal log)
  complete : readTotal log ≤ limit.toNat → ∀ stream, (s.reader stream).bytes = readFrom stream log
  agrees : ∀ stdoutReads stderrReads logs, deliveredBy stdoutReads = readFrom .stdout log →
    deliveredBy stderrReads = readFrom .stderr log → runOutput limit stdoutReads stderrReads = some logs →
    (enforceOutputLimit logs limit.toNat).outputLimitExceeded =
      ((s.reader .stdout).exceeded || (s.reader .stderr).exceeded)

theorem Following.flag_iff (h : Following limit log s) (hfinished : ∀ stream, (s.reader stream).phase = .finished) :
    ((s.reader .stdout).exceeded || (s.reader .stderr).exceeded) = true ↔ limit.toNat < readTotal log := by
  rw [Bool.or_eq_true]
  constructor
  · intro hflag
    rcases hflag with hflag | hflag
    · exact h.flagged .stdout hflag
    · exact h.flagged .stderr hflag
  · intro hover
    rcases h.raised hover with ⟨stream, hfailed⟩ | ⟨stream, hflag⟩
    · rw [hfinished stream] at hfailed
      cases hfailed
    · cases stream with
      | stdout => exact .inl hflag
      | stderr => exact .inr hflag

/-- The followed streams are retained as prefixes within the limit that they share, each preview is a slice of its
stream, and the flag tells whether both together are longer than the limit, as on the path that reads them
one by one. -/
theorem output_followed (h : Run (readFollowBounded limit) anything log s) :
    (∀ stream, (s.reader stream).bytes <+: readFrom stream log) ∧
    (s.reader .stdout).bytes.length + (s.reader .stderr).bytes.length ≤ limit.toNat ∧
    (∀ action chunk, (action, some chunk) ∈ log → chunk.SliceOf (s.reader chunk.stream).bytes) ∧
    ((∀ stream, (s.reader stream).phase = .finished) → OutputRead limit log s) := by
  have hinv := Run.following h
  refine ⟨hinv.retained, Nat.le_trans hinv.bounded (Nat.min_le_left _ _), hinv.shown, fun hfinished => ?_⟩
  have hflag := hinv.flag_iff hfinished
  refine ⟨hflag, fun killedForLimit hkilled => ?_, fun hwithin stream => ?_,
    fun stdoutReads stderrReads logs hout herr hrun => ?_⟩
  · rw [Follower.outputLimitExceeded, Bool.or_assoc killedForLimit, Bool.or_eq_true, Bool.or_eq_true, hflag,
      decide_eq_true_eq]
    have hcounted := hinv.counted
    constructor
    · intro hcases
      rcases hcases with (hseen | hover) | hover
      · exact hinv.signalled (hkilled hseen)
      · exact hover
      · omega
    · intro hover
      exact .inl (.inr hover)
  · refine hinv.complete hwithin stream fun hfailed => ?_
    rw [hfinished stream] at hfailed
    cases hfailed
  · have hboth := runOutput_exceeded hrun
    rw [hout, herr] at hboth
    exact Bool.eq_iff_iff.mpr (hboth.trans hflag.symm)

def sampleReads : List FollowAction :=
  [.read .stdout [97, 98, 99], .read .stderr [100, 101, 102], .read .stdout [], .read .stderr []]

theorem output_followed_sample : ∃ log s, Run (readFollowBounded 5) anything log s ∧
    ((s.reader .stdout).bytes = [97, 98, 99] ∧ (s.reader .stderr).bytes = [100, 101]) ∧ OutputRead 5 log s := by
  obtain ⟨log, s, hrun, -, hcheck⟩ := play_reaches (readFollowBounded 5) anything (fun _ _ _ => true) sampleReads
    (fun _ s => (s.reader .stdout).bytes = [97, 98, 99] ∧ (s.reader .stderr).bytes = [100, 101] ∧
      (s.reader .stdout).phase = .finished ∧ (s.reader .stderr).phase = .finished)
    (fun _ _ _ _ => trivial) (allowedFrom_true _ _ _) (by decide)
  simp only [decide_eq_true_eq] at hcheck
  obtain ⟨hout, herr, houtFinished, herrFinished⟩ := hcheck
  refine ⟨log, s, hrun, ⟨hout, herr⟩, (output_followed hrun).2.2.2 fun stream => ?_⟩
  cases stream with
  | stdout => exact houtFinished
  | stderr => exact herrFinished

end following

end AlloyPort
