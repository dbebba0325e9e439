import AlloyPort.Library.Utf8
import AlloyPort.Worker.Operation

/-! The life of a control session: its opening, the delivery of what the outbox holds, and the loop over
server frames, heartbeats and the updates of executions, whose output it sends in bounded previews. -/

namespace AlloyPort

open Effect WorkerProgram

def isCharBoundary (bytes : List UInt8) (index : Nat) : Bool :=
  (bytes[index]?).all fun byte => ¬ (0x80 ≤ byte ∧ byte < 0xC0)

def boundaryAtOrBelow (bytes : List UInt8) (offset : Nat) : Nat → Nat
  | 0 => 0
  | end_ + 1 =>
    if end_ + 1 > offset ∧ isCharBoundary bytes (end_ + 1) = false then boundaryAtOrBelow bytes offset end_
    else end_ + 1

def boundedPreviewChunks (bytes : List UInt8) : Nat → Nat → List (Nat × List UInt8)
  | 0, _ => []
  | fuel + 1, offset =>
    if bytes.length ≤ offset then []
    else
      let limit := min (offset + maxOutputPreviewChunkBytes) bytes.length
      let end_ := if isUtf8 bytes then boundaryAtOrBelow bytes offset limit else limit
      (offset, (bytes.take end_).drop offset) :: boundedPreviewChunks bytes fuel end_

/-- What the closure of the iterator yields from its offset, and the offset it keeps. -/
def nextPreviewChunk (bytes : List UInt8) (offset : Nat) : Option ((Nat × List UInt8) × Nat) :=
  if bytes.length ≤ offset then none
  else
    -- A slice has less than 2^63 bytes: the sum does not saturate, and the offset is a `u64`.
    let limit := min (offset + maxOutputPreviewChunkBytes) bytes.length
    let end_ := if isUtf8 bytes then boundaryAtOrBelow bytes offset limit else limit
    some ((offset, (bytes.take end_).drop offset), end_)

def outputChunk (attemptId : String) (stderr : Bool) (byteOffset : Nat) (payload : List UInt8) : OutputChunk where
  attemptId := attemptId
  stream := if stderr then 2 else 1
  byteOffset := byteOffset
  displaySanitized := !isUtf8 payload
  payload := payload

inductive SessionFailure where
  | assignment (error : WorkerError)
  | cancel (error : WorkerError)
  | other (error : WorkerError)

namespace OutboundWorker

variable (worker : OutboundWorker)

def publishPending : List WorkerOutboxMessage → WorkerProgram WorkerError Unit
  | [] => return ()
  | entry :: rest => match entry.payload with
    | .executionFinished _ attemptId finished => do
      match ← operate (.publish attemptId.text finished) with
      | .ok () => publishPending rest
      | .error detail => .fail (.artifactPublication detail)
    | _ => publishPending rest

def publishPendingTerminalArtifacts : WorkerProgram WorkerError Unit :=
  if worker.publishesArtifacts then do
    let pending : List WorkerOutboxMessage ← journal .pendingOutbox
    publishPending pending
  else return ()

def retryCleanups : List LocalAttemptRecord → WorkerProgram WorkerError Unit
  | [] => return ()
  | attempt :: rest => do
    let executor := attempt.assignment.execution.executorKind
    let _ ← (if worker.backends.any (executor ∈ ·) then
        operate (.retryTerminalCleanup executor attempt.assignment.attemptId.text)
      else pure ())
    retryCleanups rest

def retryTerminalCudaCleanup : WorkerProgram WorkerError Unit :=
  match worker.backends with
  | none => return ()
  | some _ => do
    let attempts : List LocalAttemptRecord ← journal .attempts
    worker.retryCleanups (attempts.filter fun attempt => attempt.phase = .finished)

/-- Those that may run at once and have something to run on, less the ones that are not finished. -/
def availableSlots (usableDevices : Nat) : WorkerProgram WorkerError Nat := do
  let attempts : List LocalAttemptRecord ← journal .attempts
  let occupied := attempts.filter fun attempt => attempt.phase ≠ .finished
  let active := min (occupied.map (·.assignment.attemptId.text)).dedup.length (2 ^ 32 - 1)
  return match worker.hello.capabilities with
    | none => 0
    | some capabilities => min capabilities.maxConcurrency usableDevices - active

def activeAttempts : WorkerProgram WorkerError (List ActiveAttempt) := do
  let attempts : List LocalAttemptRecord ← journal .attempts
  return attempts.map LocalAttemptRecord.active

def probe : WorkerProgram WorkerError (List DeviceObservation × Bool) :=
  if worker.probesDevices then do
    match ← operate .deviceSnapshot with
    | .ok devices => return (devices, false)
    | .error _ => return ([], true)
  else return ([], false)

def buildHeartbeat : WorkerProgram WorkerError Heartbeat := do
  let activeAttempts ← activeAttempts
  let (devices, probeFailed) ← worker.probe
  let deviceHealthy := !probeFailed &&
    (!worker.probesDevices || devices.any fun device => device.health = .ready)
  let leases : List DeviceLease ← journal .activeDeviceLeases
  let leasedDevices := leases.map DeviceLease.deviceId
  let usableDevices := if worker.probesDevices then
      min (devices.countP fun device =>
        device.health = .ready ∧ device.processCount = 0 ∧ device.deviceId ∉ leasedDevices) (2 ^ 32 - 1)
    else 2 ^ 32 - 1
  let deviceLeases : List DeviceLease ← journal .activeDeviceLeases
  let availableSlots ← (if deviceHealthy && 0 < usableDevices then worker.availableSlots usableDevices else pure 0)
  let deviceFreeSlots ← worker.availableSlots (2 ^ 32 - 1)
  return {
    activeAttempts := activeAttempts
    availableSlots := availableSlots
    deviceFreeSlots := deviceFreeSlots
    health := if deviceHealthy then 1 else 2
    devices := devices.map DeviceObservation.wire
    deviceLeases := deviceLeases.map DeviceLease.wire }

def sendChunks (attemptId : String) (stderr : Bool) (byteOffset : Nat) (outbound : String) (acknowledged : Nat) :
    List (Nat × List UInt8) → Registers → WorkerProgram WorkerError Registers
  | [], registers => return registers
  | (relative, payload) :: rest, registers => do
    let registers ← sendEphemeral outbound acknowledged
      (.outputChunk (outputChunk attemptId stderr (saturatingAdd byteOffset relative) payload)) registers
    sendChunks attemptId stderr byteOffset outbound acknowledged rest registers

def handleExecutionUpdate (update : ExecutionUpdate) (connectionId outbound : String) (acknowledged : Nat)
    (registers : Registers) : WorkerProgram WorkerError Registers :=
  match update with
  | .observation _ .started => sendPendingOutbox connectionId outbound acknowledged registers
  | .observation attemptId (.output stderr byteOffset bytes) =>
    sendChunks attemptId stderr byteOffset outbound acknowledged (boundedPreviewChunks bytes bytes.length 0) registers
  | .completed attemptId (.error detail) => .fail (.backend s!"attempt {attemptId}: {detail}")
  | .completed _ (.ok ()) => sendPendingOutbox connectionId outbound acknowledged registers

def handleExecutionReceive (update : Except RecvError ExecutionUpdate) (connectionId outbound : String)
    (acknowledged : Nat) (registers : Registers) : WorkerProgram WorkerError Registers :=
  match update with
  | .ok update => handleExecutionUpdate update connectionId outbound acknowledged registers
  | .error .lagged => sendPendingOutbox connectionId outbound acknowledged registers
  | .error .closed => .fail (.protocol "execution update channel closed")

def welcomeIdentity (frame : ServerToWorker) : Except WorkerError (String × Nat) :=
  match frame.message with
  | some (.welcome welcome) =>
    if welcome.protocolMajor ≠ protocolMajor then
      .error (.protocol s!"server selected unsupported protocol major {welcome.protocolMajor}")
    else .ok (welcome.connectionId, welcome.protocolMinor)
  | _ => .error (.protocol "first server frame must be welcome")

def handleServerMessage (message : Option ServerMessage) (connectionId outbound : String) (acknowledged : Nat)
    (registers : Registers) : WorkerProgram SessionFailure (Bool × Registers) :=
  match message with
  | some (.welcome welcome) =>
    if welcome.protocolMajor ≠ protocolMajor then
      .fail (.other (.protocol s!"server selected unsupported protocol major {welcome.protocolMajor}"))
    else return (false, registers)
  | some (.assignment assignment) => do
    let registers ←
      (worker.handleAssignment assignment connectionId outbound acknowledged registers).mapError .assignment
    return (false, registers)
  | some (.drain _) => return (true, registers)
  | some (.cancel attemptId reason) => do
    let registers ← (worker.handleCancel attemptId reason connectionId outbound acknowledged registers).mapError .cancel
    return (false, registers)
  | some .acknowledgement => return (false, registers)
  | none => .fail (.other (.protocol "server message payload is missing"))

def resumeOutboxDelivery (connectionId outbound : String) (lastServerSequence lastWorkerSequenceAcknowledged : Nat)
    (registers : Registers) : WorkerProgram WorkerError Registers := do
  let _ ← journal (.acknowledgeOutbox connectionId lastWorkerSequenceAcknowledged)
  let _ ← WorkerState.pruneOldDeliveries
  sendPendingOutbox connectionId outbound lastServerSequence registers

structure ControlSession where
  connectionId : String
  outbound : String
  requireMessageIds : Bool
  lastServerSequence : Nat
  lastWorkerSequenceAcknowledged : Nat
  registers : Registers

def receiveFrame (incoming : Option (Except Status ServerToWorker)) (session : ControlSession) :
    WorkerProgram SessionFailure (Option ControlSession) :=
  match incoming with
  | none => .fail (.other .streamClosed)
  | some (.error status) => .fail (.other (.rpc status))
  | some (.ok message) => do
    (Prog.attempt (validateServerFrame message session.lastServerSequence session.lastWorkerSequenceAcknowledged
      (session.registers.nextWorkerSequence - 1) session.requireMessageIds)).mapError .other
    let (ended, registers) ← worker.handleServerMessage message.message session.connectionId session.outbound
      message.sequence session.registers
    if ended then return none
    else do
      let _ ← (journal (.acknowledgeOutbox session.connectionId message.acknowledgesWorkerThrough)).mapError .other
      return some { session with
        lastServerSequence := message.sequence
        lastWorkerSequenceAcknowledged := message.acknowledgesWorkerThrough
        registers := registers }

def takeTurn (input : SessionInput) (session : ControlSession) :
    WorkerProgram SessionFailure (Option ControlSession) :=
  match input with
  | .incoming message => worker.receiveFrame message session
  | .heartbeat => do
    let heartbeat ← worker.buildHeartbeat.mapError .other
    let registers ← (sendEphemeral session.outbound session.lastServerSequence (.heartbeat heartbeat)
      session.registers).mapError .other
    return some { session with registers := registers }
  | .update update => do
    let registers ← (handleExecutionReceive update session.connectionId session.outbound session.lastServerSequence
      session.registers).mapError .other
    return some { session with registers := registers }

def controlLoop : Nat → ControlSession → WorkerProgram SessionFailure Unit
  | 0, _ => return ()
  | turns + 1, session => do
    let input ← operate (.select session.outbound)
    match ← worker.takeTurn input session with
    | none => return ()
    | some session => controlLoop turns session

def openSession : WorkerProgram WorkerError ControlSession := do
  Prog.attempt (← operate .connect)
  let activeAttempts ← activeAttempts
  operate (.openControlStream worker.hello activeAttempts)
  let outbound ← Prog.attempt (← operate .response)
  match ← operate (.receive outbound) with
  | none => .fail .streamClosed
  | some (.error status) => .fail (.rpc status)
  | some (.ok welcomeFrame) => do
    Prog.attempt (validateServerFrame welcomeFrame 0 0 1 false)
    let (connectionId, negotiatedProtocolMinor) ← Prog.attempt (welcomeIdentity welcomeFrame)
    let registers ← resumeOutboxDelivery connectionId outbound welcomeFrame.sequence
      welcomeFrame.acknowledgesWorkerThrough ⟨2, []⟩
    return {
      connectionId := connectionId
      outbound := outbound
      requireMessageIds := negotiatedProtocolMinor ≥ 2
      lastServerSequence := welcomeFrame.sequence
      lastWorkerSequenceAcknowledged := welcomeFrame.acknowledgesWorkerThrough
      registers := registers }

def runControlSession (turns : Nat) : WorkerProgram SessionFailure Unit := do
  let session ← worker.openSession.mapError .other
  worker.controlLoop turns session

def runSession (turns : Nat) : WorkerProgram SessionFailure Unit := do
  worker.publishPendingTerminalArtifacts.mapError .other
  worker.retryTerminalCudaCleanup.mapError .other
  worker.runControlSession turns

end OutboundWorker

/-- The iterator yields the chunks from the offset and ends. -/
inductive YieldsPreviews (bytes : List UInt8) : Nat → List (Nat × List UInt8) → Prop where
  | ended {offset} (h : nextPreviewChunk bytes offset = none) : YieldsPreviews bytes offset []
  | yielded {offset chunk end_ chunks} (h : nextPreviewChunk bytes offset = some (chunk, end_))
      (rest : YieldsPreviews bytes end_ chunks) : YieldsPreviews bytes offset (chunk :: chunks)

/-- The chunks are the bytes from the offset on, one behind the other, none empty or too long. -/
structure SplitsPreview (bytes : List UInt8) (offset : Nat) (chunks : List (Nat × List UInt8)) : Prop where
  whole : (chunks.map Prod.snd).flatten = bytes.drop offset
  contiguous : ∀ before chunk after, chunks = before ++ chunk :: after →
    chunk.1 = offset + (before.map Prod.snd).flatten.length
  bounded : ∀ chunk ∈ chunks, chunk.2 ≠ [] ∧ chunk.2.length ≤ maxOutputPreviewChunkBytes
  unsplit : ∀ text : String, Utf8.bytesOf text = bytes → ∀ chunk ∈ chunks,
    Utf8.CharBoundary text.toList chunk.1 ∧ Utf8.CharBoundary text.toList (chunk.1 + chunk.2.length)

section previews

variable {bytes : List UInt8} {offset limit : Nat} {text : String}

theorem isUtf8_iff : isUtf8 bytes = true ↔ ∃ text, Utf8.bytesOf text = bytes := by
  constructor
  · intro h
    obtain ⟨cs, hcs⟩ := ByteArray.validateUTF8_eq_true_iff.mp h
    refine ⟨String.ofList cs, ?_⟩
    rw [Utf8.bytesOf, String.toByteArray_ofList, ← hcs]
  · rintro ⟨text, rfl⟩
    exact ByteArray.validateUTF8_eq_true_iff.mpr text.isValidUTF8

theorem isCharBoundary_iff (hbytes : Utf8.bytesOf text = bytes) (h : limit ≤ bytes.length) :
    isCharBoundary bytes limit = true ↔ Utf8.CharBoundary text.toList limit := by
  rw [Utf8.bytesOf_eq] at hbytes
  subst hbytes
  rw [Utf8.charBoundary_iff h, isCharBoundary, Option.all_eq_true]
  refine forall_congr' fun byte => imp_congr_right fun _ => ?_
  rw [decide_eq_true_eq]
  exact not_congr (and_congr UInt8.le_iff_toNat_le UInt8.lt_iff_toNat_lt)

theorem boundaryAtOrBelow_spec (h : offset ≤ limit) : offset ≤ boundaryAtOrBelow bytes offset limit ∧
    boundaryAtOrBelow bytes offset limit ≤ limit ∧
    (boundaryAtOrBelow bytes offset limit ≠ offset →
      isCharBoundary bytes (boundaryAtOrBelow bytes offset limit) = true) ∧
    ∀ index, boundaryAtOrBelow bytes offset limit < index → index ≤ limit → isCharBoundary bytes index = false := by
  induction limit with
  | zero =>
    obtain rfl : offset = 0 := Nat.le_zero.mp h
    refine ⟨Nat.le_refl 0, Nat.le_refl 0, fun hne => absurd rfl hne, fun index hlt hle => ?_⟩
    exact absurd hlt (Nat.not_lt_of_le hle)
  | succ limit ih =>
    unfold boundaryAtOrBelow
    split
    · rename_i hback
      obtain ⟨hge, hle, hcut, hnone⟩ := ih (by omega)
      refine ⟨hge, by omega, hcut, fun index hlt hindex => ?_⟩
      by_cases hlast : index = limit + 1
      · rw [hlast]
        exact hback.2
      · exact hnone index hlt (by omega)
    · rename_i hkept
      refine ⟨h, Nat.le_refl _, fun hne => ?_, fun index hlt hindex => by omega⟩
      by_contra hcut
      exact hkept ⟨by omega, by simpa using hcut⟩

theorem nextPreviewChunk_some (hlt : offset < bytes.length)
    (hcut : ∀ text, Utf8.bytesOf text = bytes → Utf8.CharBoundary text.toList offset) :
    ∃ end_, nextPreviewChunk bytes offset = some ((offset, (bytes.take end_).drop offset), end_) ∧ offset < end_ ∧
      end_ ≤ bytes.length ∧ end_ ≤ offset + maxOutputPreviewChunkBytes ∧
      ∀ text, Utf8.bytesOf text = bytes → Utf8.CharBoundary text.toList end_ := by
  obtain ⟨limit, hlimit⟩ : ∃ limit, limit = min (offset + maxOutputPreviewChunkBytes) bytes.length := ⟨_, rfl⟩
  have hroom : offset + 4 ≤ offset + maxOutputPreviewChunkBytes := by simp [maxOutputPreviewChunkBytes]
  refine ⟨_, by rw [nextPreviewChunk, if_neg (Nat.not_le_of_lt hlt)], ?_⟩
  rw [← hlimit]
  by_cases hvalid : isUtf8 bytes = true
  · rw [if_pos hvalid]
    obtain ⟨text, htext⟩ := isUtf8_iff.mp hvalid
    obtain ⟨hge, hle, hkept, hnone⟩ := @boundaryAtOrBelow_spec bytes _ _ (show offset ≤ limit by omega)
    generalize boundaryAtOrBelow bytes offset limit = end_ at hge hle hkept hnone
    have hne : end_ ≠ offset := by
      rintro rfl
      -- the character at the offset ends within the limit, at a boundary the search would have met
      obtain ⟨after, hafter, hbehind, hnear, hin⟩ :=
        (hcut text htext).next (by rw [← Utf8.bytesOf_eq, htext]; exact hlt)
      rw [← Utf8.bytesOf_eq, htext] at hin
      have hmet := hnone after hbehind (by omega)
      rw [(isCharBoundary_iff htext hin).mpr hafter] at hmet
      cases hmet
    refine ⟨by omega, by omega, by omega, fun other hother => ?_⟩
    exact (isCharBoundary_iff hother (by omega)).mp (hkept hne)
  · rw [if_neg hvalid]
    exact ⟨by omega, by omega, by omega, fun text htext => absurd (isUtf8_iff.mpr ⟨text, htext⟩) hvalid⟩

theorem SplitsPreview.cons {end_ : Nat} {chunks : List (Nat × List UInt8)} (h : SplitsPreview bytes end_ chunks)
    (hlt : offset < end_) (hle : end_ ≤ bytes.length) (hroom : end_ ≤ offset + maxOutputPreviewChunkBytes)
    (hcut : ∀ text, Utf8.bytesOf text = bytes →
      Utf8.CharBoundary text.toList offset ∧ Utf8.CharBoundary text.toList end_) :
    SplitsPreview bytes offset ((offset, (bytes.take end_).drop offset) :: chunks) := by
  have hlength : ((bytes.take end_).drop offset).length = end_ - offset := by
    rw [List.length_drop, List.length_take, Nat.min_eq_left hle]
  refine ⟨?_, ?_, fun chunk hm => ?_, fun text htext chunk hm => ?_⟩
  · rw [List.map_cons, List.flatten_cons, h.whole, ← List.drop_append_of_le_length (by simp; omega),
      List.take_append_drop]
  · intro before chunk after hchunks
    cases before with
    | nil =>
      obtain ⟨rfl, -⟩ := List.cons.inj hchunks
      rfl
    | cons first before =>
      obtain ⟨rfl, hrest⟩ := List.cons.inj hchunks
      rw [h.contiguous before chunk after hrest, List.map_cons, List.flatten_cons, List.length_append, hlength]
      omega
  · rcases List.mem_cons.mp hm with rfl | hm
    · exact ⟨List.ne_nil_of_length_pos (hlength ▸ Nat.sub_pos_of_lt hlt), hlength.le.trans (by omega)⟩
    · exact h.bounded chunk hm
  · rcases List.mem_cons.mp hm with rfl | hm
    · rw [hlength, Nat.add_sub_cancel' (Nat.le_of_lt hlt)]
      exact hcut text htext
    · exact h.unsplit text htext chunk hm

theorem boundedPreviewChunks_splits {fuel : Nat} (hfuel : bytes.length ≤ offset + fuel) (hle : offset ≤ bytes.length)
    (hcut : ∀ text, Utf8.bytesOf text = bytes → Utf8.CharBoundary text.toList offset) :
    YieldsPreviews bytes offset (boundedPreviewChunks bytes fuel offset) ∧
      SplitsPreview bytes offset (boundedPreviewChunks bytes fuel offset) := by
  induction fuel generalizing offset with
  | zero =>
    exact ⟨.ended (if_pos hfuel), (List.drop_eq_nil_of_le hfuel).symm, by simp [boundedPreviewChunks], nofun, nofun⟩
  | succ fuel ih =>
    by_cases hend : bytes.length ≤ offset
    · rw [boundedPreviewChunks, if_pos hend]
      exact ⟨.ended (if_pos hend), (List.drop_eq_nil_of_le hend).symm, by simp, nofun, nofun⟩
    · obtain ⟨end_, hnext, hlt, hin, hroom, hcut'⟩ := nextPreviewChunk_some (Nat.lt_of_not_le hend) hcut
      have hsame : boundedPreviewChunks bytes (fuel + 1) offset =
          (offset, (bytes.take end_).drop offset) :: boundedPreviewChunks bytes fuel end_ := by
        rw [nextPreviewChunk, if_neg hend] at hnext
        obtain ⟨-, rfl⟩ := Prod.mk.inj (Option.some.inj hnext)
        rw [boundedPreviewChunks, if_neg hend]
      obtain ⟨hyields, hsplits⟩ := ih (by omega) hin hcut'
      rw [hsame]
      exact ⟨.yielded hnext hyields, hsplits.cons hlt hin hroom fun text htext => ⟨hcut text htext, hcut' text htext⟩⟩

/-- The previews of any output end, cover it without gaps and keep its characters whole. -/
theorem output_previews_split_without_gaps (bytes : List UInt8) :
    YieldsPreviews bytes 0 (boundedPreviewChunks bytes bytes.length 0) ∧
      SplitsPreview bytes 0 (boundedPreviewChunks bytes bytes.length 0) :=
  boundedPreviewChunks_splits (Nat.le_add_left _ _) (Nat.zero_le _) fun _ _ => Utf8.charBoundary_zero

end previews

end AlloyPort
