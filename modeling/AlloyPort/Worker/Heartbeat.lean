import Mathlib.Data.List.Dedup
import AlloyPort.Wire.Frame
import AlloyPort.Worker.Answer
import AlloyPort.Worker.Control

/-! The frames that tell the server of a worker's attempts. A heartbeat is put together from several reads
of the journal and a probe, while executions go on; an admission waits for the session that builds it. -/

namespace AlloyPort

open Database Transaction JournalDatabase SqliteAttemptStore Effect Protobuf

/-- Executions operate on the journal beside a session, but only the session admits. -/
def journalMoves (db db' : JournalDatabase) : Prop :=
  ∃ e, JournalStep db e db' ∧ ∀ assignment atMs, e.call ≠ .admitAttempt assignment atMs

def journalActs (db : JournalDatabase) : (o : WorkerOp) → o.Reply → JournalDatabase → Prop
  | .journal operation, reply, db' => JournalStep db ⟨operation, reply⟩ db'
  | _, _, db' => db' = db

abbrev WorkerExecution {α : Type} (db : JournalDatabase) (p : WorkerProgram WorkerError α)
    (log : List (Exchange WorkerOp WorkerOp.Reply)) (db' : JournalDatabase) (x : Except WorkerError α) : Prop :=
  Execution journalActs journalMoves db p log db' x

abbrev Unadmitted := Relation.ReflTransGen journalMoves

structure HeartbeatReadings where
  attempts : List LocalAttemptRecord
  probed : Except Unit (List DeviceObservation)
  leases : List DeviceLease
  deviceLeases : List DeviceLease
  slots : List LocalAttemptRecord
  freeSlots : List LocalAttemptRecord

def unfinished (attempts : List LocalAttemptRecord) : List String :=
  (attempts.filter fun attempt => attempt.phase ≠ .finished).map fun attempt => attempt.assignment.attemptId.text

def OutboundWorker.slotsBeside (worker : OutboundWorker) (usableDevices : Nat) (attempts : List LocalAttemptRecord) :
    Nat :=
  match worker.hello.capabilities with
  | none => 0
  | some capabilities =>
    min capabilities.maxConcurrency usableDevices - min (unfinished attempts).dedup.length (2 ^ 32 - 1)

def OutboundWorker.observed (worker : OutboundWorker) (probed : Except Unit (List DeviceObservation)) :
    List DeviceObservation :=
  if worker.probesDevices then probed.toOption.getD [] else []

def OutboundWorker.probeFailed (worker : OutboundWorker) (probed : Except Unit (List DeviceObservation)) : Bool :=
  worker.probesDevices && probed.toOption.isNone

namespace HeartbeatReadings

variable (readings : HeartbeatReadings) (worker : OutboundWorker)

def devices : List DeviceObservation := worker.observed readings.probed

def isHealthy : Bool :=
  !worker.probeFailed readings.probed &&
    (!worker.probesDevices || (readings.devices worker).any fun device => device.health = .ready)

def usableDevices : Nat :=
  if worker.probesDevices then
    min ((readings.devices worker).countP fun device =>
      device.health = .ready ∧ device.processCount = 0 ∧ device.deviceId ∉ readings.leases.map DeviceLease.deviceId)
      (2 ^ 32 - 1)
  else 2 ^ 32 - 1

def isAvailable : Bool := readings.isHealthy worker && 0 < readings.usableDevices worker

def availableSlots : Nat :=
  if readings.isAvailable worker then worker.slotsBeside (readings.usableDevices worker) readings.slots else 0

def deviceFreeSlots : Nat := worker.slotsBeside (2 ^ 32 - 1) readings.freeSlots

def heartbeat : Heartbeat where
  activeAttempts := readings.attempts.map LocalAttemptRecord.active
  availableSlots := readings.availableSlots worker
  deviceFreeSlots := readings.deviceFreeSlots worker
  health := if readings.isHealthy worker then 1 else 2
  devices := (readings.devices worker).map DeviceObservation.wire
  deviceLeases := readings.deviceLeases.map DeviceLease.wire

def exchanges : List (Exchange WorkerOp WorkerOp.Reply) :=
  [⟨.journal .attempts, .ok readings.attempts⟩] ++
    (if worker.probesDevices then [⟨.deviceSnapshot, readings.probed⟩] else []) ++
    [⟨.journal .activeDeviceLeases, .ok readings.leases⟩, ⟨.journal .activeDeviceLeases, .ok readings.deviceLeases⟩] ++
    (if readings.isAvailable worker then [⟨.journal .attempts, .ok readings.slots⟩] else []) ++
    [⟨.journal .attempts, .ok readings.freeSlots⟩]

def Found (db : JournalDatabase) : Prop :=
  ∃ atAttempts atLeases, Unadmitted db atAttempts ∧ Unadmitted atAttempts atLeases ∧
    readings.attempts = SqliteAttemptStore.attempts atAttempts ∧
    SqliteAttemptStore.activeDeviceLeases atLeases = .ok readings.deviceLeases ∧
    ∃ atSlots atFreeSlots, Unadmitted atLeases atSlots ∧ Unadmitted atSlots atFreeSlots ∧
      (readings.isAvailable worker → readings.slots = SqliteAttemptStore.attempts atSlots) ∧
      readings.freeSlots = SqliteAttemptStore.attempts atFreeSlots

end HeartbeatReadings

open HeartbeatReadings

section executions

variable {db db' : JournalDatabase} {log : List (Exchange WorkerOp WorkerOp.Reply)} {worker : OutboundWorker}

theorem execution_journal {operation : JournalOperation} {result : operation.Result}
    (h : WorkerExecution db (WorkerProgram.journal operation) log db' (.ok result)) :
    ∃ db₁, Unadmitted db db₁ ∧ JournalStep db₁ ⟨operation, .ok result⟩ db' ∧
      log = [⟨.journal operation, (.ok result : operation.Reply)⟩] := by
  obtain ⟨reply, db₁, db₂, rest, rfl, hmoves, hacts, hrest⟩ := h.op_inv
  obtain ⟨rfl, rfl, hreply⟩ := hrest.attempt_inv
  have hreply : reply = .ok result := mapError_eq_ok.mp hreply
  subst hreply
  exact ⟨db₁, hmoves, hacts, rfl⟩

theorem execution_attempts {attempts : List LocalAttemptRecord}
    (h : WorkerExecution db (WorkerProgram.journal .attempts) log db' (.ok attempts)) :
    Unadmitted db db' ∧ attempts = SqliteAttemptStore.attempts db' ∧
      log = [⟨.journal .attempts, (.ok attempts : JournalOperation.attempts.Reply)⟩] := by
  obtain ⟨db₁, hmoves, hstep, hlog⟩ := execution_journal h
  obtain ⟨rfl, hread⟩ := hstep.read_answer (fun db => .ok (SqliteAttemptStore.attempts db)) rfl
  exact ⟨hmoves, (Except.ok.inj hread).symm, hlog⟩

theorem execution_activeDeviceLeases {leases : List DeviceLease}
    (h : WorkerExecution db (WorkerProgram.journal .activeDeviceLeases) log db' (.ok leases)) :
    Unadmitted db db' ∧ SqliteAttemptStore.activeDeviceLeases db' = .ok leases ∧
      log = [⟨.journal .activeDeviceLeases, (.ok leases : JournalOperation.activeDeviceLeases.Reply)⟩] := by
  obtain ⟨db₁, hmoves, hstep, hlog⟩ := execution_journal h
  obtain ⟨rfl, hread⟩ := hstep.read_answer SqliteAttemptStore.activeDeviceLeases rfl
  exact ⟨hmoves, hread, hlog⟩

theorem execution_availableSlots {usableDevices slots : Nat}
    (h : WorkerExecution db (worker.availableSlots usableDevices) log db' (.ok slots)) :
    ∃ attempts, Unadmitted db db' ∧ attempts = SqliteAttemptStore.attempts db' ∧
      slots = worker.slotsBeside usableDevices attempts ∧
      log = [⟨.journal .attempts, (.ok attempts : JournalOperation.attempts.Reply)⟩] := by
  obtain ⟨log₁, log₂, attempts, db₁, rfl, hread, hrest⟩ := h.bind_inv
  obtain ⟨hmoves, hattempts, rfl⟩ := execution_attempts hread
  obtain ⟨rfl, rfl, hslots⟩ := hrest.pure_inv
  exact ⟨attempts, hmoves, hattempts, hslots.symm, rfl⟩

theorem execution_probe {devices : List DeviceObservation} {failed : Bool}
    (h : WorkerExecution db worker.probe log db' (.ok (devices, failed))) :
    ∃ probed : Except Unit (List DeviceObservation), Unadmitted db db' ∧
      log = (if worker.probesDevices then [⟨.deviceSnapshot, probed⟩] else []) ∧
      devices = worker.observed probed ∧ failed = worker.probeFailed probed := by
  unfold OutboundWorker.probe at h
  unfold OutboundWorker.observed OutboundWorker.probeFailed
  by_cases hprobes : worker.probesDevices = true
  · rw [if_pos hprobes] at h
    obtain ⟨probed, db₁, db₂, rest, rfl, hmoves, hacts, hrest⟩ := h.op_inv
    have hsame : db₂ = db₁ := hacts
    subst hsame
    rw [hprobes]
    cases probed with
    | ok found =>
      obtain ⟨rfl, rfl, heq⟩ := hrest.pure_inv
      cases heq
      exact ⟨.ok devices, hmoves, rfl, rfl, rfl⟩
    | error e =>
      obtain ⟨rfl, rfl, heq⟩ := hrest.pure_inv
      cases heq
      exact ⟨.error e, hmoves, rfl, rfl, rfl⟩
  · rw [if_neg hprobes] at h
    obtain ⟨rfl, rfl, heq⟩ := h.pure_inv
    cases heq
    rw [Bool.eq_false_of_not_eq_true hprobes]
    exact ⟨.ok [], .refl, rfl, rfl, rfl⟩

theorem execution_buildHeartbeat {heartbeat : Heartbeat}
    (h : WorkerExecution db worker.buildHeartbeat log db' (.ok heartbeat)) :
    ∃ readings : HeartbeatReadings, readings.Found worker db ∧ log = readings.exchanges worker ∧
      heartbeat = readings.heartbeat worker := by
  unfold OutboundWorker.buildHeartbeat at h
  obtain ⟨_, _, _, db₁, rfl, hattempts, h₁⟩ := h.bind_inv
  obtain ⟨_, _, attempts, _, rfl, hread, hmap⟩ := hattempts.bind_inv
  obtain ⟨hmoves₁, hfound₁, rfl⟩ := execution_attempts hread
  obtain ⟨rfl, rfl, rfl⟩ := hmap.pure_inv
  obtain ⟨_, _, ⟨devices, failed⟩, db₂, rfl, hprobe, h₂⟩ := h₁.bind_inv
  obtain ⟨probed, hmoves₂, rfl, rfl, rfl⟩ := execution_probe hprobe
  obtain ⟨_, _, leases, db₃, rfl, hleases, h₃⟩ := h₂.bind_inv
  obtain ⟨hmoves₃, -, rfl⟩ := execution_activeDeviceLeases hleases
  obtain ⟨_, _, deviceLeases, db₄, rfl, hdeviceLeases, h₄⟩ := h₃.bind_inv
  obtain ⟨hmoves₄, hfound₄, rfl⟩ := execution_activeDeviceLeases hdeviceLeases
  obtain ⟨_, _, availableSlots, db₅, rfl, hslots, h₅⟩ := h₄.bind_inv
  obtain ⟨_, _, deviceFreeSlots, db₆, rfl, hfreeSlots, h₆⟩ := h₅.bind_inv
  obtain ⟨freeSlots, hmoves₆, hfound₆, rfl, rfl⟩ := execution_availableSlots hfreeSlots
  obtain ⟨rfl, rfl, rfl⟩ := h₆.pure_inv
  let readings (slots : List LocalAttemptRecord) : HeartbeatReadings :=
    ⟨attempts, probed, leases, deviceLeases, slots, freeSlots⟩
  -- The slots are read only where a device is available, and that is known before.
  replace hslots : WorkerExecution db₄ (if (readings []).isAvailable worker then
      worker.availableSlots ((readings []).usableDevices worker) else pure 0) _ db₅ (.ok availableSlots) := hslots
  by_cases havailable : (readings []).isAvailable worker = true
  · rw [if_pos havailable] at hslots
    obtain ⟨slots, hmoves₅, hfound₅, rfl, rfl⟩ := execution_availableSlots hslots
    have havailable : (readings slots).isAvailable worker = true := havailable
    refine ⟨readings slots, ⟨_, _, hmoves₁, (hmoves₂.trans hmoves₃).trans hmoves₄, hfound₁, hfound₄, _, _, hmoves₅,
      hmoves₆, fun _ => hfound₅, hfound₆⟩, ?_, ?_⟩
    · simp only [exchanges, if_pos havailable, List.append_assoc, List.nil_append, List.append_nil,
        List.cons_append]
      rfl
    · simp only [heartbeat, availableSlots, if_pos havailable]
      rfl
  · rw [if_neg havailable] at hslots
    obtain ⟨rfl, rfl, rfl⟩ := hslots.pure_inv
    refine ⟨readings [], ⟨_, _, hmoves₁, (hmoves₂.trans hmoves₃).trans hmoves₄, hfound₁, hfound₄, _, _, .refl,
      hmoves₆, fun hyes => absurd hyes havailable, hfound₆⟩, ?_, ?_⟩
    · simp only [exchanges, if_neg havailable, List.append_assoc, List.nil_append, List.append_nil,
        List.cons_append]
      rfl
    · simp only [heartbeat, availableSlots, if_neg havailable]
      rfl

end executions

section unadmitted

variable {db db' : JournalDatabase} {attemptId : String}

abbrev Admitless {α : Type} (attemptId : String) (t : JournalTransaction α) : Prop :=
  Keeps (fun db : JournalDatabase => (db.entry attemptId).attempt.isSome) t

theorem Admitless.of_keeps {α : Type} {t : JournalTransaction α} (h : Keeps entry t) : Admitless attemptId t :=
  fun db => congrArg (fun entries : String → LocalEntry => (entries attemptId).attempt.isSome) (h db)

theorem updateAttempt_admitless {changed : String} (f : LocalAttemptRow → LocalAttemptRow) (db : JournalDatabase) :
    ((updateAttempt changed f db).entry attemptId).attempt.isSome = (db.entry attemptId).attempt.isSome := by
  by_cases hid : attemptId = changed
  · rw [hid, updateAttempt_entry]
    exact Option.isSome_map
  · rw [updateAttempt_other hid]

theorem JournalStep.admitless {e : JournalEvent} (h : JournalStep db e db')
    (hquiet : ∀ assignment atMs, e.call ≠ .admitAttempt assignment atMs) :
    (db'.entry attemptId).attempt.isSome = (db.entry attemptId).attempt.isSome := by
  cases h with
  | failed => rfl
  | ran operation =>
    cases operation with
    | admitAttempt assignment atMs => exact absurd rfl (hquiet assignment atMs)
    | markRunning =>
      exact (markRunning_keeps updateAttempt_admitless fun _ _ => Admitless.of_keeps announce_keeps).run db
    | markFinished =>
      exact (markFinished_keeps updateAttempt_admitless fun _ _ => Admitless.of_keeps announce_keeps).run db
    | acquireDeviceLease => exact (acquireDeviceLease_keeps fun _ _ => rfl : Admitless attemptId _).run db
    | releaseDeviceLease => exact (releaseDeviceLease_keeps fun _ _ => rfl : Admitless attemptId _).run db
    | recordDevicePreflight => exact (recordDevicePreflight_keeps fun _ => rfl : Admitless attemptId _).run db
    | bindWorker => exact (Admitless.of_keeps bindWorker_keeps).run db
    | enqueueOutbox => exact (Admitless.of_keeps enqueueOutboxTransaction_keeps).run db
    | recordOutboxDelivery => exact (Admitless.of_keeps recordOutboxDelivery_keeps).run db
    | acknowledgeOutbox => exact (Admitless.of_keeps acknowledgeOutbox_keeps).run db
    | pruneOutboxDeliveries => exact (Admitless.of_keeps pruneOutboxDeliveries_keeps).run db
    | attempt | attempts | pendingOutbox | outboxLen | devicePreflight => rfl
    | activeDeviceLeases => exact (Admitless.of_keeps fun _ => rfl).run db

theorem unadmitted_run (h : Unadmitted db db') : ∃ log, JournalRun db log db' := by
  induction h with
  | refl => exact ⟨[], .start⟩
  | tail _ hmove ih =>
    obtain ⟨log, hlog⟩ := ih
    obtain ⟨e, hstep, -⟩ := hmove
    exact ⟨log ++ [e], .step hlog hstep⟩

theorem unadmitted_attempt (h : Unadmitted db db') :
    (db'.entry attemptId).attempt.isSome = (db.entry attemptId).attempt.isSome := by
  induction h with
  | refl => rfl
  | tail _ hmove ih =>
    obtain ⟨e, hstep, hquiet⟩ := hmove
    exact (hstep.admitless hquiet).trans ih

end unadmitted

section reads

variable {db db' : JournalDatabase} {log : List JournalEvent}

theorem mem_attempts {record : LocalAttemptRecord} :
    record ∈ SqliteAttemptStore.attempts db ↔
      ∃ attemptId row, (db.entry attemptId).attempt = some row ∧ row.record = record := by
  simp only [SqliteAttemptStore.attempts, List.mem_map, List.mem_insertionSort, entry]
  constructor
  · rintro ⟨⟨attemptId, row⟩, hmem, rfl⟩
    exact ⟨attemptId, row, AList.mem_lookup_iff.mpr hmem, rfl⟩
  · rintro ⟨attemptId, row, hrow, rfl⟩
    exact ⟨⟨attemptId, row⟩, AList.mem_lookup_iff.mp hrow, rfl⟩

theorem mem_unfinished {attemptId : String} (hfiled : db.Filed) :
    attemptId ∈ unfinished (SqliteAttemptStore.attempts db) ↔
      ∃ row, (db.entry attemptId).attempt = some row ∧ row.phase ≠ .finished := by
  simp only [unfinished, List.mem_map, List.mem_filter, mem_attempts, decide_eq_true_eq]
  constructor
  · rintro ⟨_, ⟨⟨id, row, hrow, rfl⟩, hphase⟩, rfl⟩
    have hid : row.assignment.attemptId.text = id := hfiled id row hrow
    refine ⟨row, ?_, hphase⟩
    show (db.entry row.assignment.attemptId.text).attempt = some row
    rw [hid]
    exact hrow
  · rintro ⟨row, hrow, hphase⟩
    exact ⟨row.record, ⟨⟨attemptId, row, hrow, rfl⟩, hphase⟩, hfiled attemptId row hrow⟩

theorem unfinished_shrinks (h : JournalRun .empty log db) (hmoves : Unadmitted db db') :
    (unfinished (SqliteAttemptStore.attempts db')).dedup.length ≤
      (unfinished (SqliteAttemptStore.attempts db)).dedup.length := by
  obtain ⟨log', hrun⟩ := unadmitted_run hmoves
  have hsubset : unfinished (SqliteAttemptStore.attempts db') ⊆ unfinished (SqliteAttemptStore.attempts db) := by
    intro attemptId hmem
    obtain ⟨row', hrow', hphase'⟩ := (mem_unfinished (h.trans hrun).filed).mp hmem
    have hsome : (db.entry attemptId).attempt.isSome = true := by
      rw [← unadmitted_attempt hmoves, hrow']
      rfl
    obtain ⟨row, hrow⟩ := Option.isSome_iff_exists.mp hsome
    refine (mem_unfinished h.filed).mpr ⟨row, hrow, fun hphase => ?_⟩
    obtain ⟨later, hlater, -, hfrozen⟩ := (hrun.endures attemptId).attempt row hrow
    rw [hrow'] at hlater
    cases hlater
    rw [hfrozen hphase] at hphase'
    exact hphase' hphase
  have hdedup : (unfinished (SqliteAttemptStore.attempts db')).dedup ⊆
      (unfinished (SqliteAttemptStore.attempts db)).dedup := by
    intro attemptId hmem
    exact List.mem_dedup.mpr (hsubset (List.mem_dedup.mp hmem))
  exact (List.subperm_of_subset (List.nodup_dedup _) hdedup).length_le

variable {leases : List DeviceLease}

theorem activeDeviceLeases_attempts (h : activeDeviceLeases db = .ok leases) :
    (leases.map fun lease => lease.attemptId.text).Nodup := by
  have hmap : ∀ (rows : List ((_ : String) × DeviceLeaseRow)) (leases : List DeviceLease),
      List.Forall₂ (fun row lease => lease.attemptId.text = row.1 ∧ lease.deviceId = row.2.deviceId) rows leases →
        leases.map (fun lease => lease.attemptId.text) = rows.map Sigma.fst := by
    intro rows leases hrows
    induction hrows with
    | nil => rfl
    | cons hrow _ ih => rw [List.map_cons, List.map_cons, hrow.1, ih]
  rw [hmap _ _ (activeDeviceLeases_rows h)]
  have hperm := List.perm_insertionSort leasedBefore (db.deviceLeases.entries.filter fun row =>
    row.2.releasedAtMs = none)
  rw [(hperm.map Sigma.fst).nodup_iff]
  exact List.Nodup.sublist (List.filter_sublist.map Sigma.fst) db.deviceLeases.nodupKeys

theorem activeDeviceLeases_devices (hexclusive : db.Exclusive)
    (h : activeDeviceLeases db = .ok leases) : (leases.map DeviceLease.deviceId).Nodup := by
  have hattempts := activeDeviceLeases_attempts h
  refine List.Nodup.map_on (fun lease hlease lease' hlease' hdevice => ?_) hattempts.of_map
  obtain ⟨row, hrow, hid, hactive⟩ := (activeDeviceLeases_shows h).held lease hlease
  obtain ⟨row', hrow', hid', hactive'⟩ := (activeDeviceLeases_shows h).held lease' hlease'
  refine List.inj_on_of_nodup_map hattempts hlease hlease' ?_
  exact hexclusive _ _ row row' hrow hrow' hactive hactive' (by rw [hid, hid', hdevice])

theorem activeDeviceLeases_named (h : JournalRun .empty log db) (hmoves : Unadmitted db db')
    (hleases : activeDeviceLeases db' = .ok leases) :
    ∀ lease ∈ leases, lease.attemptId.text ∈
      ((SqliteAttemptStore.attempts db).map LocalAttemptRecord.active).map ActiveAttempt.attemptId := by
  intro lease hlease
  obtain ⟨log', hrun⟩ := unadmitted_run hmoves
  obtain ⟨row, hrow, -, -⟩ := (activeDeviceLeases_shows hleases).held lease hlease
  have hlater : (db'.entry lease.attemptId.text).attempt ≠ none :=
    (h.trans hrun).leased _ (by rw [hrow]; exact nofun)
  have hsome : (db.entry lease.attemptId.text).attempt.isSome = true := by
    rw [← unadmitted_attempt hmoves]
    exact Option.isSome_iff_ne_none.mpr hlater
  obtain ⟨attempt, hattempt⟩ := Option.isSome_iff_exists.mp hsome
  rw [List.map_map]
  refine List.mem_map.mpr ⟨attempt.record, mem_attempts.mpr ⟨_, attempt, hattempt, rfl⟩, ?_⟩
  exact h.filed _ attempt hattempt

end reads

end AlloyPort
