import AlloyPort.Worker.Heartbeat

/-! When the server accepts what a worker tells of its attempts. Every attempt that was ever admitted is in a
hello and in a heartbeat, and a frame has room for so many. -/

namespace AlloyPort

open Database JournalDatabase SqliteAttemptStore Effect Protobuf LocalAttemptRecord

def OutboundWorker.advertised (worker : OutboundWorker) : List String :=
  match worker.hello.capabilities with
  | none => []
  | some capabilities => capabilities.devices.map WireAcceleratorDevice.deviceId

def LocalAttemptRecord.bytes (attempt : LocalAttemptRecord) : Nat :=
  textLen 1 attempt.assignment.assignmentId.text + textLen 2 attempt.assignment.attemptId.text + 2

structure HeartbeatAccepted (hello : WorkerHello) (sequence acknowledgesServerThrough : Nat) (heartbeat : Heartbeat) :
    Prop where
  valid : validateHeartbeat heartbeat = .ok ()
  known : WorkerControlService.validateHeartbeatAgainstHello heartbeat hello = .ok ()
  fits : heartbeatFrameLen sequence acknowledgesServerThrough heartbeat ≤ maxWorkerToServerMessageBytes

namespace HeartbeatReadings

variable (readings : HeartbeatReadings) (worker : OutboundWorker)

structure ForAdvertised : Prop where
  advertised : ∀ device ∈ readings.devices worker, device.deviceId ∈ worker.advertised
  once : ((readings.devices worker).map DeviceObservation.deviceId).Nodup

def bytes : Nat :=
  repeatedLen 1 LocalAttemptRecord.bytes readings.attempts + uintLen 2 (readings.availableSlots worker) + 2 +
    repeatedLen 4 (fun device => device.wire.encodedLen) (readings.devices worker) +
    repeatedLen 5 (fun lease => lease.wire.encodedLen) readings.deviceLeases +
    uintLen 6 (readings.deviceFreeSlots worker)

end HeartbeatReadings

structure HeartbeatFits (worker : OutboundWorker) (readings : HeartbeatReadings)
    (sequence acknowledgesServerThrough : Nat) : Prop where
  sensible : ∀ device ∈ readings.devices worker, device.wire.Plausible
  complete : "ascend-fixture-v1" ∈ worker.hello.features → readings.isHealthy worker = true →
    (readings.devices worker).length = worker.advertised.length
  leased : ∀ lease ∈ readings.deviceLeases, lease.deviceId ∈ worker.advertised
  room : headerLen sequence acknowledgesServerThrough "" + readings.bytes worker + 4 ≤ maxWorkerToServerMessageBytes

def HelloFits (worker : OutboundWorker) (attempts : List LocalAttemptRecord) : Prop :=
  worker.hello.encodedLen [] + repeatedLen 8 LocalAttemptRecord.bytes attempts + 6 ≤ maxWorkerToServerMessageBytes

theorem active_encodedLen (attempt : LocalAttemptRecord) : attempt.active.encodedLen = attempt.bytes := by
  have hphase : enumLen 3 attempt.phase.toI32 = 2 := by
    cases attempt.phase <;> decide
  unfold ActiveAttempt.encodedLen bytes
  exact congrArg _ hphase

variable {attempts : List LocalAttemptRecord} {n sequence acknowledged : Nat} {worker : OutboundWorker}
  {readings : HeartbeatReadings}

theorem repeatedLen_active {tag : Nat} :
    repeatedLen tag ActiveAttempt.encodedLen (attempts.map active) =
      repeatedLen tag bytes attempts := by
  rw [repeatedLen_map, funext active_encodedLen]

theorem hello_encodedLen {hello : WorkerHello} : hello.encodedLen (attempts.map active) =
      hello.encodedLen [] + repeatedLen 8 bytes attempts := by
  unfold WorkerHello.encodedLen
  rw [repeatedLen_active]
  rfl

theorem heartbeat_encodedLen :
    (readings.heartbeat worker).encodedLen = readings.bytes worker := by
  have hhealth : enumLen 3 (if readings.isHealthy worker = true then 1 else 2) = 2 := by
    cases readings.isHealthy worker <;> decide
  unfold Heartbeat.encodedLen HeartbeatReadings.heartbeat HeartbeatReadings.bytes
  simp only [repeatedLen_map, active_encodedLen, hhealth]

theorem ValidatedId.size_ne_zero {kind : IdKind} (id : ValidatedId kind) : id.text.utf8ByteSize ≠ 0 := by
  intro hempty
  have hblank : isBlank id.text = true := by
    rw [String.utf8ByteSize_eq_zero_iff.mp hempty]
    rfl
  rw [id.nonblank] at hblank
  cases hblank

theorem helloFrameLen_le_iff :
    helloFrameLen worker.hello (attempts.map active) ≤ maxWorkerToServerMessageBytes ↔
      HelloFits worker attempts := by
  have hheader : headerLen 1 0 "" = 2 := rfl
  have hmessage := @messageLen_le_iff 10 (worker.hello.encodedLen [] + repeatedLen 8 bytes attempts)
    (maxWorkerToServerMessageBytes - 2) (by decide) (by decide) (by decide)
  unfold helloFrameLen HelloFits
  unfold maxWorkerToServerMessageBytes at hmessage ⊢
  rw [hello_encodedLen, hheader]
  omega

theorem headerLen_le (sequence acknowledged : Nat) : headerLen sequence acknowledged "" ≤ 22 := by
  have hsequence : uintLen 1 sequence ≤ 11 := uintLen_le (by decide)
  have hacknowledged : uintLen 2 acknowledged ≤ 11 := uintLen_le (by decide)
  have hid : textLen 3 "" = 0 := rfl
  unfold headerLen
  omega

theorem heartbeatFrameLen_le_iff :
    heartbeatFrameLen sequence acknowledged (readings.heartbeat worker) ≤ maxWorkerToServerMessageBytes ↔
      headerLen sequence acknowledged "" + readings.bytes worker + 4 ≤ maxWorkerToServerMessageBytes := by
  have hheader := headerLen_le sequence acknowledged
  have hmessage := @messageLen_le_iff 11 (readings.bytes worker)
    (maxWorkerToServerMessageBytes - headerLen sequence acknowledged "") (by decide)
    (by unfold maxWorkerToServerMessageBytes; omega) (by unfold maxWorkerToServerMessageBytes; omega)
  unfold heartbeatFrameLen
  unfold maxWorkerToServerMessageBytes at hmessage ⊢
  rw [heartbeat_encodedLen]
  omega

theorem eight_le_bytes (attempt : LocalAttemptRecord) : 8 ≤ attempt.bytes := by
  have hassignment : 3 ≤ textLen 1 _ := three_le_textLen attempt.assignment.assignmentId.size_ne_zero
  have hattempt : 3 ≤ textLen 2 _ := three_le_textLen attempt.assignment.attemptId.size_ne_zero
  unfold bytes
  omega

theorem attempts_bytes (tag : Nat) (attempts : List LocalAttemptRecord) :
    10 * attempts.length ≤ repeatedLen tag bytes attempts :=
  mul_length_le_repeatedLen fun attempt _ => eight_le_bytes attempt

theorem HelloFits.length_le (h : HelloFits worker attempts) : attempts.length ≤ 13107 := by
  have hattempts := attempts_bytes 8 attempts
  unfold HelloFits maxWorkerToServerMessageBytes at h
  omega

theorem HeartbeatReadings.length_le
    (h : headerLen sequence acknowledged "" + readings.bytes worker + 4 ≤ maxWorkerToServerMessageBytes) :
    readings.attempts.length ≤ 13107 := by
  have hattempts := attempts_bytes 1 readings.attempts
  unfold HeartbeatReadings.bytes maxWorkerToServerMessageBytes at h
  omega

section accepted

variable {worker : OutboundWorker} {capabilities : WorkerCapabilities} {readings : HeartbeatReadings}
  {db : JournalDatabase} {log : List JournalEvent}

theorem wire_devices_ok_iff (hadvertised : readings.ForAdvertised worker)
    (hnames : ∀ deviceId ∈ worker.advertised, isBlank deviceId = false) :
    validateDevices [] ((readings.devices worker).map DeviceObservation.wire) = .ok () ↔
      ∀ device ∈ readings.devices worker, device.wire.Plausible := by
  rw [validateDevices_ok_iff, List.map_map]
  constructor
  · rintro ⟨hall, -⟩ device hdevice
    exact (hall _ (List.mem_map_of_mem hdevice)).2.2.2
  · intro hsensible
    refine ⟨fun wire hwire => ?_, hadvertised.once⟩
    obtain ⟨device, hdevice, rfl⟩ := List.mem_map.mp hwire
    have hhealth : 1 ≤ device.health.toI32 ∧ device.health.toI32 ≤ 4 := by
      cases device.health <;> decide
    exact ⟨hnames _ (hadvertised.advertised device hdevice), List.not_mem_nil, hhealth, hsensible device hdevice⟩

theorem slotsBeside_le (h : worker.hello.capabilities = some capabilities) {usableDevices : Nat}
    {attempts : List LocalAttemptRecord} : worker.slotsBeside usableDevices attempts ≤ capabilities.maxConcurrency := by
  unfold OutboundWorker.slotsBeside
  rw [h]
  exact (Nat.sub_le _ _).trans (Nat.min_le_left _ _)

theorem availableSlots_le_deviceFreeSlots (h : JournalRun .empty log db) (hfound : readings.Found worker db) :
    readings.availableSlots worker ≤ readings.deviceFreeSlots worker := by
  obtain ⟨_, atLeases, hmoves₁, hmoves₂, -, -, atSlots, atFreeSlots, hmoves₃, hmoves₄, hslots, hfree⟩ := hfound
  unfold HeartbeatReadings.availableSlots HeartbeatReadings.deviceFreeSlots
  split
  · rename_i havailable
    rw [hslots havailable, hfree]
    obtain ⟨log', hrun⟩ := unadmitted_run ((hmoves₁.trans hmoves₂).trans hmoves₃)
    have hfewer := unfinished_shrinks (h.trans hrun) hmoves₄
    have husable : readings.usableDevices worker ≤ 2 ^ 32 - 1 := by
      unfold HeartbeatReadings.usableDevices
      split
      · exact Nat.min_le_right _ _
      · exact Nat.le_refl _
    unfold OutboundWorker.slotsBeside
    split
    · exact Nat.le_refl _
    · omega
  · exact Nat.zero_le _

theorem wire_leases_ok (h : JournalRun .empty log db) (hfound : readings.Found worker db)
    (hnames : ∀ deviceId ∈ worker.advertised, isBlank deviceId = false)
    (hleased : ∀ lease ∈ readings.deviceLeases, lease.deviceId ∈ worker.advertised) :
    validateLeases [] [] (readings.deviceLeases.map DeviceLease.wire) = .ok () := by
  obtain ⟨_, atLeases, hmoves₁, hmoves₂, -, hleases, -⟩ := hfound
  obtain ⟨log', hrun⟩ := unadmitted_run (hmoves₁.trans hmoves₂)
  refine validateLeases_ok_iff.mpr ⟨fun wire hwire => ?_, ?_, ?_⟩
  · obtain ⟨lease, hlease, rfl⟩ := List.mem_map.mp hwire
    exact ⟨lease.attemptId.nonblank, hnames _ (hleased lease hlease), List.not_mem_nil, List.not_mem_nil⟩
  · rw [List.map_map]
    exact activeDeviceLeases_attempts hleases
  · rw [List.map_map]
    exact activeDeviceLeases_devices (h.trans hrun).exclusive hleases

theorem heartbeat_accepted_iff (hhello : validateWorkerHello worker.hello = .ok ()) (h : JournalRun .empty log db)
    (hfound : readings.Found worker db) (hadvertised : readings.ForAdvertised worker) {sequence acknowledged : Nat} :
    HeartbeatAccepted worker.hello sequence acknowledged (readings.heartbeat worker) ↔
      HeartbeatFits worker readings sequence acknowledged := by
  obtain ⟨capabilities, hcapabilities, hblank, hnodup⟩ := validateWorkerHello_ok hhello
  have hknown : worker.advertised = capabilities.devices.map WireAcceleratorDevice.deviceId := by
    unfold OutboundWorker.advertised
    rw [hcapabilities]
  have hnames : ∀ deviceId ∈ worker.advertised, isBlank deviceId = false := by
    intro deviceId hmem
    rw [hknown] at hmem
    obtain ⟨device, hdevice, rfl⟩ := List.mem_map.mp hmem
    exact hblank device hdevice
  have hhealthy : (readings.heartbeat worker).health = 1 ↔ readings.isHealthy worker = true := by
    show (if readings.isHealthy worker = true then (1 : Int) else 2) = 1 ↔ _
    cases readings.isHealthy worker <;> simp
  constructor
  · rintro ⟨hvalid, hagainst, hfits⟩
    obtain ⟨-, hdevices, -⟩ := validateHeartbeat_ok_iff.mp hvalid
    obtain ⟨-, -, ⟨-, hleases⟩, hcomplete, -⟩ := (validateHeartbeatAgainstHello_ok_iff hcapabilities).mp hagainst
    refine ⟨(wire_devices_ok_iff hadvertised hnames).mp hdevices, fun hfeature hready => ?_, fun lease hlease => ?_, ?_⟩
    · rw [hknown, ← hnodup.dedup, ← hcomplete hfeature (hhealthy.mpr hready)]
      exact (List.length_map _).symm
    · rw [hknown]
      exact hleases _ (List.mem_map_of_mem hlease)
    · exact heartbeatFrameLen_le_iff.mp hfits
  · rintro ⟨hsensible, hcomplete, hleased, hroom⟩
    refine ⟨validateHeartbeat_ok_iff.mpr ⟨?_, (wire_devices_ok_iff hadvertised hnames).mpr hsensible,
      wire_leases_ok h hfound hnames hleased⟩, (validateHeartbeatAgainstHello_ok_iff hcapabilities).mpr
      ⟨⟨?_, slotsBeside_le hcapabilities⟩, availableSlots_le_deviceFreeSlots h hfound, ⟨?_, ?_⟩, ?_, ?_⟩,
      heartbeatFrameLen_le_iff.mpr hroom⟩
    · show 1 ≤ (if readings.isHealthy worker = true then (1 : Int) else 2) ∧
        (if readings.isHealthy worker = true then (1 : Int) else 2) ≤ 3
      cases readings.isHealthy worker <;> decide
    · exact (availableSlots_le_deviceFreeSlots h hfound).trans (slotsBeside_le hcapabilities)
    · intro wire hwire
      obtain ⟨device, hdevice, rfl⟩ := List.mem_map.mp hwire
      rw [← hknown]
      exact hadvertised.advertised device hdevice
    · intro wire hwire
      obtain ⟨lease, hlease, rfl⟩ := List.mem_map.mp hwire
      rw [← hknown]
      exact hleased lease hlease
    · intro hfeature hready
      rw [hnodup.dedup, ← hknown, ← hcomplete hfeature (hhealthy.mp hready)]
      exact List.length_map _
    · intro wire hwire
      obtain ⟨lease, hlease, rfl⟩ := List.mem_map.mp hwire
      obtain ⟨atAttempts, atLeases, hmoves₁, hmoves₂, hattempts, hleases, -⟩ := hfound
      obtain ⟨log', hrun⟩ := unadmitted_run hmoves₁
      show lease.attemptId.text ∈ (readings.attempts.map active).map ActiveAttempt.attemptId
      rw [hattempts]
      exact activeDeviceLeases_named (h.trans hrun) hmoves₂ hleases lease hlease

end accepted

section still

variable {db : JournalDatabase} {worker : OutboundWorker} {leases : List DeviceLease}

def HeartbeatReadings.still (db : JournalDatabase) (leases : List DeviceLease)
    (probed : Except Unit (List DeviceObservation)) : HeartbeatReadings :=
  ⟨SqliteAttemptStore.attempts db, probed, leases, leases, SqliteAttemptStore.attempts db,
    SqliteAttemptStore.attempts db⟩

theorem journal_executes {operation : JournalOperation} {result : operation.Result}
    (h : operation.execute db = (db, .ok result)) :
    WorkerExecution db (WorkerProgram.journal operation) [⟨.journal operation, (.ok result : operation.Reply)⟩] db
      (.ok result) := by
  have hstep : JournalStep db ⟨operation, .ok result⟩ (operation.execute db).1 := .executed (by rw [h])
  rw [h] at hstep
  exact .op .refl hstep .ret

theorem availableSlots_executes {usableDevices : Nat} :
    WorkerExecution db (worker.availableSlots usableDevices)
      [⟨.journal .attempts, (.ok (SqliteAttemptStore.attempts db) : JournalOperation.attempts.Reply)⟩] db
      (.ok (worker.slotsBeside usableDevices (SqliteAttemptStore.attempts db))) :=
  Execution.bind (journal_executes rfl) .ret

theorem activeAttempts_executes :
    WorkerExecution db OutboundWorker.activeAttempts
      [⟨.journal .attempts, (.ok (SqliteAttemptStore.attempts db) : JournalOperation.attempts.Reply)⟩] db
      (.ok ((SqliteAttemptStore.attempts db).map active)) :=
  Execution.bind (journal_executes rfl) .ret

variable {probed : Except Unit (List DeviceObservation)}

theorem probe_executes :
    WorkerExecution db worker.probe (if worker.probesDevices then [⟨.deviceSnapshot, probed⟩] else []) db
      (.ok (worker.observed probed, worker.probeFailed probed)) := by
  unfold OutboundWorker.probe OutboundWorker.observed OutboundWorker.probeFailed
  by_cases hprobes : worker.probesDevices = true
  · rw [hprobes]
    cases probed with
    | ok | error => exact .op .refl rfl .ret
  · rw [Bool.eq_false_of_not_eq_true hprobes]
    exact .ret

open HeartbeatReadings

theorem buildHeartbeat_executes (h : activeDeviceLeases db = .ok leases) :
    WorkerExecution db worker.buildHeartbeat ((still db leases probed).exchanges worker) db
      (.ok ((still db leases probed).heartbeat worker)) := by
  have hleases : WorkerExecution db (WorkerProgram.journal .activeDeviceLeases)
      [⟨.journal .activeDeviceLeases, (.ok leases : JournalOperation.activeDeviceLeases.Reply)⟩] db (.ok leases) :=
    journal_executes (by simp [JournalOperation.execute, JournalOperation.transaction, Transaction.run,
      Transaction.runKeeping, h])
  have hslots : WorkerExecution db
      (if (still db leases probed).isAvailable worker then
        worker.availableSlots ((still db leases probed).usableDevices worker) else pure 0)
      (if (still db leases probed).isAvailable worker then
        [⟨.journal .attempts, (.ok (SqliteAttemptStore.attempts db) : JournalOperation.attempts.Reply)⟩] else []) db
      (.ok ((still db leases probed).availableSlots worker)) := by
    unfold availableSlots
    split
    · exact availableSlots_executes
    · exact .ret
  have hexec : WorkerExecution db worker.buildHeartbeat _ db _ :=
    Execution.bind activeAttempts_executes (Execution.bind probe_executes
      (Execution.bind hleases (Execution.bind hleases
      (Execution.bind hslots (Execution.bind availableSlots_executes .ret)))))
  unfold exchanges
  simp only [List.append_assoc, List.append_nil, List.nil_append, List.cons_append] at hexec ⊢
  exact hexec

end still

/-- What a session tells the server of a worker's attempts is accepted exactly when it fits: for every history of
the journal, whatever the journal and the probe answer while the frame is put together. -/
theorem session_frames_accepted_iff {worker : OutboundWorker} (hhello : validateWorkerHello worker.hello = .ok ())
    {log : List JournalEvent} {db : JournalDatabase} (h : JournalRun .empty log db) :
    (∀ events db' activeAttempts, WorkerExecution db OutboundWorker.activeAttempts events db' (.ok activeAttempts) →
      ∃ attempts, events = [⟨.journal .attempts, .ok attempts⟩] ∧ attempts = SqliteAttemptStore.attempts db' ∧
        (helloFrameLen worker.hello activeAttempts ≤ maxWorkerToServerMessageBytes ↔ HelloFits worker attempts)) ∧
    ∀ events db' heartbeat, WorkerExecution db worker.buildHeartbeat events db' (.ok heartbeat) →
      ∃ readings : HeartbeatReadings, events = readings.exchanges worker ∧ readings.Found worker db ∧
        (readings.ForAdvertised worker → ∀ sequence acknowledgesServerThrough,
          HeartbeatAccepted worker.hello sequence acknowledgesServerThrough heartbeat ↔
            HeartbeatFits worker readings sequence acknowledgesServerThrough) := by
  constructor
  · intro events db' activeAttempts hexec
    obtain ⟨_, _, attempts, _, rfl, hread, hmap⟩ := hexec.bind_inv
    obtain ⟨-, hfound, rfl⟩ := execution_attempts hread
    obtain ⟨rfl, rfl, rfl⟩ := hmap.pure_inv
    exact ⟨attempts, rfl, hfound, helloFrameLen_le_iff⟩
  · intro events db' heartbeat hexec
    obtain ⟨readings, hfound, hevents, rfl⟩ := execution_buildHeartbeat hexec
    exact ⟨readings, hevents, hfound, fun hadvertised _ _ => heartbeat_accepted_iff hhello h hfound hadvertised⟩

def ascendHello : WorkerHello where
  protocolMajor := 1
  protocolMinor := 7
  workerId := "worker"
  instanceId := "boot"
  workerVersion := "0.1.0"
  features := ["ascend-fixture-v1"]
  capabilities := some ⟨2, "aarch64", 2, 2, "25.0", "8.2", "docker",
    [⟨"3", "Ascend 910B", "SN-3", "7.5"⟩, ⟨"4", "Ascend 910B", "SN-4", "7.5"⟩]⟩
  registration := "registration"

def ascendWorker : OutboundWorker := ⟨ascendHello, ⟨false, 0, none⟩, none, false, false, true⟩

def ascendProbe : List DeviceObservation := [preflightSample, { preflightSample with deviceId := "4" }]

@[irreducible] def leasedSample : JournalDatabase :=
  executeJournal [.admitAttempt sampleContract 10, .acquireDeviceLease sampleContract.attemptId "3" 11] .empty

theorem leasedSample_attempts : SqliteAttemptStore.attempts leasedSample =
    [⟨sampleContract, .accepted, 10, 10, none⟩] := by
  unfold leasedSample
  decide

theorem leasedSample_leases : activeDeviceLeases leasedSample = .ok [⟨sampleContract.attemptId, "3", 11⟩] := by
  unfold leasedSample
  decide

theorem session_frames_accepted_sample :
    (∃ events db' activeAttempts,
      WorkerExecution leasedSample OutboundWorker.activeAttempts events db' (.ok activeAttempts) ∧
      activeAttempts ≠ [] ∧ helloFrameLen ascendHello activeAttempts ≤ maxWorkerToServerMessageBytes) ∧
    ∃ events db' heartbeat, WorkerExecution leasedSample ascendWorker.buildHeartbeat events db' (.ok heartbeat) ∧
      heartbeat.devices ≠ [] ∧ heartbeat.deviceLeases ≠ [] ∧ HeartbeatAccepted ascendHello 2 1 heartbeat := by
  obtain ⟨log, hrun⟩ : ∃ log, JournalRun .empty log leasedSample := by
    unfold leasedSample
    exact JournalRun.executeJournal _ _
  have hattempts := leasedSample_attempts
  obtain ⟨hhello, hheartbeat⟩ := @session_frames_accepted_iff ascendWorker (by decide) _ _ hrun
  constructor
  · obtain ⟨attempts, hevents, -, hfits⟩ := hhello _ _ _ activeAttempts_executes
    refine ⟨_, _, _, activeAttempts_executes, by rw [hattempts]; exact List.cons_ne_nil _ _, hfits.mpr ?_⟩
    cases hevents
    rw [hattempts]
    unfold HelloFits
    decide
  · have hexec := @buildHeartbeat_executes _ ascendWorker _ (.ok ascendProbe) leasedSample_leases
    refine ⟨_, _, _, hexec, List.cons_ne_nil _ _, List.cons_ne_nil _ _, ?_⟩
    obtain ⟨readings, hevents, -, hiff⟩ := hheartbeat _ _ _ hexec
    obtain ⟨attempts, probed, leases, deviceLeases, slots, freeSlots⟩ := readings
    simp only [HeartbeatReadings.exchanges, HeartbeatReadings.still, hattempts,
      show ascendWorker.probesDevices = true from rfl,
      if_true, List.cons_append, List.nil_append, List.cons.injEq, Sigma.mk.injEq, heq_eq_eq, true_and] at hevents
    obtain ⟨hattempts', rfl, hleases', hdeviceLeases', hrest⟩ := hevents
    cases hattempts'
    cases hleases'
    cases hdeviceLeases'
    -- The other device is free, so the slots are read.
    have hfree : ∀ slots freeSlots : List LocalAttemptRecord, HeartbeatReadings.isAvailable
        ⟨[⟨sampleContract, .accepted, 10, 10, none⟩], .ok ascendProbe, [⟨sampleContract.attemptId, "3", 11⟩],
          [⟨sampleContract.attemptId, "3", 11⟩], slots, freeSlots⟩ ascendWorker = true := fun _ _ => rfl
    simp only [hfree, if_true] at hrest
    cases hrest
    refine (hiff ⟨by decide, by decide⟩ 2 1).mpr ⟨fun device hdevice => ?_, fun _ _ => rfl, by decide, by decide⟩
    have hsound : ∀ device ∈ ascendProbe, device.utilizationPercent ≤ 100 ∧
        device.memoryUsedBytes ≤ device.memoryTotalBytes ∧ device.detail.utf8ByteSize ≤ 1024 := by decide
    obtain ⟨hutilization, hmemory, hdetail⟩ := hsound device hdevice
    exact ⟨hutilization, hmemory, hdetail⟩

section capacity

variable {readings : HeartbeatReadings} {worker : OutboundWorker} {capabilities : WorkerCapabilities}

def HeartbeatReadings.active (readings : HeartbeatReadings) : Nat := (unfinished readings.slots).dedup.length

theorem isHealthy_of_usable (h : 0 < readings.usableDevices worker) : readings.isHealthy worker = true := by
  unfold HeartbeatReadings.isHealthy
  by_cases hprobes : worker.probesDevices = true
  · unfold HeartbeatReadings.usableDevices at h
    rw [if_pos hprobes] at h
    obtain ⟨device, hdevice, hidle⟩ := List.countP_pos_iff.mp (Nat.lt_of_lt_of_le h (Nat.min_le_left _ _))
    have hready : device.health = .ready := (of_decide_eq_true hidle).1
    have hprobed : worker.probeFailed readings.probed = false := by
      cases hresult : readings.probed with
      | ok devices => exact Bool.and_false _
      | error e =>
        have hnone : readings.devices worker = [] := by
          rw [HeartbeatReadings.devices, hresult, OutboundWorker.observed, if_pos hprobes]
          rfl
        rw [hnone] at hdevice
        cases hdevice
    rw [hprobed, List.any_eq_true.mpr ⟨device, hdevice, decide_eq_true hready⟩, Bool.or_true]
    rfl
  · rw [Bool.eq_false_of_not_eq_true hprobes, OutboundWorker.probeFailed, Bool.eq_false_of_not_eq_true hprobes]
    rfl

theorem availableSlots_eq (hcapabilities : worker.hello.capabilities = some capabilities) :
    readings.availableSlots worker =
      min capabilities.maxConcurrency (readings.usableDevices worker) - min readings.active (2 ^ 32 - 1) := by
  unfold HeartbeatReadings.availableSlots
  by_cases husable : 0 < readings.usableDevices worker
  · have havailable : readings.isAvailable worker = true := by
      rw [HeartbeatReadings.isAvailable, isHealthy_of_usable husable]
      exact decide_eq_true husable
    rw [if_pos havailable, OutboundWorker.slotsBeside, hcapabilities]
    rfl
  · have havailable : ¬ readings.isAvailable worker = true := by
      intro havailable
      exact husable (of_decide_eq_true (Bool.and_eq_true_iff.mp havailable).2)
    rw [if_neg havailable]
    omega

/-- The slots left are the lesser of what is left to run and what there is to run it on just when nothing runs, there
is nothing to run on, or one of the two does not bound the other. -/
theorem heartbeat_slots_iff (hcapabilities : worker.hello.capabilities = some capabilities)
    (hmax : capabilities.maxConcurrency < 2 ^ 32) {db db' : JournalDatabase} {heartbeat : Heartbeat}
    {events : List (Exchange WorkerOp WorkerOp.Reply)}
    (h : WorkerExecution db worker.buildHeartbeat events db' (.ok heartbeat)) :
    ∃ readings : HeartbeatReadings, events = readings.exchanges worker ∧ readings.Found worker db ∧
      (heartbeat.availableSlots =
          min (capabilities.maxConcurrency - readings.active) (readings.usableDevices worker) ↔
        readings.active = 0 ∨ readings.usableDevices worker = 0 ∨
          capabilities.maxConcurrency ≤ readings.usableDevices worker ∨
          capabilities.maxConcurrency ≤ readings.active) := by
  obtain ⟨readings, hfound, hevents, rfl⟩ := execution_buildHeartbeat h
  refine ⟨readings, hevents, hfound, ?_⟩
  have hslots : (readings.heartbeat worker).availableSlots =
      min capabilities.maxConcurrency (readings.usableDevices worker) - min readings.active (2 ^ 32 - 1) :=
    availableSlots_eq hcapabilities
  rw [hslots]
  omega

end capacity

theorem heartbeat_slots_sample : ∃ (readings : HeartbeatReadings) (heartbeat : Heartbeat),
    WorkerExecution leasedSample ascendWorker.buildHeartbeat (readings.exchanges ascendWorker) leasedSample
      (.ok heartbeat) ∧ readings.Found ascendWorker leasedSample ∧
    (heartbeat.availableSlots = min (2 - readings.active) (readings.usableDevices ascendWorker) ↔
      readings.active = 0 ∨ readings.usableDevices ascendWorker = 0 ∨ 2 ≤ readings.usableDevices ascendWorker ∨
        2 ≤ readings.active) := by
  have hexec := @buildHeartbeat_executes _ ascendWorker _ (.ok ascendProbe) leasedSample_leases
  obtain ⟨readings, hevents, hfound, hslots⟩ := heartbeat_slots_iff rfl (by decide) hexec
  exact ⟨readings, _, hevents ▸ hexec, hfound, hslots⟩

/-- One of two executions runs on one of two devices, the other device is idle, and no slot is left. -/
theorem heartbeat_slots_starve : ∃ (readings : HeartbeatReadings) (heartbeat : Heartbeat),
    WorkerExecution leasedSample ascendWorker.buildHeartbeat (readings.exchanges ascendWorker) leasedSample
      (.ok heartbeat) ∧
    readings.active = 1 ∧ readings.usableDevices ascendWorker = 1 ∧
      heartbeat.availableSlots = 0 := by
  have hexec := @buildHeartbeat_executes _ ascendWorker _ (.ok ascendProbe) leasedSample_leases
  refine ⟨_, _, hexec, ?_, rfl, ?_⟩
  · rw [HeartbeatReadings.active, HeartbeatReadings.still, leasedSample_attempts]
    rfl
  · rw [HeartbeatReadings.heartbeat, HeartbeatReadings.still, leasedSample_attempts]
    rfl

theorem numbered_nonblank (n : Nat) : isBlank s!"attempt-{n}" = false := by
  simp [isBlank, ToString.toString, String.toList_append, isWhiteSpace]

def numberedContract (n : Nat) : AssignmentContract :=
  { sampleContract with attemptId := ⟨s!"attempt-{n}", numbered_nonblank n⟩ }

theorem numberedContract_inj {m : Nat}
    (h : (numberedContract n).attemptId.text = (numberedContract m).attemptId.text) : n = m := by
  have hh := congrArg String.toList h
  simp only [numberedContract, ToString.toString, String.toList_append] at hh
  refine Text.repr_toList_inj ?_
  simpa using hh

theorem acceptedMessage_inj {a b : StoredAssignment} {known known' : Bool}
    (h : (acceptedMessage a known).messageId = (acceptedMessage b known').messageId) :
    a.attemptId.text = b.attemptId.text := by
  have hh : ("assignment-accepted:" ++ a.attemptId.text).toList = ("assignment-accepted:" ++ b.attemptId.text).toList :=
    congrArg String.toList h
  rw [String.toList_append, String.toList_append] at hh
  exact String.toList_inj.mp (List.append_cancel_left hh)

def admissions (n : Nat) : List JournalOperation :=
  (List.range n).map fun i => .admitAttempt (numberedContract i) 10

structure Grown (n : Nat) (db : JournalDatabase) : Prop where
  count : db.attempts.entries.length = n
  attempts : ∀ attemptId, attemptId ∈ db.attempts → ∃ i < n, attemptId = (numberedContract i).attemptId.text
  outbox : ∀ row ∈ db.outbox, ∃ i < n, row.messageId = (acceptedMessage (numberedContract i) false).messageId
  leases : db.deviceLeases = ∅

def numberedRow (n : Nat) : LocalAttemptRow := ⟨"assignment", numberedContract n, .accepted, 10, 10, none⟩

def numberedMessage (n : Nat) : OutboxMessageRow :=
  ⟨(acceptedMessage (numberedContract n) false).messageId, (numberedContract n).attemptId.text,
    (acceptedMessage (numberedContract n) false).payload, 10⟩

theorem admitted_fresh {db : JournalDatabase}
    (hattempt : db.attempts.lookup (numberedContract n).attemptId.text = none)
    (hmessage : db.findMessage (numberedMessage n).messageId = none) :
    ((JournalOperation.admitAttempt (numberedContract n) 10).execute db).1 =
      insertMessage (numberedMessage n) (insertAttempt (numberedContract n).attemptId.text (numberedRow n) db) := by
  have houtcome : admissionOutcome (numberedContract n) 10 db =
      (.ok .inserted, insertAttempt (numberedContract n).attemptId.text (numberedRow n) db) := by
    simp only [admissionOutcome, bind, Transaction.read, hattempt]
    rfl
  have hmessage' : (insertAttempt (numberedContract n).attemptId.text (numberedRow n) db).findMessage
      (acceptedMessage (numberedContract n) (decide (StoreAdmissionOutcome.inserted = .duplicate))).messageId =
        none := hmessage
  have hadmitted : SqliteAttemptStore.admitAttempt (numberedContract n) 10 db = (.ok .inserted,
      insertMessage (numberedMessage n) (insertAttempt (numberedContract n).attemptId.text (numberedRow n) db)) := by
    simp only [SqliteAttemptStore.admitAttempt, bind, houtcome, enqueueOutboxTransaction, Transaction.read, hmessage']
    rfl
  simp only [JournalOperation.execute, JournalOperation.transaction, Transaction.run, Transaction.runKeeping, hadmitted]

theorem Grown.step {db : JournalDatabase} (h : Grown n db) :
    Grown (n + 1) ((JournalOperation.admitAttempt (numberedContract n) 10).execute db).1 := by
  have hnew : ∀ i < n, (numberedContract n).attemptId.text ≠ (numberedContract i).attemptId.text := by
    intro i hi hname
    have hsame := numberedContract_inj hname
    omega
  have habsent : (numberedContract n).attemptId.text ∉ db.attempts := by
    intro hmem
    obtain ⟨i, hi, hname⟩ := h.attempts _ hmem
    exact hnew i hi hname
  have hmessage : db.findMessage (acceptedMessage (numberedContract n) false).messageId = none := by
    refine List.find?_eq_none.mpr fun row hrow => ?_
    obtain ⟨i, hi, hname⟩ := h.outbox row hrow
    simp only [decide_eq_true_eq]
    intro hsame
    exact hnew i hi (acceptedMessage_inj (hsame.symm.trans hname))
  rw [admitted_fresh (AList.lookup_eq_none.mpr habsent) hmessage]
  refine ⟨?_, fun attemptId hmem => ?_, fun row hrow => ?_, h.leases⟩
  · show (AList.insert _ _ db.attempts).entries.length = n + 1
    rw [AList.entries_insert_of_notMem habsent, List.length_cons, h.count]
  · rcases (AList.mem_insert _).mp hmem with rfl | hmem
    · exact ⟨n, Nat.lt_succ_self n, rfl⟩
    · obtain ⟨i, hi, hname⟩ := h.attempts _ hmem
      exact ⟨i, Nat.lt_succ_of_lt hi, hname⟩
  · rcases List.mem_append.mp hrow with hrow | hrow
    · obtain ⟨i, hi, hname⟩ := h.outbox row hrow
      exact ⟨i, Nat.lt_succ_of_lt hi, hname⟩
    · rw [List.mem_singleton.mp hrow]
      exact ⟨n, Nat.lt_succ_self n, rfl⟩

theorem grown_admissions (n : Nat) : Grown n (executeJournal (admissions n) .empty) := by
  induction n with
  | zero =>
    exact ⟨rfl, fun _ hmem => absurd hmem (AList.notMem_empty _), fun _ hrow => absurd hrow List.not_mem_nil, rfl⟩
  | succ n ih =>
    unfold admissions executeJournal at ih ⊢
    rw [List.range_succ, List.map_append, List.foldl_append]
    exact ih.step

@[irreducible] def grownJournal : JournalDatabase := executeJournal (admissions 13108) .empty

/-- A worker that has admitted so many attempts can no longer introduce itself, nor report. -/
theorem grown_journal_overflows :
    validateWorkerHello ascendWorker.hello = .ok () ∧ (∃ log, JournalRun .empty log grownJournal) ∧
    (∃ events activeAttempts,
      WorkerExecution grownJournal OutboundWorker.activeAttempts events grownJournal (.ok activeAttempts) ∧
      ¬ helloFrameLen ascendWorker.hello activeAttempts ≤ maxWorkerToServerMessageBytes) ∧
    ∃ (readings : HeartbeatReadings) (heartbeat : Heartbeat),
      WorkerExecution grownJournal ascendWorker.buildHeartbeat (readings.exchanges ascendWorker) grownJournal
        (.ok heartbeat) ∧
      readings.ForAdvertised ascendWorker ∧
      ∀ sequence acknowledgesServerThrough,
        ¬ HeartbeatAccepted ascendWorker.hello sequence acknowledgesServerThrough heartbeat := by
  have hgrown : Grown 13108 grownJournal := by
    unfold grownJournal
    exact grown_admissions 13108
  have hrun : ∃ log, JournalRun .empty log grownJournal := by
    unfold grownJournal
    exact JournalRun.executeJournal _ _
  have hlength : (SqliteAttemptStore.attempts grownJournal).length = 13108 := by
    unfold SqliteAttemptStore.attempts
    rw [List.length_map, List.length_insertionSort, hgrown.count]
  have hleases : activeDeviceLeases grownJournal = .ok [] := by
    unfold activeDeviceLeases
    rw [hgrown.leases]
    rfl
  refine ⟨by decide, hrun, ⟨_, _, activeAttempts_executes, fun hfits => ?_⟩, ?_⟩
  · have hle := (helloFrameLen_le_iff.mp hfits).length_le
    omega
  · refine ⟨.still grownJournal [] (.ok ascendProbe), _, buildHeartbeat_executes hleases, ⟨by decide, by decide⟩,
      fun sequence acknowledged haccepted => ?_⟩
    have hle := HeartbeatReadings.length_le (heartbeatFrameLen_le_iff.mp haccepted.fits)
    have hsame : (HeartbeatReadings.still grownJournal [] (.ok ascendProbe)).attempts.length = 13108 := hlength
    omega

end AlloyPort
