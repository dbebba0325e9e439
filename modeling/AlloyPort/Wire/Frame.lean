import AlloyPort.Library.Protobuf
import AlloyPort.Service.Ingress
import AlloyPort.Wire.Assignment

/-! What a worker is checked for when it introduces itself, and how large its frames are. -/

namespace AlloyPort

open Protobuf WireAcceleratorDevice

def maxWorkerToServerMessageBytes : Nat := 128 * 1024

def validateDeviceIdentities : List String → List String → List WireAcceleratorDevice → Except ValidationError Unit
  | _, _, [] => .ok ()
  | deviceIds, serialNumbers, device :: rest => do
    validateText "hello.capabilities.devices.device_id" device.deviceId
    validateText "hello.capabilities.devices.product_name" device.productName
    validateText "hello.capabilities.devices.serial_number" device.serialNumber
    validateText "hello.capabilities.devices.firmware_version" device.firmwareVersion
    if device.deviceId ∈ deviceIds then .error ("hello.capabilities.devices.device_id", "duplicate")
    else if device.serialNumber ∈ serialNumbers then
      .error ("hello.capabilities.devices.serial_number", "duplicate")
    else validateDeviceIdentities (device.deviceId :: deviceIds) (device.serialNumber :: serialNumbers) rest

def validateAcceleratorDevices (capabilities : WorkerCapabilities) : Except ValidationError Unit :=
  if capabilities.devices ≠ [] ∧ capabilities.devices.length ≠ capabilities.deviceCount then
    .error ("hello.capabilities.devices", "must be empty or match device_count")
  else validateDeviceIdentities [] [] capabilities.devices

def isFixedAscend (feature : String) : Bool :=
  feature ∈ ["ascend-fixture-v1", "ascend-build-v1", "ascend-reduction-correctness-v1"]

def validateFeatures (features : List String) (capabilities : WorkerCapabilities) : Except ValidationError Unit :=
  if features.any isFixedAscend ∧ capabilities.backend ≠ 2 then
    .error ("hello.features", "fixed Ascend features require the Ascend backend")
  else if features.any isFixedAscend ∧ capabilities.devices.length ≠ capabilities.deviceCount then
    .error ("hello.capabilities.devices", "fixed Ascend workers must identify every advertised device")
  else if "cuda-reduction-correctness-v1" ∈ features ∧ capabilities.backend ≠ 1 then
    .error ("hello.features", "cuda-reduction-correctness-v1 requires the CUDA backend")
  else .ok ()

def validateWorkerHello (hello : WorkerHello) : Except ValidationError Unit :=
  if hello.protocolMajor ≠ protocolMajor then .error ("hello.protocol_major", "unsupported major version")
  else do
    validateText "hello.worker_id" hello.workerId
    validateText "hello.instance_id" hello.instanceId
    validateText "hello.worker_version" hello.workerVersion
    match hello.capabilities with
    | none => .error ("hello.capabilities", "missing")
    | some capabilities =>
      if ¬ (1 ≤ capabilities.backend ∧ capabilities.backend ≤ 2) then
        .error ("hello.capabilities.backend", "unspecified or unknown")
      else if capabilities.deviceCount = 0 then
        .error ("hello.capabilities.device_count", "must be greater than zero")
      else if capabilities.maxConcurrency = 0 then
        .error ("hello.capabilities.max_concurrency", "must be greater than zero")
      else do
        validateAcceleratorDevices capabilities
        validateFeatures hello.features capabilities

def ActiveAttempt.encodedLen (attempt : ActiveAttempt) : Nat :=
  textLen 1 attempt.assignmentId + textLen 2 attempt.attemptId + enumLen 3 attempt.phase

def WireDeviceObservation.encodedLen (device : WireDeviceObservation) : Nat :=
  textLen 1 device.deviceId + enumLen 2 device.health + uintLen 3 device.processCount +
    uintLen 4 device.utilizationPercent + uintLen 5 device.memoryUsedBytes + uintLen 6 device.memoryTotalBytes +
    uintLen 7 device.temperatureMillicelsius + uintLen 8 device.powerMilliwatts + uintLen 9 device.observedAtMs +
    textLen 10 device.detail

def WireDeviceLease.encodedLen (lease : WireDeviceLease) : Nat :=
  textLen 1 lease.attemptId + textLen 2 lease.deviceId + uintLen 3 lease.acquiredAtMs

def Heartbeat.encodedLen (heartbeat : Heartbeat) : Nat :=
  repeatedLen 1 ActiveAttempt.encodedLen heartbeat.activeAttempts + uintLen 2 heartbeat.availableSlots +
    enumLen 3 heartbeat.health + repeatedLen 4 WireDeviceObservation.encodedLen heartbeat.devices +
    repeatedLen 5 WireDeviceLease.encodedLen heartbeat.deviceLeases + uintLen 6 heartbeat.deviceFreeSlots

def WireAcceleratorDevice.encodedLen (device : WireAcceleratorDevice) : Nat :=
  textLen 1 device.deviceId + textLen 2 device.productName + textLen 3 device.serialNumber +
    textLen 4 device.firmwareVersion

def WorkerCapabilities.encodedLen (capabilities : WorkerCapabilities) : Nat :=
  enumLen 1 capabilities.backend + textLen 2 capabilities.architecture + uintLen 3 capabilities.deviceCount +
    uintLen 4 capabilities.maxConcurrency + textLen 5 capabilities.driverVersion +
      textLen 6 capabilities.toolkitVersion +
    textLen 7 capabilities.containerRuntime + repeatedLen 8 WireAcceleratorDevice.encodedLen capabilities.devices

def WorkerHello.encodedLen (hello : WorkerHello) (activeAttempts : List ActiveAttempt) : Nat :=
  uintLen 1 hello.protocolMajor + uintLen 2 hello.protocolMinor + textLen 3 hello.workerId +
    textLen 4 hello.instanceId + textLen 5 hello.workerVersion + repeatedLen 6 String.utf8ByteSize hello.features +
    (hello.capabilities.map fun capabilities => messageLen 7 capabilities.encodedLen).getD 0 +
    repeatedLen 8 ActiveAttempt.encodedLen activeAttempts

def headerLen (sequence acknowledgesServerThrough : Nat) (messageId : String) : Nat :=
  uintLen 1 sequence + uintLen 2 acknowledgesServerThrough + textLen 3 messageId

def helloFrameLen (hello : WorkerHello) (activeAttempts : List ActiveAttempt) : Nat :=
  headerLen 1 0 "" + messageLen 10 (hello.encodedLen activeAttempts)

def heartbeatFrameLen (sequence acknowledgesServerThrough : Nat) (heartbeat : Heartbeat) : Nat :=
  headerLen sequence acknowledgesServerThrough "" + messageLen 11 heartbeat.encodedLen

theorem validateText_then {α : Type} {field value : String} {f : Unit → Except ValidationError α} {a : α} :
    (validateText field value >>= f) = .ok a ↔ isBlank value = false ∧ f () = .ok a := by
  unfold validateText
  cases isBlank value <;> simp [bind, Except.bind]

theorem refuse_then {ε α : Type} {p : Prop} [Decidable p] {e : ε} {x : Except ε α} {a : α} :
    (if p then .error e else x) = .ok a ↔ ¬ p ∧ x = .ok a := by
  by_cases h : p <;> simp [h]

theorem validateDeviceIdentities_ok {deviceIds serialNumbers : List String} {devices : List WireAcceleratorDevice}
    (h : validateDeviceIdentities deviceIds serialNumbers devices = .ok ()) :
    (∀ device ∈ devices, isBlank device.deviceId = false ∧ device.deviceId ∉ deviceIds) ∧
      (devices.map deviceId).Nodup := by
  induction devices generalizing deviceIds serialNumbers with
  | nil => exact ⟨nofun, List.nodup_nil⟩
  | cons device rest ih =>
    simp only [validateDeviceIdentities, validateText_then, refuse_then] at h
    obtain ⟨hid, -, -, -, hnew, -, h⟩ := h
    obtain ⟨hrest, hnodup⟩ := ih h
    refine ⟨fun other hother => ?_, ?_⟩
    · rcases List.mem_cons.mp hother with rfl | hother
      · exact ⟨hid, hnew⟩
      · obtain ⟨hblank, hfresh⟩ := hrest other hother
        exact ⟨hblank, fun hmem => hfresh (List.mem_cons_of_mem _ hmem)⟩
    · rw [List.map_cons, List.nodup_cons]
      refine ⟨fun hmem => ?_, hnodup⟩
      obtain ⟨other, hother, hsame⟩ := List.mem_map.mp hmem
      exact (hrest other hother).2 (by rw [hsame]; exact List.mem_cons_self)

variable {hello : WorkerHello}

theorem validateWorkerHello_ok (h : validateWorkerHello hello = .ok ()) :
    ∃ capabilities, hello.capabilities = some capabilities ∧
      (∀ device ∈ capabilities.devices, isBlank device.deviceId = false) ∧
      (capabilities.devices.map deviceId).Nodup := by
  simp only [validateWorkerHello, refuse_then, validateText_then] at h
  obtain ⟨-, -, -, -, h⟩ := h
  cases hcapabilities : hello.capabilities with
  | none => simp [hcapabilities] at h
  | some capabilities =>
    simp only [hcapabilities, refuse_then, bind_eq_ok] at h
    obtain ⟨-, -, -, _, hdevices, -⟩ := h
    obtain ⟨hnames, hnodup⟩ := validateDeviceIdentities_ok (refuse_then.mp hdevices).2
    exact ⟨capabilities, rfl, fun device hdevice => (hnames device hdevice).1, hnodup⟩

structure WireDeviceObservation.Plausible (device : WireDeviceObservation) : Prop where
  utilization : device.utilizationPercent ≤ 100
  memory : device.memoryUsedBytes ≤ device.memoryTotalBytes
  detail : device.detail.utf8ByteSize ≤ 1024

theorem validateDevices_ok_iff {observed : List String} {devices : List WireDeviceObservation} :
    validateDevices observed devices = .ok () ↔
      (∀ device ∈ devices, isBlank device.deviceId = false ∧ device.deviceId ∉ observed ∧
        (1 ≤ device.health ∧ device.health ≤ 4) ∧ device.Plausible) ∧
      (devices.map WireDeviceObservation.deviceId).Nodup := by
  induction devices generalizing observed with
  | nil => simp [validateDevices]
  | cons device rest ih =>
    simp only [validateDevices, validateText_then, refuse_then, ih, not_not, Nat.not_lt, gt_iff_lt]
    constructor
    · rintro ⟨hblank, hnew, hhealth, hutilization, hmemory, hdetail, hrest, hnodup⟩
      refine ⟨fun other hother => ?_, ?_⟩
      · rcases List.mem_cons.mp hother with rfl | hother
        · exact ⟨hblank, hnew, hhealth, hutilization, hmemory, hdetail⟩
        · obtain ⟨hblank, hfresh, hvalid⟩ := hrest other hother
          exact ⟨hblank, fun hmem => hfresh (List.mem_cons_of_mem _ hmem), hvalid⟩
      · rw [List.map_cons, List.nodup_cons]
        refine ⟨fun hmem => ?_, hnodup⟩
        obtain ⟨other, hother, hsame⟩ := List.mem_map.mp hmem
        exact (hrest other hother).2.1 (by rw [hsame]; exact List.mem_cons_self)
    · rintro ⟨hall, hnodup⟩
      rw [List.map_cons, List.nodup_cons] at hnodup
      obtain ⟨hblank, hnew, hhealth, hsensible⟩ := hall device List.mem_cons_self
      refine ⟨hblank, hnew, hhealth, hsensible.utilization, hsensible.memory, hsensible.detail, fun other hother => ?_,
        hnodup.2⟩
      obtain ⟨hblank, hfresh, hvalid⟩ := hall other (List.mem_cons_of_mem _ hother)
      refine ⟨hblank, fun hmem => ?_, hvalid⟩
      rcases List.mem_cons.mp hmem with hsame | hmem
      · exact hnodup.1 (List.mem_map.mpr ⟨other, hother, hsame⟩)
      · exact hfresh hmem

theorem validateLeases_ok_iff {attempts devices : List String} {leases : List WireDeviceLease} :
    validateLeases attempts devices leases = .ok () ↔
      (∀ lease ∈ leases, isBlank lease.attemptId = false ∧ isBlank lease.deviceId = false ∧
        lease.attemptId ∉ attempts ∧ lease.deviceId ∉ devices) ∧
      (leases.map WireDeviceLease.attemptId).Nodup ∧ (leases.map WireDeviceLease.deviceId).Nodup := by
  induction leases generalizing attempts devices with
  | nil => simp [validateLeases]
  | cons lease rest ih =>
    simp only [validateLeases, validateText_then, refuse_then, ih]
    constructor
    · rintro ⟨hattempt, hdevice, hnew, hfree, hrest, hattempts, hdevices⟩
      refine ⟨fun other hother => ?_, ?_, ?_⟩
      · rcases List.mem_cons.mp hother with rfl | hother
        · exact ⟨hattempt, hdevice, hnew, hfree⟩
        · obtain ⟨ha, hd, hna, hnd⟩ := hrest other hother
          exact ⟨ha, hd, fun hmem => hna (List.mem_cons_of_mem _ hmem), fun hmem => hnd (List.mem_cons_of_mem _ hmem)⟩
      · rw [List.map_cons, List.nodup_cons]
        refine ⟨fun hmem => ?_, hattempts⟩
        obtain ⟨other, hother, hsame⟩ := List.mem_map.mp hmem
        exact (hrest other hother).2.2.1 (by rw [hsame]; exact List.mem_cons_self)
      · rw [List.map_cons, List.nodup_cons]
        refine ⟨fun hmem => ?_, hdevices⟩
        obtain ⟨other, hother, hsame⟩ := List.mem_map.mp hmem
        exact (hrest other hother).2.2.2 (by rw [hsame]; exact List.mem_cons_self)
    · rintro ⟨hall, hattempts, hdevices⟩
      rw [List.map_cons, List.nodup_cons] at hattempts hdevices
      obtain ⟨hattempt, hdevice, hnew, hfree⟩ := hall lease List.mem_cons_self
      refine ⟨hattempt, hdevice, hnew, hfree, fun other hother => ?_, hattempts.2, hdevices.2⟩
      obtain ⟨ha, hd, hna, hnd⟩ := hall other (List.mem_cons_of_mem _ hother)
      refine ⟨ha, hd, fun hmem => ?_, fun hmem => ?_⟩
      · rcases List.mem_cons.mp hmem with hsame | hmem
        · exact hattempts.1 (List.mem_map.mpr ⟨other, hother, hsame⟩)
        · exact hna hmem
      · rcases List.mem_cons.mp hmem with hsame | hmem
        · exact hdevices.1 (List.mem_map.mpr ⟨other, hother, hsame⟩)
        · exact hnd hmem

variable {heartbeat : Heartbeat}

theorem validateHeartbeat_ok_iff :
    validateHeartbeat heartbeat = .ok () ↔ (1 ≤ heartbeat.health ∧ heartbeat.health ≤ 3) ∧
      validateDevices [] heartbeat.devices = .ok () ∧ validateLeases [] [] heartbeat.deviceLeases = .ok () := by
  simp only [validateHeartbeat, refuse_then, not_not, bind_eq_ok]
  constructor
  · rintro ⟨hhealth, _, hdevices, hleases⟩
    exact ⟨hhealth, hdevices, hleases⟩
  · rintro ⟨hhealth, hdevices, hleases⟩
    exact ⟨hhealth, (), hdevices, hleases⟩

theorem validateHeartbeatAgainstHello_ok_iff {capabilities : WorkerCapabilities}
    (h : hello.capabilities = some capabilities) :
    WorkerControlService.validateHeartbeatAgainstHello heartbeat hello = .ok () ↔
      (heartbeat.availableSlots ≤ capabilities.maxConcurrency ∧
      heartbeat.deviceFreeSlots ≤ capabilities.maxConcurrency) ∧
      heartbeat.availableSlots ≤ heartbeat.deviceFreeSlots ∧
      ((∀ device ∈ heartbeat.devices, device.deviceId ∈ capabilities.devices.map deviceId) ∧
        ∀ lease ∈ heartbeat.deviceLeases, lease.deviceId ∈ capabilities.devices.map deviceId) ∧
      ("ascend-fixture-v1" ∈ hello.features → heartbeat.health = 1 →
        heartbeat.devices.length = (capabilities.devices.map deviceId).dedup.length) ∧
      ∀ lease ∈ heartbeat.deviceLeases, lease.attemptId ∈ heartbeat.activeAttempts.map ActiveAttempt.attemptId := by
  simp only [WorkerControlService.validateHeartbeatAgainstHello, h, refuse_then, not_or, gt_iff_lt, Nat.not_lt,
    List.any_eq_true, decide_eq_true_eq, not_exists, not_and, not_not, ne_eq, and_true]

end AlloyPort
