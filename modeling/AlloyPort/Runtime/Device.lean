import AlloyPort.Library.Table
import AlloyPort.Runtime.Record

/-! The device that is selected from what a probe has discovered, and the one that a worker binds. -/

namespace AlloyPort

def bindWorkerDevice (inventory : List AcceleratorDevice) (snapshot : List DeviceObservation)
    (leases : List DeviceLease) (policy : DeviceSelectionPolicy) : Except DeviceStatusError SelectedDevice :=
  if leases.isEmpty then selectReadyDevice inventory snapshot leases policy
  else match (leases.map DeviceLease.deviceId).eraseDups with
    | [leasedId] =>
      if ¬ policy.allowedDeviceIds.isEmpty ∧ leasedId ∉ policy.allowedDeviceIds then
        .error (.invalidConfiguration "retained device lease is outside the configured allowlist")
      else do
        validatedDiscovery inventory snapshot
        match inventory.find? fun device => device.deviceId = leasedId with
        | none => .error (.invalidResponse s!"retained device lease names undiscovered device {leasedId}")
        | some identity => match snapshot.find? fun observation => observation.deviceId = leasedId with
          | none => .error (.invalidResponse s!"device probe omitted retained lease device {leasedId}")
          | some observation => .ok ⟨identity, observation⟩
    | _ => .error (.invalidResponse "single-device worker has durable leases for multiple devices")

structure Consistent (inventory : List AcceleratorDevice) (snapshot : List DeviceObservation) : Prop where
  named : ∀ device ∈ inventory, isBlank device.deviceId = false
  distinct : (inventory.map AcceleratorDevice.deviceId).Nodup
  observed : (snapshot.map DeviceObservation.deviceId).Nodup
  known : ∀ observation ∈ snapshot, observation.deviceId ∈ inventory.map AcceleratorDevice.deviceId

structure Selectable (inventory : List AcceleratorDevice) (snapshot : List DeviceObservation)
    (leases : List DeviceLease) (policy : DeviceSelectionPolicy) (selected : SelectedDevice) : Prop where
  discovered : selected.identity ∈ inventory
  allowed : policy.allows selected.identity = true
  observed : selected.observation ∈ snapshot
  same : selected.observation.deviceId = selected.identity.deviceId
  ready : selected.observation.health = .ready
  idle : selected.observation.processCount = 0
  unleased : ∀ lease ∈ leases, lease.deviceId ≠ selected.identity.deviceId

def Unobserved (snapshot : List DeviceObservation) (device : AcceleratorDevice) : Prop :=
  ∀ observation ∈ snapshot, observation.deviceId ≠ device.deviceId

/-- The first device that can be selected, before the first allowed one that was not observed. -/
structure Selects (inventory : List AcceleratorDevice) (snapshot : List DeviceObservation) (leases : List DeviceLease)
    (policy : DeviceSelectionPolicy) (selected : SelectedDevice) : Prop where
  consistent : Consistent inventory snapshot
  selectable : Selectable inventory snapshot leases policy selected
  least : ∀ other, Selectable inventory snapshot leases policy other → policy.before selected.identity other.identity
  shown : ∀ device ∈ inventory, policy.allows device = true → Unobserved snapshot device →
    ¬ policy.before device selected.identity

def NO_REUSABLE_DEVICE : DeviceStatusError := .unavailable "no allowed accelerator is Ready, process-free, and unleased"

section selecting

variable {inventory inventory' : List AcceleratorDevice} {snapshot snapshot' : List DeviceObservation}
variable {leases leases' : List DeviceLease} {policy : DeviceSelectionPolicy} {selected : SelectedDevice}
variable {device other : AcceleratorDevice} {observation : DeviceObservation} {devices : List AcceleratorDevice}

namespace DeviceSelectionPolicy

variable {a b : AcceleratorDevice}

/-- The order is that of the pair of being not preferred and the ID. -/
theorem before_iff : policy.before a b ↔
    (policy.preferredDeviceId = some a.deviceId ∧ policy.preferredDeviceId ≠ some b.deviceId) ∨
      ((policy.preferredDeviceId = some a.deviceId ↔ policy.preferredDeviceId = some b.deviceId) ∧
        a.deviceId ≤ b.deviceId) := by
  unfold before
  by_cases ha : policy.preferredDeviceId = some a.deviceId
  · rw [if_pos ha]
    by_cases hb : policy.preferredDeviceId = some b.deviceId
    · have hsame : a.deviceId = b.deviceId := Option.some.inj (ha.symm.trans hb)
      exact ⟨fun _ => .inr ⟨⟨fun _ => hb, fun _ => ha⟩, hsame ▸ String.le_refl _⟩, fun _ => trivial⟩
    · exact ⟨fun _ => .inl ⟨ha, hb⟩, fun _ => trivial⟩
  · rw [if_neg ha]
    by_cases hb : policy.preferredDeviceId = some b.deviceId
    · rw [if_pos hb]
      refine ⟨False.elim, ?_⟩
      rintro (⟨hfirst, -⟩ | ⟨hboth, -⟩)
      · exact ha hfirst
      · exact ha (hboth.mpr hb)
    · rw [if_neg hb]
      refine ⟨fun hle => .inr ⟨⟨fun h => absurd h ha, fun h => absurd h hb⟩, hle⟩, ?_⟩
      rintro (⟨hfirst, -⟩ | ⟨-, hle⟩)
      · exact absurd hfirst ha
      · exact hle

instance : Std.Total policy.before := ⟨fun a b => by
  rw [before_iff, before_iff]
  have htotal := String.le_total a.deviceId b.deviceId
  tauto⟩

instance : IsTrans AcceleratorDevice policy.before := ⟨fun a b c hab hbc => by
  rw [before_iff] at hab hbc ⊢
  have htrans := @String.le_trans a.deviceId b.deviceId c.deviceId
  tauto⟩

theorem before_antisymm (hab : policy.before a b) (hba : policy.before b a) : a.deviceId = b.deviceId := by
  rw [before_iff] at hab hba
  have hantisymm := @String.le_antisymm a.deviceId b.deviceId
  tauto

theorem before_refl (a : AcceleratorDevice) : policy.before a a :=
  before_iff.mpr (.inr ⟨Iff.rfl, String.le_refl _⟩)

end DeviceSelectionPolicy

theorem validatedDiscovery_ok : validatedDiscovery inventory snapshot = .ok () ↔ Consistent inventory snapshot := by
  unfold validatedDiscovery
  constructor
  · intro h
    split at h
    · cases h
    · rename_i hnames
      split at h
      · cases h
      · rename_i hobservations
        push Not at hnames hobservations
        refine ⟨fun device hdevice => ?_, hnames.2, hobservations.1, hobservations.2⟩
        by_contra hblank
        exact hnames.1 (List.any_eq_true.mpr ⟨device, hdevice, Bool.not_eq_false _ ▸ hblank⟩)
  · intro h
    have hnames : ¬ ((inventory.any fun device => isBlank device.deviceId) = true ∨
        ¬ (inventory.map AcceleratorDevice.deviceId).Nodup) := by
      rintro (hany | hnodup)
      · obtain ⟨device, hdevice, hblank⟩ := List.any_eq_true.mp hany
        rw [h.named device hdevice] at hblank
        cases hblank
      · exact hnodup h.distinct
    have hobservations : ¬ (¬ (snapshot.map DeviceObservation.deviceId).Nodup ∨
        ∃ observation ∈ snapshot, observation.deviceId ∉ inventory.map AcceleratorDevice.deviceId) := by
      rintro (hnodup | ⟨observation, hobservation, hunknown⟩)
      · exact hnodup h.observed
      · exact hunknown (h.known observation hobservation)
    rw [if_neg hnames, if_neg hobservations]

theorem validatedDiscovery_invalid (h : ¬ Consistent inventory snapshot) :
    ∃ detail, validatedDiscovery inventory snapshot = .error (.invalidResponse detail) := by
  cases hvalid : validatedDiscovery inventory snapshot with
  | ok u => exact absurd (validatedDiscovery_ok.mp hvalid) h
  | error e =>
    unfold validatedDiscovery at hvalid
    split at hvalid
    · cases hvalid
      exact ⟨_, rfl⟩
    · split at hvalid
      · cases hvalid
        exact ⟨_, rfl⟩
      · cases hvalid

def Passed (snapshot : List DeviceObservation) (leases : List DeviceLease) (device : AcceleratorDevice) : Prop :=
  ∃ observation, (snapshot.find? fun observation => observation.deviceId = device.deviceId) = some observation ∧
    ¬ (observation.reusable ∧ device.deviceId ∉ leases.map DeviceLease.deviceId)

theorem firstReady_passed (h : Passed snapshot leases device) :
    firstReady snapshot leases (device :: devices) = firstReady snapshot leases devices := by
  obtain ⟨observation, hfind, hunfit⟩ := h
  rw [firstReady, hfind]
  exact if_neg hunfit

theorem firstReady_front (h : ∀ device ∈ devices, Passed snapshot leases device) (rest : List AcceleratorDevice) :
    firstReady snapshot leases (devices ++ rest) = firstReady snapshot leases rest := by
  induction devices with
  | nil => rfl
  | cons device devices ih =>
    rw [List.cons_append, firstReady_passed (h device List.mem_cons_self)]
    exact ih fun other hother => h other (List.mem_cons_of_mem _ hother)

theorem firstReady_ok (h : firstReady snapshot leases devices = .ok selected) :
    ∃ front rest, devices = front ++ selected.identity :: rest ∧ (∀ device ∈ front, Passed snapshot leases device) ∧
      (snapshot.find? fun observation => observation.deviceId = selected.identity.deviceId) =
      some selected.observation ∧
      selected.observation.reusable ∧ selected.identity.deviceId ∉ leases.map DeviceLease.deviceId := by
  induction devices with
  | nil => cases h
  | cons device devices ih =>
    rw [firstReady] at h
    split at h
    · cases h
    · rename_i observation hfind
      split at h
      · rename_i hfit
        cases h
        exact ⟨[], devices, rfl, (fun _ hm => by cases hm), hfind, hfit⟩
      · rename_i hunfit
        obtain ⟨front, rest, rfl, hfront, hselected⟩ := ih h
        refine ⟨device :: front, rest, rfl, fun other hother => ?_, hselected⟩
        rcases List.mem_cons.mp hother with rfl | hother
        · exact ⟨observation, hfind, hunfit⟩
        · exact hfront other hother

theorem firstReady_unavailable : firstReady snapshot leases devices = .error NO_REUSABLE_DEVICE ↔
    ∀ device ∈ devices, Passed snapshot leases device := by
  constructor
  · intro h
    induction devices with
    | nil => nofun
    | cons device devices ih =>
      rw [firstReady] at h
      split at h
      · cases h
      · rename_i observation hfind
        split at h
        · cases h
        · rename_i hunfit
          intro other hother
          rcases List.mem_cons.mp hother with rfl | hother
          · exact ⟨observation, hfind, hunfit⟩
          · exact ih h other hother
  · intro h
    have hfront := firstReady_front h []
    rwa [List.append_nil] at hfront

theorem firstReady_error {error : DeviceStatusError} (h : firstReady snapshot leases devices = .error error) :
    error = NO_REUSABLE_DEVICE ∨ ∃ detail, error = .invalidResponse detail := by
  induction devices with
  | nil =>
    cases h
    exact .inl rfl
  | cons device devices ih =>
    rw [firstReady] at h
    split at h
    · cases h
      exact .inr ⟨_, rfl⟩
    · split at h
      · cases h
      · exact ih h

theorem reusable_iff : observation.reusable = true ↔ observation.health = .ready ∧ observation.processCount = 0 := by
  simp [DeviceObservation.reusable]

theorem observed_iff (h : Consistent inventory snapshot) : (snapshot.find? fun observation =>
    observation.deviceId = device.deviceId) = some observation ↔
      observation ∈ snapshot ∧ observation.deviceId = device.deviceId :=
  Lookup.find_key_iff h.observed

theorem not_passed_of_selectable (h : Consistent inventory snapshot)
    (hselectable : Selectable inventory snapshot leases policy selected) :
    ¬ Passed snapshot leases selected.identity := by
  rintro ⟨observation, hfind, hunfit⟩
  have hfound := (observed_iff h).mpr ⟨hselectable.observed, hselectable.same⟩
  obtain rfl := Option.some.inj (hfound.symm.trans hfind)
  refine hunfit ⟨reusable_iff.mpr ⟨hselectable.ready, hselectable.idle⟩, fun hleased => ?_⟩
  obtain ⟨lease, hlease, hsame⟩ := List.mem_map.mp hleased
  exact hselectable.unleased lease hlease hsame

theorem not_passed_of_unobserved (h : Unobserved snapshot device) : ¬ Passed snapshot leases device := by
  rintro ⟨observation, hfind, -⟩
  have hsame : observation.deviceId = device.deviceId := by simpa using List.find?_some hfind
  exact h observation (List.mem_of_find?_eq_some hfind) hsame

theorem passed_of (h : Consistent inventory snapshot) (hdevice : device ∈ inventory)
    (hallowed : policy.allows device = true) (hshown : ¬ Unobserved snapshot device)
    (hselectable : ∀ observation, ¬ Selectable inventory snapshot leases policy ⟨device, observation⟩) :
    Passed snapshot leases device := by
  simp only [Unobserved, not_forall, not_not] at hshown
  obtain ⟨observation, hobservation, hsame⟩ := hshown
  refine ⟨observation, (observed_iff h).mpr ⟨hobservation, hsame⟩, fun ⟨hreusable, hleased⟩ => ?_⟩
  obtain ⟨hready, hidle⟩ := reusable_iff.mp hreusable
  refine hselectable observation ⟨hdevice, hallowed, hobservation, hsame, hready, hidle, fun lease hlease hheld => ?_⟩
  exact hleased (List.mem_map.mpr ⟨lease, hlease, hheld⟩)

def ranked (inventory : List AcceleratorDevice) (policy : DeviceSelectionPolicy) : List AcceleratorDevice :=
  (inventory.filter policy.allows).insertionSort policy.before

theorem mem_ranked : device ∈ ranked inventory policy ↔ device ∈ inventory ∧ policy.allows device = true := by
  rw [ranked, List.mem_insertionSort, List.mem_filter]

theorem ranked_pairwise : (ranked inventory policy).Pairwise policy.before := List.pairwise_insertionSort _ _

theorem ranked_nodup (h : Consistent inventory snapshot) : (ranked inventory policy).Nodup :=
  (List.perm_insertionSort _ _).nodup_iff.mpr (h.distinct.of_map.filter _)

theorem Consistent.eq_of_id (h : Consistent inventory snapshot) (hdevice : device ∈ inventory)
    (hother : other ∈ inventory) (hsame : device.deviceId = other.deviceId) : device = other :=
  List.inj_on_of_nodup_map h.distinct hdevice hother hsame

theorem selectReadyDevice_eq (h : Consistent inventory snapshot) :
    selectReadyDevice inventory snapshot leases policy = firstReady snapshot leases (ranked inventory policy) := by
  unfold selectReadyDevice
  rw [validatedDiscovery_ok.mpr h]
  rfl

theorem selectReadyDevice_invalid (h : ¬ Consistent inventory snapshot) :
    ∃ detail, selectReadyDevice inventory snapshot leases policy = .error (.invalidResponse detail) := by
  obtain ⟨detail, hdetail⟩ := validatedDiscovery_invalid h
  refine ⟨detail, ?_⟩
  unfold selectReadyDevice
  rw [hdetail]
  rfl

theorem selectReadyDevice_error {error : DeviceStatusError}
    (h : selectReadyDevice inventory snapshot leases policy = .error error) :
    error = NO_REUSABLE_DEVICE ∨ ∃ detail, error = .invalidResponse detail := by
  by_cases hconsistent : Consistent inventory snapshot
  · exact firstReady_error ((selectReadyDevice_eq hconsistent).symm.trans h)
  · have hrefused : ∃ detail, selectReadyDevice inventory snapshot leases policy = .error (.invalidResponse detail) :=
      selectReadyDevice_invalid hconsistent
    obtain ⟨detail, hdetail⟩ := hrefused
    cases hdetail.symm.trans h
    exact .inr ⟨detail, rfl⟩

theorem selectReadyDevice_selects (h : selectReadyDevice inventory snapshot leases policy = .ok selected) :
    Selects inventory snapshot leases policy selected := by
  have hconsistent : Consistent inventory snapshot := by
    by_contra hinvalid
    have hrefused : ∃ detail, selectReadyDevice inventory snapshot leases policy = .error (.invalidResponse detail) :=
      selectReadyDevice_invalid hinvalid
    obtain ⟨detail, hdetail⟩ := hrefused
    rw [hdetail] at h
    cases h
  rw [selectReadyDevice_eq hconsistent] at h
  obtain ⟨front, rest, hsplit, hfront, hfind, hreusable, hunleased⟩ := firstReady_ok h
  have hbehind : ∀ other ∈ ranked inventory policy, ¬ Passed snapshot leases other →
      policy.before selected.identity other := by
    intro other hother hpassed
    rw [hsplit] at hother
    rcases List.mem_append.mp hother with hother | hother
    · exact absurd (hfront other hother) hpassed
    · rcases List.mem_cons.mp hother with rfl | hother
      · exact DeviceSelectionPolicy.before_refl _
      · have hsorted : (ranked inventory policy).Pairwise policy.before := ranked_pairwise
        rw [hsplit] at hsorted
        exact (List.pairwise_cons.mp (List.pairwise_append.mp hsorted).2.1).1 other hother
  have hmem : selected.identity ∈ ranked inventory policy := hsplit ▸ List.mem_append_right _ List.mem_cons_self
  obtain ⟨hdiscovered, hallowed⟩ := mem_ranked.mp hmem
  obtain ⟨hobserved, hsame⟩ := (observed_iff hconsistent).mp hfind
  obtain ⟨hready, hidle⟩ := reusable_iff.mp hreusable
  refine ⟨hconsistent, ⟨hdiscovered, hallowed, hobserved, hsame, hready, hidle, ?_⟩, ?_, ?_⟩
  · intro lease hlease hheld
    exact hunleased (List.mem_map.mpr ⟨lease, hlease, hheld⟩)
  · intro other hother
    exact hbehind other.identity (mem_ranked.mpr ⟨hother.discovered, hother.allowed⟩)
      (not_passed_of_selectable hconsistent hother)
  · intro device hdevice hallow hunobserved hbefore
    have hafter := hbehind device (mem_ranked.mpr ⟨hdevice, hallow⟩) (not_passed_of_unobserved hunobserved)
    obtain rfl := hconsistent.eq_of_id hdevice hdiscovered (DeviceSelectionPolicy.before_antisymm hbefore hafter)
    exact hunobserved _ hobserved hsame

theorem selectReadyDevice_of_selects (h : Selects inventory snapshot leases policy selected) :
    selectReadyDevice inventory snapshot leases policy = .ok selected := by
  have hselectable := h.selectable
  have hmem : selected.identity ∈ ranked inventory policy :=
    mem_ranked.mpr ⟨hselectable.discovered, hselectable.allowed⟩
  obtain ⟨front, rest, hsplit⟩ := List.append_of_mem hmem
  have hsorted : (ranked inventory policy).Pairwise policy.before := ranked_pairwise
  have hnodup : (ranked inventory policy).Nodup := ranked_nodup h.consistent
  rw [hsplit] at hsorted hnodup
  have hfront : ∀ device ∈ front, Passed snapshot leases device := by
    intro device hdevice
    have hbefore := (List.pairwise_append.mp hsorted).2.2 device hdevice selected.identity List.mem_cons_self
    obtain ⟨hinventory, hallowed⟩ := mem_ranked.mp (hsplit ▸ List.mem_append_left _ hdevice)
    refine passed_of h.consistent hinventory hallowed (fun hunobserved => ?_) fun observation hother => ?_
    · exact h.shown device hinventory hallowed hunobserved hbefore
    · have hid := DeviceSelectionPolicy.before_antisymm hbefore (h.least _ hother)
      obtain rfl := h.consistent.eq_of_id hinventory hselectable.discovered hid
      exact List.disjoint_of_nodup_append hnodup hdevice List.mem_cons_self
  have hfit : selected.observation.reusable ∧ selected.identity.deviceId ∉ leases.map DeviceLease.deviceId := by
    refine ⟨reusable_iff.mpr ⟨hselectable.ready, hselectable.idle⟩, fun hleased => ?_⟩
    obtain ⟨lease, hlease, hheld⟩ := List.mem_map.mp hleased
    exact hselectable.unleased lease hlease hheld
  rw [selectReadyDevice_eq h.consistent, hsplit, firstReady_front hfront, firstReady,
    (observed_iff h.consistent).mpr ⟨hselectable.observed, hselectable.same⟩]
  exact if_pos hfit

theorem selectReadyDevice_unavailable_iff : selectReadyDevice inventory snapshot leases policy =
    .error NO_REUSABLE_DEVICE ↔ Consistent inventory snapshot ∧
      (∀ device ∈ inventory, policy.allows device = true → ¬ Unobserved snapshot device) ∧
      ∀ selected, ¬ Selectable inventory snapshot leases policy selected := by
  by_cases hconsistent : Consistent inventory snapshot
  · rw [selectReadyDevice_eq hconsistent, firstReady_unavailable]
    constructor
    · refine fun h => ⟨hconsistent, fun device hdevice hallowed hunobserved => ?_, fun selected hselected => ?_⟩
      · exact not_passed_of_unobserved hunobserved (h device (mem_ranked.mpr ⟨hdevice, hallowed⟩))
      · exact not_passed_of_selectable hconsistent hselected
          (h _ (mem_ranked.mpr ⟨hselected.discovered, hselected.allowed⟩))
    · rintro ⟨-, hshown, hnone⟩ device hdevice
      obtain ⟨hinventory, hallowed⟩ := mem_ranked.mp hdevice
      exact passed_of hconsistent hinventory hallowed (hshown device hinventory hallowed) fun _ => hnone _
  · have hrefused : ∃ detail, selectReadyDevice inventory snapshot leases policy = .error (.invalidResponse detail) :=
      selectReadyDevice_invalid hconsistent
    obtain ⟨detail, hdetail⟩ := hrefused
    rw [hdetail]
    exact ⟨nofun, fun h => absurd h.1 hconsistent⟩

theorem validatedDiscovery_perm (hinventory : inventory.Perm inventory') (hsnapshot : snapshot.Perm snapshot') :
    validatedDiscovery inventory snapshot = validatedDiscovery inventory' snapshot' := by
  have hblank : (inventory.any fun device => isBlank device.deviceId) =
      inventory'.any fun device => isBlank device.deviceId := hinventory.any_eq
  have hids := (hinventory.map AcceleratorDevice.deviceId).nodup_iff
  have hobserved := (hsnapshot.map DeviceObservation.deviceId).nodup_iff
  have hknown : ∀ id, id ∈ inventory.map AcceleratorDevice.deviceId ↔ id ∈ inventory'.map AcceleratorDevice.deviceId :=
    fun id => (hinventory.map _).mem_iff
  simp only [validatedDiscovery, hblank, hids, hobserved, hknown, hsnapshot.mem_iff]

theorem ranked_perm (h : Consistent inventory snapshot) (hinventory : inventory.Perm inventory') :
    ranked inventory policy = ranked inventory' policy := by
  have hsorted := ((List.perm_insertionSort policy.before _).trans (hinventory.filter policy.allows)).trans
    (List.perm_insertionSort policy.before _).symm
  refine hsorted.eq_of_pairwise (fun a b ha hb hab hba => ?_) ranked_pairwise ranked_pairwise
  have hb : b ∈ ranked inventory' policy := hb
  have hother := hinventory.mem_iff.mpr (mem_ranked.mp hb).1
  exact h.eq_of_id (mem_ranked.mp ha).1 hother (DeviceSelectionPolicy.before_antisymm hab hba)

theorem firstReady_perm (h : Consistent inventory snapshot) (hsnapshot : snapshot.Perm snapshot')
    (hleases : leases.Perm leases') : firstReady snapshot leases devices = firstReady snapshot' leases' devices := by
  have hnodup : (snapshot'.map DeviceObservation.deviceId).Nodup :=
    (hsnapshot.map DeviceObservation.deviceId).nodup_iff.mp h.observed
  have hfind : ∀ device : AcceleratorDevice, (snapshot.find? fun observation =>
      observation.deviceId = device.deviceId) =
      snapshot'.find? fun observation => observation.deviceId = device.deviceId := by
    intro device
    ext observation
    rw [observed_iff h, Lookup.find_key_iff hnodup, hsnapshot.mem_iff]
  have hheld : ∀ id, id ∈ leases.map DeviceLease.deviceId ↔ id ∈ leases'.map DeviceLease.deviceId :=
    fun id => (hleases.map _).mem_iff
  induction devices with
  | nil => rfl
  | cons device devices ih =>
    rw [firstReady, firstReady, hfind device]
    simp only [hheld, ih]

theorem selectReadyDevice_perm (hinventory : inventory.Perm inventory') (hsnapshot : snapshot.Perm snapshot')
    (hleases : leases.Perm leases') :
    selectReadyDevice inventory snapshot leases policy = selectReadyDevice inventory' snapshot' leases' policy := by
  have hvalid := validatedDiscovery_perm hinventory hsnapshot
  by_cases hconsistent : Consistent inventory snapshot
  · have hconsistent' : Consistent inventory' snapshot' :=
      validatedDiscovery_ok.mp (hvalid ▸ validatedDiscovery_ok.mpr hconsistent)
    rw [selectReadyDevice_eq hconsistent, selectReadyDevice_eq hconsistent', ranked_perm hconsistent hinventory]
    exact firstReady_perm hconsistent hsnapshot hleases
  · obtain ⟨detail, hdetail⟩ := validatedDiscovery_invalid hconsistent
    unfold selectReadyDevice
    rw [← hvalid, hdetail]
    rfl

/-- A consistent discovery has its least reusable device selected, unless an allowed device that comes before it was not
observed. The orders of what is discovered and leased do not matter, and any failure but that nothing is reusable is
that of the response. -/
theorem select_ready_device_exact (hinventory : inventory.Perm inventory') (hsnapshot : snapshot.Perm snapshot')
    (hleases : leases.Perm leases') :
    (∀ selected, selectReadyDevice inventory snapshot leases policy = .ok selected ↔
      Selects inventory snapshot leases policy selected) ∧
    (selectReadyDevice inventory snapshot leases policy = .error NO_REUSABLE_DEVICE ↔
      Consistent inventory snapshot ∧
        (∀ device ∈ inventory, policy.allows device = true → ¬ Unobserved snapshot device) ∧
        ∀ selected, ¬ Selectable inventory snapshot leases policy selected) ∧
    (∀ error, selectReadyDevice inventory snapshot leases policy = .error error →
      error = NO_REUSABLE_DEVICE ∨ ∃ detail, error = .invalidResponse detail) ∧
    selectReadyDevice inventory snapshot leases policy = selectReadyDevice inventory' snapshot' leases' policy ∧
    bindWorkerDevice inventory snapshot [] policy = selectReadyDevice inventory snapshot [] policy :=
  ⟨fun _ => ⟨selectReadyDevice_selects, selectReadyDevice_of_selects⟩, selectReadyDevice_unavailable_iff,
    fun _ => selectReadyDevice_error, selectReadyDevice_perm hinventory hsnapshot hleases, rfl⟩

end selecting

def namedDevice (id : String) : AcceleratorDevice := ⟨id, "product", "serial", "firmware"⟩

def idleObservation (id : String) : DeviceObservation := ⟨id, .ready, 0, 0, 0, 0, 0, 0, 0, ""⟩

def preferring (id : String) : DeviceSelectionPolicy := ⟨[], some id⟩

theorem select_ready_device_sample :
    selectReadyDevice [namedDevice "a", namedDevice "b"] [idleObservation "a", idleObservation "b"] []
      (preferring "b") =
      selectReadyDevice [namedDevice "b", namedDevice "a"] [idleObservation "b", idleObservation "a"] []
        (preferring "b") :=
  (select_ready_device_exact (.swap _ _ _) (.swap _ _ _) .nil).2.2.2.1

/-- The first device was not observed, so that the second one, which is ready, is not selected. -/
theorem select_ready_device_unobserved : ∃ inventory snapshot leases policy selected detail,
    Selectable inventory snapshot leases policy selected ∧
      selectReadyDevice inventory snapshot leases policy = .error (.invalidResponse detail) := by
  refine ⟨[namedDevice "a", namedDevice "b"], [idleObservation "b"], [], preferring "a",
    ⟨namedDevice "b", idleObservation "b"⟩, _, ?_, rfl⟩
  exact ⟨List.mem_cons_of_mem _ List.mem_cons_self, by decide, List.mem_cons_self, rfl, rfl, rfl, nofun⟩

end AlloyPort
