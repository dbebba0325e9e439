import AlloyPort.Identity
import AlloyPort.Library.Table
import AlloyPort.Library.Transaction
import AlloyPort.Library.SharedStore

/-! The registry of certificates and the owners they stand for. Digests stand in the table themselves, their text
form being injective. The index on active owners is not modelled: both insertions make room before they write. -/

namespace AlloyPort.Enrollment

open Database Transaction

inductive EnrollmentState where
  | active
  | replaced
  | revoked
  deriving DecidableEq

def EnrollmentState.debug : EnrollmentState → String
  | .active => "Active"
  | .replaced => "Replaced"
  | .revoked => "Revoked"

structure CertificateEnrollment where
  fingerprint : Sha256Digest
  ownerId : String
  state : EnrollmentState
  replacementFingerprint : Option Sha256Digest
  deriving DecidableEq

inductive IdentityError where
  | storage (detail : String)
  | invalid (detail : String)
  | notEnrolled (fingerprint : Sha256Digest)
  | revoked (fingerprint : Sha256Digest)
  | replaced (fingerprint : Sha256Digest)
  | conflict (detail : String)
  | corrupt (detail : String)
  deriving DecidableEq

structure EnrollmentRow where
  fingerprint : Sha256Digest
  ownerId : String
  state : EnrollmentState
  enrolledAtMs : Nat
  updatedAtMs : Nat
  replacementFingerprint : Option Sha256Digest

def EnrollmentRow.enrollment (row : EnrollmentRow) : CertificateEnrollment :=
  ⟨row.fingerprint, row.ownerId, row.state, row.replacementFingerprint⟩

abbrev Registry := Table EnrollmentRow EnrollmentRow.fingerprint

abbrev RegistryTransaction := Transaction Registry IdentityError

def validateOwner (ownerId : String) : Except IdentityError Unit :=
  if isBlank ownerId = true then .error (.invalid "owner ID is missing") else .ok ()

def toI64 (value : Nat) : Except IdentityError Nat :=
  if value < 2 ^ 63 then .ok value else .error (.invalid "timestamp exceeds storage integer range")

def enrollmentByFingerprint (registry : Registry) (fingerprint : Sha256Digest) : Option CertificateEnrollment :=
  (registry.find fingerprint).map EnrollmentRow.enrollment

def activeEnrollmentByOwner (registry : Registry) (ownerId : String) : Option CertificateEnrollment :=
  (registry.rows.find? fun row => row.ownerId = ownerId ∧ row.state = .active).map EnrollmentRow.enrollment

def newRow (ownerId : String) (fingerprint : Sha256Digest) (nowMs : Nat) : EnrollmentRow :=
  ⟨fingerprint, ownerId, .active, nowMs, nowMs, none⟩

def setReplaced (replacement : Sha256Digest) (nowMs : Nat) : RowUpdate EnrollmentRow.fingerprint where
  apply row := { row with state := .replaced, updatedAtMs := nowMs, replacementFingerprint := some replacement }
  keeps _ := rfl

def setRevoked (nowMs : Nat) : RowUpdate EnrollmentRow.fingerprint where
  apply row := { row with state := .revoked, updatedAtMs := nowMs }
  keeps _ := rfl

def reread (fingerprint : Sha256Digest) (missing : String) : RegistryTransaction CertificateEnrollment := do
  let registry ← read
  match enrollmentByFingerprint registry fingerprint with
  | none => raise (.corrupt missing)
  | some enrollment => return enrollment

namespace SqliteIdentityRegistry

def enroll (ownerId : String) (fingerprint : Sha256Digest) (nowMs : Nat) :
    RegistryTransaction CertificateEnrollment := do
  attempt (validateOwner ownerId)
  let registry ← read
  match enrollmentByFingerprint registry fingerprint with
  | some existing =>
    if existing.ownerId = ownerId ∧ existing.state = .active then return existing
    else raise (.conflict
      s!"certificate {fingerprint} already belongs to {existing.ownerId} in {existing.state.debug} state")
  | none =>
    match activeEnrollmentByOwner registry ownerId with
    | some active => raise (.conflict s!"owner {ownerId} already uses active certificate {active.fingerprint}")
    | none => do
      let now ← attempt (toI64 nowMs)
      write fun registry => registry.insertOrIgnore (newRow ownerId fingerprint now)
      reread fingerprint "inserted enrollment disappeared"

def replayRotation (ownerId : String) (newFingerprint : Sha256Digest) : RegistryTransaction CertificateEnrollment := do
  let registry ← read
  match enrollmentByFingerprint registry newFingerprint with
  | none => raise (.corrupt "replacement enrollment is missing")
  | some replacement =>
    if replacement.ownerId = ownerId ∧ replacement.state = .active then return replacement
    else raise (.corrupt "replacement enrollment is not the active owner certificate")

def replace (ownerId : String) (oldFingerprint newFingerprint : Sha256Digest) (nowMs : Nat) :
    RegistryTransaction CertificateEnrollment := do
  let registry ← read
  match enrollmentByFingerprint registry newFingerprint with
  | some existing => raise (.conflict
      s!"replacement certificate {newFingerprint} already belongs to {existing.ownerId} in {existing.state.debug} state")
  | none => do
    let now ← attempt (toI64 nowMs)
    write fun registry => registry.update oldFingerprint (setReplaced newFingerprint now)
    write fun registry => registry.insertOrIgnore (newRow ownerId newFingerprint now)
    reread newFingerprint "replacement enrollment disappeared"

def rotate (ownerId : String) (oldFingerprint newFingerprint : Sha256Digest) (nowMs : Nat) :
    RegistryTransaction CertificateEnrollment := do
  attempt (validateOwner ownerId)
  if oldFingerprint = newFingerprint then raise (.invalid "replacement certificate must be different")
  else do
    let registry ← read
    match enrollmentByFingerprint registry oldFingerprint with
    | none => raise (.notEnrolled oldFingerprint)
    | some old =>
      if old.ownerId = ownerId ∧ old.state = .replaced ∧ old.replacementFingerprint = some newFingerprint then
        replayRotation ownerId newFingerprint
      else if old.ownerId ≠ ownerId ∨ old.state ≠ .active then
        raise (.conflict s!"certificate {oldFingerprint} is not active for owner {ownerId}")
      else replace ownerId oldFingerprint newFingerprint nowMs

def revoke (fingerprint : Sha256Digest) (nowMs : Nat) : RegistryTransaction CertificateEnrollment := do
  let registry ← read
  match enrollmentByFingerprint registry fingerprint with
  | none => raise (.notEnrolled fingerprint)
  | some enrollment => match enrollment.state with
    | .revoked => return enrollment
    | .replaced => raise (.conflict s!"replaced certificate {fingerprint} is already inactive")
    | .active => do
      let now ← attempt (toI64 nowMs)
      write fun registry => registry.update fingerprint (setRevoked now)
      reread fingerprint "revoked enrollment disappeared"

def resolveFingerprint (registry : Registry) (fingerprint : Sha256Digest) : Except IdentityError String :=
  match enrollmentByFingerprint registry fingerprint with
  | none => .error (.notEnrolled fingerprint)
  | some enrollment => match enrollment.state with
    | .active => .ok enrollment.ownerId
    | .replaced => .error (.replaced fingerprint)
    | .revoked => .error (.revoked fingerprint)

end SqliteIdentityRegistry

inductive RegistryCall where
  | enroll (ownerId : String) (fingerprint : Sha256Digest) (nowMs : Nat)
  | rotate (ownerId : String) (oldFingerprint newFingerprint : Sha256Digest) (nowMs : Nat)
  | revoke (fingerprint : Sha256Digest) (nowMs : Nat)
  | resolveFingerprint (fingerprint : Sha256Digest)

def RegistryCall.Result : RegistryCall → Type
  | .enroll _ _ _ | .rotate _ _ _ _ | .revoke _ _ => CertificateEnrollment
  | .resolveFingerprint _ => String

abbrev RegistryCall.Reply (call : RegistryCall) : Type := Except IdentityError call.Result

def RegistryCall.transaction : (call : RegistryCall) → RegistryTransaction call.Result
  | .enroll ownerId fingerprint nowMs => SqliteIdentityRegistry.enroll ownerId fingerprint nowMs
  | .rotate ownerId oldFingerprint newFingerprint nowMs =>
    SqliteIdentityRegistry.rotate ownerId oldFingerprint newFingerprint nowMs
  | .revoke fingerprint nowMs => SqliteIdentityRegistry.revoke fingerprint nowMs
  | .resolveFingerprint fingerprint => fun registry =>
    (SqliteIdentityRegistry.resolveFingerprint registry fingerprint, registry)

def RegistryCall.execute (call : RegistryCall) (registry : Registry) : Registry × call.Reply :=
  call.transaction.run registry

abbrev RegistryEvent := SharedStore.Event RegistryCall RegistryCall.Reply

inductive RegistryStep (registry : Registry) : RegistryEvent → Registry → Prop where
  | ran (call : RegistryCall) : RegistryStep registry ⟨call, (call.execute registry).2⟩ (call.execute registry).1
  | failed (call : RegistryCall) (detail : String) : RegistryStep registry ⟨call, .error (.storage detail)⟩ registry

inductive RegistryRun (registry : Registry) : List RegistryEvent → Registry → Prop where
  | start : RegistryRun registry [] registry
  | step {log registry' e registry''} (h : RegistryRun registry log registry')
    (hs : RegistryStep registry' e registry'') :
      RegistryRun registry (log ++ [e]) registry''

/-! What the registry keeps over all calls. A fingerprint stays with its owner, and once it is inactive it stays
as it is. Links to replacements lead forward in the order of enrollment. -/

variable {registry registry' registry'' : Registry} {fingerprint : Sha256Digest}

inductive RegistryChange (registry : Registry) : Registry → Prop where
  | same : RegistryChange registry registry
  | enrolled (ownerId fingerprint nowMs) (hnew : registry.find fingerprint = none)
      (hfree : ∀ row ∈ registry.rows, row.ownerId = ownerId → row.state ≠ .active) :
      RegistryChange registry (registry.insertOrIgnore (newRow ownerId fingerprint nowMs))
  | rotated (old new nowMs row) (hold : registry.find old = some row) (hactive : row.state = .active)
      (hnew : registry.find new = none) :
      RegistryChange registry ((registry.update old (setReplaced new nowMs)).insertOrIgnore
        (newRow row.ownerId new nowMs))
  | revoked (fingerprint nowMs row) (hrow : registry.find fingerprint = some row) (hactive : row.state = .active) :
      RegistryChange registry (registry.update fingerprint (setRevoked nowMs))

/-- A rotation is repeated after its replacement has been replaced or revoked itself. -/
def RegistryCall.Late (registry : Registry) : RegistryCall → Prop
  | .rotate ownerId old new _ => isBlank ownerId = false ∧ old ≠ new ∧ ∃ row replacement, registry.find old = some row ∧
      row.ownerId = ownerId ∧ row.state = .replaced ∧ row.replacementFingerprint = some new ∧
      registry.find new = some replacement ∧ replacement.state ≠ .active
  | _ => False

def Handed (registry : Registry) (ownerId : String) (old new : Sha256Digest) : Prop :=
  ∃ row, registry.find old = some row ∧ row.ownerId = ownerId ∧ row.state = .replaced ∧
    row.replacementFingerprint = some new

def BoundTo (registry : Registry) (ownerId : String) (fingerprint : Sha256Digest) : Prop :=
  ∃ row, registry.find fingerprint = some row ∧ row.ownerId = ownerId

def Withdrawn (registry : Registry) (fingerprint : Sha256Digest) : Prop :=
  ∃ row, registry.find fingerprint = some row ∧ row.state = .revoked

/-- A certificate that names a replacement was replaced by a later one of the same owner. -/
structure Sound (registry : Registry) : Prop where
  exclusive : ∀ u ∈ registry.rows, ∀ v ∈ registry.rows, u.ownerId = v.ownerId → u.state = .active →
    v.state = .active → u = v
  active : ∀ row ∈ registry.rows, row.state = .active → row.replacementFingerprint = none
  linked : ∀ row ∈ registry.rows, ∀ new, row.replacementFingerprint = some new → ∃ replacement ∈ registry.rows,
    replacement.fingerprint = new ∧ replacement.ownerId = row.ownerId ∧
    (registry.rows.map EnrollmentRow.fingerprint).idxOf row.fingerprint <
      (registry.rows.map EnrollmentRow.fingerprint).idxOf new

open SqliteIdentityRegistry

section calls

theorem enrollmentByFingerprint_none : enrollmentByFingerprint registry fingerprint = none ↔
    registry.find fingerprint = none := by
  simp [enrollmentByFingerprint]

theorem enrollmentByFingerprint_some {enrollment : CertificateEnrollment} :
    enrollmentByFingerprint registry fingerprint = some enrollment ↔
      ∃ row, registry.find fingerprint = some row ∧ row.enrollment = enrollment := by
  simp [enrollmentByFingerprint]

variable {ownerId : String} {nowMs : Nat} {row : EnrollmentRow} {e : IdentityError}

theorem activeEnrollmentByOwner_none (h : activeEnrollmentByOwner registry ownerId = none) :
    ∀ row ∈ registry.rows, row.ownerId = ownerId → row.state ≠ .active := by
  have hnone := Option.map_eq_none_iff.mp h
  intro row hrow howner hactive
  have hno := List.find?_eq_none.mp hnone row hrow
  simp [howner, hactive] at hno

theorem wp_reread {missing : String} {Q : CertificateEnrollment → Registry → Prop}
    {E : IdentityError → Registry → Prop} (h : registry.find fingerprint = some row) (hQ : Q row.enrollment registry) :
    (reread fingerprint missing).wp registry Q E := by
  have hread : enrollmentByFingerprint registry fingerprint = some row.enrollment :=
    enrollmentByFingerprint_some.mpr ⟨row, h, rfl⟩
  unfold reread
  simp only [wp_bind, wp_read, hread]
  exact hQ

theorem toI64_error {value : Nat} (h : toI64 value = .error e) : ∀ detail, e ≠ .corrupt detail := by
  unfold toI64 at h
  by_cases hv : value < 2 ^ 63
  · rw [if_pos hv] at h
    cases h
  · rw [if_neg hv] at h
    cases h
    exact nofun

theorem validateOwner_error (h : validateOwner ownerId = .error e) :
    isBlank ownerId = true ∧ ∀ detail, e ≠ .corrupt detail := by
  unfold validateOwner at h
  by_cases hblank : isBlank ownerId = true
  · rw [if_pos hblank] at h
    cases h
    exact ⟨hblank, nofun⟩
  · rw [if_neg hblank] at h
    cases h

theorem validateOwner_ok {u : Unit} (h : validateOwner ownerId = .ok u) : isBlank ownerId = false := by
  by_cases hblank : isBlank ownerId = true
  · unfold validateOwner at h
    rw [if_pos hblank] at h
    cases h
  · simpa using hblank

theorem find_newRow {ownerId : String} {nowMs : Nat} (h : registry.find fingerprint = none) :
    (registry.insertOrIgnore (newRow ownerId fingerprint nowMs)).find fingerprint =
      some (newRow ownerId fingerprint nowMs) := by
  have hfind := @Table.find_insertOrIgnore _ _ EnrollmentRow.fingerprint _ registry (newRow ownerId fingerprint nowMs)
  rw [show registry.find (newRow ownerId fingerprint nowMs).fingerprint = none from h] at hfind
  exact hfind

theorem enroll_wp : (enroll ownerId fingerprint nowMs).wp registry
    (fun _ registry' => RegistryChange registry registry' ∧ BoundTo registry' ownerId fingerprint)
    fun e _ => ∀ detail, e ≠ .corrupt detail := by
  unfold enroll
  simp only [wp_bind, wp_attempt, wp_read]
  refine ⟨fun _ _ => ?_, fun e he => (validateOwner_error he).2⟩
  cases hrow : enrollmentByFingerprint registry fingerprint with
  | some existing =>
    by_cases hsame : existing.ownerId = ownerId ∧ existing.state = .active
    · obtain ⟨row, hfind, rfl⟩ := enrollmentByFingerprint_some.mp hrow
      simp only [if_pos hsame]
      exact ⟨.same, row, hfind, hsame.1⟩
    · simp only [if_neg hsame]
      exact fun _ h => by cases h
  | none =>
    have hnew := enrollmentByFingerprint_none.mp hrow
    cases hfree : activeEnrollmentByOwner registry ownerId with
    | some active => exact fun _ h => by cases h
    | none =>
      simp only [wp_bind, wp_attempt, wp_write]
      refine ⟨fun now _ => ?_, fun e he => toI64_error he⟩
      have hfind := @find_newRow registry fingerprint ownerId now hnew
      exact wp_reread hfind ⟨.enrolled _ _ _ hnew (activeEnrollmentByOwner_none hfree), _, hfind, rfl⟩

theorem replace_wp {old new : Sha256Digest}
    (hold : registry.find old = some row) (howner : row.ownerId = ownerId) (hactive : row.state = .active) :
    (replace ownerId old new nowMs).wp registry
      (fun _ registry' => RegistryChange registry registry' ∧ Handed registry' ownerId old new)
      fun e _ => ∀ detail, e ≠ .corrupt detail := by
  subst howner
  unfold replace
  simp only [wp_bind, wp_read]
  cases hrow : enrollmentByFingerprint registry new with
  | some existing => exact fun _ h => by cases h
  | none =>
    have hnew := enrollmentByFingerprint_none.mp hrow
    simp only [wp_bind, wp_attempt, wp_write]
    refine ⟨fun now _ => ?_, fun e he => toI64_error he⟩
    have hstill : (registry.update old (setReplaced new now)).find new = none := by
      rw [Table.find_update, hnew]
      rfl
    have hne : new ≠ old := by
      intro heq
      rw [heq, hold] at hnew
      cases hnew
    have hhanded : Handed ((registry.update old (setReplaced new now)).insertOrIgnore (newRow row.ownerId new now))
        row.ownerId old new := by
      refine ⟨(setReplaced new now).apply row, ?_, rfl, rfl, rfl⟩
      rw [Table.find_insertOrIgnore_ne hne, Table.find_update_self, hold]
      rfl
    exact wp_reread (find_newRow hstill) ⟨.rotated old new now row hold hactive hnew, hhanded⟩

theorem replayRotation_wp {new : Sha256Digest} {replacement : EnrollmentRow}
    (hnew : registry.find new = some replacement) (howner : replacement.ownerId = ownerId) :
    (replayRotation ownerId new).wp registry
      (fun _ registry' => registry' = registry ∧ replacement.state = .active)
      fun e _ => (∃ detail, e = .corrupt detail) ∧ replacement.state ≠ .active := by
  have hread : enrollmentByFingerprint registry new = some replacement.enrollment :=
    enrollmentByFingerprint_some.mpr ⟨replacement, hnew, rfl⟩
  unfold replayRotation
  simp only [wp_bind, wp_read, hread]
  by_cases hactive : replacement.state = .active
  · have hboth : replacement.enrollment.ownerId = ownerId ∧ replacement.enrollment.state = .active := ⟨howner, hactive⟩
    simp only [if_pos hboth]
    exact ⟨rfl, hactive⟩
  · have hnot : ¬ (replacement.enrollment.ownerId = ownerId ∧ replacement.enrollment.state = .active) :=
      fun h => hactive h.2
    simp only [if_neg hnot]
    exact ⟨⟨_, rfl⟩, hactive⟩

theorem rotate_wp {old new : Sha256Digest} (hs : Sound registry) :
    (rotate ownerId old new nowMs).wp registry
      (fun _ registry' => (RegistryChange registry registry' ∧ Handed registry' ownerId old new) ∧
        ¬ (RegistryCall.rotate ownerId old new nowMs).Late registry)
      fun e _ => (∃ detail, e = .corrupt detail) ↔ (RegistryCall.rotate ownerId old new nowMs).Late registry := by
  have hquiet : ∀ {e : IdentityError}, (∀ detail, e ≠ .corrupt detail) →
      ¬ (RegistryCall.rotate ownerId old new nowMs).Late registry →
      ((∃ detail, e = .corrupt detail) ↔ (RegistryCall.rotate ownerId old new nowMs).Late registry) :=
    fun he hlate => ⟨fun ⟨detail, hd⟩ => absurd hd (he detail), fun h => absurd h hlate⟩
  unfold rotate
  simp only [wp_bind, wp_attempt]
  refine ⟨fun _ howner => ?_, fun e he => hquiet (validateOwner_error he).2 fun hlate => ?_⟩
  · by_cases hsame : old = new
    · simp only [if_pos hsame]
      exact hquiet (fun _ h => by cases h) fun hlate => hlate.2.1 hsame
    · simp only [if_neg hsame, wp_bind, wp_read]
      cases hrow : enrollmentByFingerprint registry old with
      | none =>
        have hnone := enrollmentByFingerprint_none.mp hrow
        refine hquiet (fun _ h => by cases h) fun hlate => ?_
        obtain ⟨-, -, row, _, hfind, -⟩ := hlate
        rw [hnone] at hfind
        cases hfind
      | some enrollment =>
        obtain ⟨row, hfind, rfl⟩ := enrollmentByFingerprint_some.mp hrow
        by_cases hreplay : row.enrollment.ownerId = ownerId ∧ row.enrollment.state = .replaced ∧
            row.enrollment.replacementFingerprint = some new
        · -- The link of the replaced row finds the replacement of the same owner.
          obtain ⟨replacement, hmem, hkey, hown, -⟩ := hs.linked row (Table.find_eq_some.mp hfind).1 new hreplay.2.2
          have hnew : registry.find new = some replacement := Table.find_eq_some.mpr ⟨hmem, hkey⟩
          have hlate : (RegistryCall.rotate ownerId old new nowMs).Late registry ↔ replacement.state ≠ .active := by
            constructor
            · rintro ⟨-, -, _, replacement', -, -, -, -, hfind', hstate⟩
              rw [hnew] at hfind'
              cases hfind'
              exact hstate
            · intro hstate
              exact ⟨validateOwner_ok howner, hsame, row, replacement, hfind, hreplay.1, hreplay.2.1, hreplay.2.2, hnew,
                hstate⟩
          simp only [if_pos hreplay]
          refine wp_mono (replayRotation_wp hnew (hown.trans hreplay.1)) ?_ ?_
          · rintro _ _ ⟨rfl, hactive⟩
            exact ⟨⟨.same, row, hfind, hreplay⟩, fun hl => hlate.mp hl hactive⟩
          · intro e _ h
            exact ⟨fun _ => hlate.mpr h.2, fun _ => h.1⟩
        · have hlate : ¬ (RegistryCall.rotate ownerId old new nowMs).Late registry := by
            rintro ⟨-, -, row', _, hfind', hown, hstate, hlink, -⟩
            rw [hfind] at hfind'
            cases hfind'
            exact hreplay ⟨hown, hstate, hlink⟩
          simp only [if_neg hreplay]
          by_cases hforeign : row.enrollment.ownerId ≠ ownerId ∨ row.enrollment.state ≠ .active
          · simp only [if_pos hforeign]
            exact hquiet (fun _ h => by cases h) hlate
          · have hown : row.ownerId = ownerId := by
              by_contra hne
              exact hforeign (.inl hne)
            have hactive : row.state = .active := by
              by_contra hne
              exact hforeign (.inr hne)
            simp only [if_neg hforeign]
            refine wp_mono (replace_wp hfind hown hactive) ?_ ?_
            · intro _ _ h
              exact ⟨h, hlate⟩
            · intro e _ h
              exact hquiet h hlate
  · have hblank := hlate.1
    rw [(validateOwner_error he).1] at hblank
    cases hblank

theorem revoke_wp : (revoke fingerprint nowMs).wp registry
    (fun _ registry' => RegistryChange registry registry' ∧ Withdrawn registry' fingerprint)
    fun e _ => ∀ detail, e ≠ .corrupt detail := by
  unfold revoke
  simp only [wp_bind, wp_read]
  cases hrow : enrollmentByFingerprint registry fingerprint with
  | none => exact fun _ h => by cases h
  | some enrollment =>
    obtain ⟨row, hfind, rfl⟩ := enrollmentByFingerprint_some.mp hrow
    cases hstate : row.state with
    | active =>
      simp only [EnrollmentRow.enrollment, hstate, wp_bind, wp_attempt, wp_write]
      refine ⟨fun now _ => ?_, fun e he => toI64_error he⟩
      have hfind' : (registry.update fingerprint (setRevoked now)).find fingerprint =
        some ((setRevoked now).apply row) := by
        rw [Table.find_update_self, hfind]
        rfl
      exact wp_reread hfind' ⟨.revoked _ _ row hfind hstate, _, hfind', rfl⟩
    | replaced =>
      simp only [EnrollmentRow.enrollment, hstate]
      exact fun _ h => by cases h
    | revoked =>
      simp only [EnrollmentRow.enrollment, hstate]
      exact ⟨.same, row, hfind, hstate⟩

theorem resolveFingerprint_wp : (RegistryCall.resolveFingerprint fingerprint).transaction.wp registry
    (fun _ registry' => registry' = registry) fun e _ => ∀ detail, e ≠ .corrupt detail := by
  simp only [RegistryCall.transaction, resolveFingerprint, wp]
  cases enrollmentByFingerprint registry fingerprint with
  | none => exact fun _ h => by cases h
  | some enrollment =>
    cases hstate : enrollment.state with
    | active => simp only [hstate]
    | replaced | revoked =>
      simp only [hstate]
      exact fun _ h => by cases h

end calls

section changes

variable {ownerId : String} {old new : Sha256Digest} {nowMs : Nat} {row : EnrollmentRow}

abbrev fingerprints (registry : Registry) : List Sha256Digest := registry.rows.map EnrollmentRow.fingerprint

variable {g : RowUpdate EnrollmentRow.fingerprint}

theorem fingerprints_update : fingerprints (registry.update fingerprint g) = fingerprints registry := by
  simp only [fingerprints, Table.update, List.map_map]
  apply List.map_congr_left
  intro v _
  by_cases h : v.fingerprint = fingerprint
  · simp only [Function.comp_apply, if_pos h, g.keeps]
  · simp only [Function.comp_apply, if_neg h]

theorem mem_fingerprints (h : row ∈ registry.rows) : row.fingerprint ∈ fingerprints registry :=
  List.mem_map_of_mem h

theorem fingerprints_insert (h : registry.find fingerprint = none) :
    fingerprints (registry.insertOrIgnore (newRow ownerId fingerprint nowMs)) = fingerprints registry ++
    [fingerprint] := by
  simp only [fingerprints, Table.insertOrIgnore_absent
    (show registry.find (newRow ownerId fingerprint nowMs).fingerprint = none from h), List.map_append]
  rfl

theorem Sound.empty : Sound Table.empty := ⟨nofun, nofun, nofun⟩

theorem Sound.enrolled (hs : Sound registry) (hnew : registry.find fingerprint = none)
    (hfree : ∀ row ∈ registry.rows, row.ownerId = ownerId → row.state ≠ .active) :
    Sound (registry.insertOrIgnore (newRow ownerId fingerprint nowMs)) := by
  have hrows : (registry.insertOrIgnore (newRow ownerId fingerprint nowMs)).rows =
      registry.rows ++ [newRow ownerId fingerprint nowMs] := Table.insertOrIgnore_absent hnew
  refine ⟨fun u hu v hv howner hua hva => ?_, fun row hrow hactive => ?_, fun row hrow link hlink => ?_⟩
  · rw [hrows, List.mem_append, List.mem_singleton] at hu hv
    rcases hu with hu | rfl
    · rcases hv with hv | rfl
      · exact hs.exclusive u hu v hv howner hua hva
      · exact absurd hua (hfree u hu howner)
    · rcases hv with hv | rfl
      · exact absurd hva (hfree v hv howner.symm)
      · rfl
  · rw [hrows, List.mem_append, List.mem_singleton] at hrow
    rcases hrow with hrow | rfl
    · exact hs.active row hrow hactive
    · rfl
  · rw [hrows, List.mem_append, List.mem_singleton] at hrow
    rcases hrow with hrow | rfl
    · obtain ⟨replacement, hmem, hkey, hown, hlt⟩ := hs.linked row hrow link hlink
      have hlink' : link ∈ fingerprints registry := hkey ▸ mem_fingerprints hmem
      refine ⟨replacement, ?_, hkey, hown, ?_⟩
      · rw [hrows]
        exact List.mem_append_left _ hmem
      · have hlist := @fingerprints_insert registry fingerprint ownerId nowMs hnew
        simp only [fingerprints] at hlist hlink'
        rw [hlist, List.idxOf_append_of_mem (mem_fingerprints hrow), List.idxOf_append_of_mem hlink']
        exact hlt
    · cases hlink

theorem mem_rotated (hnew : registry.find new = none) {u : EnrollmentRow} :
    u ∈ ((registry.update old (setReplaced new nowMs)).insertOrIgnore (newRow ownerId new nowMs)).rows ↔
      (∃ v ∈ registry.rows, u = if v.fingerprint = old then (setReplaced new nowMs).apply v else v) ∨
        u = newRow ownerId new nowMs := by
  have hstill : (registry.update old (setReplaced new nowMs)).find new = none := by
    rw [Table.find_update, hnew]
    rfl
  rw [Table.insertOrIgnore_absent (show (registry.update old (setReplaced new nowMs)).find
    (newRow ownerId new nowMs).fingerprint = none from hstill), List.mem_append, List.mem_singleton, Table.mem_update]

theorem Sound.rotated (hs : Sound registry) (hold : registry.find old = some row) (hactive : row.state = .active)
    (hnew : registry.find new = none) :
    Sound ((registry.update old (setReplaced new nowMs)).insertOrIgnore (newRow row.ownerId new nowMs)) := by
  obtain ⟨hrow, hkey⟩ := Table.find_eq_some.mp hold
  have hstill : (registry.update old (setReplaced new nowMs)).find new = none := by
    rw [Table.find_update, hnew]
    rfl
  have hlist := (@fingerprints_insert _ _ row.ownerId nowMs hstill).trans (congrArg (· ++ [new]) fingerprints_update)
  have habsent : ∀ v ∈ registry.rows, v.fingerprint ≠ new := Table.find_eq_none.mp hnew
  -- Apart from the rotated row a row is as it was, and no row of the owner is active but the new one.
  have hactive_old : ∀ v ∈ registry.rows, v.ownerId = row.ownerId → v.state = .active → v.fingerprint = old := by
    intro v hv howner hva
    rw [hs.exclusive v hv row hrow howner hva hactive, hkey]
  refine ⟨fun u hu v hv howner hua hva => ?_, fun u hu hua => ?_, fun u hu link hlink => ?_⟩
  · rcases (mem_rotated hnew).mp hu with ⟨u', hu', rfl⟩ | rfl
    · by_cases huk : u'.fingerprint = old
      · rw [if_pos huk] at hua
        cases hua
      · rw [if_neg huk] at hua howner ⊢
        rcases (mem_rotated hnew).mp hv with ⟨v', hv', rfl⟩ | rfl
        · by_cases hvk : v'.fingerprint = old
          · rw [if_pos hvk] at hva
            cases hva
          · rw [if_neg hvk] at hva howner ⊢
            exact hs.exclusive u' hu' v' hv' howner hua hva
        · exact absurd (hactive_old u' hu' howner hua) huk
    · rcases (mem_rotated hnew).mp hv with ⟨v', hv', rfl⟩ | rfl
      · by_cases hvk : v'.fingerprint = old
        · rw [if_pos hvk] at hva
          cases hva
        · rw [if_neg hvk] at hva howner
          exact absurd (hactive_old v' hv' howner.symm hva) hvk
      · rfl
  · rcases (mem_rotated hnew).mp hu with ⟨u', hu', rfl⟩ | rfl
    · by_cases huk : u'.fingerprint = old
      · rw [if_pos huk] at hua
        cases hua
      · rw [if_neg huk] at hua ⊢
        exact hs.active u' hu' hua
    · rfl
  · simp only [fingerprints] at hlist
    rw [hlist]
    rcases (mem_rotated hnew).mp hu with ⟨u', hu', rfl⟩ | rfl
    · by_cases huk : u'.fingerprint = old
      · rw [if_pos huk] at hlink ⊢
        obtain rfl : new = link := Option.some.inj hlink
        have howner : row.ownerId = u'.ownerId := by
          rw [Table.eq_of_key hu' hrow (huk.trans hkey.symm)]
        refine ⟨newRow row.ownerId new nowMs, (mem_rotated hnew).mpr (.inr rfl), rfl, howner, ?_⟩
        have hmem := mem_fingerprints hu'
        have hnot : new ∉ fingerprints registry := by
          intro hin
          obtain ⟨v, hv, hvk⟩ := List.mem_map.mp hin
          exact habsent v hv hvk
        have hlt := List.idxOf_lt_length_of_mem hmem
        have hlast : (fingerprints registry ++ [new]).idxOf new = (fingerprints registry).length + [new].idxOf new :=
          List.idxOf_append_of_notMem hnot
        show (fingerprints registry ++ [new]).idxOf u'.fingerprint < (fingerprints registry ++ [new]).idxOf new
        rw [List.idxOf_append_of_mem hmem, hlast]
        omega
      · rw [if_neg huk] at hlink ⊢
        obtain ⟨replacement, hmem, hrk, hown, hlt⟩ := hs.linked u' hu' link hlink
        refine ⟨_, (mem_rotated hnew).mpr (.inl ⟨replacement, hmem, rfl⟩), ?_, ?_, ?_⟩
        · by_cases hro : replacement.fingerprint = old
          · rw [if_pos hro]
            exact hrk
          · rw [if_neg hro]
            exact hrk
        · by_cases hro : replacement.fingerprint = old
          · rw [if_pos hro]
            exact hown
          · rw [if_neg hro]
            exact hown
        · have hlink' : link ∈ registry.rows.map EnrollmentRow.fingerprint := hrk ▸ mem_fingerprints hmem
          rw [List.idxOf_append_of_mem (mem_fingerprints hu'), List.idxOf_append_of_mem hlink']
          exact hlt
    · cases hlink

theorem Sound.revoked (hs : Sound registry) :
    Sound (registry.update fingerprint (setRevoked nowMs)) := by
  refine ⟨fun u hu v hv howner hua hva => ?_, fun u hu hua => ?_, fun u hu link hlink => ?_⟩
  · obtain ⟨u', hu', rfl⟩ := Table.mem_update.mp hu
    obtain ⟨v', hv', rfl⟩ := Table.mem_update.mp hv
    by_cases huk : u'.fingerprint = fingerprint
    · rw [if_pos huk] at hua
      cases hua
    · by_cases hvk : v'.fingerprint = fingerprint
      · rw [if_pos hvk] at hva
        cases hva
      · rw [if_neg huk] at hua howner ⊢
        rw [if_neg hvk] at hva howner ⊢
        exact hs.exclusive u' hu' v' hv' howner hua hva
  · obtain ⟨u', hu', rfl⟩ := Table.mem_update.mp hu
    by_cases huk : u'.fingerprint = fingerprint
    · rw [if_pos huk] at hua
      cases hua
    · rw [if_neg huk] at hua ⊢
      exact hs.active u' hu' hua
  · have hlist := @fingerprints_update registry fingerprint (setRevoked nowMs)
    simp only [fingerprints] at hlist
    rw [hlist]
    obtain ⟨u', hu', rfl⟩ := Table.mem_update.mp hu
    have hsame : ∀ v : EnrollmentRow,
        (if v.fingerprint = fingerprint then (setRevoked nowMs).apply v else v).fingerprint = v.fingerprint ∧
        (if v.fingerprint = fingerprint then (setRevoked nowMs).apply v else v).ownerId = v.ownerId ∧
        (if v.fingerprint = fingerprint then (setRevoked nowMs).apply v else v).replacementFingerprint =
          v.replacementFingerprint := by
      intro v
      by_cases h : v.fingerprint = fingerprint
      · rw [if_pos h]
        exact ⟨rfl, rfl, rfl⟩
      · rw [if_neg h]
        exact ⟨rfl, rfl, rfl⟩
    obtain ⟨hfp, hown, hrep⟩ := hsame u'
    rw [hrep] at hlink
    obtain ⟨replacement, hrm, hrk, hro, hlt⟩ := hs.linked u' hu' link hlink
    obtain ⟨hfp', hown', -⟩ := hsame replacement
    refine ⟨_, Table.mem_update.mpr ⟨replacement, hrm, rfl⟩, hfp'.trans hrk, hown'.trans (hro.trans hown.symm), ?_⟩
    rw [show EnrollmentRow.fingerprint _ = u'.fingerprint from hfp]
    exact hlt

theorem Sound.change (hs : Sound registry) (hc : RegistryChange registry registry') : Sound registry' := by
  cases hc with
  | same => exact hs
  | enrolled ownerId fingerprint nowMs hnew hfree => exact hs.enrolled hnew hfree
  | rotated old new nowMs row hold hactive hnew => exact hs.rotated hold hactive hnew
  | revoked fingerprint nowMs row hrow hactive => exact hs.revoked

/-- No row is lost, none changes its owner, and an inactive one does not change at all. -/
def Persists (registry registry' : Registry) : Prop :=
  ∀ fingerprint row, registry.find fingerprint = some row → ∃ row', registry'.find fingerprint = some row' ∧
    row'.ownerId = row.ownerId ∧ (row.state ≠ .active → row' = row)

theorem Persists.refl : Persists registry registry := fun _ row h => ⟨row, h, rfl, fun _ => rfl⟩

theorem Persists.trans (h : Persists registry registry') (h' : Persists registry' registry'') :
    Persists registry registry'' := by
  intro fingerprint row hrow
  obtain ⟨row', hrow', howner, hsame⟩ := h fingerprint row hrow
  obtain ⟨row'', hrow'', howner', hsame'⟩ := h' fingerprint row' hrow'
  refine ⟨row'', hrow'', howner'.trans howner, fun hstate => ?_⟩
  have heq := hsame hstate
  rw [← heq] at hstate ⊢
  exact hsame' hstate

theorem Persists.insert {v : EnrollmentRow} (hnew : registry.find v.fingerprint = none) :
    Persists registry (registry.insertOrIgnore v) := by
  intro fingerprint row hrow
  have hne : v.fingerprint ≠ fingerprint := by
    intro heq
    rw [heq, hrow] at hnew
    cases hnew
  exact ⟨row, by rw [Table.find_insertOrIgnore_ne hne, hrow], rfl, fun _ => rfl⟩

theorem Persists.update (howner : ∀ v, (g.apply v).ownerId = v.ownerId) (hold : registry.find old = some row)
    (hactive : row.state = .active) : Persists registry (registry.update old g) := by
  intro fingerprint v hv
  by_cases heq : fingerprint = old
  · subst heq
    obtain rfl : row = v := Option.some.inj (hold.symm.trans hv)
    refine ⟨g.apply row, ?_, howner row, fun hstate => absurd hactive hstate⟩
    rw [Table.find_update_self, hold]
    rfl
  · exact ⟨v, by rw [Table.find_update_ne heq, hv], rfl, fun _ => rfl⟩

theorem Persists.change (hc : RegistryChange registry registry') : Persists registry registry' := by
  cases hc with
  | same => exact .refl
  | enrolled ownerId fingerprint nowMs hnew hfree => exact .insert hnew
  | rotated old new nowMs row hold hactive hnew =>
    refine Persists.trans (.update (fun _ => rfl) hold hactive) (.insert ?_)
    show (registry.update old (setReplaced new nowMs)).find new = none
    rw [Table.find_update, hnew]
    rfl
  | revoked fingerprint nowMs row hrow hactive => exact .update (fun _ => rfl) hrow hactive

end changes

end AlloyPort.Enrollment
