import AlloyPort.Enrollment.Registry

/-! The registry over all sequences of calls. -/

namespace AlloyPort.Enrollment

open Database Transaction SqliteIdentityRegistry

variable {registry registry' : Registry} {log : List RegistryEvent}

section execute

def RegistryCall.Done (registry : Registry) : RegistryCall → Prop
  | .enroll ownerId fingerprint _ => BoundTo registry ownerId fingerprint
  | .rotate ownerId old new _ => Handed registry ownerId old new
  | .revoke fingerprint _ => Withdrawn registry fingerprint
  | .resolveFingerprint _ => True

structure RegistryCall.Answers (call : RegistryCall) (registry : Registry) : Prop where
  change : RegistryChange registry (call.execute registry).1
  done : ∀ a, (call.execute registry).2 = .ok a → call.Done (call.execute registry).1
  failed : ∀ e, (call.execute registry).2 = .error e → (call.execute registry).1 = registry
  corrupt : (∃ detail, (call.execute registry).2 = .error (.corrupt detail)) ↔ call.Late registry

theorem answers_of_wp {call : RegistryCall}
    (h : call.transaction.wp registry
      (fun _ registry' => (RegistryChange registry registry' ∧ call.Done registry') ∧ ¬ call.Late registry)
      fun e _ => (∃ detail, e = .corrupt detail) ↔ call.Late registry) : call.Answers registry := by
  rcases run_outcome h with ⟨a, ha, ⟨hchange, hdone⟩, hlate⟩ | ⟨e, he, hsame, hcorrupt⟩
  · have hok : (call.execute registry).2 = .ok a := ha
    refine ⟨hchange, fun _ _ => hdone, fun e he => ?_, fun ⟨detail, hd⟩ => ?_, fun hl => absurd hl hlate⟩
    · rw [hok] at he
      cases he
    · rw [hok] at hd
      cases hd
  · have herror : (call.execute registry).2 = .error e := he
    have hrest : (call.execute registry).1 = registry := hsame
    refine ⟨?_, fun a ha => ?_, fun _ _ => hrest, ?_⟩
    · rw [hrest]
      exact .same
    · rw [herror] at ha
      cases ha
    · rw [← hcorrupt, herror]
      simp

theorem RegistryCall.answers (hs : Sound registry) (call : RegistryCall) : call.Answers registry := by
  cases call with
  | enroll ownerId fingerprint nowMs =>
    refine answers_of_wp (wp_mono enroll_wp ?_ ?_)
    · intro _ _ h
      exact ⟨h, id⟩
    · intro e _ h
      exact ⟨fun ⟨detail, hd⟩ => h detail hd, False.elim⟩
  | rotate ownerId old new nowMs => exact answers_of_wp (rotate_wp hs)
  | revoke fingerprint nowMs =>
    refine answers_of_wp (wp_mono revoke_wp ?_ ?_)
    · intro _ _ h
      exact ⟨h, id⟩
    · intro e _ h
      exact ⟨fun ⟨detail, hd⟩ => h detail hd, False.elim⟩
  | resolveFingerprint fingerprint =>
    refine answers_of_wp (wp_mono resolveFingerprint_wp ?_ ?_)
    · intro _ _ h
      subst h
      exact ⟨⟨.same, trivial⟩, id⟩
    · intro e _ h
      exact ⟨fun ⟨detail, hd⟩ => h detail hd, False.elim⟩

end execute

section runs

variable {e : RegistryEvent} {ownerId : String} {new old fingerprint : Sha256Digest} {nowMs : Nat}
  {result : e.call.Result} {call : RegistryCall}

theorem RegistryStep.change (hs : Sound registry) (h : RegistryStep registry e registry') :
    RegistryChange registry registry' := by
  cases h with
  | ran call => exact (call.answers hs).change
  | failed call detail => exact .same

theorem RegistryRun.sound (hs : Sound registry) (h : RegistryRun registry log registry') : Sound registry' := by
  induction h with
  | start => exact hs
  | step _ hstep ih => exact ih.change (hstep.change ih)

theorem RegistryRun.persists (hs : Sound registry) (h : RegistryRun registry log registry') :
    Persists registry registry' := by
  induction h with
  | start => exact .refl
  | step hrun hstep ih => exact ih.trans (.change (hstep.change (hrun.sound hs)))

theorem BoundTo.persists (h : BoundTo registry ownerId fingerprint)
    (hp : Persists registry registry') : BoundTo registry' ownerId fingerprint := by
  obtain ⟨row, hrow, howner⟩ := h
  obtain ⟨row', hrow', howner', -⟩ := hp fingerprint row hrow
  exact ⟨row', hrow', howner'.trans howner⟩

theorem Handed.persists (h : Handed registry ownerId old new)
    (hp : Persists registry registry') : Handed registry' ownerId old new := by
  obtain ⟨row, hrow, howner, hstate, hlink⟩ := h
  obtain ⟨row', hrow', -, hsame⟩ := hp old row hrow
  have hne : row.state ≠ .active := by
    rw [hstate]
    exact nofun
  rw [hsame hne] at hrow'
  exact ⟨row, hrow', howner, hstate, hlink⟩

theorem Withdrawn.persists (h : Withdrawn registry fingerprint)
    (hp : Persists registry registry') : Withdrawn registry' fingerprint := by
  obtain ⟨row, hrow, hstate⟩ := h
  obtain ⟨row', hrow', -, hsame⟩ := hp fingerprint row hrow
  have hne : row.state ≠ .active := by
    rw [hstate]
    exact nofun
  rw [hsame hne] at hrow'
  exact ⟨row, hrow', hstate⟩

theorem RegistryCall.Done.persists (h : call.Done registry) (hp : Persists registry registry') :
    call.Done registry' := by
  cases call with
  | enroll ownerId fingerprint nowMs => exact BoundTo.persists h hp
  | rotate ownerId old new nowMs => exact Handed.persists h hp
  | revoke fingerprint nowMs => exact Withdrawn.persists h hp
  | resolveFingerprint fingerprint => trivial

theorem RegistryStep.done (hs : Sound registry)
    (h : RegistryStep registry e registry') (hok : e.reply = .ok result) : e.call.Done registry' := by
  cases h with
  | ran call => exact (call.answers hs).done result hok
  | failed call detail => cases hok

theorem RegistryRun.done (hs : Sound registry)
    (h : RegistryRun registry log registry') (he : e ∈ log) (hok : e.reply = .ok result) : e.call.Done registry' := by
  induction h with
  | start => cases he
  | step hrun hstep ih =>
    rcases List.mem_append.mp he with hearlier | hlast
    · exact (ih hearlier).persists (.change (hstep.change (hrun.sound hs)))
    · rw [List.mem_singleton] at hlast
      subst hlast
      exact hstep.done (hrun.sound hs) hok

def RegistryCall.again (nowMs : Nat) : RegistryCall → RegistryCall
  | .enroll ownerId fingerprint _ => .enroll ownerId fingerprint nowMs
  | .rotate ownerId old new _ => .rotate ownerId old new nowMs
  | .revoke fingerprint _ => .revoke fingerprint nowMs
  | .resolveFingerprint fingerprint => .resolveFingerprint fingerprint

theorem enroll_again (h : BoundTo registry ownerId fingerprint) :
    (enroll ownerId fingerprint nowMs).wp registry (fun _ registry' => registry' = registry)
      fun _ _ => True := by
  obtain ⟨row, hrow, howner⟩ := h
  have hread : enrollmentByFingerprint registry fingerprint = some row.enrollment :=
    enrollmentByFingerprint_some.mpr ⟨row, hrow, rfl⟩
  unfold enroll
  simp only [wp_bind, wp_attempt, wp_read, hread]
  refine ⟨fun _ _ => ?_, fun _ _ => trivial⟩
  by_cases hsame : row.enrollment.ownerId = ownerId ∧ row.enrollment.state = .active
  · simp only [if_pos hsame]
    rfl
  · simp only [if_neg hsame]
    trivial

theorem rotate_again (hs : Sound registry) (h : Handed registry ownerId old new) :
    (rotate ownerId old new nowMs).wp registry (fun _ registry' => registry' = registry)
      fun _ _ => True := by
  obtain ⟨row, hrow, hreplay⟩ := h
  have hread : enrollmentByFingerprint registry old = some row.enrollment :=
    enrollmentByFingerprint_some.mpr ⟨row, hrow, rfl⟩
  obtain ⟨replacement, hmem, hkey, howner, -⟩ := hs.linked row (Table.find_eq_some.mp hrow).1 new hreplay.2.2
  have hnew : registry.find new = some replacement := Table.find_eq_some.mpr ⟨hmem, hkey⟩
  unfold rotate
  simp only [wp_bind, wp_attempt]
  refine ⟨fun _ _ => ?_, fun _ _ => trivial⟩
  by_cases hsame : old = new
  · simp only [if_pos hsame]
    trivial
  · have hboth : row.enrollment.ownerId = ownerId ∧ row.enrollment.state = .replaced ∧
        row.enrollment.replacementFingerprint = some new := hreplay
    simp only [if_neg hsame, wp_bind, wp_read, hread, if_pos hboth]
    refine wp_mono (replayRotation_wp hnew (howner.trans hreplay.1)) ?_ ?_
    · intro _ _ h
      exact h.1
    · intro _ _ _
      trivial

theorem revoke_again (h : Withdrawn registry fingerprint) :
    (revoke fingerprint nowMs).wp registry (fun _ registry' => registry' = registry)
      fun _ _ => True := by
  obtain ⟨row, hrow, hstate⟩ := h
  have hread : enrollmentByFingerprint registry fingerprint = some row.enrollment :=
    enrollmentByFingerprint_some.mpr ⟨row, hrow, rfl⟩
  unfold revoke
  simp only [wp_bind, wp_read, hread, EnrollmentRow.enrollment, hstate]
  rfl

theorem RegistryCall.again_unchanged (hs : Sound registry) (hdone : call.Done registry)
    (nowMs : Nat) : ((call.again nowMs).execute registry).1 = registry := by
  have hrun : ∀ call' : RegistryCall, call'.transaction.wp registry (fun _ registry' => registry' = registry)
      (fun _ _ => True) → (call'.execute registry).1 = registry := by
    intro call' hwp
    rcases run_cases hwp with ⟨_, -, hsame⟩ | ⟨_, -, hsame⟩
    · exact hsame
    · exact hsame
  cases call with
  | enroll ownerId fingerprint _ => exact hrun (.enroll ownerId fingerprint nowMs) (enroll_again hdone)
  | rotate ownerId old new _ => exact hrun (.rotate ownerId old new nowMs) (rotate_again hs hdone)
  | revoke fingerprint _ => exact hrun (.revoke fingerprint nowMs) (revoke_again hdone)
  | resolveFingerprint fingerprint =>
    refine hrun (.resolveFingerprint fingerprint) (wp_mono resolveFingerprint_wp ?_ ?_)
    · intro _ _ h
      exact h
    · intro _ _ _
      trivial

end runs

section lifetime

def ReplacedBy (registry : Registry) (old new : Sha256Digest) : Prop :=
  ∃ row ∈ registry.rows, row.fingerprint = old ∧ row.replacementFingerprint = some new

theorem Sound.forward {old new : Sha256Digest} (hs : Sound registry)
    (h : Relation.TransGen (ReplacedBy registry) old new) :
    (fingerprints registry).idxOf old < (fingerprints registry).idxOf new := by
  have hlink : ∀ {a b}, ReplacedBy registry a b →
    (fingerprints registry).idxOf a < (fingerprints registry).idxOf b := by
    rintro a b ⟨row, hrow, rfl, hb⟩
    obtain ⟨_, -, -, -, hlt⟩ := hs.linked row hrow b hb
    exact hlt
  induction h with
  | single h => exact hlink h
  | tail _ h ih =>
    have hlt := hlink h
    omega

theorem Persists.unresolved {fingerprint : Sha256Digest} {row : EnrollmentRow} {ownerId : String}
    (hp : Persists registry registry') (hrow : registry.find fingerprint = some row) (hstate : row.state ≠ .active) :
    resolveFingerprint registry' fingerprint ≠ .ok ownerId := by
  obtain ⟨row', hrow', -, hsame⟩ := hp fingerprint row hrow
  rw [hsame hstate] at hrow'
  have hread : enrollmentByFingerprint registry' fingerprint = some row.enrollment :=
    enrollmentByFingerprint_some.mpr ⟨row, hrow', rfl⟩
  unfold resolveFingerprint
  cases hcase : row.state with
  | active => exact absurd hcase hstate
  | replaced | revoked =>
    simp only [hread, EnrollmentRow.enrollment, hcase]
    exact fun h => by cases h

/-- All of the registry's contract holds over every sequence of calls, except that a rotation repeated after its
replacement has gone inactive finds the registry corrupt. -/
theorem registry_keeps_bindings (h : RegistryRun Table.empty log registry) :
    (∀ u ∈ registry.rows, ∀ v ∈ registry.rows, u.ownerId = v.ownerId → u.state = .active → v.state = .active → u = v) ∧
    (∀ later registry', RegistryRun registry later registry' → Persists registry registry' ∧
      ∀ fingerprint row, registry.find fingerprint = some row → row.state ≠ .active →
        ∀ ownerId, SqliteIdentityRegistry.resolveFingerprint registry' fingerprint ≠ .ok ownerId) ∧
    (∀ fingerprint, ¬ Relation.TransGen (ReplacedBy registry) fingerprint fingerprint) ∧
    (∀ e registry', RegistryStep registry e registry' → ∀ error, e.reply = .error error → registry' = registry) ∧
    (∀ e ∈ log, ∀ result, e.reply = .ok result → ∀ nowMs, ((e.call.again nowMs).execute registry).1 = registry) ∧
    ∀ call : RegistryCall, (∃ detail, (call.execute registry).2 = .error (.corrupt detail)) ↔ call.Late registry := by
  have hs : Sound registry := h.sound .empty
  refine ⟨hs.exclusive, fun later registry' hlater => ?_, fun fingerprint hcycle => ?_,
    fun e registry' hstep error he => ?_, fun e he result hok nowMs => ?_, fun call => (call.answers hs).corrupt⟩
  · have hp := hlater.persists hs
    exact ⟨hp, fun fingerprint row hrow hstate ownerId => hp.unresolved hrow hstate⟩
  · have hlt := hs.forward hcycle
    omega
  · cases hstep with
    | ran call => exact (call.answers hs).failed error he
    | failed call detail => rfl
  · exact RegistryCall.again_unchanged hs (h.done .empty he hok) nowMs

def executeAll (registry : Registry) : List RegistryCall → Registry
  | [] => registry
  | call :: calls => executeAll (call.execute registry).1 calls

theorem RegistryRun.executeAll {start : Registry} (calls : List RegistryCall) (h : RegistryRun start log registry) :
    ∃ log, RegistryRun start log (executeAll registry calls) := by
  induction calls generalizing log registry with
  | nil => exact ⟨log, h⟩
  | cons call calls ih => exact ih (h.step (.ran call))

def firstCertificate : Sha256Digest := ⟨List.replicate 32 1⟩

def secondCertificate : Sha256Digest := ⟨List.replicate 32 2⟩

def sampleCalls : List RegistryCall :=
  [.enroll "worker" firstCertificate 1, .rotate "worker" firstCertificate secondCertificate 2,
    .revoke secondCertificate 3]

theorem registry_keeps_bindings_sample :
    ¬ Relation.TransGen (ReplacedBy (executeAll Table.empty sampleCalls)) firstCertificate firstCertificate ∧
    ((∃ detail, ((RegistryCall.rotate "worker" firstCertificate secondCertificate 4).execute
      (executeAll Table.empty sampleCalls)).2 = .error (.corrupt detail)) ↔
      (RegistryCall.rotate "worker" firstCertificate secondCertificate 4).Late
      (executeAll Table.empty sampleCalls)) := by
  obtain ⟨log, hrun⟩ := (@RegistryRun.start Table.empty).executeAll sampleCalls
  have h := registry_keeps_bindings hrun
  exact ⟨h.2.2.1 _, h.2.2.2.2.2 _⟩

theorem repeated_rotation_finds_corrupt :
    ¬ ∀ log registry, RegistryRun Table.empty log registry → ∀ (call : RegistryCall) detail,
      (call.execute registry).2 ≠ .error (.corrupt detail) := by
  intro hnever
  obtain ⟨log, hrun⟩ := (@RegistryRun.start Table.empty).executeAll sampleCalls
  have hcorrupt : ((SqliteIdentityRegistry.rotate "worker" firstCertificate secondCertificate 4).run
      (executeAll Table.empty sampleCalls)).2 =
        .error (.corrupt "replacement enrollment is not the active owner certificate") := by
    decide
  exact hnever log _ hrun (.rotate "worker" firstCertificate secondCertificate 4) _ hcorrupt

end lifetime

end AlloyPort.Enrollment
