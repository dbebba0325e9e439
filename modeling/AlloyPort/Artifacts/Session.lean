import AlloyPort.Artifacts.Step

/-! The session rows over a run, and the session of a finalization while it holds the guard. -/

namespace AlloyPort.Artifacts

open Database UploadDatabase

structure SessionRow.Sound (row : SessionRow) : Prop where
  reserved : row.state.isPending = true → row.quotaReservedBytes = row.expectedSizeBytes
  bounded : row.committedOffset ≤ row.expectedSizeBytes
  completed : row.state = .completed →
    row.artifactDigest = some row.expectedDigest ∧ row.committedOffset = row.expectedSizeBytes

def GuardHolder.finalizing : GuardHolder → Option (UploadSession × Nat)
  | .claimed session nowMs | .ingested session nowMs _ | .refused session nowMs _ => some (session, nowMs)
  | _ => none

structure InFlight (db : UploadDatabase) (session : UploadSession) (nowMs : Nat) (row : SessionRow) : Prop where
  stored : db.sessions.find session.uploadId = some row
  claimed : row.session = { session with state := .finalizing }
  lasts : nowMs < session.expiresAtMs
  complete : session.committedOffset = session.expectedSizeBytes

structure Sessions (s : StoreState) : Prop where
  rows : ∀ row ∈ s.ledger.sessions.rows, row.Sound
  inFlight : ∀ session nowMs, s.holder.finalizing = some (session, nowMs) → ∃ row, InFlight s.ledger session nowMs row
  ingested : ∀ session nowMs artifact, s.holder = .ingested session nowMs artifact →
    artifact = ⟨session.expectedDigest, session.expectedSizeBytes⟩

variable [Sha256] {limits : StoreLimits} {s s' : StoreState} {a : StoreAction} {r : StoreReply}

section rows

variable {row : SessionRow} {offset nowMs : Nat} {digest : Sha256Digest}

omit [Sha256]

theorem SessionRow.Sound.committed (h : row.Sound) (hopen : row.state = .opened)
    (hfits : offset ≤ row.expectedSizeBytes) : ((committedRow offset nowMs).apply row).Sound where
  reserved := h.reserved
  bounded := hfits
  completed hc := by
    have hstate : row.state = .completed := hc
    rw [hopen] at hstate
    cases hstate

theorem SessionRow.Sound.claimed (h : row.Sound) (hp : row.state.isPending = true) :
    ((claimedRow nowMs).apply row).Sound where
  reserved _ := h.reserved hp
  bounded := h.bounded
  completed hc := by cases hc

theorem SessionRow.Sound.failed (h : row.Sound) : ((failedRow nowMs).apply row).Sound where
  reserved hp := by cases hp
  bounded := h.bounded
  completed hc := by cases hc

theorem SessionRow.Sound.recorded (h : row.Sound) (hdigest : digest = row.expectedDigest)
    (hcomplete : row.committedOffset = row.expectedSizeBytes) : ((completedRow digest nowMs).apply row).Sound where
  reserved hp := by cases hp
  bounded := h.bounded
  completed _ := ⟨congrArg some hdigest, hcomplete⟩

theorem BeginUpload.row_sound (request : BeginUpload) (uploadId : String) : (request.row uploadId).Sound where
  reserved _ := rfl
  bounded := Nat.zero_le _
  completed hc := by cases hc

variable {session : UploadSession}

theorem InFlight.fields {db : UploadDatabase} (h : InFlight db session nowMs row) :
    row.uploadId = session.uploadId ∧ row.ownerId = session.ownerId ∧ row.expectedDigest = session.expectedDigest ∧
      row.expectedSizeBytes = session.expectedSizeBytes ∧ row.committedOffset = session.committedOffset ∧
      row.state = .finalizing ∧ row.expiresAtMs = session.expiresAtMs := by
  have hh := h.claimed
  simp only [SessionRow.session, UploadSession.mk.injEq] at hh
  obtain ⟨hid, howner, -, hdigest, hsize, -, hoffset, hstate, hexpires, -⟩ := hh
  exact ⟨hid, howner, hdigest, hsize, hoffset, hstate, hexpires⟩

theorem InFlight.appended {db : UploadDatabase} {ownerId uploadId : String} {length atMs next : Nat}
    {other : SessionRow} {limits : StoreLimits} (h : InFlight db session nowMs row)
    (ha : Appends limits db ownerId uploadId offset length atMs other) :
    InFlight (updateSession uploadId (committedRow next atMs) db) session nowMs row where
  stored := by
    have hne : session.uploadId ≠ uploadId := by
      intro he
      have hh := h.stored
      rw [he, ha.stored] at hh
      cases hh
      have hstate := h.fields.2.2.2.2.2.1
      rw [ha.opened] at hstate
      cases hstate
    exact (Table.find_update_ne hne).trans h.stored
  claimed := h.claimed
  lasts := h.lasts
  complete := h.complete

end rows

omit [Sha256] in
theorem Sessions.initial : Sessions .initial where
  rows _ h := by cases h
  inFlight _ _ h := by cases h
  ingested _ _ _ h := by cases h

omit [Sha256] in
theorem Sessions.same (h : Sessions s) (hsessions : s'.ledger.sessions = s.ledger.sessions)
    (hholder : s'.holder = s.holder) : Sessions s' := by
  refine ⟨?_, fun session nowMs hf => ?_, ?_⟩
  · rw [hsessions]
    exact h.rows
  · rw [hholder] at hf
    obtain ⟨row, hrow⟩ := h.inFlight session nowMs hf
    exact ⟨row, ⟨by rw [hsessions]; exact hrow.stored, hrow.claimed, hrow.lasts, hrow.complete⟩⟩
  · rw [hholder]
    exact h.ingested

omit [Sha256] in
theorem Sessions.unheld (hrows : ∀ row ∈ s'.ledger.sessions.rows, row.Sound) (hholder : s'.holder.finalizing = none) :
    Sessions s' := by
  refine ⟨hrows, fun session nowMs hf => ?_, fun session nowMs artifact hi => ?_⟩
  · rw [hholder] at hf
    cases hf
  · rw [hi] at hholder
    cases hholder

theorem Sessions.step (h : Sessions s) (hs : StoreStep limits s a r s') : Sessions s' := by
  cases hs with
  | idle | torn | ingestedLocal | opened | closed | pruneInterrupted | recordedLocal => exact h.same rfl rfl
  | replayed => exact h
  | began hfree hbegan =>
    obtain ⟨_, _, _, rfl⟩ := hbegan
    refine .unheld (Table.forall_insert h.rows (BeginUpload.row_sound _ _)) ?_
    show s.holder.finalizing = none
    rw [hfree]
    rfl
  | appended hheld ha hfits hfile =>
    refine ⟨Table.forall_update h.rows fun row hrow => ?_, fun session nowMs hf => ?_, h.ingested⟩
    · have hsame := hrow.symm.trans ha.stored
      cases hsame
      exact (h.rows _ (Table.find_eq_some.mp hrow).1).committed ha.opened hfits
    · obtain ⟨row, hrow⟩ := h.inFlight session nowMs hf
      exact ⟨row, hrow.appended ha⟩
  | @claimed ownerId uploadId nowMs row holder _ hfree hfound hpending hlasts hcomplete hholder =>
    have hrows : ∀ row' ∈ (s.ledger.sessions.update uploadId (claimedRow nowMs)).rows, row'.Sound := by
      apply Table.forall_update h.rows
      intro row' hrow
      have hsame := hrow.symm.trans hfound.stored
      cases hsame
      exact (h.rows _ (Table.find_eq_some.mp hrow).1).claimed hpending
    rcases hholder with ⟨rfl, -⟩ | ⟨rfl, -⟩
    · refine ⟨hrows, fun session nowMs hf => ?_, fun _ _ _ hi => by cases hi⟩
      cases hf
      refine ⟨(claimedRow nowMs).apply row, ⟨?_, rfl, hlasts, hcomplete⟩⟩
      have hid : row.uploadId = uploadId := (Table.find_eq_some.mp hfound.stored).2
      show (s.ledger.sessions.update uploadId (claimedRow nowMs)).find row.uploadId = _
      rw [hid, Table.find_update_self, hfound.stored]
      rfl
    · exact .unheld hrows rfl
  | released | finalized | staged | collected | spared | removed | rowsDeleted | crashed => exact .unheld h.rows rfl
  | @ingested session nowMs reads bytes objects hheld =>
    refine ⟨h.rows, fun session' nowMs' hf => ?_, fun session nowMs artifact hi => by cases hi; rfl⟩
    cases hf
    exact h.inFlight session nowMs (by rw [hheld]; rfl)
  | @refused session nowMs reads e hheld =>
    refine ⟨h.rows, fun session' nowMs' hf => ?_, fun _ _ _ hi => by cases hi⟩
    cases hf
    exact h.inFlight session nowMs (by rw [hheld]; rfl)
  | @recordedUpload session nowMs artifact hheld hsize =>
    obtain ⟨row, hrow⟩ := h.inFlight session nowMs (by rw [hheld]; rfl)
    refine .unheld (Table.forall_update h.rows fun row' hrow' => ?_) rfl
    have hsame := hrow'.symm.trans hrow.stored
    cases hsame
    obtain ⟨-, -, hdigest, hsizes, hoffset, -, -⟩ := hrow.fields
    refine (h.rows _ (Table.find_eq_some.mp hrow').1).recorded ?_ ?_
    · rw [h.ingested session nowMs artifact hheld, hdigest]
    · rw [hoffset, hsizes, hrow.complete]
  | uploadFailed hheld =>
    exact .unheld (Table.forall_update h.rows fun row hrow => (h.rows row (Table.find_eq_some.mp hrow).1).failed) rfl
  | pruned hfree =>
    refine .unheld (Table.forall_deleteWhere h.rows) ?_
    show s.holder.finalizing = none
    rw [hfree]
    rfl
  | granted hfree hgranted =>
    obtain ⟨_, _, object, _, ⟨_, rfl⟩ | ⟨_, _, rfl⟩⟩ := hgranted <;> exact h.same rfl rfl
  | revoked hfree hrevoked =>
    obtain ⟨_, _, ⟨_, rfl⟩ | ⟨_, rfl⟩⟩ := hrevoked <;> exact h.same rfl rfl

theorem run_sessions {allowed : Machine.Guard StoreState StoreAction StoreReply}
    {log : Machine.History StoreAction StoreReply} (h : Machine.Run (uploadStore limits) allowed log s) : Sessions s :=
  h.invariant (I := fun _ s => Sessions s) Sessions.initial fun _ _ _ _ _ hs _ hact => hs.step (act_step hact)

end AlloyPort.Artifacts
