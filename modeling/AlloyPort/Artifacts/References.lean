import AlloyPort.Artifacts.Session

/-! The rows of `artifact_owner_references` against the unrevoked rows of `artifact_references`. -/

namespace AlloyPort.Artifacts

open Database UploadDatabase Machine

variable {db db' : UploadDatabase} {ownerId other referenceKey : String} {digest digest' : Sha256Digest} {nowMs : Nat}

section tables

theorem ownsCompletedArtifact_iff :
    db.ownsCompletedArtifact ownerId digest = true ↔
      ∃ row ∈ db.ownerReferences.rows, row.ownerId = ownerId ∧ row.digest = digest := by
  simp [ownsCompletedArtifact, Table.find_isSome, OwnerReferenceRow.key]

theorem hasActiveOwnerReference_iff :
    db.hasActiveOwnerReference ownerId digest = true ↔
      ∃ row ∈ db.references.rows, row.ownerId = ownerId ∧ row.digest = digest ∧ row.revokedAtMs = none := by
  simp [hasActiveOwnerReference]

theorem reachable_of_active (h : db.hasActiveOwnerReference ownerId digest = true) :
    db.artifactIsReachable digest nowMs = true := by
  obtain ⟨row, hrow, -, hdigest, hactive⟩ := hasActiveOwnerReference_iff.mp h
  simp only [artifactIsReachable, Bool.or_eq_true, List.any_eq_true, decide_eq_true_eq]
  exact .inl ⟨row, hrow, hdigest, .inl hactive⟩

theorem owns_insertOwnerReference {row : OwnerReferenceRow} :
    (insertOwnerReference row db).ownsCompletedArtifact ownerId digest = true ↔
      db.ownsCompletedArtifact ownerId digest = true ∨ row.ownerId = ownerId ∧ row.digest = digest := by
  rw [ownsCompletedArtifact_iff, ownsCompletedArtifact_iff]
  constructor
  · rintro ⟨found, hfound, hkey⟩
    rcases Table.mem_insertOrIgnore.mp hfound with hfound | ⟨_, rfl⟩
    · exact .inl ⟨found, hfound, hkey⟩
    · exact .inr hkey
  · rintro (⟨found, hfound, hkey⟩ | hkey)
    · exact ⟨found, Table.mem_insertOrIgnore.mpr (.inl hfound), hkey⟩
    · have hh := Table.find_eq_some.mp (Table.find_insertOrIgnore (t := db.ownerReferences) (v := row))
      simp only [OwnerReferenceRow.key, Prod.mk.injEq] at hh
      exact ⟨_, hh.1, hh.2.1.trans hkey.1, hh.2.2.trans hkey.2⟩

theorem active_insertReference {row : ArtifactReference} (hactive : row.revokedAtMs = none) :
    (insertReference row db).hasActiveOwnerReference ownerId digest = true ↔
      db.hasActiveOwnerReference ownerId digest = true ∨
        db.references.find row.key = none ∧ row.ownerId = ownerId ∧ row.digest = digest := by
  rw [hasActiveOwnerReference_iff, hasActiveOwnerReference_iff]
  constructor
  · rintro ⟨found, hfound, hkey⟩
    rcases Table.mem_insertOrIgnore.mp hfound with hfound | ⟨hnone, rfl⟩
    · exact .inl ⟨found, hfound, hkey⟩
    · exact .inr ⟨hnone, hkey.1, hkey.2.1⟩
  · rintro (⟨found, hfound, hkey⟩ | ⟨hnone, howner, hdigest⟩)
    · exact ⟨found, Table.mem_insertOrIgnore.mpr (.inl hfound), hkey⟩
    · exact ⟨row, Table.mem_insertOrIgnore.mpr (.inr ⟨hnone, rfl⟩), howner, hdigest, hactive⟩

theorem active_revoke :
    (revoke ownerId referenceKey nowMs db).hasActiveOwnerReference other digest = true ↔
      ∃ row ∈ db.references.rows, row.key ≠ (ownerId, referenceKey) ∧ row.ownerId = other ∧ row.digest = digest ∧
        row.revokedAtMs = none := by
  rw [hasActiveOwnerReference_iff]
  constructor
  · rintro ⟨found, hfound, howner, hdigest, hactive⟩
    obtain ⟨row, hrow, rfl⟩ := Table.mem_update.mp hfound
    by_cases hkey : row.key = (ownerId, referenceKey)
    · rw [if_pos hkey] at hactive
      cases hactive
    · rw [if_neg hkey] at howner hdigest hactive
      exact ⟨row, hrow, hkey, howner, hdigest, hactive⟩
  · rintro ⟨row, hrow, hkey, hh⟩
    exact ⟨row, Table.mem_update.mpr ⟨row, hrow, (if_neg hkey).symm⟩, hh⟩

theorem hasOther_revoke :
    (revoke ownerId referenceKey nowMs db).hasOtherActiveOwnerReference ownerId digest referenceKey = true ↔
      (revoke ownerId referenceKey nowMs db).hasActiveOwnerReference ownerId digest = true := by
  rw [hasActiveOwnerReference_iff]
  simp only [hasOtherActiveOwnerReference, List.any_eq_true, decide_eq_true_eq]
  constructor
  · rintro ⟨row, hrow, howner, hdigest, -, hactive⟩
    exact ⟨row, hrow, howner, hdigest, hactive⟩
  · rintro ⟨row, hrow, howner, hdigest, hactive⟩
    refine ⟨row, hrow, howner, hdigest, fun hkey => ?_, hactive⟩
    obtain ⟨before, hbefore, rfl⟩ := Table.mem_update.mp hrow
    by_cases hk : before.key = (ownerId, referenceKey)
    · rw [if_pos hk] at hactive
      cases hactive
    · rw [if_neg hk] at howner hkey
      exact hk (Prod.ext howner hkey)

end tables

/-- Owners have a row for a digest just when they have an unrevoked reference to it. -/
def Matched (db : UploadDatabase) : Prop :=
  ∀ ownerId digest, db.ownsCompletedArtifact ownerId digest = true ↔ db.hasActiveOwnerReference ownerId digest = true

/-- The key under which a reference is to be recorded is unused, or the owner has a reference anyway. -/
def KeyServes (db : UploadDatabase) (ownerId referenceKey : String) (digest : Sha256Digest) : Prop :=
  db.references.find (ownerId, referenceKey) = none ∨ db.hasActiveOwnerReference ownerId digest = true

instance : Decidable (KeyServes db ownerId referenceKey digest) := inferInstanceAs (Decidable (_ ∨ _))

section matched

variable {reference : ArtifactReference} {sizeBytes : Nat}

theorem owns_recordedArtifact :
    (db.recordedArtifact reference sizeBytes).ownsCompletedArtifact ownerId digest = true ↔
      db.ownsCompletedArtifact ownerId digest = true ∨ reference.ownerId = ownerId ∧ reference.digest = digest :=
  owns_insertOwnerReference

theorem active_recordedArtifact (hactive : reference.revokedAtMs = none) :
    (db.recordedArtifact reference sizeBytes).hasActiveOwnerReference ownerId digest = true ↔
      db.hasActiveOwnerReference ownerId digest = true ∨
        db.references.find reference.key = none ∧ reference.ownerId = ownerId ∧ reference.digest = digest :=
  active_insertReference hactive

theorem recordedArtifact_active (reference : ArtifactReference) (sizeBytes : Nat)
    (hactive : reference.revokedAtMs = none)
    (hserves : KeyServes db reference.ownerId reference.referenceKey reference.digest) :
    (db.recordedArtifact reference sizeBytes).hasActiveOwnerReference reference.ownerId reference.digest = true := by
  rw [active_recordedArtifact hactive]
  rcases hserves with hunused | hh
  · exact .inr ⟨hunused, rfl, rfl⟩
  · exact .inl hh

theorem Matched.recordedArtifact (h : Matched db) (hactive : reference.revokedAtMs = none)
    (hserves : KeyServes db reference.ownerId reference.referenceKey reference.digest) :
    Matched (db.recordedArtifact reference sizeBytes) := by
  intro ownerId digest
  rw [owns_recordedArtifact]
  constructor
  · rintro (hh | ⟨rfl, rfl⟩)
    · exact (active_recordedArtifact hactive).mpr (.inl ((h ownerId digest).mp hh))
    · exact recordedArtifact_active _ _ hactive hserves
  · intro hh
    rcases (active_recordedArtifact hactive).mp hh with hh | ⟨_, hkey⟩
    · exact .inl ((h ownerId digest).mpr hh)
    · exact .inr hkey

theorem Matched.granted {limits : StoreLimits} {request : GrantArtifactReference} (h : Matched db)
    (hg : Granted limits request db db') : Matched db' := by
  obtain ⟨hunused, -, object, -, ⟨hactive, rfl⟩ | ⟨-, -, rfl⟩⟩ := hg
  · intro ownerId digest
    have hsame : (insertReference request.reference db).ownsCompletedArtifact ownerId digest =
        db.ownsCompletedArtifact ownerId digest := rfl
    rw [hsame, h ownerId digest, active_insertReference rfl]
    constructor
    · exact .inl
    · rintro (hh | ⟨_, rfl, rfl⟩)
      · exact hh
      · exact hactive
  · intro ownerId digest
    have hsame : (insertReference request.reference db).ownsCompletedArtifact ownerId digest =
        db.ownsCompletedArtifact ownerId digest := rfl
    rw [owns_insertOwnerReference, hsame, h ownerId digest]
    show _ ↔ (insertReference request.reference db).hasActiveOwnerReference ownerId digest = true
    rw [active_insertReference rfl]
    have hkey : db.references.find request.reference.key = none := hunused
    simp only [hkey, true_and]
    rfl

theorem Matched.revoked {row : ArtifactReference} (h : Matched db)
    (hr : Revoked ownerId referenceKey nowMs db row db') : Matched db' := by
  obtain ⟨hstored, hactive, htables⟩ := hr
  obtain ⟨hrow, hkey⟩ := Table.find_eq_some.mp hstored
  have howner : row.ownerId = ownerId := congrArg Prod.fst hkey
  -- away from the revoked reference's own pair nothing changes
  have hother : ∀ other digest, (other, digest) ≠ (ownerId, row.digest) →
      ((revoke ownerId referenceKey nowMs db).hasActiveOwnerReference other digest = true ↔
        db.ownsCompletedArtifact other digest = true) := by
    intro other digest hne
    rw [active_revoke, h other digest, hasActiveOwnerReference_iff]
    constructor
    · rintro ⟨found, hfound, _, hh⟩
      exact ⟨found, hfound, hh⟩
    · rintro ⟨found, hfound, ho, hd, ha⟩
      refine ⟨found, hfound, fun hk => hne ?_, ho, hd, ha⟩
      have hsame := Table.eq_of_key hfound hrow (hk.trans hkey.symm)
      rw [← ho, ← hd, hsame, howner]
  rcases htables with ⟨hremains, rfl⟩ | ⟨hremains, rfl⟩
  · have hlast := hasOther_revoke.mp hremains
    intro other digest
    by_cases hpair : (other, digest) = (ownerId, row.digest)
    · cases hpair
      have howns : db.ownsCompletedArtifact ownerId row.digest = true :=
        (h ownerId row.digest).mpr (hasActiveOwnerReference_iff.mpr ⟨row, hrow, howner, rfl, hactive⟩)
      exact ⟨fun _ => hlast, fun _ => howns⟩
    · exact (hother other digest hpair).symm
  · have hlast : (revoke ownerId referenceKey nowMs db).hasActiveOwnerReference ownerId row.digest ≠ true := by
      rw [Ne, ← hasOther_revoke, hremains]
      exact nofun
    intro other digest
    show (deleteOwnerReference ownerId row.digest (revoke ownerId referenceKey nowMs db)).ownsCompletedArtifact other
      digest = true ↔ (revoke ownerId referenceKey nowMs db).hasActiveOwnerReference other digest = true
    rw [ownsCompletedArtifact_iff]
    simp only [deleteOwnerReference, Table.mem_deleteWhere]
    by_cases hpair : (other, digest) = (ownerId, row.digest)
    · cases hpair
      constructor
      · rintro ⟨found, ⟨_, hkept⟩, ho, hd⟩
        simp [ho, hd] at hkept
      · intro hh
        exact absurd hh hlast
    · rw [hother other digest hpair, ownsCompletedArtifact_iff]
      constructor
      · rintro ⟨found, ⟨hfound, _⟩, hh⟩
        exact ⟨found, hfound, hh⟩
      · rintro ⟨found, hfound, ho, hd⟩
        refine ⟨found, ⟨hfound, ?_⟩, ho, hd⟩
        simp only [decide_eq_false_iff_not]
        rintro ⟨ho', hd'⟩
        exact hpair (Prod.ext (ho.symm.trans ho') (hd.symm.trans hd'))

theorem Matched.deleteArtifact (h : Matched db)
    (hunused : ∀ ownerId, db.hasActiveOwnerReference ownerId digest = false) : Matched (db.deleteArtifact digest) := by
  intro ownerId digest'
  show (db.deleteArtifact digest).ownsCompletedArtifact ownerId digest' = true ↔
    db.hasActiveOwnerReference ownerId digest' = true
  rw [← h ownerId digest', ownsCompletedArtifact_iff, ownsCompletedArtifact_iff]
  simp only [UploadDatabase.deleteArtifact, Table.mem_deleteWhere]
  constructor
  · rintro ⟨row, ⟨hrow, _⟩, hh⟩
    exact ⟨row, hrow, hh⟩
  · rintro ⟨row, hrow, ho, hd⟩
    refine ⟨row, ⟨hrow, ?_⟩, ho, hd⟩
    simp only [decide_eq_false_iff_not]
    rintro rfl
    have hactive := (h ownerId row.digest).mp (ownsCompletedArtifact_iff.mpr ⟨row, hrow, ho, rfl⟩)
    rw [hunused ownerId] at hactive
    cases hactive

end matched

/-- What the steps that record an artifact find under the key they record it under. -/
def serves (s : StoreState) : StoreAction → Bool
  | .recordLocal ownerId artifact _ => KeyServes s.ledger ownerId (localReferenceKey artifact.digest) artifact.digest
  | .finalize ownerId uploadId _ => match s.ledger.sessions.find uploadId with
    | none => true
    | some row => match row.session.artifact with
      | none => true
      | some artifact => KeyServes s.ledger ownerId (uploadReferenceKey uploadId) artifact.digest
  | .recordUpload => match s.holder with
    | .ingested session _ artifact =>
      KeyServes s.ledger session.ownerId (uploadReferenceKey session.uploadId) artifact.digest
    | _ => true
  | _ => true

def keysServe : Guard StoreState StoreAction StoreReply := fun _ s a => serves s a = true

/-- Every completed session is behind a reference row, whether or not that row is still active. -/
def Rooted (sessions : Table SessionRow SessionRow.uploadId)
    (references : Table ArtifactReference ArtifactReference.key) : Prop :=
  ∀ row ∈ sessions.rows, row.state = .completed →
    ∃ reference ∈ references.rows, reference.key = (row.ownerId, uploadReferenceKey row.uploadId)

structure Referenced (s : StoreState) : Prop where
  sessions : Sessions s
  matched : Matched s.ledger
  completed : Rooted s.ledger.sessions s.ledger.references
  recorded : ∀ session artifact, s.holder = .recorded session artifact →
    s.ledger.hasActiveOwnerReference session.ownerId artifact.digest = true
  removed : ∀ nowMs digest sizeBytes rest report, s.holder = .removed nowMs digest sizeBytes rest report →
    ∀ ownerId, s.ledger.hasActiveOwnerReference ownerId digest = false

section rooted

variable {sessions : Table SessionRow SessionRow.uploadId} {references : Table ArtifactReference ArtifactReference.key}
  {uploadId : String} {g : RowUpdate SessionRow.uploadId}

theorem Rooted.insertReference (h : Rooted sessions references) (reference : ArtifactReference) :
    Rooted sessions (references.insertOrIgnore reference) := by
  intro row hrow hstate
  obtain ⟨found, hfound, hkey⟩ := h row hrow hstate
  exact ⟨found, Table.mem_insertOrIgnore.mpr (.inl hfound), hkey⟩

theorem Rooted.updateReference (h : Rooted sessions references) (key : String × String)
    (g : RowUpdate ArtifactReference.key) : Rooted sessions (references.update key g) := by
  intro row hrow hstate
  obtain ⟨found, hfound, hkey⟩ := h row hrow hstate
  refine ⟨_, Table.mem_update.mpr ⟨found, hfound, rfl⟩, ?_⟩
  by_cases hk : found.key = key
  · rw [if_pos hk, g.keeps, hkey]
  · rw [if_neg hk, hkey]

theorem Rooted.updateSession (h : Rooted sessions references) (howner : ∀ row, (g.apply row).ownerId = row.ownerId)
    (hstate : ∀ row, sessions.find uploadId = some row → (g.apply row).state = .completed → row.state = .completed ∨
      ∃ reference ∈ references.rows, reference.key = (row.ownerId, uploadReferenceKey row.uploadId)) :
    Rooted (sessions.update uploadId g) references := by
  apply Table.forall_update h
  intro row hrow hc
  rw [howner, g.keeps]
  rcases hstate row hrow hc with hcompleted | hfound
  · exact h row (Table.find_eq_some.mp hrow).1 hcompleted
  · exact hfound

end rooted

variable [Sha256] {limits : StoreLimits} {s s' : StoreState} {a : StoreAction} {r : StoreReply}

section steps

omit [Sha256]

theorem Referenced.initial : Referenced .initial where
  sessions := Sessions.initial
  matched _ _ := by
    rw [ownsCompletedArtifact_iff, hasActiveOwnerReference_iff]
    constructor
    · rintro ⟨_, h, _⟩
      cases h
    · rintro ⟨_, h, _⟩
      cases h
  completed _ h := by cases h
  recorded _ _ h := by cases h
  removed _ _ _ _ _ h := by cases h

theorem unused_of_unreachable (h : db.artifactIsReachable digest nowMs = false) :
    db.hasActiveOwnerReference ownerId digest = false := by
  cases ha : db.hasActiveOwnerReference ownerId digest with
  | false => rfl
  | true =>
    rw [reachable_of_active ha] at h
    cases h

theorem Referenced.quiet (h : Referenced s) (hsessions : Sessions s')
    (howners : s'.ledger.ownerReferences = s.ledger.ownerReferences)
    (hreferences : s'.ledger.references = s.ledger.references) (hrooted : Rooted s'.ledger.sessions s.ledger.references)
    (hholder : s'.holder = s.holder ∨ s'.holder = .free ∨ s'.holder.finalizing.isSome = true ∨
      ∃ nowMs rest report, s'.holder = .collecting nowMs rest report) : Referenced s' := by
  have hactive : s'.ledger.hasActiveOwnerReference = s.ledger.hasActiveOwnerReference := by
    funext ownerId digest
    simp only [hasActiveOwnerReference, hreferences]
  have howns : s'.ledger.ownsCompletedArtifact = s.ledger.ownsCompletedArtifact := by
    funext ownerId digest
    simp only [ownsCompletedArtifact, howners]
  refine ⟨hsessions, fun ownerId digest => ?_, ?_, fun session artifact hr => ?_,
    fun nowMs digest size rest report hr => ?_⟩
  · rw [howns, hactive]
    exact h.matched ownerId digest
  · rw [hreferences]
    exact hrooted
  · rw [hactive]
    rcases hholder with hh | hh | hh | ⟨_, _, _, hh⟩
    · exact h.recorded session artifact (hh ▸ hr)
    all_goals
      rw [hr] at hh
      cases hh
  · rw [hactive]
    rcases hholder with hh | hh | hh | ⟨_, _, _, hh⟩
    · exact h.removed nowMs digest size rest report (hh ▸ hr)
    all_goals
      rw [hr] at hh
      cases hh

theorem Referenced.free (hsessions : Sessions s) (hfree : s.holder = .free) (hmatched : Matched s.ledger)
    (hcompleted : Rooted s.ledger.sessions s.ledger.references) : Referenced s := by
  refine ⟨hsessions, hmatched, hcompleted, fun _ _ hr => ?_, fun _ _ _ _ _ hr => ?_⟩
  all_goals
    rw [hfree] at hr
    cases hr

end steps

theorem Referenced.step (h : Referenced s) (hserves : serves s a = true) (hs : StoreStep limits s a r s') :
    Referenced s' := by
  have hsessions := h.sessions.step hs
  cases hs with
  | idle | torn | ingestedLocal | opened | closed | pruneInterrupted =>
    exact h.quiet hsessions rfl rfl h.completed (.inl rfl)
  | replayed => exact h
  | began hfree hbegan =>
    obtain ⟨_, _, _, rfl⟩ := hbegan
    exact h.quiet hsessions rfl rfl (Table.forall_insert h.completed fun hc => by cases hc) (.inl rfl)
  | appended =>
    exact h.quiet hsessions rfl rfl (Rooted.updateSession h.completed (fun _ => rfl) fun _ _ hc => .inl hc) (.inl rfl)
  | claimed hfree hfound hpending hlasts hcomplete hholder =>
    refine h.quiet hsessions rfl rfl (Rooted.updateSession h.completed (fun _ => rfl) fun _ _ hc => by cases hc) ?_
    rcases hholder with ⟨rfl, -⟩ | ⟨rfl, -⟩
    · exact .inr (.inr (.inl rfl))
    · exact .inr (.inl rfl)
  | released | finalized | collected | crashed => exact h.quiet hsessions rfl rfl h.completed (.inr (.inl rfl))
  | ingested | refused => exact h.quiet hsessions rfl rfl h.completed (.inr (.inr (.inl rfl)))
  | @recordedUpload session nowMs artifact hheld hsize =>
    have hkey : KeyServes s.ledger session.ownerId (uploadReferenceKey session.uploadId) artifact.digest := by
      simpa [serves, hheld] using hserves
    obtain ⟨row, hrow⟩ := h.sessions.inFlight session nowMs (by rw [hheld]; rfl)
    have hrecorded := recordedArtifact_active
      (completedReference session.ownerId session.uploadId artifact.digest nowMs) artifact.sizeBytes rfl hkey
    refine ⟨hsessions, h.matched.recordedArtifact rfl hkey, ?_, ?_, ?_⟩
    · refine Rooted.updateSession (Rooted.insertReference h.completed _) (fun _ => rfl) fun row' hrow' _ => .inr ?_
      have hsame := hrow'.symm.trans hrow.stored
      cases hsame
      have hh := Table.find_insertOrIgnore (t := s.ledger.references)
        (v := completedReference session.ownerId session.uploadId artifact.digest nowMs)
      obtain ⟨hid, howner, -⟩ := hrow.fields
      rw [howner, hid]
      exact ⟨_, Table.find_eq_some.mp hh⟩
    · intro _ _ hr
      cases hr
      exact hrecorded
    · exact fun _ _ _ _ _ hr => by cases hr
  | uploadFailed =>
    exact h.quiet hsessions rfl rfl (Rooted.updateSession h.completed (fun _ => rfl) fun _ _ hc => by cases hc)
      (.inr (.inl rfl))
  | pruned => exact h.quiet hsessions rfl rfl (Table.forall_deleteWhere h.completed) (.inl rfl)
  | recordedLocal hfree hnew hsize =>
    have hkey := of_decide_eq_true hserves
    exact .free hsessions hfree (h.matched.recordedArtifact rfl hkey) (Rooted.insertReference h.completed _)
  | granted hfree hgranted =>
    refine .free hsessions hfree (h.matched.granted hgranted) ?_
    obtain ⟨_, _, _, _, ⟨_, rfl⟩ | ⟨_, _, rfl⟩⟩ := hgranted <;> exact Rooted.insertReference h.completed _
  | revoked hfree hrevoked =>
    refine .free hsessions hfree (h.matched.revoked hrevoked) ?_
    obtain ⟨_, _, ⟨_, rfl⟩ | ⟨_, rfl⟩⟩ := hrevoked <;> exact Rooted.updateReference h.completed _ _
  | staged | spared => exact h.quiet hsessions rfl rfl h.completed (.inr (.inr (.inr ⟨_, _, _, rfl⟩)))
  | removed hheld hreaders hreach =>
    refine ⟨hsessions, h.matched, h.completed, (fun _ _ hr => by cases hr), fun _ _ _ _ _ hr ownerId => ?_⟩
    cases hr
    exact unused_of_unreachable hreach
  | rowsDeleted hheld =>
    exact ⟨hsessions, h.matched.deleteArtifact (h.removed _ _ _ _ _ hheld), h.completed, (fun _ _ hr => by cases hr),
      (fun _ _ _ _ _ hr => by cases hr)⟩

theorem run_referenced {log : History StoreAction StoreReply} (h : Run (uploadStore limits) keysServe log s) :
    Referenced s :=
  h.invariant (I := fun _ s => Referenced s) Referenced.initial
    fun _ _ _ _ _ hs hserves hact => hs.step hserves (act_step hact)

/-- The step that tells its caller that an artifact is recorded for its owner. -/
def Records (a : StoreAction) (r : StoreReply) (ownerId : String) (artifact : ArtifactIdentity) : Prop :=
  r = .finalized ownerId artifact ∨ ∃ nowMs, a = .recordLocal ownerId artifact nowMs ∧ r = .recorded

theorem Referenced.records {artifact : ArtifactIdentity} (h : Referenced s) (hserves : serves s a = true)
    (hs : StoreStep limits s a r s') (hrecords : Records a r ownerId artifact) :
    s'.ledger.hasActiveOwnerReference ownerId artifact.digest = true := by
  rcases hrecords with rfl | ⟨nowMs, rfl, rfl⟩
  · cases hs with
    | idle hidle => rcases hidle with ⟨_, he⟩ | ⟨_, he⟩ | ⟨_, he⟩ <;> cases he
    | @replayed _ uploadId _ row _ hfree hfound hstate hartifact =>
      have hkey : KeyServes s.ledger ownerId (uploadReferenceKey uploadId) artifact.digest := by
        simpa [serves, hfound.stored, hartifact] using hserves
      rcases hkey with hunused | hh
      · obtain ⟨hrow, hid⟩ := Table.find_eq_some.mp hfound.stored
        obtain ⟨reference, hreference, hk⟩ := h.completed row hrow hstate
        rw [hfound.owned, hid] at hk
        exact absurd hk (Table.find_eq_none.mp hunused reference hreference)
      · exact hh
    | claimed hfree hfound hpending hlasts hcomplete hholder =>
      rcases hholder with ⟨_, he⟩ | ⟨_, _, he⟩ <;> cases he
    | finalized hheld => exact h.recorded _ _ hheld
  · cases hs with
    | idle hidle => rcases hidle with ⟨_, he⟩ | ⟨_, he⟩ | ⟨_, he⟩ <;> cases he
    | recordedLocal hfree hnew hsize =>
      exact recordedArtifact_active (localReference ownerId artifact.digest nowMs) _ rfl (of_decide_eq_true hserves)

/-- Owner rows stand for unrevoked references, and what is recorded for an owner is readable and reachable. -/
theorem owner_rows_match_references {log : History StoreAction StoreReply}
    (h : Run (uploadStore limits) keysServe log s) :
    (∀ ownerId digest, (∃ row ∈ s.ledger.ownerReferences.rows, row.ownerId = ownerId ∧ row.digest = digest) ↔
      ∃ reference ∈ s.ledger.references.rows,
        reference.ownerId = ownerId ∧ reference.digest = digest ∧ reference.revokedAtMs = none) ∧
    ∀ a r s' ownerId artifact, keysServe log s a → (uploadStore limits).act s a = some (s', r) →
      Records a r ownerId artifact →
      s'.ledger.hasActiveOwnerReference ownerId artifact.digest = true ∧
        s'.ledger.canReadArtifact ownerId artifact.digest = true ∧
        ∀ nowMs, s'.ledger.artifactIsReachable artifact.digest nowMs = true := by
  have hreferenced := run_referenced h
  constructor
  · intro ownerId digest
    rw [← ownsCompletedArtifact_iff, ← hasActiveOwnerReference_iff]
    exact hreferenced.matched ownerId digest
  · intro a r s' ownerId artifact hserves hact hrecords
    have hs := act_step hact
    have hactive := hreferenced.records hserves hs hrecords
    exact ⟨hactive, ((hreferenced.step hserves hs).matched ownerId artifact.digest).mpr hactive,
      fun nowMs => reachable_of_active hactive⟩

omit [Sha256]

theorem owner_rows_match_references_sample :
    ∃ log s s', Run sampleStore keysServe log s ∧
      sampleStore.act s .removeUploadData = some (s', .finalized "worker" sampleArtifact) ∧
      s'.ledger.canReadArtifact "worker" sampleArtifact.digest = true := by
  obtain ⟨log, s, hrun, -, hheld⟩ := play_reaches sampleStore keysServe (fun _ => serves) sampleUploadSteps
    (fun _ s => s.holder = .recorded sampleClaim sampleArtifact) (fun _ _ _ h => h) (by decide) (by decide)
  obtain ⟨s', hact⟩ : ∃ s', sampleStore.act s .removeUploadData = some (s', .finalized "worker" sampleArtifact) := by
    simp only [uploadStore, StoreState.act, of_decide_eq_true hheld]
    exact ⟨_, rfl⟩
  exact ⟨log, s, s', hrun, hact, ((@owner_rows_match_references transparentSha256 sampleLimits s log hrun).2 _ _ _
    "worker" sampleArtifact (show serves s .removeUploadData = true from rfl) hact (.inl rfl)).2.1⟩

def revivingSteps : List StoreAction :=
  [.ingestLocal [[1, 2]] ⟨none, none⟩, .recordLocal "worker" sampleArtifact 10,
    .revoke "worker" (localReferenceKey sampleArtifact.digest) 20, .recordLocal "worker" sampleArtifact 30]

theorem recorded_without_reference :
    ∃ log s, Run sampleStore anything log s ∧ log.getLast?.map Prod.snd = some .recorded ∧
      (∃ row ∈ s.ledger.ownerReferences.rows, row.ownerId = "worker" ∧ row.digest = sampleArtifact.digest) ∧
      ¬ ∃ reference ∈ s.ledger.references.rows,
        reference.ownerId = "worker" ∧ reference.digest = sampleArtifact.digest ∧ reference.revokedAtMs = none := by
  obtain ⟨log, s, hrun, -, hcheck⟩ := play_reaches sampleStore anything (fun _ _ _ => true) revivingSteps
    (fun log s => log.getLast?.map Prod.snd = some .recorded ∧
      s.ledger.ownsCompletedArtifact "worker" sampleArtifact.digest = true ∧
      s.ledger.hasActiveOwnerReference "worker" sampleArtifact.digest = false)
    (fun _ _ _ _ => trivial) (by decide) (by decide)
  obtain ⟨hreply, howns, hactive⟩ := of_decide_eq_true hcheck
  refine ⟨log, s, hrun, hreply, ownsCompletedArtifact_iff.mp howns, fun h => ?_⟩
  rw [← hasActiveOwnerReference_iff, hactive] at h
  cases h

end AlloyPort.Artifacts
