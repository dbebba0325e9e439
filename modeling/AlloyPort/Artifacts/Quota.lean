import AlloyPort.Artifacts.Session

/-! The quotas over a run. Usage is counted for one owner, or for nobody in particular and then over
everything; both are kept by the same argument. -/

namespace AlloyPort.Artifacts

open Database UploadDatabase SqliteUploadStore Machine

section usage

def UploadDatabase.storedBytes (db : UploadDatabase) : Option String → Nat
  | none => db.totalStoredBytes
  | some ownerId => db.ownerStoredBytes ownerId

def UploadDatabase.reservedBytes (db : UploadDatabase) (nowMs : Nat) : Option String → Nat
  | none => db.totalReservedBytes nowMs
  | some ownerId => db.ownerReservedBytes ownerId nowMs

def UploadQuotas.limit (quotas : UploadQuotas) : Option String → Nat
  | none => quotas.totalBytes
  | some _ => quotas.perOwnerBytes

def WithinQuotas (limits : StoreLimits) (nowMs : Nat) (db : UploadDatabase) : Prop :=
  ∀ scope, db.storedBytes scope + db.reservedBytes nowMs scope ≤ limits.quotas.limit scope

def counts (scope : Option String) (ownerId : String) : Bool := scope.all fun counted => ownerId = counted

def SessionRow.reserved (row : SessionRow) (nowMs : Nat) (scope : Option String) : Nat :=
  if counts scope row.ownerId && row.state.isPending && nowMs < row.expiresAtMs then row.quotaReservedBytes else 0

variable {db : UploadDatabase} {limits : StoreLimits} {scope : Option String} {ownerId uploadId : String}
  {nowMs sizeBytes : Nat} {row : SessionRow} {reference : ArtifactReference} {laterMs : Nat}

theorem reservedBytes_eq : db.reservedBytes nowMs scope =
    db.sessions.sumWhere (fun row => counts scope row.ownerId && row.state.isPending && nowMs < row.expiresAtMs)
      SessionRow.quotaReservedBytes := by
  cases scope <;>
    simp [reservedBytes, totalReservedBytes, ownerReservedBytes, counts, Bool.and_assoc, Bool.decide_and]

theorem reservedBytes_antitone (h : nowMs ≤ laterMs) :
    db.reservedBytes laterMs scope ≤ db.reservedBytes nowMs scope := by
  rw [reservedBytes_eq, reservedBytes_eq]
  apply Table.sumWhere_mono
  intro row _ hrow
  simp only [Bool.and_eq_true, decide_eq_true_eq] at hrow ⊢
  exact ⟨hrow.1, by omega⟩

theorem WithinQuotas.later (h : WithinQuotas limits nowMs db) (hle : nowMs ≤ laterMs) :
    WithinQuotas limits laterMs db := by
  intro scope
  have hreserved : db.reservedBytes laterMs scope ≤ db.reservedBytes nowMs scope := reservedBytes_antitone hle
  have hh := h scope
  omega

theorem reservedBytes_insertSession (h : db.sessions.find row.uploadId = none) :
    (insertSession row db).reservedBytes nowMs scope = db.reservedBytes nowMs scope + row.reserved nowMs scope := by
  rw [reservedBytes_eq, reservedBytes_eq]
  exact Table.sumWhere_insert h

theorem reservedBytes_updateSession {g : RowUpdate SessionRow.uploadId} (h : db.sessions.find uploadId = some row) :
    (updateSession uploadId g db).reservedBytes nowMs scope + row.reserved nowMs scope =
      db.reservedBytes nowMs scope + (g.apply row).reserved nowMs scope := by
  rw [reservedBytes_eq, reservedBytes_eq]
  exact Table.sumWhere_update h

theorem storedBytes_recordedArtifact (db : UploadDatabase) (reference : ArtifactReference) (sizeBytes : Nat)
    (scope : Option String) : (db.recordedArtifact reference sizeBytes).storedBytes scope ≤
    db.storedBytes scope + if counts scope reference.ownerId then sizeBytes else 0 := by
  cases scope with
  | none => exact Table.sumWhere_insertOrIgnore_le
  | some ownerId =>
    have hle := Table.sumWhere_insertOrIgnore_le (t := db.ownerReferences)
      (v := ⟨reference.ownerId, reference.digest, sizeBytes⟩) (p := fun row => row.ownerId = ownerId)
      (f := OwnerReferenceRow.sizeBytes)
    exact hle

theorem Affords.within (scope : Option String) (hbefore : WithinQuotas limits nowMs db)
    (h : db.Affords limits ownerId sizeBytes nowMs) :
    db.storedBytes scope + db.reservedBytes nowMs scope + (if counts scope ownerId then sizeBytes else 0) ≤
      limits.quotas.limit scope := by
  cases scope with
  | none => exact h.1
  | some counted =>
    by_cases hcounted : ownerId = counted
    · subst hcounted
      have hh := h.2
      simp only [counts, Option.all_some, decide_true, if_true]
      exact hh
    · have hh := hbefore (some counted)
      simpa [counts, hcounted] using hh

end usage

section clock

def StoreAction.time : StoreAction → Option Nat
  | .begin request _ => some request.nowMs
  | .append _ _ _ _ nowMs _ | .finalize _ _ nowMs | .pruneExpired nowMs _ | .recordLocal _ _ nowMs
  | .revoke _ _ nowMs | .collect nowMs _ _ => some nowMs
  | .grant request => some request.nowMs
  | _ => none

def clock (log : History StoreAction StoreReply) : Nat := (log.filterMap fun e => e.1.time).foldl max 0

theorem clock_append {log : History StoreAction StoreReply} {a : StoreAction} {r : StoreReply} :
    clock (log ++ [(a, r)]) = max (clock log) (a.time.getD 0) := by
  unfold clock
  rw [List.filterMap_append, List.foldl_append]
  cases h : a.time <;> simp [h]

/-- The time at which the reservations stand: that of a finalization under way, or the latest. -/
def anchor (log : History StoreAction StoreReply) (s : StoreState) : Nat :=
  match s.holder.finalizing with
  | some (_, nowMs) => nowMs
  | none => clock log

end clock

instance {db : UploadDatabase} {limits : StoreLimits} {ownerId : String} {sizeBytes nowMs : Nat} :
    Decidable (db.AffordsOwner limits ownerId sizeBytes nowMs) := inferInstanceAs (Decidable (_ ≤ _))

/-- A local artifact that is recorded already is the owner's own, or the owner can afford it. -/
def covered (limits : StoreLimits) (s : StoreState) : StoreAction → Bool
  | .recordLocal ownerId artifact nowMs =>
    (s.ledger.objects.find artifact.digest).isNone || s.ledger.ownsCompletedArtifact ownerId artifact.digest ||
      s.ledger.AffordsOwner limits ownerId artifact.sizeBytes nowMs
  | _ => true

def timely (log : History StoreAction StoreReply) (a : StoreAction) : Bool := a.time.all fun nowMs => clock log ≤ nowMs

def coveredInTime (limits : StoreLimits) : Guard StoreState StoreAction StoreReply :=
  fun log s a => timely log a = true ∧ covered limits s a = true

structure Afforded (limits : StoreLimits) (log : History StoreAction StoreReply) (s : StoreState) : Prop where
  sessions : Sessions s
  within : WithinQuotas limits (anchor log s) s.ledger
  past : anchor log s ≤ clock log

variable [Sha256] {limits : StoreLimits} {log : History StoreAction StoreReply} {s s' : StoreState} {a : StoreAction}
  {r : StoreReply}

section tables

variable {db db' : UploadDatabase} {scope : Option String} {ownerId uploadId : String} {nowMs sizeBytes : Nat}
  {row : SessionRow} {session : UploadSession} {g : RowUpdate SessionRow.uploadId}

omit [Sha256]

theorem storedBytes_same (hobjects : db'.objects = db.objects) (howners : db'.ownerReferences = db.ownerReferences) :
    db'.storedBytes scope = db.storedBytes scope := by
  cases scope with
  | none => simp only [storedBytes, totalStoredBytes, hobjects]
  | some ownerId => simp only [storedBytes, ownerStoredBytes, howners]

theorem reservedBytes_same (hsessions : db'.sessions = db.sessions) :
    db'.reservedBytes nowMs scope = db.reservedBytes nowMs scope := by
  rw [reservedBytes_eq, reservedBytes_eq, hsessions]

theorem reservedBytes_updateSession_le
    (h : ∀ row, db.sessions.find uploadId = some row → (g.apply row).reserved nowMs scope ≤ row.reserved nowMs scope) :
    (updateSession uploadId g db).reservedBytes nowMs scope ≤ db.reservedBytes nowMs scope := by
  rw [reservedBytes_eq, reservedBytes_eq]
  exact Table.sumWhere_update_le h

theorem reserved_released (h : row.quotaReservedBytes = 0) : row.reserved nowMs scope = 0 := by
  unfold SessionRow.reserved
  rw [h, ite_self]

theorem reserved_claimed {atMs : Nat} (h : row.state.isPending = true) :
    ((claimedRow atMs).apply row).reserved nowMs scope = row.reserved nowMs scope := by
  unfold SessionRow.reserved
  rw [h]
  rfl

theorem BeginUpload.reserved {request : BeginUpload} (hlasts : request.nowMs < request.expiresAtMs) :
    (request.row uploadId).reserved request.nowMs scope =
      if counts scope request.ownerId then request.expectedSizeBytes else 0 := by
  simp [SessionRow.reserved, BeginUpload.row, UploadState.isPending, hlasts]

theorem InFlight.reserved (h : InFlight db session nowMs row) (hsound : row.Sound) :
    row.reserved nowMs scope = if counts scope session.ownerId then session.expectedSizeBytes else 0 := by
  obtain ⟨-, howner, -, hsize, -, hstate, hexpires⟩ := h.fields
  have hlasts : nowMs < row.expiresAtMs := hexpires ▸ h.lasts
  have hreserved := hsound.reserved (by rw [hstate]; rfl)
  simp [SessionRow.reserved, howner, hstate, UploadState.isPending, hlasts, hreserved, hsize]

theorem WithinQuotas.began {request : BeginUpload} (h : WithinQuotas limits request.nowMs db)
    (hbegan : Began limits request db uploadId db') : WithinQuotas limits request.nowMs db' := by
  obtain ⟨hunused, hlasts, haffords, rfl⟩ := hbegan
  intro scope
  have hreserved : (insertSession (request.row uploadId) (deletePending request.expectedDigest db)).reservedBytes
        request.nowMs scope =
      (deletePending request.expectedDigest db).reservedBytes request.nowMs scope +
        (request.row uploadId).reserved request.nowMs scope := reservedBytes_insertSession hunused
  rw [BeginUpload.reserved hlasts] at hreserved
  have hsame : (deletePending request.expectedDigest db).reservedBytes request.nowMs scope =
      db.reservedBytes request.nowMs scope := reservedBytes_same rfl
  have hstored : (insertSession (request.row uploadId) (deletePending request.expectedDigest db)).storedBytes scope =
      db.storedBytes scope := storedBytes_same rfl rfl
  have hle := Affords.within scope h haffords
  omega

theorem WithinQuotas.recordedUpload (digest : Sha256Digest) (h : WithinQuotas limits nowMs db)
    (hrow : InFlight db session nowMs row) (hsound : row.Sound) :
    WithinQuotas limits nowMs (updateSession session.uploadId (completedRow digest nowMs)
      (db.recordedArtifact (completedReference session.ownerId session.uploadId digest nowMs)
        session.expectedSizeBytes)) := by
  intro scope
  generalize hafter : db.recordedArtifact (completedReference session.ownerId session.uploadId digest nowMs)
    session.expectedSizeBytes = after
  have hstored : after.storedBytes scope ≤
      db.storedBytes scope + if counts scope session.ownerId then session.expectedSizeBytes else 0 := by
    rw [← hafter]
    exact storedBytes_recordedArtifact _ _ _ _
  have hsessions : after.sessions = db.sessions := by
    rw [← hafter]
    rfl
  have hfound : after.sessions.find session.uploadId = some row := by
    rw [hsessions]
    exact hrow.stored
  have hreserved : (updateSession session.uploadId (completedRow digest nowMs) after).reservedBytes nowMs scope +
        row.reserved nowMs scope =
      after.reservedBytes nowMs scope + ((completedRow digest nowMs).apply row).reserved nowMs scope :=
    reservedBytes_updateSession hfound
  have hzero : ((completedRow digest nowMs).apply row).reserved nowMs scope = 0 := reserved_released rfl
  rw [hzero, hrow.reserved hsound, reservedBytes_same hsessions] at hreserved
  have hsame : (updateSession session.uploadId (completedRow digest nowMs) after).storedBytes scope =
      after.storedBytes scope := storedBytes_same rfl rfl
  have hh := h scope
  omega

theorem storedBytes_known (reference : ArtifactReference) {object : ObjectRow}
    (h : db.objects.find reference.digest = some object) :
    (db.recordedArtifact reference sizeBytes).storedBytes none = db.storedBytes none := by
  have hfind : db.objects.find (ObjectRow.mk reference.digest sizeBytes).digest = some object := h
  have hobjects : (db.recordedArtifact reference sizeBytes).objects = db.objects := Table.insertOrIgnore_present hfind
  simp only [storedBytes, totalStoredBytes, hobjects]

theorem storedBytes_owned (reference : ArtifactReference)
    (h : db.ownsCompletedArtifact reference.ownerId reference.digest = true) :
    (db.recordedArtifact reference sizeBytes).storedBytes (some ownerId) = db.storedBytes (some ownerId) := by
  obtain ⟨row, hrow⟩ := Option.isSome_iff_exists.mp h
  have hfind : db.ownerReferences.find (OwnerReferenceRow.mk reference.ownerId reference.digest sizeBytes).key =
    some row :=
    hrow
  have howners : (db.recordedArtifact reference sizeBytes).ownerReferences = db.ownerReferences :=
    Table.insertOrIgnore_present hfind
  simp only [storedBytes, ownerStoredBytes, howners]

theorem WithinQuotas.recordedLocal {artifact : ArtifactIdentity} (h : WithinQuotas limits nowMs db)
    (hnew : db.objects.find artifact.digest = none → db.Affords limits ownerId artifact.sizeBytes nowMs)
    (hknown : db.objects.find artifact.digest = none ∨ db.ownsCompletedArtifact ownerId artifact.digest = true ∨
      db.AffordsOwner limits ownerId artifact.sizeBytes nowMs) :
    WithinQuotas limits nowMs (db.recordedArtifact
      (localReference ownerId artifact.digest nowMs) artifact.sizeBytes) := by
  intro scope
  have hreserved : (db.recordedArtifact (localReference ownerId artifact.digest nowMs) artifact.sizeBytes).reservedBytes
      nowMs scope = db.reservedBytes nowMs scope := reservedBytes_same rfl
  have hstored := storedBytes_recordedArtifact db
    (localReference ownerId artifact.digest nowMs) artifact.sizeBytes scope
  rw [hreserved]
  cases hobject : db.objects.find artifact.digest with
  | none =>
    have hle := Affords.within scope h (hnew hobject)
    have hcounts : counts scope (localReference ownerId artifact.digest nowMs).ownerId = counts scope ownerId := rfl
    rw [hcounts] at hstored
    omega
  | some object =>
    cases scope with
    | none =>
      rw [storedBytes_known (localReference ownerId artifact.digest nowMs) hobject]
      exact h none
    | some counted =>
      by_cases howns : db.ownsCompletedArtifact ownerId artifact.digest = true
      · rw [storedBytes_owned (localReference ownerId artifact.digest nowMs) howns]
        exact h (some counted)
      · have haffords : db.AffordsOwner limits ownerId artifact.sizeBytes nowMs := by
          rcases hknown with hnone | hh | hh
          · rw [hobject] at hnone
            cases hnone
          · exact absurd hh howns
          · exact hh
        have hcounts : counts (some counted) (localReference ownerId artifact.digest nowMs).ownerId =
            decide (ownerId = counted) := rfl
        rw [hcounts] at hstored
        by_cases hcounted : ownerId = counted
        · subst hcounted
          rw [decide_eq_true rfl, if_pos rfl] at hstored
          have hh : db.storedBytes (some ownerId) + db.reservedBytes nowMs (some ownerId) + artifact.sizeBytes ≤
            limits.quotas.limit (some ownerId) := haffords
          omega
        · rw [decide_eq_false hcounted] at hstored
          have hh := h (some counted)
          simp only [Bool.false_eq_true, if_false] at hstored
          omega

theorem WithinQuotas.granted {request : GrantArtifactReference} (h : WithinQuotas limits request.nowMs db)
    (hgranted : Granted limits request db db') : WithinQuotas limits request.nowMs db' := by
  obtain ⟨_, _, object, _, ⟨_, rfl⟩ | ⟨_, haffords, rfl⟩⟩ := hgranted
  · intro scope
    have hstored : (insertReference request.reference db).storedBytes scope = db.storedBytes scope :=
      storedBytes_same rfl rfl
    have hreserved : (insertReference request.reference db).reservedBytes request.nowMs scope =
      db.reservedBytes request.nowMs scope := reservedBytes_same rfl
    have hh := h scope
    omega
  · generalize hafter : insertOwnerReference ⟨request.ownerId, request.digest, object.sizeBytes⟩
      (insertReference request.reference db) = after
    intro scope
    have hreserved : after.reservedBytes request.nowMs scope = db.reservedBytes request.nowMs scope := by
      rw [← hafter]
      exact reservedBytes_same rfl
    have hh := h scope
    cases scope with
    | none =>
      have hstored : after.storedBytes none = db.storedBytes none := by
        rw [← hafter]
        rfl
      omega
    | some counted =>
      have hstored : after.storedBytes (some counted) ≤
          db.storedBytes (some counted) + if decide (request.ownerId = counted) then object.sizeBytes else 0 := by
        rw [← hafter]
        exact Table.sumWhere_insertOrIgnore_le
      by_cases hcounted : request.ownerId = counted
      · subst hcounted
        rw [decide_eq_true rfl, if_pos rfl] at hstored
        have hh : db.storedBytes (some request.ownerId) + db.reservedBytes request.nowMs (some request.ownerId) +
          object.sizeBytes ≤ limits.quotas.limit (some request.ownerId) := haffords
        omega
      · rw [decide_eq_false hcounted] at hstored
        simp only [Bool.false_eq_true, if_false] at hstored
        omega

end tables

section quotas

omit [Sha256]

theorem Afforded.initial : Afforded limits [] .initial :=
  ⟨Sessions.initial, fun scope => by cases scope <;> exact Nat.zero_le _, Nat.le_refl _⟩

theorem clock_le (log : History StoreAction StoreReply) (a : StoreAction) (r : StoreReply) :
    clock log ≤ clock (log ++ [(a, r)]) := by
  rw [clock_append]
  exact Nat.le_max_left _ _

theorem Afforded.same (h : Afforded limits log s) (hsessions : Sessions s')
    (hused : ∀ nowMs scope, s'.ledger.storedBytes scope + s'.ledger.reservedBytes nowMs scope ≤
      s.ledger.storedBytes scope + s.ledger.reservedBytes nowMs scope)
    (hholder : s'.holder.finalizing = none ∨ s'.holder.finalizing = s.holder.finalizing) :
    Afforded limits (log ++ [(a, r)]) s' := by
  have hclock := clock_le log a r
  have hpast := h.past
  have hanchor : anchor log s ≤ anchor (log ++ [(a, r)]) s' ∧
    anchor (log ++ [(a, r)]) s' ≤ clock (log ++ [(a, r)]) := by
    cases hf : s'.holder.finalizing with
    | none =>
      have hnow : anchor (log ++ [(a, r)]) s' = clock (log ++ [(a, r)]) := by simp only [anchor, hf]
      omega
    | some held =>
      have hsame : s.holder.finalizing = some held := by
        rcases hholder with hh | hh
        · rw [hh] at hf
          cases hf
        · rw [← hh, hf]
      have hnow : anchor (log ++ [(a, r)]) s' = anchor log s := by simp only [anchor, hf, hsame]
      omega
  exact ⟨hsessions, fun scope => Nat.le_trans (hused _ scope) (h.within.later hanchor.1 scope), hanchor.2⟩

theorem Afforded.quiet (h : Afforded limits log s) (hsessions : Sessions s')
    (hobjects : s'.ledger.objects = s.ledger.objects) (howners : s'.ledger.ownerReferences = s.ledger.ownerReferences)
    (hrows : s'.ledger.sessions = s.ledger.sessions)
    (hholder : s'.holder.finalizing = none ∨ s'.holder.finalizing = s.holder.finalizing) :
    Afforded limits (log ++ [(a, r)]) s' := by
  refine h.same hsessions (fun nowMs scope => ?_) hholder
  rw [storedBytes_same hobjects howners, reservedBytes_same hrows]

theorem Afforded.call {nowMs : Nat} (h : Afforded limits log s) (htimely : timely log a = true)
    (htime : a.time = some nowMs) (hfree : s.holder = .free) (hsessions : Sessions s')
    (hwithin : WithinQuotas limits nowMs s.ledger → WithinQuotas limits nowMs s'.ledger)
    (hholder : s'.holder.finalizing = none ∨ ∃ session, s'.holder.finalizing = some (session, nowMs)) :
    Afforded limits (log ++ [(a, r)]) s' := by
  have hbefore : clock log ≤ nowMs := by simpa [timely, htime] using htimely
  have hanchor : anchor log s = clock log := by simp only [anchor, hfree, GuardHolder.finalizing]
  have hclock : clock (log ++ [(a, r)]) = nowMs := by
    rw [clock_append, htime, Option.getD_some]
    omega
  have hnow : anchor (log ++ [(a, r)]) s' = nowMs := by
    rcases hholder with hh | ⟨session, hh⟩
    · simp only [anchor, hh, hclock]
    · simp only [anchor, hh]
  refine ⟨hsessions, ?_, by rw [hnow, hclock]⟩
  rw [hnow]
  exact hwithin (h.within.later (by omega))

end quotas

theorem Afforded.step (h : Afforded limits log s) (htimely : timely log a = true) (hcovered : covered limits s a = true)
    (hs : StoreStep limits s a r s') : Afforded limits (log ++ [(a, r)]) s' := by
  have hsessions := h.sessions.step hs
  cases hs with
  | idle | torn | ingestedLocal | opened | closed | pruneInterrupted | replayed =>
    exact h.quiet hsessions rfl rfl rfl (.inr rfl)
  | began hfree hbegan =>
    refine h.call htimely rfl hfree hsessions (fun hw => hw.began hbegan) (.inl ?_)
    simp only [hfree, GuardHolder.finalizing]
  | appended =>
    refine h.same hsessions (fun nowMs scope => Nat.add_le_add ?_ ?_) (.inr rfl)
    · exact Nat.le_of_eq (storedBytes_same rfl rfl)
    · exact reservedBytes_updateSession_le fun _ _ => Nat.le_refl _
  | @claimed ownerId uploadId nowMs row holder _ hfree hfound hpending hlasts hcomplete hholder =>
    refine h.call htimely rfl hfree hsessions (fun hw scope => ?_) ?_
    · refine Nat.le_trans (Nat.add_le_add (Nat.le_of_eq (storedBytes_same rfl rfl)) ?_) (hw scope)
      apply reservedBytes_updateSession_le
      intro row' hrow'
      have hsame := hrow'.symm.trans hfound.stored
      cases hsame
      exact Nat.le_of_eq (reserved_claimed hpending)
    · rcases hholder with ⟨rfl, -⟩ | ⟨rfl, -⟩
      · exact .inr ⟨_, rfl⟩
      · exact .inl rfl
  | released | finalized | staged | collected | spared | removed | crashed =>
    exact h.quiet hsessions rfl rfl rfl (.inl rfl)
  | ingested hheld | refused hheld => exact h.quiet hsessions rfl rfl rfl (.inr (by rw [hheld]; rfl))
  | @recordedUpload session nowMs artifact hheld hsize =>
    obtain ⟨row, hrow⟩ := h.sessions.inFlight session nowMs (by rw [hheld]; rfl)
    have hsound := h.sessions.rows row (Table.find_eq_some.mp hrow.stored).1
    have hnow : anchor log s = nowMs := by simp only [anchor, hheld, GuardHolder.finalizing]
    have hat := WithinQuotas.recordedUpload artifact.digest (hnow ▸ h.within) hrow hsound
    have hartifact : session.expectedSizeBytes = artifact.sizeBytes := by
      rw [h.sessions.ingested session nowMs artifact hheld]
    rw [hartifact] at hat
    have hclock := clock_le log .recordUpload .working
    have hpast := h.past
    exact ⟨hsessions, hat.later (by show nowMs ≤ clock _; omega), Nat.le_refl _⟩
  | uploadFailed =>
    refine h.same hsessions (fun nowMs scope => Nat.add_le_add ?_ ?_) (.inl rfl)
    · exact Nat.le_of_eq (storedBytes_same rfl rfl)
    · apply reservedBytes_updateSession_le
      intro row _
      rw [reserved_released rfl]
      exact Nat.zero_le _
  | pruned =>
    refine h.same hsessions (fun nowMs scope => Nat.add_le_add ?_ ?_) (.inr rfl)
    · exact Nat.le_of_eq (storedBytes_same rfl rfl)
    · rw [reservedBytes_eq, reservedBytes_eq]
      exact Table.sumWhere_deleteWhere_le
  | recordedLocal hfree hnew hsize =>
    refine h.call htimely rfl hfree hsessions (fun hw => hw.recordedLocal hnew ?_) (.inl ?_)
    · simpa [covered, or_assoc] using hcovered
    · simp only [hfree, GuardHolder.finalizing]
  | granted hfree hgranted =>
    refine h.call htimely rfl hfree hsessions (fun hw => hw.granted hgranted) (.inl ?_)
    simp only [hfree, GuardHolder.finalizing]
  | revoked hfree hrevoked =>
    obtain ⟨_, _, ⟨_, rfl⟩ | ⟨_, rfl⟩⟩ := hrevoked
    · exact h.quiet hsessions rfl rfl rfl (.inr rfl)
    · refine h.same hsessions (fun _ scope => Nat.add_le_add ?_ (Nat.le_of_eq (reservedBytes_same rfl))) (.inr rfl)
      cases scope with
      | none => exact Nat.le_refl _
      | some counted => exact Table.sumWhere_deleteWhere_le
  | rowsDeleted =>
    refine h.same hsessions (fun _ scope => Nat.add_le_add ?_ (Nat.le_of_eq (reservedBytes_same rfl))) (.inl rfl)
    cases scope with
    | none | some => exact Table.sumWhere_deleteWhere_le

theorem run_afforded (h : Run (uploadStore limits) (coveredInTime limits) log s) : Afforded limits log s :=
  h.invariant (I := fun log s => Afforded limits log s) Afforded.initial
    fun _ _ _ _ _ hs hallowed hact => hs.step hallowed.1 hallowed.2 (act_step hact)

/-- A call that would use more than a quota leaves: a new session, a new object, or an owner's first
reference to an object. -/
def Exceeds (limits : StoreLimits) (db : UploadDatabase) : StoreAction → Prop
  | .begin request _ => db.sessionByKey request.ownerId request.uploadKey = none ∧
      ¬ db.Affords limits request.ownerId request.expectedSizeBytes request.nowMs
  | .recordLocal ownerId artifact nowMs => db.objects.find artifact.digest = none ∧
      ¬ db.Affords limits ownerId artifact.sizeBytes nowMs
  | .grant request => db.references.find (request.ownerId, request.referenceKey) = none ∧
      db.hasActiveOwnerReference request.ownerId request.digest = false ∧
      ∃ object, db.objects.find request.digest = some object ∧
        ¬ db.AffordsOwner limits request.ownerId object.sizeBytes request.nowMs
  | _ => False

theorem exceeding_fails (hexceeds : Exceeds limits s.ledger a) (hact : s.act limits a = some (s', r)) :
    s' = s ∧ ∃ e, r = .failed e := by
  cases a with
  | begin request counter =>
    obtain ⟨hkey, haffords⟩ := hexceeds
    simp only [StoreState.act] at hact
    split at hact
    · rcases commit_cases begin_wp (Option.some.inj hact) with
        ⟨session, ledger, _, _, ⟨_, row, hfound, _⟩ | ⟨_, uploadId, hbegan, _⟩⟩ | hfailed
      · cases hkey.symm.trans hfound
      · exact absurd hbegan.affords haffords
      · exact hfailed
    · cases hact
  | recordLocal ownerId artifact nowMs =>
    obtain ⟨hobject, haffords⟩ := hexceeds
    simp only [StoreState.act] at hact
    split at hact
    · rcases commit_cases recordLocalArtifact_wp (Option.some.inj hact) with ⟨_, _, _, _, hnew, _, _⟩ | hfailed
      · exact absurd (hnew hobject) haffords
      · exact hfailed
    · cases hact
  | grant request =>
    obtain ⟨hkey, hactive, object, hobject, haffords⟩ := hexceeds
    simp only [StoreState.act] at hact
    split at hact
    · rcases commit_cases grantReference_wp (Option.some.inj hact) with
        ⟨reference, _, _, _, ⟨_, hfound⟩ | hgranted⟩ | hfailed
      · exact absurd hkey hfound
      · obtain ⟨_, _, object', hobject', ⟨hh, _⟩ | ⟨_, hh, _⟩⟩ := hgranted
        · rw [hactive] at hh
          cases hh
        · rw [hobject] at hobject'
          cases hobject'
          exact absurd hh haffords
      · exact hfailed
    · cases hact
  | append | finalize | ingestUpload | recordUpload | removeUploadData | failUpload | pruneExpired | ingestLocal |
    revoke
  | openReader | closeReader | collect | examineCandidate | deleteRows | giveUp | crash => cases hexceeds

/-- What is stored and reserved never exceeds the quotas, and a call that would exceed them changes nothing. -/
theorem usage_within_quotas (h : Run (uploadStore limits) (coveredInTime limits) log s) :
    (∀ nowMs, clock log ≤ nowMs →
      s.ledger.totalStoredBytes + s.ledger.totalReservedBytes nowMs ≤ limits.quotas.totalBytes ∧
      ∀ ownerId, s.ledger.ownerStoredBytes ownerId + s.ledger.ownerReservedBytes ownerId nowMs ≤
        limits.quotas.perOwnerBytes) ∧
    ∀ a r s', Exceeds limits s.ledger a → (uploadStore limits).act s a = some (s', r) → s' = s ∧
      ∃ e, r = .failed e := by
  have hafforded := run_afforded h
  constructor
  · intro nowMs hclock
    have hwithin := hafforded.within.later (Nat.le_trans hafforded.past hclock)
    exact ⟨hwithin none, fun ownerId => hwithin (some ownerId)⟩
  · intro a r s' hexceeds hact
    exact exceeding_fails hexceeds hact

omit [Sha256]

def coveredInTimeTest (limits : StoreLimits) (log : History StoreAction StoreReply) (s : StoreState) (a : StoreAction) :
    Bool :=
  timely log a && covered limits s a

def sharingSteps : List StoreAction :=
  [.ingestLocal [[1, 2, 3]] ⟨none, none⟩, .recordLocal "first" ⟨⟨[1, 2, 3]⟩, 3⟩ 10,
    .ingestLocal [[4, 5, 6]] ⟨none, none⟩, .recordLocal "second" ⟨⟨[4, 5, 6]⟩, 3⟩ 20]

theorem usage_within_quotas_sample :
    ∃ log s, Run sampleStore (coveredInTime sampleLimits) log s ∧ s.ledger.ownerStoredBytes "first" = 3 ∧
      s.ledger.ownerStoredBytes "first" + s.ledger.ownerReservedBytes "first" 30 ≤ 4 := by
  obtain ⟨log, s, hrun, -, hcheck⟩ := play_reaches sampleStore (coveredInTime sampleLimits)
    (coveredInTimeTest sampleLimits) sharingSteps (fun log s => s.ledger.ownerStoredBytes "first" = 3 ∧ clock log ≤ 30)
    (fun _ _ _ h => Bool.and_eq_true_iff.mp h) (by decide) (by decide)
  obtain ⟨hstored, hclock⟩ := of_decide_eq_true hcheck
  exact ⟨log, s, hrun, hstored,
    ((@usage_within_quotas transparentSha256 sampleLimits log s hrun).1 30 hclock).2 "first"⟩

theorem owner_quota_exceeded :
    ∃ log s, Run sampleStore (fun log _ a => timely log a = true) log s ∧ log.getLast?.map Prod.snd = some .recorded ∧
      clock log = 30 ∧ sampleLimits.quotas.perOwnerBytes < s.ledger.ownerStoredBytes "first" := by
  obtain ⟨log, s, hrun, -, hcheck⟩ := play_reaches sampleStore (fun log _ a => timely log a = true)
    (fun log _ a => timely log a) (sharingSteps ++ [StoreAction.recordLocal "first" ⟨⟨[4, 5, 6]⟩, 3⟩ 30])
    (fun log s => log.getLast?.map Prod.snd = some .recorded ∧ clock log = 30 ∧
      sampleLimits.quotas.perOwnerBytes < s.ledger.ownerStoredBytes "first")
    (fun _ _ _ h => h) (by decide) (by decide)
  exact ⟨log, s, hrun, of_decide_eq_true hcheck⟩

end AlloyPort.Artifacts
