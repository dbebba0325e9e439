import AlloyPort.Artifacts.Collection

/-! What `begin` hands back under a key that is in use, told from the calls since the session was created. -/

namespace AlloyPort.Artifacts

open Database UploadDatabase SqliteUploadStore Machine

section history

variable {log : History StoreAction StoreReply} {e : StoreAction × StoreReply} {uploadId : String}
  {ends : StoreAction × StoreReply → Prop}

def claimOf : StoreAction × StoreReply → Option String
  | (.finalize _ uploadId _, .working) => some uploadId
  | _ => none

/-- The upload that was claimed last, which is the one that a finalization under way is of. -/
def lastClaim (log : History StoreAction StoreReply) : Option String := (log.filterMap claimOf).getLast?

def IsRecording (e : StoreAction × StoreReply) : Prop := e = (.recordUpload, .working)

def IsRefusal (e : StoreAction × StoreReply) : Prop := ∃ error, e = (.failUpload, .failed (.artifact error))

/-- Among the calls one ends the finalization of the upload. -/
def Settled (ends : StoreAction × StoreReply → Prop) (uploadId : String) (log : History StoreAction StoreReply) :
    Prop :=
  ∃ before e after, log = before ++ e :: after ∧ ends e ∧ lastClaim before = some uploadId

theorem lastClaim_append : lastClaim (log ++ [e]) = (claimOf e).or (lastClaim log) := by
  unfold lastClaim
  cases hclaim : claimOf e with
  | none => simp [List.filterMap_append, hclaim]
  | some claimed => simp [List.filterMap_append, hclaim]

theorem lastClaim_since {before since : History StoreAction StoreReply} (h : lastClaim since = some uploadId) :
    lastClaim (before ++ e :: since) = some uploadId := by
  unfold lastClaim at h ⊢
  rw [List.filterMap_append, List.getLast?_append, List.filterMap_cons]
  cases claimOf e with
  | none => simp [h]
  | some claimed => simp [List.getLast?_cons, h]

theorem claimOf_eq_none {a : StoreAction} {r : StoreReply} (h : r ≠ .working) : claimOf (a, r) = none := by
  unfold claimOf
  split
  · rename_i heq
    exact absurd (congrArg Prod.snd heq) h
  · rfl

theorem not_settled_nil : ¬ Settled ends uploadId [] := by
  rintro ⟨before, e, after, h, -⟩
  cases before <;> cases h

theorem settled_append :
    Settled ends uploadId (log ++ [e]) ↔ Settled ends uploadId log ∨ ends e ∧ lastClaim log = some uploadId := by
  constructor
  · rintro ⟨before, last, after, hsplit, hends, hclaim⟩
    rcases List.eq_nil_or_concat after with rfl | ⟨front, back, rfl⟩
    · obtain ⟨rfl, hlast⟩ := List.append_inj' hsplit rfl
      cases hlast
      exact .inr ⟨hends, hclaim⟩
    · refine .inl ⟨before, last, front, ?_, hends, hclaim⟩
      rw [List.concat_eq_append, ← List.cons_append, ← List.append_assoc] at hsplit
      exact (List.append_inj' hsplit rfl).1
  · rintro (⟨before, last, after, rfl, hends, hclaim⟩ | ⟨hends, hclaim⟩)
    · exact ⟨before, last, after ++ [e], by simp, hends, hclaim⟩
    · exact ⟨log, e, [], rfl, hends, hclaim⟩

end history

variable {log since : History StoreAction StoreReply} {s s' : StoreState} {a : StoreAction}
  {r : StoreReply} {request : BeginUpload} {row row' : SessionRow}

/-- A session row is the one of the request, in the state that the calls since have left it in. -/
structure Recounted (since : History StoreAction StoreReply) (request : BeginUpload) (row : SessionRow) : Prop where
  owner : row.ownerId = request.ownerId
  uploadKey : row.uploadKey = request.uploadKey
  describes : request.Describes row
  expiry : row.expiresAtMs = request.expiresAtMs
  completed : row.state = .completed ↔ Settled IsRecording row.uploadId since
  failed : row.state = .failed ↔ Settled IsRefusal row.uploadId since

/-- The begin that created a session stands in the log, with what has come of it since. -/
structure Told (log : History StoreAction StoreReply) (s : StoreState) (row : SessionRow) (request : BeginUpload)
    (since : History StoreAction StoreReply) : Prop where
  created : ∃ before counter, log = before ++
    (.begin request counter, .began (request.row row.uploadId).session) :: since
  recounted : Recounted since request row
  underWay : ∀ session nowMs, s.holder.finalizing = some (session, nowMs) → lastClaim since = some session.uploadId

def ToldRows (log : History StoreAction StoreReply) (s : StoreState) : Prop :=
  ∀ row ∈ s.ledger.sessions.rows, ∃ request since, Told log s row request since

structure SameUpload (row row' : SessionRow) : Prop where
  id : row'.uploadId = row.uploadId
  owner : row'.ownerId = row.ownerId
  uploadKey : row'.uploadKey = row.uploadKey
  digest : row'.expectedDigest = row.expectedDigest
  size : row'.expectedSizeBytes = row.expectedSizeBytes
  mediaType : row'.mediaType = row.mediaType
  expiry : row'.expiresAtMs = row.expiresAtMs

theorem SameUpload.refl (row : SessionRow) : SameUpload row row := ⟨rfl, rfl, rfl, rfl, rfl, rfl, rfl⟩

/-- What the finalizations that a step begins and goes on with have to do with its entry in the log. -/
def Continues (s s' : StoreState) (e : StoreAction × StoreReply) : Prop :=
  ∀ session nowMs, s'.holder.finalizing = some (session, nowMs) →
    claimOf e = some session.uploadId ∨ claimOf e = none ∧ ∃ nowMs', s.holder.finalizing = some (session, nowMs')

theorem Told.step (h : Told log s row request since) (hsame : SameUpload row row') (hcontinues : Continues s s' (a, r))
    (hcompleted : row'.state = .completed ↔
      row.state = .completed ∨ IsRecording (a, r) ∧ lastClaim since = some row.uploadId)
    (hfailed : row'.state = .failed ↔ row.state = .failed ∨ IsRefusal (a, r) ∧ lastClaim since = some row.uploadId) :
    Told (log ++ [(a, r)]) s' row' request (since ++ [(a, r)]) where
  created := by
    obtain ⟨before, counter, hlog⟩ := h.created
    exact ⟨before, counter, by rw [hlog, hsame.id]; simp⟩
  recounted :=
    { owner := hsame.owner.trans h.recounted.owner
      uploadKey := hsame.uploadKey.trans h.recounted.uploadKey
      describes := ⟨hsame.digest.trans h.recounted.describes.digest, hsame.size.trans h.recounted.describes.size,
        hsame.mediaType.trans h.recounted.describes.mediaType⟩
      expiry := hsame.expiry.trans h.recounted.expiry
      completed := by rw [hsame.id, settled_append, ← h.recounted.completed, hcompleted]
      failed := by rw [hsame.id, settled_append, ← h.recounted.failed, hfailed] }
  underWay := by
    intro session nowMs hheld
    rw [lastClaim_append]
    rcases hcontinues session nowMs hheld with hclaim | ⟨hclaim, nowMs', hbefore⟩
    · rw [hclaim]
      rfl
    · rw [hclaim]
      exact h.underWay session nowMs' hbefore

theorem Told.quiet (h : Told log s row request since) (hsame : SameUpload row row') (hcontinues : Continues s s' (a, r))
    (hquiet : ¬ IsRecording (a, r) ∧ ¬ IsRefusal (a, r))
    (hstate : (row'.state = .completed ↔ row.state = .completed) ∧ (row'.state = .failed ↔ row.state = .failed)) :
    Told (log ++ [(a, r)]) s' row' request (since ++ [(a, r)]) :=
  h.step hsame hcontinues
    (by rw [hstate.1]; exact ⟨.inl, fun hh => hh.resolve_right fun he => hquiet.1 he.1⟩)
    (by rw [hstate.2]; exact ⟨.inl, fun hh => hh.resolve_right fun he => hquiet.2 he.1⟩)

theorem Continues.free (hfree : s'.holder.finalizing = none) : Continues s s' (a, r) := by
  intro session nowMs hheld
  rw [hfree] at hheld
  cases hheld

theorem Continues.same (hclaim : claimOf (a, r) = none) (hholder : s'.holder.finalizing = s.holder.finalizing) :
    Continues s s' (a, r) :=
  fun _ nowMs hheld => .inr ⟨hclaim, nowMs, hholder ▸ hheld⟩

/-- A step that neither records nor refuses an upload keeps the rows up to what their state says. -/
theorem ToldRows.quiet (h : ToldRows log s) (hcontinues : Continues s s' (a, r))
    (hquiet : ¬ IsRecording (a, r) ∧ ¬ IsRefusal (a, r))
    (hrows : ∀ row' ∈ s'.ledger.sessions.rows, ∃ row ∈ s.ledger.sessions.rows, SameUpload row row' ∧
      (row'.state = .completed ↔ row.state = .completed) ∧ (row'.state = .failed ↔ row.state = .failed)) :
    ToldRows (log ++ [(a, r)]) s' := by
  intro row' hrow'
  obtain ⟨row, hrow, hsame, hstate⟩ := hrows row' hrow'
  obtain ⟨request, since, htold⟩ := h row hrow
  exact ⟨request, _, htold.quiet hsame hcontinues hquiet hstate⟩

theorem ToldRows.same (h : ToldRows log s) (hcontinues : Continues s s' (a, r))
    (hquiet : ¬ IsRecording (a, r) ∧ ¬ IsRefusal (a, r)) (hsessions : s'.ledger.sessions = s.ledger.sessions) :
    ToldRows (log ++ [(a, r)]) s' :=
  h.quiet hcontinues hquiet fun row hrow => ⟨row, hsessions ▸ hrow, .refl row, .rfl, .rfl⟩

theorem ToldRows.updated {uploadId : String} {g : RowUpdate SessionRow.uploadId} (h : ToldRows log s)
    (hcontinues : Continues s s' (a, r)) (hquiet : ¬ IsRecording (a, r) ∧ ¬ IsRefusal (a, r))
    (hsessions : s'.ledger.sessions = s.ledger.sessions.update uploadId g)
    (hrow : ∀ row, s.ledger.sessions.find uploadId = some row → SameUpload row (g.apply row) ∧
      ((g.apply row).state = .completed ↔ row.state = .completed) ∧
      ((g.apply row).state = .failed ↔ row.state = .failed)) :
    ToldRows (log ++ [(a, r)]) s' := by
  refine h.quiet hcontinues hquiet fun row' hrow' => ?_
  rw [hsessions] at hrow'
  obtain ⟨row, hmem, rfl⟩ := Table.mem_update.mp hrow'
  refine ⟨row, hmem, ?_⟩
  by_cases hid : row.uploadId = uploadId
  · rw [if_pos hid]
    exact hrow row (Table.find_eq_some.mpr ⟨hmem, hid⟩)
  · rw [if_neg hid]
    exact ⟨.refl row, .rfl, .rfl⟩

theorem ToldRows.began {counter : Nat} {uploadId : String} {ledger : UploadDatabase} (h : ToldRows log s)
    (hfree : s.holder = .free) (hbegan : Began limits request s.ledger uploadId ledger) :
    ToldRows (log ++ [(.begin request counter, .began (request.row uploadId).session)]) { s with ledger } := by
  obtain ⟨hunused, _, _, rfl⟩ := hbegan
  intro row hrow
  rcases Table.mem_insertOrIgnore.mp hrow with hold | ⟨_, rfl⟩
  · obtain ⟨creator, since, htold⟩ := h row hold
    refine ⟨creator, _, htold.quiet (.refl row) (.same rfl rfl) ⟨(fun he => by cases he), ?_⟩ ⟨.rfl, .rfl⟩⟩
    rintro ⟨_, he⟩
    cases he
  · refine ⟨request, [], ⟨⟨log, counter, rfl⟩, ?_, fun session nowMs hheld => ?_⟩⟩
    · exact ⟨rfl, rfl, ⟨rfl, rfl, rfl⟩, rfl, ⟨(fun he => by cases he), fun hs => absurd hs not_settled_nil⟩,
        ⟨(fun he => by cases he), fun hs => absurd hs not_settled_nil⟩⟩
    · simp only [hfree, GuardHolder.finalizing] at hheld
      cases hheld

/-- What ends a finalization puts the session of it in its last state, and leaves the others. -/
theorem ToldRows.settle {session : UploadSession} {nowMs : Nat} {g : RowUpdate SessionRow.uploadId} (h : ToldRows log s)
    (hheld : s.holder.finalizing = some (session, nowMs)) (hflight : ∃ row, InFlight s.ledger session nowMs row)
    (hsessions : s'.ledger.sessions = s.ledger.sessions.update session.uploadId g)
    (hsame : ∀ row, SameUpload row (g.apply row)) (hfree : s'.holder.finalizing = none)
    (hends : IsRecording (a, r) ∧ ¬ IsRefusal (a, r) ∧ (∀ row, (g.apply row).state = .completed) ∨ IsRefusal (a, r) ∧
      ¬ IsRecording (a, r) ∧ ∀ row, (g.apply row).state = .failed) : ToldRows (log ++ [(a, r)]) s' := by
  intro row' hrow'
  rw [hsessions] at hrow'
  obtain ⟨row, hrow, rfl⟩ := Table.mem_update.mp hrow'
  obtain ⟨request, since, htold⟩ := h row hrow
  have hlast := htold.underWay session nowMs hheld
  refine ⟨request, since ++ [(a, r)], ?_⟩
  by_cases hid : row.uploadId = session.uploadId
  · rw [if_pos hid]
    obtain ⟨flying, hflying⟩ := hflight
    have hfinalizing : row.state = .finalizing := by
      have hfound : s.ledger.sessions.find session.uploadId = some row := Table.find_eq_some.mpr ⟨hrow, hid⟩
      obtain rfl := Option.some.inj (hfound.symm.trans hflying.stored)
      exact hflying.fields.2.2.2.2.2.1
    refine htold.step (hsame row) (.free hfree) ?_ ?_ <;>
      rcases hends with ⟨hrecording, hrefusal, hstate⟩ | ⟨hrefusal, hrecording, hstate⟩ <;>
      simp [hstate, hfinalizing, hrecording, hrefusal, hlast, hid]
  · rw [if_neg hid]
    have hother : ¬ lastClaim since = some row.uploadId := by
      rw [hlast]
      exact fun heq => hid (Option.some.inj heq).symm
    exact htold.step (.refl row) (.free hfree) (by simp [hother]) (by simp [hother])

theorem commit_outcome {α : Type} {t : UploadTransaction α} {f : α → StoreReply} {Q : α → UploadDatabase → Prop}
    {F : UploadError → Prop} (hwp : t.wp s.ledger Q fun e _ => F e) (h : s.commit t f = (s', r)) :
    (∃ x ledger, s' = { s with ledger } ∧ r = f x ∧ Q x ledger) ∨ s' = s ∧ ∃ e, r = .failed e ∧ F e := by
  unfold StoreState.commit at h
  cases hrun : t.run s.ledger with
  | mk ledger answer =>
    have houtcome := Transaction.run_outcome hwp
    rw [hrun] at h houtcome
    rcases houtcome with ⟨x, rfl, hq⟩ | ⟨e, rfl, -, he⟩ <;> cases h
    · exact .inl ⟨x, ledger, rfl, rfl, hq⟩
    · exact .inr ⟨rfl, e, rfl, he⟩

theorem markFailed_fails {db : UploadDatabase} {uploadId : String} {nowMs : Nat} : (markFailed uploadId nowMs).wp db
    (fun _ db' => db' = updateSession uploadId (failedRow nowMs) db) fun e _ => ∃ detail, e = .corrupt detail := by
  unfold markFailed
  simp only [Transaction.wp_bind, Transaction.wp_attempt, Transaction.wp_write]
  refine ⟨fun now hnow => ?_, fun e he => ?_⟩
  · obtain ⟨rfl, -⟩ := toI64_eq hnow
    rfl
  · unfold toI64 at he
    split at he <;> cases he
    exact ⟨_, rfl⟩

variable [Sha256] {limits : StoreLimits}

/-- A finalization that the object store refused is marked as failed, unless the mark itself fails. -/
theorem failUpload_cases (hact : s.act limits .failUpload = some (s', r)) : ∃ session nowMs e,
    s.holder = .refused session nowMs e ∧ ((r = .failed (.artifact e) ∧ s' = { s with
      ledger := updateSession session.uploadId (failedRow nowMs) s.ledger, holder := .free }) ∨
    (∃ detail, r = .failed (.corrupt detail)) ∧ s' = { s with holder := .free }) := by
  simp only [StoreState.act] at hact
  split at hact
  · rename_i session nowMs error hheld
    refine ⟨session, nowMs, error, hheld, ?_⟩
    rcases commit_outcome markFailed_fails (Option.some.inj hact) with
      ⟨_, _, rfl, rfl, rfl⟩ | ⟨rfl, _, rfl, detail, rfl⟩
    · exact .inl ⟨rfl, rfl⟩
    · exact .inr ⟨⟨detail, rfl⟩, rfl⟩
  · cases hact

theorem ToldRows.failUpload (h : ToldRows log s) (hsessions : Sessions s)
    (hact : s.act limits .failUpload = some (s', r)) : ToldRows (log ++ [(.failUpload, r)]) s' := by
  obtain ⟨session, nowMs, e, hheld, ⟨rfl, rfl⟩ | ⟨⟨detail, rfl⟩, rfl⟩⟩ := failUpload_cases hact
  · have hfinalizing : s.holder.finalizing = some (session, nowMs) := by
      rw [hheld]
      rfl
    exact h.settle hfinalizing (hsessions.inFlight session nowMs hfinalizing) rfl
      (fun _ => ⟨rfl, rfl, rfl, rfl, rfl, rfl, rfl⟩) rfl (.inr ⟨⟨e, rfl⟩, nofun, fun _ => rfl⟩)
  · refine h.same (.free rfl) ⟨nofun, ?_⟩ rfl
    rintro ⟨error, he⟩
    cases he

theorem ToldRows.step (h : ToldRows log s) (hsessions : Sessions s) (hact : s.act limits a = some (s', r)) :
    ToldRows (log ++ [(a, r)]) s' := by
  by_cases ha : a = .failUpload
  · subst ha
    exact h.failUpload hsessions hact
  have hquiet : ¬ IsRecording (a, r) → ¬ IsRecording (a, r) ∧ ¬ IsRefusal (a, r) :=
    fun hrecording => ⟨hrecording, fun ⟨error, he⟩ => ha (congrArg Prod.fst he)⟩
  have hs := act_step hact
  cases hs with
  | idle hidle =>
    have hr : r ≠ .working := by
      rintro rfl
      rcases hidle with ⟨_, he⟩ | ⟨_, he⟩ | ⟨_, he⟩ <;> cases he
    exact h.same (.same (claimOf_eq_none hr) rfl) (hquiet fun he => hr (congrArg Prod.snd he)) rfl
  | began hfree hbegan => exact h.began hfree hbegan
  | torn | opened | closed | ingestedLocal | pruneInterrupted | recordedLocal | replayed =>
    exact h.same (.same rfl rfl) (hquiet fun he => by cases he) rfl
  | appended =>
    exact h.updated (.same rfl rfl) (hquiet fun he => by cases he) rfl fun _ _ =>
      ⟨⟨rfl, rfl, rfl, rfl, rfl, rfl, rfl⟩, .rfl, .rfl⟩
  | @claimed ownerId uploadId nowMs row holder _ hfree hfound hpending hlasts hcomplete hholder =>
    refine h.updated ?_ (hquiet fun he => by cases he) rfl fun row' hrow' => ?_
    · rcases hholder with ⟨rfl, rfl⟩ | ⟨rfl, _, rfl⟩
      · intro session nowMs' hheld
        cases hheld
        exact .inl (congrArg some (Table.find_eq_some.mp hfound.stored).2.symm)
      · exact .free rfl
    · obtain rfl := Option.some.inj (hrow'.symm.trans hfound.stored)
      refine ⟨⟨rfl, rfl, rfl, rfl, rfl, rfl, rfl⟩, ⟨(fun he => by cases he), fun he => ?_⟩,
        ⟨(fun he => by cases he), fun he => ?_⟩⟩ <;>
      · rw [he] at hpending
        cases hpending
  | released | finalized | collected | staged | spared | removed | rowsDeleted | crashed =>
    exact h.same (.free rfl) (hquiet fun he => by cases he) rfl
  | ingested hheld | refused hheld => exact h.same (.same rfl (by rw [hheld]; rfl)) (hquiet fun he => by cases he) rfl
  | @recordedUpload session nowMs artifact hheld hsize =>
    have hfinalizing : s.holder.finalizing = some (session, nowMs) := by
      rw [hheld]
      rfl
    exact h.settle hfinalizing (hsessions.inFlight session nowMs hfinalizing) rfl
      (fun _ => ⟨rfl, rfl, rfl, rfl, rfl, rfl, rfl⟩) rfl (.inl ⟨rfl, (fun ⟨_, he⟩ => by cases he), fun _ => rfl⟩)
  | uploadFailed => exact absurd rfl ha
  | pruned hfree =>
    refine h.quiet (.same rfl rfl) (hquiet fun he => by cases he) fun row hrow => ?_
    exact ⟨row, (Table.mem_deleteWhere.mp hrow).1, .refl row, .rfl, .rfl⟩
  | granted hfree hgranted =>
    obtain ⟨_, _, _, _, ⟨_, rfl⟩ | ⟨_, _, rfl⟩⟩ :=
      hgranted <;> exact h.same (.same rfl rfl) (hquiet fun he => by cases he) rfl
  | revoked hfree hrevoked =>
    obtain ⟨_, _, ⟨_, rfl⟩ | ⟨_, rfl⟩⟩ := hrevoked <;> exact h.same (.same rfl rfl) (hquiet fun he => by cases he) rfl

theorem run_told {allowed : Guard StoreState StoreAction StoreReply} (h : Run (uploadStore limits) allowed log s) :
    ToldRows log s := by
  have hboth : Sessions s ∧ ToldRows log s := h.invariant (I := fun log s => Sessions s ∧ ToldRows log s)
    ⟨.initial, fun _ hrow => by cases hrow⟩ fun _ _ _ _ _ hi _ hact => ⟨hi.1.step (act_step hact), hi.2.step hi.1 hact⟩
  exact hboth.2

section keeping

variable {ownerId : String} {digest : Sha256Digest} {nowMs : Nat}

/-- The owner has revoked no reference to the artifact. -/
def Unrevoked (ownerId : String) (digest : Sha256Digest) (log : History StoreAction StoreReply) : Prop :=
  ∀ referenceKey nowMs reference, (.revoke ownerId referenceKey nowMs, .referenced reference) ∈ log →
    reference.digest ≠ digest

/-- A completed session has been recorded, and unless the owner has revoked a reference to its artifact since then,
the owner still has one and the object is there. -/
def KeptRows (log : History StoreAction StoreReply) (s : StoreState) : Prop :=
  ∀ row ∈ s.ledger.sessions.rows, row.state = .completed →
    ∃ before rest, log = before ++ (.recordUpload, .working) :: rest ∧
    lastClaim before = some row.uploadId ∧ (Unrevoked row.ownerId row.expectedDigest rest →
      s.ledger.hasActiveOwnerReference row.ownerId row.expectedDigest = true ∧ s.objects row.expectedDigest ≠ none)

omit [Sha256] in
theorem revokeReference_answers {db : UploadDatabase} {referenceKey : String} {nowMs : Nat} :
    (revokeReference ownerId referenceKey nowMs).wp db (fun reference _ => ∃ row,
      db.references.find (ownerId, referenceKey) = some row ∧ reference.digest = row.digest) fun _ _ => True := by
  unfold revokeReference
  simp only [Transaction.wp_bind, Transaction.wp_attempt, Transaction.wp_read]
  refine ⟨fun _ _ => ?_, fun _ _ => trivial⟩
  split
  · trivial
  · rename_i row hrow
    simp only [Transaction.wp_ite, Transaction.wp_pure]
    split
    · exact ⟨row, hrow, rfl⟩
    · simp only [Transaction.wp_bind, Transaction.wp_attempt, Transaction.wp_write, Transaction.wp_read]
      refine ⟨fun now _ => ?_, fun _ _ => trivial⟩
      have hafter : (revoke ownerId referenceKey now db).references.find (ownerId, referenceKey) =
          some ((revokedRow now).apply row) := by
        unfold UploadDatabase.revoke
        rw [Table.find_update_self, hrow]
        rfl
      have hdeleted : (deleteOwnerReference ownerId row.digest (revoke ownerId referenceKey now db)).references.find
          (ownerId, referenceKey) = some ((revokedRow now).apply row) := hafter
      split
      · simp only [Transaction.wp_bind, Transaction.wp_write, Transaction.wp_read, hdeleted]
        exact ⟨row, hrow, rfl⟩
      · simp only [Transaction.wp_bind, Transaction.wp_read, hafter]
        exact ⟨row, hrow, rfl⟩

theorem revoke_answers {referenceKey : String} {reference : ArtifactReference}
    (hact : s.act limits (.revoke ownerId referenceKey nowMs) = some (s', .referenced reference)) :
    ∃ row, s.ledger.references.find (ownerId, referenceKey) = some row ∧ reference.digest = row.digest := by
  simp only [StoreState.act] at hact
  split at hact
  · rcases commit_cases revokeReference_answers (Option.some.inj hact) with
      ⟨_, _, _, he, hfound⟩ | ⟨_, _, he⟩ <;> cases he
    exact hfound
  · cases hact

theorem StoreStep.active_kept (hs : StoreStep limits s a r s')
    (h : s.ledger.hasActiveOwnerReference ownerId digest = true)
    (hkeeps : ∀ referenceKey nowMs reference row, (a, r) = (.revoke ownerId referenceKey nowMs, .referenced reference) →
      s.ledger.references.find (ownerId, referenceKey) = some row → row.digest ≠ digest) :
    s'.ledger.hasActiveOwnerReference ownerId digest = true := by
  cases hs with
  | recordedUpload | recordedLocal => exact (active_recordedArtifact rfl).mpr (.inl h)
  | granted hfree hgranted =>
    obtain ⟨_, _, _, _, ⟨_, rfl⟩ | ⟨_, _, rfl⟩⟩ := hgranted <;> exact (active_insertReference rfl).mpr (.inl h)
  | @revoked revoker referenceKey nowMs row reference ledger hfree hrevoked =>
    obtain ⟨hstored, hactive, htables⟩ := hrevoked
    have hkept : (revoke revoker referenceKey nowMs s.ledger).hasActiveOwnerReference ownerId digest = true := by
      obtain ⟨found, hfound, howner, hdigest, hunrevoked⟩ := hasActiveOwnerReference_iff.mp h
      refine active_revoke.mpr ⟨found, hfound, fun hkey => ?_, howner, hdigest, hunrevoked⟩
      obtain rfl : found.ownerId = revoker := congrArg Prod.fst hkey
      obtain rfl := Option.some.inj (hstored.symm.trans (Table.find_eq_some.mpr ⟨hfound, hkey⟩))
      exact hkeeps referenceKey nowMs reference _ (by rw [howner]) (by rw [← howner]; exact hstored) hdigest
    rcases htables with ⟨-, rfl⟩ | ⟨-, rfl⟩ <;> exact hkept
  | began hfree hbegan =>
    obtain ⟨_, _, _, rfl⟩ := hbegan
    exact h
  | _ => exact h

theorem StoreStep.ingested_present (hs : StoreStep limits s a r s')
    (h : ∀ session nowMs artifact, s.holder = .ingested session nowMs artifact → s.objects artifact.digest ≠ none)
    (session : UploadSession) (nowMs : Nat) (artifact : ArtifactIdentity)
    (hheld : s'.holder = .ingested session nowMs artifact) : s'.objects artifact.digest ≠ none := by
  cases hs with
  | ingested _ _ _ hdigest hpublished =>
    cases hheld
    rw [← hdigest]
    exact (published_present hpublished).1
  | ingestedLocal _ hpublished => exact (published_present hpublished).2 _ (h _ _ _ hheld)
  | claimed _ _ _ _ _ hholder => rcases hholder with ⟨rfl, -⟩ | ⟨rfl, -⟩ <;> cases hheld
  | released | refused | recordedUpload | finalized | uploadFailed | staged | collected | spared | removed |
    rowsDeleted | crashed => cases hheld
  | _ => exact h _ _ _ hheld

/-- A session that is completed was so before, or the step has recorded its upload. -/
theorem StoreStep.completed_before (hs : StoreStep limits s a r s') (hrow : row' ∈ s'.ledger.sessions.rows)
    (hcompleted : row'.state = .completed) :
    (∃ row ∈ s.ledger.sessions.rows, SameUpload row row' ∧ row.state = .completed) ∨
    ∃ row session nowMs artifact, s.holder = .ingested session nowMs artifact ∧ (a, r) = (.recordUpload, .working) ∧
      s.ledger.sessions.find session.uploadId = some row ∧ SameUpload row row' ∧ s'.objects = s.objects ∧
      (KeyServes s.ledger session.ownerId (uploadReferenceKey session.uploadId) artifact.digest →
        s'.ledger.hasActiveOwnerReference session.ownerId artifact.digest = true) := by
  cases hs with
  | began hfree hbegan =>
    obtain ⟨_, _, _, rfl⟩ := hbegan
    rcases Table.mem_insertOrIgnore.mp hrow with hold | ⟨_, rfl⟩
    · exact .inl ⟨row', hold, .refl row', hcompleted⟩
    · cases hcompleted
  | appended =>
    rcases Table.update_cases hrow with ⟨row, hfound, rfl⟩ | hold
    · exact .inl ⟨row, (Table.find_eq_some.mp hfound).1, ⟨rfl, rfl, rfl, rfl, rfl, rfl, rfl⟩, hcompleted⟩
    · exact .inl ⟨row', hold, .refl row', hcompleted⟩
  | claimed | uploadFailed =>
    rcases Table.update_cases hrow with ⟨row, _, rfl⟩ | hold
    · cases hcompleted
    · exact .inl ⟨row', hold, .refl row', hcompleted⟩
  | @recordedUpload session nowMs artifact hheld =>
    rcases Table.update_cases hrow with ⟨row, hfound, rfl⟩ | hold
    · exact .inr ⟨row, session, nowMs, artifact, hheld, rfl, hfound, ⟨rfl, rfl, rfl, rfl, rfl, rfl, rfl⟩, rfl,
        recordedArtifact_active (completedReference session.ownerId session.uploadId artifact.digest nowMs) _ rfl⟩
    · exact .inl ⟨row', hold, .refl row', hcompleted⟩
  | pruned => exact .inl ⟨row', (Table.mem_deleteWhere.mp hrow).1, .refl row', hcompleted⟩
  | granted hfree hgranted =>
    obtain ⟨_, _, _, _, ⟨_, rfl⟩ | ⟨_, _, rfl⟩⟩ := hgranted <;> exact .inl ⟨row', hrow, .refl row', hcompleted⟩
  | revoked hfree hrevoked =>
    obtain ⟨_, _, ⟨_, rfl⟩ | ⟨_, rfl⟩⟩ := hrevoked <;> exact .inl ⟨row', hrow, .refl row', hcompleted⟩
  | _ => exact .inl ⟨row', hrow, .refl row', hcompleted⟩

theorem KeptRows.step (h : KeptRows log s) (htold : ToldRows log s) (hsessions : Sessions s)
    (hingested : ∀ session nowMs artifact, s.holder = .ingested session nowMs artifact →
      s.objects artifact.digest ≠ none)
    (hserves : serves s a = true) (hact : s.act limits a = some (s', r)) : KeptRows (log ++ [(a, r)]) s' := by
  intro row' hrow' hcompleted
  have hs := act_step hact
  rcases hs.completed_before hrow' hcompleted with ⟨row, hrow, hsame, hbefore⟩ |
      ⟨row, session, nowMs, artifact, hheld, he, hfound, hsame, hobjects, hactive⟩
  · obtain ⟨before, rest, rfl, hclaim, hkept⟩ := h row hrow hbefore
    refine ⟨before, rest ++ [(a, r)], by simp, by rw [hclaim, hsame.id], fun hunrevoked => ?_⟩
    rw [hsame.owner, hsame.digest] at hunrevoked ⊢
    obtain ⟨hactive, hthere⟩ := hkept fun referenceKey nowMs reference hmem =>
      hunrevoked referenceKey nowMs reference (List.mem_append_left _ hmem)
    refine ⟨hs.active_kept hactive fun referenceKey nowMs reference found ha hfound hdigest => ?_,
      fun hgone => ?_⟩
    · obtain ⟨rfl, rfl⟩ := Prod.mk.inj ha
      obtain ⟨answered, hanswered, hsameDigest⟩ := revoke_answers hact
      obtain rfl := Option.some.inj (hanswered.symm.trans hfound)
      exact hunrevoked referenceKey nowMs reference (by simp) (hsameDigest.trans hdigest)
    · obtain ⟨_, _, _, _, _, habandoned⟩ := hs.removal hthere hgone
      obtain ⟨reference, hreference, _, hdigest, hunrevoked⟩ := hasActiveOwnerReference_iff.mp hactive
      exact (habandoned.references reference hreference hdigest).1 hunrevoked
  · obtain ⟨rfl, rfl⟩ := Prod.mk.inj he
    have hfinalizing : s.holder.finalizing = some (session, nowMs) := by
      rw [hheld]
      rfl
    obtain ⟨flying, hflying⟩ := hsessions.inFlight session nowMs hfinalizing
    obtain rfl := Option.some.inj (hfound.symm.trans hflying.stored)
    obtain ⟨hid, howner, hdigest, -⟩ := hflying.fields
    have hartifact : artifact.digest = session.expectedDigest := by rw [hsessions.ingested session nowMs artifact hheld]
    obtain ⟨request, since, hrow⟩ := htold row (Table.find_eq_some.mp hfound).1
    refine ⟨log, [], rfl, ?_, fun _ => ?_⟩
    · obtain ⟨before, counter, rfl⟩ := hrow.created
      rw [hsame.id, hid]
      exact lastClaim_since (hrow.underWay session nowMs hfinalizing)
    · rw [hsame.owner, hsame.digest, howner, hdigest, ← hartifact, hobjects]
      have hkey : KeyServes s.ledger session.ownerId (uploadReferenceKey session.uploadId) artifact.digest := by
        simpa [serves, hheld] using hserves
      exact ⟨hactive hkey, hingested _ _ _ hheld⟩

theorem run_kept (h : Run (uploadStore limits) keysServe log s) : KeptRows log s := by
  have hall : (Sessions s ∧ ToldRows log s) ∧ (∀ session nowMs artifact, s.holder = .ingested session nowMs artifact →
      s.objects artifact.digest ≠ none) ∧ KeptRows log s := by
    refine h.invariant (I := fun log s => (Sessions s ∧ ToldRows log s) ∧ (∀ session nowMs artifact,
      s.holder = .ingested session nowMs artifact → s.objects artifact.digest ≠ none) ∧ KeptRows log s)
      ⟨⟨.initial, fun _ hrow => by cases hrow⟩, (fun _ _ _ hheld => by cases hheld), fun _ hrow => by cases hrow⟩ ?_
    intro log s a s' r ⟨⟨hsessions, htold⟩, hingested, hkept⟩ hserves hact
    exact ⟨⟨hsessions.step (act_step hact), htold.step hsessions hact⟩, (act_step hact).ingested_present hingested,
      hkept.step htold hsessions hingested hserves hact⟩
  exact hall.2.2

end keeping

section replay

variable {session : UploadSession} {nowMs : Nat}

def UploadSession.Lasts (session : UploadSession) (nowMs : Nat) : Prop :=
  session.state.isPending = true ∧ nowMs < session.expiresAtMs

/-- The owner of the session can open its artifact. -/
def UploadSession.Opens (session : UploadSession) (s : StoreState) : Prop :=
  ∃ identity, (s.openReader session.ownerId session.expectedDigest).2 = .opened identity

def StoreReply.isOpened : StoreReply → Bool
  | .opened _ => true
  | _ => false

section rows

omit [Sha256]

theorem StoreReply.isOpened_iff : r.isOpened = true ↔ ∃ identity, r = .opened identity := by
  cases r <;> simp [isOpened]

instance : Decidable (session.Lasts nowMs) := inferInstanceAs (Decidable (_ ∧ _))

structure Refuses (limits : StoreLimits) (s : StoreState) (session : UploadSession) (fromMs : Nat) : Prop where
  appends : ∀ nowMs offset bytes fate, fromMs ≤ nowMs →
    ∃ e, s.append limits session.ownerId session.uploadId offset bytes nowMs fate = (s, .failed e)
  finalizes : ∀ nowMs, fromMs ≤ nowMs → ∃ e, s.finalize session.ownerId session.uploadId nowMs = (s, .failed e)

theorem append_refused {offset : Nat} {bytes : List UInt8} {fate : WriteFate}
    (hrow : s.ledger.sessions.find row.uploadId = some row) (h : ¬ row.session.Lasts nowMs) :
    ∃ e, s.append limits row.ownerId row.uploadId offset bytes nowMs fate = (s, .failed e) := by
  unfold StoreState.append
  rcases Transaction.run_cases (t := appendCheck limits row.ownerId row.uploadId offset bytes nowMs) (d := s.ledger)
    appendCheck_checks with ⟨next, hnext, -, -, found, happends⟩ | ⟨e, he, -⟩
  · obtain rfl := Option.some.inj (happends.stored.symm.trans hrow)
    refine absurd ⟨?_, happends.lasts⟩ h
    show found.state.isPending = true
    rw [happends.opened]
    rfl
  · rw [he]
    exact ⟨e, rfl⟩

theorem finalize_refused (hrow : s.ledger.sessions.find row.uploadId = some row)
    (hcompleted : row.state ≠ .completed) (h : ¬ row.session.Lasts nowMs) :
    ∃ e, s.finalize row.ownerId row.uploadId nowMs = (s, .failed e) := by
  unfold StoreState.finalize
  rcases Transaction.run_pair (t := finalizeClaim row.ownerId row.uploadId nowMs) (d := s.ledger) finalizeClaim_wp with
    ⟨found, _, hrun, other, hother, hclaims⟩ | ⟨e, hrun⟩
  · obtain rfl := Option.some.inj (hother.stored.symm.trans hrow)
    cases found with
    | inl artifact => exact absurd hclaims.1 hcompleted
    | inr claimed => exact absurd ⟨hclaims.2.1, hclaims.2.2.1⟩ h
  · rw [hrun]
    exact ⟨e, rfl⟩

theorem UploadSession.Lasts.earlier {fromMs : Nat} (h : session.Lasts nowMs) (hle : fromMs ≤ nowMs) :
    session.Lasts fromMs :=
  ⟨h.1, Nat.lt_of_le_of_lt hle h.2⟩

/-- Two begins that name the same upload. -/
structure SameRequest (creator request : BeginUpload) : Prop where
  owner : creator.ownerId = request.ownerId
  uploadKey : creator.uploadKey = request.uploadKey
  digest : creator.expectedDigest = request.expectedDigest
  size : creator.expectedSizeBytes = request.expectedSizeBytes
  mediaType : creator.mediaType = request.mediaType

/-- A session is the one that a begin has created, in the state that the calls since then have left it in. -/
structure Replayed (limits : StoreLimits) (s : StoreState) (nowMs : Nat) (creator : BeginUpload)
    (since : History StoreAction StoreReply) (session : UploadSession) : Prop where
  created : session = { (creator.row session.uploadId).session with
    committedOffset := session.committedOffset, state := session.state, artifact := session.artifact }
  completed : session.state = .completed ↔ Settled IsRecording session.uploadId since
  failed : session.state = .failed ↔ Settled IsRefusal session.uploadId since
  lasts : session.Lasts nowMs ↔ ¬ Settled IsRecording session.uploadId since ∧
    ¬ Settled IsRefusal session.uploadId since ∧ nowMs < creator.expiresAtMs
  artifact : session.state = .completed → session.artifact = some ⟨session.expectedDigest, session.expectedSizeBytes⟩
  spent : session.state ≠ .completed → ¬ session.Lasts nowMs → Refuses limits s session nowMs

theorem Told.replayed (h : Told log s row request since) (hsound : row.Sound) (hmem : row ∈ s.ledger.sessions.rows)
    (nowMs : Nat) : Replayed limits s nowMs request since row.session where
  created := by
    obtain ⟨howner, hkey, ⟨hdigest, hsize, hmedia⟩, hexpiry, _, _⟩ := h.recounted
    simp only [SessionRow.session, BeginUpload.row, howner, hkey, hdigest, hsize, hmedia, hexpiry]
  completed := h.recounted.completed
  failed := h.recounted.failed
  lasts := by
    show row.state.isPending = true ∧ nowMs < row.expiresAtMs ↔ ¬ Settled IsRecording row.uploadId since ∧
      ¬ Settled IsRefusal row.uploadId since ∧ nowMs < request.expiresAtMs
    rw [← h.recounted.completed, ← h.recounted.failed, h.recounted.expiry, ← and_assoc]
    refine and_congr_left fun _ => ?_
    cases row.state <;> simp [UploadState.isPending]
  artifact hcompleted := by
    show row.artifactDigest.map _ = _
    rw [(hsound.completed hcompleted).1]
    rfl
  spent hcompleted hlasts :=
    { appends := fun _ _ _ _ hle => append_refused (Table.find_of_mem hmem) fun hlater => hlasts (hlater.earlier hle)
      finalizes := fun _ hle => finalize_refused (Table.find_of_mem hmem) hcompleted fun hlater =>
        hlasts (hlater.earlier hle) }

end rows

theorem KeptRows.opens (h : KeptRows log s) (hmatched : Matched s.ledger)
    (hdigests : ∀ digest bytes, s.objects digest = some bytes → Sha256.digestBytes bytes = digest)
    (hrow : row ∈ s.ledger.sessions.rows) (hcompleted : row.state = .completed) : ∃ before rest,
      log = before ++ (.recordUpload, .working) :: rest ∧ lastClaim before = some row.uploadId ∧
        (Unrevoked row.ownerId row.expectedDigest rest → row.session.Opens s) := by
  obtain ⟨before, rest, hlog, hclaim, hkept⟩ := h row hrow hcompleted
  refine ⟨before, rest, hlog, hclaim, fun hunrevoked => ?_⟩
  obtain ⟨hactive, hthere⟩ := hkept hunrevoked
  obtain ⟨bytes, hbytes⟩ := Option.ne_none_iff_exists'.mp hthere
  have hreads : s.ledger.canReadArtifact row.ownerId row.expectedDigest = true := (hmatched _ _).mpr hactive
  refine ⟨⟨row.expectedDigest, bytes.length⟩, ?_⟩
  simp [StoreState.openReader, SessionRow.session, hreads, openArtifact, hbytes, hdigests _ _ hbytes]

/-- A begin that succeeds has created a session that lasts, or has changed nothing and hands back the session that an
earlier begin has created under the key, in the state that the calls since then have left it in. -/
theorem begin_hands_back {allowed : Guard StoreState StoreAction StoreReply} {counter : Nat}
    (h : Run (uploadStore limits) allowed log s)
    (hact : s.act limits (.begin request counter) = some (s', .began session)) :
    (s.ledger.sessionByKey request.ownerId request.uploadKey = none ∧
      session = (request.row session.uploadId).session ∧ session.Lasts request.nowMs) ∨
    s' = s ∧ (∃ creator counter' before since,
      log = before ++ (.begin creator counter', .began (creator.row session.uploadId).session) :: since ∧
        SameRequest creator request ∧ Replayed limits s request.nowMs creator since session) ∧
      (Run (uploadStore limits) keysServe log s → session.state = .completed → ∃ before rest,
        log = before ++ (.recordUpload, .working) :: rest ∧ lastClaim before = some session.uploadId ∧
          (Unrevoked request.ownerId request.expectedDigest rest → session.Opens s)) := by
  simp only [StoreState.act] at hact
  split at hact
  · rcases commit_cases begin_wp (Option.some.inj hact) with
      ⟨given, ledger, rfl, hr, ⟨rfl, row, hkey, hdescribes, rfl⟩ | ⟨hkey, uploadId, hbegan, rfl⟩⟩ |
        ⟨_, e, hr⟩ <;> cases hr
    · have hmem : row ∈ s.ledger.sessions.rows := List.mem_of_find?_eq_some hkey
      have hfound : row.ownerId = request.ownerId ∧ row.uploadKey = request.uploadKey := by
        simpa using List.find?_some hkey
      obtain ⟨creator, since, htold⟩ := run_told h row hmem
      obtain ⟨before, counter', hlog⟩ := htold.created
      refine .inr ⟨rfl, ⟨creator, counter', before, since, hlog, ?_, ?_⟩, fun hserving hcompleted => ?_⟩
      · exact ⟨htold.recounted.owner.symm.trans hfound.1, htold.recounted.uploadKey.symm.trans hfound.2,
          htold.recounted.describes.digest.symm.trans hdescribes.digest,
          htold.recounted.describes.size.symm.trans hdescribes.size,
          htold.recounted.describes.mediaType.symm.trans hdescribes.mediaType⟩
      · exact htold.replayed ((run_sessions h).rows row hmem) hmem request.nowMs
      · rw [← hfound.1, ← hdescribes.digest]
        exact (run_kept hserving).opens (run_referenced hserving).matched (run_digests h) hmem hcompleted
    · exact .inl ⟨hkey, rfl, rfl, hbegan.lasts⟩
  · cases hact

end replay

omit [Sha256]

def lateUpload : BeginUpload := { sampleUpload with nowMs := 150, expiresAtMs := 300 }

def completedSession : UploadSession :=
  { sampleClaim with state := .completed, artifact := some sampleArtifact }

/-- What a begin that comes late hands back, if it succeeds. -/
def lateReply (s : StoreState) : Option (StoreState × UploadSession) :=
  match @StoreState.act transparentSha256 sampleLimits s (.begin lateUpload 8) with
  | some (s', .began session) => some (s', session)
  | _ => none

theorem lateReply_eq {s s' : StoreState} {session : UploadSession} (h : lateReply s = some (s', session)) :
    @StoreState.act transparentSha256 sampleLimits s (.begin lateUpload 8) = some (s', .began session) := by
  unfold lateReply at h
  split at h
  · rename_i hact
    cases h
    exact hact
  · cases h

theorem begin_hands_back_sample : ∃ log s s', Run sampleStore keysServe log s ∧
    @StoreState.act transparentSha256 sampleLimits s (.begin lateUpload 8) = some (s', .began completedSession) ∧
    s' = s ∧
    (∃ since, Settled IsRecording "upload-7" since) ∧ @UploadSession.Opens transparentSha256 completedSession s := by
  obtain ⟨log, s, hrun, hlog, hcheck⟩ := play_reaches sampleStore keysServe (fun _ => serves)
    (sampleUploadSteps ++ [StoreAction.removeUploadData])
    (fun _ s => (lateReply s).map Prod.snd = some completedSession) (fun _ _ _ h => h) (by decide) (by decide +kernel)
  obtain ⟨⟨s', session⟩, hreply, hsession⟩ := Option.map_eq_some_iff.mp (of_decide_eq_true hcheck)
  obtain rfl : session = completedSession := hsession
  have hact := lateReply_eq hreply
  refine ⟨log, s, s', hrun, hact, ?_⟩
  rcases @begin_hands_back log s s' lateUpload transparentSha256 sampleLimits completedSession keysServe 8 hrun
    hact with
    ⟨-, hsame, -⟩ | ⟨hs, ⟨_, _, _, since, _, _, hreplayed⟩, hopens⟩
  · cases congrArg UploadSession.state hsame
  · obtain ⟨before, rest, hsplit, _, hunrevoked⟩ := hopens hrun rfl
    refine ⟨hs, ⟨since, hreplayed.completed.mp rfl⟩, hunrevoked fun referenceKey nowMs reference hmem => ?_⟩
    have hplayed : StoreAction.revoke "worker" referenceKey nowMs ∈ log.map Prod.fst := by
      rw [hsplit]
      exact List.mem_map_of_mem (List.mem_append_right _ (List.mem_cons_of_mem _ hmem))
    rw [hlog] at hplayed
    simp [sampleUploadSteps] at hplayed

/-- Three pasts of an upload that was begun: it has expired, its bytes were refused, or it was completed and revoked. -/
def lapsedSteps : List StoreAction := [.begin sampleUpload 7]

def refusedSteps : List StoreAction :=
  [.begin sampleUpload 7, .append "worker" "upload-7" 0 [9] 20 .whole, .append "worker" "upload-7" 1 [9] 30 .whole,
    .finalize "worker" "upload-7" 40, .ingestUpload [[9, 9]], .failUpload]

def withdrawnSteps : List StoreAction :=
  sampleUploadSteps ++ [StoreAction.removeUploadData, StoreAction.revoke "worker" (uploadReferenceKey "upload-7") 60]

/-- A begin under the same key hands back a session that is neither open for its owner to read nor to be
gone on with. -/
def SpentAfter (steps : List StoreAction) : Prop :=
  ∃ log s s' session, Run sampleStore anything log s ∧ log.map Prod.fst = steps ∧
    @StoreState.act transparentSha256 sampleLimits s (.begin lateUpload 8) = some (s', .began session) ∧
    ¬ (session.state = .completed ∧ @UploadSession.Opens transparentSha256 session s' ∨ session.Lasts lateUpload.nowMs)

def spent (s : StoreState) : Bool :=
  (lateReply s).any fun reply => ¬ (reply.2.state = .completed ∧ (@StoreState.openReader transparentSha256 reply.1
    reply.2.ownerId reply.2.expectedDigest).2.isOpened = true ∨ reply.2.Lasts lateUpload.nowMs)

theorem spentAfter_of_play {steps : List StoreAction}
    (h : (play sampleStore steps).any fun end_ => spent end_.2) : SpentAfter steps := by
  obtain ⟨log, s, hrun, hlog, hcheck⟩ := play_reaches sampleStore anything (fun _ _ _ => true) steps
    (fun _ s => spent s) (fun _ _ _ _ => trivial) (allowedFrom_true _ _ _) h
  unfold spent at hcheck
  cases hreply : lateReply s with
  | none =>
    rw [hreply] at hcheck
    cases hcheck
  | some reply =>
    rw [hreply] at hcheck
    refine ⟨log, s, reply.1, reply.2, hrun, hlog, lateReply_eq hreply, ?_⟩
    have hspent := of_decide_eq_true hcheck
    rwa [StoreReply.isOpened_iff] at hspent

theorem begin_hands_back_spent : SpentAfter lapsedSteps ∧ SpentAfter refusedSteps ∧ SpentAfter withdrawnSteps :=
  ⟨spentAfter_of_play (by decide +kernel), spentAfter_of_play (by decide +kernel),
    spentAfter_of_play (by decide +kernel)⟩

end AlloyPort.Artifacts
