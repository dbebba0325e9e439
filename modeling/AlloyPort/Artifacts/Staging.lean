import AlloyPort.Artifacts.Session

/-! The bytes of an upload from its first chunk to the artifact, and the life of its session. -/

namespace AlloyPort.Artifacts

open Database UploadDatabase Machine

/-- What a call of `append` that succeeded adds to an upload. -/
def eventBytes (uploadId : String) : StoreAction × StoreReply → List UInt8
  | (.append _ id _ bytes _ _, .appended _) => if id = uploadId then bytes else []
  | _ => []

def appendedBytes (uploadId : String) (log : History StoreAction StoreReply) : List UInt8 :=
  log.flatMap (eventBytes uploadId)

def committedBytes (file : Option (List UInt8)) (row : SessionRow) : List UInt8 :=
  (file.getD []).take row.committedOffset

def SessionRow.isSettled (row : SessionRow) : Prop := row.state = .completed ∨ row.state = .failed

structure SessionRow.Advances (row row' : SessionRow) : Prop where
  upload : row'.uploadId = row.uploadId ∧ row'.ownerId = row.ownerId
  expected : row'.expectedDigest = row.expectedDigest ∧ row'.expectedSizeBytes = row.expectedSizeBytes
  grows : row.committedOffset ≤ row'.committedOffset
  settled : row.isSettled → row' = row

/-- `prune_expired` drops whole sessions with their data. -/
def unpruned : Guard StoreState StoreAction StoreReply :=
  fun _ _ a => ∀ nowMs interrupted, a ≠ .pruneExpired nowMs interrupted

section files

variable {offset : Nat} {file file' : Option (List UInt8)} {data bytes tail : List UInt8}

theorem take_rewritten (h : offset ≤ data.length) : (data.take offset ++ tail).take offset = data.take offset := by
  have hlength : (data.take offset).length = offset := List.length_take_of_le h
  rw [List.take_append_of_le_length (Nat.le_of_eq hlength.symm), List.take_take, Nat.min_self]

theorem take_committed (h : offset ≤ data.length) :
    (data.take offset ++ bytes).take (offset + bytes.length) = data.take offset ++ bytes := by
  apply List.take_of_length_le
  rw [List.length_append, List.length_take_of_le h]

theorem Torn.kept (h : Torn offset file file') : (file'.getD []).take offset = (file.getD []).take offset := by
  rcases h with rfl | ⟨-, rfl⟩ | ⟨hlength, tail, rfl⟩
  · rfl
  · rfl
  · exact take_rewritten hlength

end files

section events

variable {uploadId : String} {log : History StoreAction StoreReply} {a : StoreAction} {r : StoreReply}

theorem appendedBytes_append : appendedBytes uploadId (log ++ [(a, r)]) = appendedBytes uploadId log ++
    eventBytes uploadId (a, r) := by
  simp [appendedBytes]

theorem eventBytes_of_reply (h : ∀ offset, r ≠ .appended offset) : eventBytes uploadId (a, r) = [] := by
  unfold eventBytes
  split
  · rename_i he
    cases he
    exact absurd rfl (h _)
  · rfl

theorem eventBytes_of_ne {ownerId id : String} {offset nowMs next : Nat} {bytes : List UInt8} {fate : WriteFate}
    (h : id ≠ uploadId) : eventBytes uploadId (.append ownerId id offset bytes nowMs fate, .appended next) = [] :=
  if_neg h

end events

namespace SessionRow.Advances

variable {row row' row'' : SessionRow}

theorem refl : row.Advances row := ⟨⟨rfl, rfl⟩, ⟨rfl, rfl⟩, Nat.le_refl _, fun _ => rfl⟩

theorem trans (h : row.Advances row') (h' : row'.Advances row'') : row.Advances row'' where
  upload := ⟨h'.upload.1.trans h.upload.1, h'.upload.2.trans h.upload.2⟩
  expected := ⟨h'.expected.1.trans h.expected.1, h'.expected.2.trans h.expected.2⟩
  grows := Nat.le_trans h.grows h'.grows
  settled hs := by
    have hsame := h.settled hs
    rw [h'.settled (by rw [hsame]; exact hs), hsame]

end SessionRow.Advances

def Advanced (s s' : StoreState) : Prop :=
  ∀ row ∈ s.ledger.sessions.rows, ∃ row' ∈ s'.ledger.sessions.rows, row.Advances row'

section advances

variable [Sha256] {limits : StoreLimits} {s s' : StoreState} {a : StoreAction} {r : StoreReply}

omit [Sha256]

theorem Advanced.refl (s : StoreState) : Advanced s s := fun row hrow => ⟨row, hrow, .refl⟩

theorem Advanced.trans {s'' : StoreState} (h : Advanced s s') (h' : Advanced s' s'') : Advanced s s'' := by
  intro row hrow
  obtain ⟨row', hrow', hadvances⟩ := h row hrow
  obtain ⟨row'', hrow'', hadvances'⟩ := h' row' hrow'
  exact ⟨row'', hrow'', hadvances.trans hadvances'⟩

theorem Advanced.same (h : s'.ledger.sessions = s.ledger.sessions) : Advanced s s' := by
  intro row hrow
  exact ⟨row, by rw [h]; exact hrow, .refl⟩

variable {g : RowUpdate SessionRow.uploadId} {row : SessionRow}

theorem Advanced.updated {uploadId : String} (h : s'.ledger.sessions = s.ledger.sessions.update uploadId g)
    (hg : ∀ row, s.ledger.sessions.find uploadId = some row → row.Advances (g.apply row)) : Advanced s s' := by
  intro row hrow
  refine ⟨if row.uploadId = uploadId then g.apply row else row, ?_, ?_⟩
  · rw [h]
    exact Table.mem_update.mpr ⟨row, hrow, rfl⟩
  · by_cases hid : row.uploadId = uploadId
    · rw [if_pos hid]
      exact hg row (Table.find_eq_some.mpr ⟨hrow, hid⟩)
    · rw [if_neg hid]
      exact .refl

theorem SessionRow.Advances.restated (hopen : row.state.isPending = true)
    (hg : (g.apply row).ownerId = row.ownerId ∧ (g.apply row).expectedDigest = row.expectedDigest ∧
      (g.apply row).expectedSizeBytes = row.expectedSizeBytes)
    (hgrows : row.committedOffset ≤ (g.apply row).committedOffset) : row.Advances (g.apply row) where
  upload := ⟨g.keeps row, hg.1⟩
  expected := hg.2
  grows := hgrows
  settled hs := by
    rcases hs with hs | hs <;> (rw [hs] at hopen; cases hopen)

theorem Sessions.claimed_pending (h : Sessions s) {session : UploadSession} {nowMs : Nat}
    (hheld : s.holder.finalizing = some (session, nowMs)) (hrow : s.ledger.sessions.find session.uploadId = some row) :
    row.state.isPending = true := by
  obtain ⟨claimed, hclaimed⟩ := h.inFlight session nowMs hheld
  have hsame := hrow.symm.trans hclaimed.stored
  cases hsame
  rw [hclaimed.fields.2.2.2.2.2.1]
  rfl

variable [Sha256]

theorem StoreStep.advanced (h : Sessions s) (hunpruned : ∀ nowMs interrupted, a ≠ .pruneExpired nowMs interrupted)
    (hs : StoreStep limits s a r s') : Advanced s s' := by
  cases hs with
  | idle | torn | replayed | released | ingested | refused | finalized | pruneInterrupted | ingestedLocal
  | recordedLocal | opened | closed | staged | collected | spared | removed | rowsDeleted
  | crashed => exact .same rfl
  | began hfree hbegan =>
    obtain ⟨_, _, _, rfl⟩ := hbegan
    intro row hrow
    exact ⟨row, Table.mem_insertOrIgnore.mpr (.inl hrow), .refl⟩
  | @appended ownerId uploadId offset bytes nowMs row hheld happends =>
    refine .updated rfl fun row' hrow' => ?_
    have hsame := hrow'.symm.trans happends.stored
    cases hsame
    refine .restated (by rw [happends.opened]; rfl) ⟨rfl, rfl, rfl⟩ ?_
    show row.committedOffset ≤ offset + bytes.length
    rw [happends.reached]
    exact Nat.le_add_right _ _
  | claimed hfree hfound hpending =>
    refine .updated rfl fun row' hrow' => ?_
    have hsame := hrow'.symm.trans hfound.stored
    cases hsame
    exact .restated hpending ⟨rfl, rfl, rfl⟩ (Nat.le_refl _)
  | recordedUpload hheld | uploadFailed hheld =>
    refine .updated rfl fun row' hrow' => ?_
    exact .restated (h.claimed_pending (by rw [hheld]; rfl) hrow') ⟨rfl, rfl, rfl⟩ (Nat.le_refl _)
  | pruned => exact absurd rfl (hunpruned _ _)
  | granted hfree hgranted =>
    obtain ⟨_, _, object, _, ⟨_, rfl⟩ | ⟨_, _, rfl⟩⟩ := hgranted <;> exact .same rfl
  | revoked hfree hrevoked =>
    obtain ⟨_, _, ⟨_, rfl⟩ | ⟨_, rfl⟩⟩ := hrevoked <;> exact .same rfl

end advances

variable [Sha256] {limits : StoreLimits} {log : History StoreAction StoreReply} {s s' : StoreState} {a : StoreAction}
  {r : StoreReply} {uploadId : String}

structure StagedRow (log : History StoreAction StoreReply) (file : Option (List UInt8)) (row : SessionRow) : Prop where
  length : (appendedBytes row.uploadId log).length = row.committedOffset
  bounded : row.committedOffset ≤ row.expectedSizeBytes
  stored : row.state ≠ .completed → committedBytes file row = appendedBytes row.uploadId log
  assembled : row.state = .completed → Sha256.digestBytes (appendedBytes row.uploadId log) = row.expectedDigest ∧
    (appendedBytes row.uploadId log).length = row.expectedSizeBytes

structure CompletedRow (s : StoreState) (ownerId uploadId : String) (artifact : ArtifactIdentity) (row : SessionRow) :
    Prop where
  found : s.ledger.sessions.find uploadId = some row
  owned : row.ownerId = ownerId
  state : row.state = .completed
  artifact : artifact = ⟨row.expectedDigest, row.expectedSizeBytes⟩

structure Staged (log : History StoreAction StoreReply) (s : StoreState) : Prop where
  sessions : Sessions s
  fresh : ∀ uploadId, s.ledger.sessions.find uploadId = none → appendedBytes uploadId log = []
  rows : ∀ row ∈ s.ledger.sessions.rows, StagedRow log (s.data row.uploadId) row
  ingested : ∀ session nowMs artifact, s.holder = .ingested session nowMs artifact →
    Sha256.digestBytes (appendedBytes session.uploadId log) = session.expectedDigest
  recorded : ∀ session artifact, s.holder = .recorded session artifact →
    ∃ row, CompletedRow s session.ownerId session.uploadId artifact row

section rows

variable {log' : History StoreAction StoreReply} {file file' : Option (List UInt8)} {row : SessionRow}

theorem StagedRow.kept (h : StagedRow log file row)
    (hbytes : appendedBytes row.uploadId log' = appendedBytes row.uploadId log)
    (hfile : row.state ≠ .completed → committedBytes file' row = committedBytes file row) :
    StagedRow log' file' row where
  length := by rw [hbytes]; exact h.length
  bounded := h.bounded
  stored hopen := by rw [hbytes, hfile hopen]; exact h.stored hopen
  assembled hc := by rw [hbytes]; exact h.assembled hc

theorem StagedRow.restated (h : StagedRow log file row) {g : RowUpdate SessionRow.uploadId}
    (hopen : row.state ≠ .completed) (hstate : (g.apply row).state ≠ .completed)
    (hg : (g.apply row).committedOffset = row.committedOffset ∧
      (g.apply row).expectedSizeBytes = row.expectedSizeBytes) :
    StagedRow log file (g.apply row) where
  length := by rw [g.keeps, hg.1]; exact h.length
  bounded := by rw [hg.1, hg.2]; exact h.bounded
  stored _ := by
    rw [g.keeps, committedBytes, hg.1]
    exact h.stored hopen
  assembled hc := absurd hc hstate

end rows

theorem Staged.quiet (h : Staged log s) (hsessions : Sessions s') (hledger : s'.ledger.sessions = s.ledger.sessions)
    (hdata : ∀ row ∈ s.ledger.sessions.rows, row.state ≠ .completed →
      committedBytes (s'.data row.uploadId) row = committedBytes (s.data row.uploadId) row)
    (hevent : ∀ uploadId, eventBytes uploadId (a, r) = [])
    (hholder : s'.holder = s.holder ∨ (∀ session nowMs artifact, s'.holder ≠ .ingested session nowMs artifact) ∧
      ∀ session artifact, s'.holder ≠ .recorded session artifact) : Staged (log ++ [(a, r)]) s' := by
  have hbytes : ∀ uploadId, appendedBytes uploadId (log ++ [(a, r)]) = appendedBytes uploadId log := by
    intro uploadId
    rw [appendedBytes_append, hevent, List.append_nil]
  refine ⟨hsessions, fun uploadId hnone => ?_, fun row hrow => ?_, fun session nowMs artifact hh => ?_,
    fun session artifact hh => ?_⟩
  · rw [hbytes]
    exact h.fresh uploadId (by rw [← hledger]; exact hnone)
  · rw [hledger] at hrow
    exact (h.rows row hrow).kept (hbytes _) (hdata row hrow)
  · rw [hbytes]
    rcases hholder with hsame | ⟨hno, -⟩
    · exact h.ingested session nowMs artifact (by rw [← hsame]; exact hh)
    · exact absurd hh (hno _ _ _)
  · rcases hholder with hsame | ⟨-, hno⟩
    · obtain ⟨row, hrow⟩ := h.recorded session artifact (by rw [← hsame]; exact hh)
      exact ⟨row, ⟨by rw [hledger]; exact hrow.found, hrow.owned, hrow.state, hrow.artifact⟩⟩
    · exact absurd hh (hno _ _)

theorem Staged.updated (h : Staged log s) (hsessions : Sessions s') {g : RowUpdate SessionRow.uploadId}
    (hledger : s'.ledger.sessions = s.ledger.sessions.update uploadId g) (hdata : s'.data = s.data)
    (hevent : ∀ uploadId, eventBytes uploadId (a, r) = [])
    (hrow : ∀ row, s.ledger.sessions.find uploadId = some row → StagedRow log (s.data uploadId) row →
      StagedRow log (s.data uploadId) (g.apply row))
    (hingested : ∀ session nowMs artifact, s'.holder ≠ .ingested session nowMs artifact)
    (hrecorded : ∀ session artifact, s'.holder = .recorded session artifact →
      ∃ row, CompletedRow s' session.ownerId session.uploadId artifact row) : Staged (log ++ [(a, r)]) s' := by
  have hbytes : ∀ uploadId, appendedBytes uploadId (log ++ [(a, r)]) = appendedBytes uploadId log := by
    intro uploadId
    rw [appendedBytes_append, hevent, List.append_nil]
  refine ⟨hsessions, fun id hnone => ?_, fun row hr => ?_, fun _ _ _ hh => absurd hh (hingested _ _ _), hrecorded⟩
  · rw [hbytes]
    rw [hledger, Table.find_update, Option.map_eq_none_iff] at hnone
    exact h.fresh id hnone
  · rw [hledger] at hr
    obtain ⟨before, hbefore, rfl⟩ := Table.mem_update.mp hr
    have hstaged := h.rows before hbefore
    by_cases hid : before.uploadId = uploadId
    · rw [if_pos hid, hdata, g.keeps, hid]
      rw [hid] at hstaged
      exact (hrow before (Table.find_eq_some.mpr ⟨hbefore, hid⟩) hstaged).kept (hbytes _) fun _ => rfl
    · rw [if_neg hid, hdata]
      exact hstaged.kept (hbytes _) fun _ => rfl

variable {session : UploadSession} {ownerId : String} {bytes : List UInt8} {nowMs : Nat}

omit [Sha256] in
theorem Sessions.claimed_ne (h : Sessions s) {atMs : Nat}
    {offset length : Nat} {row : SessionRow} (hheld : s.holder.finalizing = some (session, atMs))
    (happends : Appends limits s.ledger ownerId uploadId offset length nowMs row) : uploadId ≠ session.uploadId := by
  intro hid
  obtain ⟨claimed, hclaimed⟩ := h.inFlight session atMs hheld
  have hstored := hclaimed.stored
  rw [← hid, happends.stored] at hstored
  cases hstored
  have hstate := hclaimed.fields.2.2.2.2.2.1
  rw [happends.opened] at hstate
  cases hstate

omit [Sha256] in
theorem Appends.torn {uploadId : String} {offset length nowMs : Nat} {other : SessionRow}
    (happends : Appends limits s.ledger ownerId uploadId offset length nowMs row)
    (hfile : Torn offset (s.data uploadId) file) (hother : other ∈ s.ledger.sessions.rows) :
    committedBytes (Function.update s.data uploadId file other.uploadId) other =
      committedBytes (s.data other.uploadId) other := by
  by_cases hid : other.uploadId = uploadId
  · obtain ⟨hmem, hkey⟩ := Table.find_eq_some.mp happends.stored
    have hsame : other = row := Table.eq_of_key hother hmem (hid.trans hkey.symm)
    subst hsame
    rw [hid, Function.update_self, committedBytes, committedBytes, happends.reached]
    exact hfile.kept
  · rw [Function.update_of_ne hid]

theorem Staged.appended (h : Staged log s) {uploadId : String} {offset nowMs : Nat} {bytes : List UInt8}
    {row : SessionRow} (hsessions : Sessions { s with
      data := Function.update s.data uploadId (some (((s.data uploadId).getD []).take offset ++ bytes))
      ledger := updateSession uploadId (committedRow (offset + bytes.length) nowMs) s.ledger })
    (happends : Appends limits s.ledger ownerId uploadId offset bytes.length nowMs row)
    (hfits : offset + bytes.length ≤ row.expectedSizeBytes) (hfile : offset ≤ ((s.data uploadId).getD []).length) :
    Staged (log ++
      [(StoreAction.append ownerId uploadId offset bytes nowMs .whole, StoreReply.appended (offset + bytes.length))])
      { s with
        data := Function.update s.data uploadId (some (((s.data uploadId).getD []).take offset ++ bytes))
        ledger := updateSession uploadId (committedRow (offset + bytes.length) nowMs) s.ledger } := by
  obtain ⟨hmem, hkey⟩ := Table.find_eq_some.mp happends.stored
  have hself : appendedBytes uploadId (log ++ [(StoreAction.append ownerId uploadId offset bytes nowMs .whole,
      StoreReply.appended (offset + bytes.length))]) = appendedBytes uploadId log ++ bytes := by
    rw [appendedBytes_append]
    simp [eventBytes]
  have hother : ∀ id, uploadId ≠ id → appendedBytes id
      (log ++ [(StoreAction.append ownerId uploadId offset bytes nowMs .whole,
      StoreReply.appended (offset + bytes.length))]) = appendedBytes id log := by
    intro id hid
    rw [appendedBytes_append, eventBytes_of_ne hid, List.append_nil]
  refine ⟨hsessions, fun id hnone => ?_, fun after hafter => ?_, fun session atMs artifact hh => ?_,
    fun session artifact hh => ?_⟩
  · have hnone : (s.ledger.sessions.update uploadId (committedRow (offset + bytes.length) nowMs)).find id = none :=
      hnone
    rw [Table.find_update, Option.map_eq_none_iff] at hnone
    have hid : uploadId ≠ id := by
      rintro rfl
      rw [happends.stored] at hnone
      cases hnone
    rw [hother id hid]
    exact h.fresh id hnone
  · obtain ⟨before, hbefore, rfl⟩ := Table.mem_update.mp hafter
    have hstaged := h.rows before hbefore
    by_cases hid : before.uploadId = uploadId
    · have hsame : before = row := Table.eq_of_key hbefore hmem (hid.trans hkey.symm)
      subst hsame
      rw [if_pos hid]
      have hbytes : ((s.data uploadId).getD []).take offset = appendedBytes uploadId log := by
        have hstored := hstaged.stored (by rw [happends.opened]; exact nofun)
        rw [hid, committedBytes, happends.reached] at hstored
        exact hstored
      constructor
      · show (appendedBytes before.uploadId _).length = offset + bytes.length
        rw [hid, hself, ← hbytes, List.length_append, List.length_take_of_le hfile]
      · exact hfits
      · intro _
        show committedBytes (Function.update s.data uploadId _ before.uploadId) _ = appendedBytes before.uploadId _
        rw [hid, Function.update_self, hself, ← hbytes]
        exact take_committed hfile
      · intro hc
        have hopened := happends.opened
        rw [show before.state = .completed from hc] at hopened
        cases hopened
    · rw [if_neg hid]
      refine hstaged.kept (hother _ (Ne.symm hid)) fun _ => ?_
      show committedBytes (Function.update s.data uploadId _ before.uploadId) before = _
      rw [Function.update_of_ne hid]
  · have hheld : s.holder = .ingested session atMs artifact := hh
    rw [hother _ (h.sessions.claimed_ne (by rw [hheld]; rfl) happends)]
    exact h.ingested session atMs artifact hheld
  · obtain ⟨completed, hcompleted⟩ := h.recorded session artifact hh
    have hid : session.uploadId ≠ uploadId := by
      intro hid
      have hfound := hcompleted.found
      rw [hid, happends.stored] at hfound
      cases hfound
      have hstate := hcompleted.state
      rw [happends.opened] at hstate
      cases hstate
    refine ⟨completed, ⟨?_, hcompleted.owned, hcompleted.state, hcompleted.artifact⟩⟩
    show (s.ledger.sessions.update uploadId _).find session.uploadId = some completed
    rw [Table.find_update_ne hid]
    exact hcompleted.found

theorem Staged.source (h : Staged log s)
    (hheld : s.holder = .claimed session nowMs) (hsource : s.uploadSource session = some bytes)
    (hsize : bytes.length = session.expectedSizeBytes) : bytes = appendedBytes session.uploadId log := by
  obtain ⟨row, hrow⟩ := h.sessions.inFlight session nowMs (by rw [hheld]; rfl)
  obtain ⟨hid, -, -, -, hoffset, hstate, -⟩ := hrow.fields
  have hstaged := h.rows row (Table.find_eq_some.mp hrow.stored).1
  have hstored := hstaged.stored (by rw [hstate]; exact nofun)
  have hlength : row.committedOffset = bytes.length := by rw [hoffset, hrow.complete, hsize]
  rw [hid, committedBytes, hlength] at hstored
  unfold StoreState.uploadSource at hsource
  cases hdata : s.data session.uploadId with
  | some data =>
    rw [hdata] at hsource hstored
    cases hsource
    rw [Option.getD_some, List.take_length] at hstored
    exact hstored
  | none =>
    rw [hdata] at hsource hstored
    dsimp only at hsource
    split at hsource
    · cases hsource
      exact hstored
    · cases hsource

theorem Staged.step (h : Staged log s) (hunpruned : ∀ nowMs interrupted, a ≠ .pruneExpired nowMs interrupted)
    (hs : StoreStep limits s a r s') : Staged (log ++ [(a, r)]) s' := by
  have hsessions := h.sessions.step hs
  have hquiet : ∀ uploadId, (∀ offset, r ≠ .appended offset) → eventBytes uploadId (a, r) = [] :=
    fun _ hr => eventBytes_of_reply hr
  cases hs with
  | idle hidle =>
    refine h.quiet hsessions rfl (fun _ _ _ => rfl) (fun uploadId => hquiet uploadId fun offset he => ?_) (.inl rfl)
    subst he
    rcases hidle with ⟨_, he⟩ | ⟨_, he⟩ | ⟨_, he⟩ <;> cases he
  | replayed | recordedLocal | ingestedLocal | opened | closed =>
    exact h.quiet hsessions rfl (fun _ _ _ => rfl) (fun uploadId => hquiet uploadId fun _ => nofun) (.inl rfl)
  | released | refused | staged | collected | spared | removed | rowsDeleted =>
    exact h.quiet hsessions rfl (fun _ _ _ => rfl) (fun uploadId => hquiet uploadId fun _ => nofun)
      (.inr ⟨fun _ _ _ => nofun, fun _ _ => nofun⟩)
  | granted hfree hgranted =>
    obtain ⟨_, _, object, _, ⟨_, rfl⟩ | ⟨_, _, rfl⟩⟩ := hgranted <;>
      exact h.quiet hsessions rfl (fun _ _ _ => rfl) (fun uploadId => hquiet uploadId fun _ => nofun) (.inl rfl)
  | revoked hfree hrevoked =>
    obtain ⟨_, _, ⟨_, rfl⟩ | ⟨_, rfl⟩⟩ := hrevoked <;>
      exact h.quiet hsessions rfl (fun _ _ _ => rfl) (fun uploadId => hquiet uploadId fun _ => nofun) (.inl rfl)
  | @began request counter uploadId ledger hfree hbegan =>
    obtain ⟨hunused, _, _, rfl⟩ := hbegan
    have hbytes : ∀ id, appendedBytes id
        (log ++ [(StoreAction.begin request counter, StoreReply.began (request.row uploadId).session)]) =
        appendedBytes id log := by
      intro id
      rw [appendedBytes_append, hquiet id fun _ => nofun, List.append_nil]
    have hholder : s.holder = .free := hfree
    refine ⟨hsessions, fun id hnone => ?_, fun row hrow => ?_, fun _ _ _ hh => ?_, fun _ _ hh => ?_⟩
    · rw [hbytes]
      refine h.fresh id (Table.find_eq_none.mpr fun row hrow => ?_)
      exact Table.find_eq_none.mp hnone row (Table.mem_insertOrIgnore.mpr (.inl hrow))
    · rcases Table.mem_insertOrIgnore.mp hrow with hrow | ⟨_, rfl⟩
      · exact (h.rows row hrow).kept (hbytes _) fun _ => rfl
      · have hempty : appendedBytes uploadId log = [] := h.fresh uploadId hunused
        have hid : (request.row uploadId).uploadId = uploadId := rfl
        refine ⟨?_, Nat.zero_le _, fun _ => ?_, fun hc => by cases hc⟩
        · rw [hbytes, hid, hempty]
          rfl
        · rw [hbytes, hid, hempty]
          exact List.take_zero
    · rw [show _ = GuardHolder.free from hholder] at hh
      cases hh
    · rw [show _ = GuardHolder.free from hholder] at hh
      cases hh
  | @torn ownerId uploadId offset bytes nowMs fate row file e hheld happends hfile =>
    refine h.quiet hsessions rfl (fun other hother _ => ?_) (fun uploadId => hquiet uploadId fun _ => nofun) (.inl rfl)
    exact happends.torn hfile hother
  | appended hheld happends hfits hfile => exact h.appended hsessions happends hfits hfile
  | claimed hfree hfound hpending hlasts hcomplete hholder =>
    have hopen : ∀ state : UploadState, state.isPending = true → state ≠ .completed := by
      rintro _ hp rfl
      cases hp
    refine h.updated hsessions rfl rfl (fun uploadId => hquiet uploadId fun offset he => ?_)
      (fun row hrow hstaged => ?_) (fun _ _ _ hh => ?_) fun _ _ hh => ?_
    · subst he
      rcases hholder with ⟨_, he⟩ | ⟨_, _, he⟩ <;> cases he
    · have hsame := hrow.symm.trans hfound.stored
      cases hsame
      exact hstaged.restated (hopen _ hpending) nofun ⟨rfl, rfl⟩
    · rcases hholder with ⟨rfl, _⟩ | ⟨rfl, _⟩ <;> cases hh
    · rcases hholder with ⟨rfl, _⟩ | ⟨rfl, _⟩ <;> cases hh
  | @ingested session nowMs reads bytes objects hheld hsource hsize hdigest =>
    have hbytes : ∀ id, appendedBytes id (log ++ [(StoreAction.ingestUpload reads, StoreReply.working)]) =
        appendedBytes id log := by
      intro id
      rw [appendedBytes_append, hquiet id fun _ => nofun, List.append_nil]
    refine ⟨hsessions, fun id hnone => ?_, fun row hrow => ?_, fun _ _ _ hh => ?_, fun _ _ hh => by cases hh⟩
    · rw [hbytes]
      exact h.fresh id hnone
    · exact (h.rows row hrow).kept (hbytes _) fun _ => rfl
    · cases hh
      rw [hbytes, ← h.source hheld hsource hsize]
      exact hdigest
  | @recordedUpload session nowMs artifact hheld hsize =>
    obtain ⟨row, hrow⟩ := h.sessions.inFlight session nowMs (by rw [hheld]; rfl)
    obtain ⟨hid, howner, hdigest, hsizes, hoffset, -, -⟩ := hrow.fields
    have hartifact := h.sessions.ingested session nowMs artifact hheld
    refine h.updated hsessions rfl rfl (fun uploadId => hquiet uploadId fun _ => nofun) (fun row' hrow' hstaged => ?_)
      (fun _ _ _ => nofun) fun _ _ hh => ?_
    · have hsame := hrow'.symm.trans hrow.stored
      cases hsame
      refine ⟨hstaged.length, hstaged.bounded, fun hc => absurd rfl hc, fun _ => ⟨?_, ?_⟩⟩
      · show Sha256.digestBytes (appendedBytes row.uploadId log) = row.expectedDigest
        rw [hid, hdigest]
        exact h.ingested session nowMs artifact hheld
      · show (appendedBytes row.uploadId log).length = row.expectedSizeBytes
        rw [hstaged.length, hoffset, hsizes, hrow.complete]
    · cases hh
      refine ⟨(completedRow artifact.digest nowMs).apply row, ⟨?_, howner, rfl, ?_⟩⟩
      · show (s.ledger.sessions.update session.uploadId _).find session.uploadId = _
        rw [Table.find_update_self, hrow.stored]
        rfl
      · rw [hartifact, ← hdigest, ← hsizes]
        rfl
  | @finalized session artifact hheld =>
    refine h.quiet hsessions rfl (fun row hrow hopen => ?_) (fun uploadId => hquiet uploadId fun _ => nofun)
      (.inr ⟨fun _ _ _ => nofun, fun _ _ => nofun⟩)
    obtain ⟨completed, hcompleted⟩ := h.recorded session artifact hheld
    have hid : row.uploadId ≠ session.uploadId := by
      intro hid
      have hsame := (Table.find_eq_some.mpr ⟨hrow, hid⟩).symm.trans hcompleted.found
      cases hsame
      exact hopen hcompleted.state
    show committedBytes (Function.update s.data session.uploadId none row.uploadId) row = _
    rw [Function.update_of_ne hid]
  | @uploadFailed session nowMs e hheld =>
    refine h.updated hsessions rfl rfl (fun uploadId => hquiet uploadId fun _ => nofun) (fun row hrow hstaged => ?_)
      (fun _ _ _ => nofun) fun _ _ => nofun
    have hpending := h.sessions.claimed_pending (by rw [hheld]; rfl) hrow
    refine hstaged.restated (fun hc => ?_) nofun ⟨rfl, rfl⟩
    rw [hc] at hpending
    cases hpending
  | pruned | pruneInterrupted => exact absurd rfl (hunpruned _ _)
  | crashed =>
    refine h.quiet hsessions rfl (fun row hrow hopen => ?_) (fun uploadId => hquiet uploadId fun _ => nofun)
      (.inr ⟨fun _ _ _ => nofun, fun _ _ => nofun⟩)
    have hfound : s.ledger.sessions.find row.uploadId = some row := Table.find_eq_some.mpr ⟨hrow, rfl⟩
    simp [StoreState.crash, hfound, hopen]

theorem run_staged (h : Run (uploadStore limits) unpruned log s) : Staged log s := by
  refine h.invariant (I := fun log s => Staged log s) ?_ fun _ _ _ _ _ hs hallowed hact =>
    hs.step hallowed (act_step hact)
  exact ⟨Sessions.initial, fun _ _ => rfl, fun _ hrow => (by cases hrow), fun _ _ _ => nofun, fun _ _ => nofun⟩

def finalizedUpload (s : StoreState) : StoreAction → Option String
  | .finalize _ uploadId _ => some uploadId
  | .removeUploadData => match s.holder with
    | .recorded session _ => some session.uploadId
    | _ => none
  | _ => none

theorem StoreStep.finalized_row {artifact : ArtifactIdentity} (h : Staged log s)
    (hs : StoreStep limits s a (.finalized ownerId artifact) s') :
    ∃ uploadId row, finalizedUpload s a = some uploadId ∧ CompletedRow s ownerId uploadId artifact row := by
  cases hs with
  | idle hidle => rcases hidle with ⟨_, he⟩ | ⟨_, he⟩ | ⟨_, he⟩ <;> cases he
  | @replayed _ uploadId nowMs row artifact hfree hfound hstate hartifact =>
    refine ⟨uploadId, row, rfl, hfound.stored, hfound.owned, hstate, ?_⟩
    have hsound := h.sessions.rows row (Table.find_eq_some.mp hfound.stored).1
    simp only [SessionRow.session, (hsound.completed hstate).1] at hartifact
    exact (Option.some.inj hartifact).symm
  | claimed hfree hfound hpending hlasts hcomplete hholder => rcases hholder with ⟨_, he⟩ | ⟨_, _, he⟩ <;> cases he
  | @finalized session artifact hheld =>
    obtain ⟨row, hrow⟩ := h.recorded session artifact hheld
    exact ⟨session.uploadId, row, by simp only [finalizedUpload, hheld], hrow⟩

theorem StoreStep.rejected {offset : Nat} {fate : WriteFate}
    {e : UploadError} (hs : StoreStep limits s (.append ownerId uploadId offset bytes nowMs fate) (.failed e) s') :
    s'.ledger = s.ledger ∧ ∀ row ∈ s.ledger.sessions.rows,
      committedBytes (s'.data row.uploadId) row = committedBytes (s.data row.uploadId) row := by
  cases hs with
  | idle | released => exact ⟨rfl, fun _ _ => rfl⟩
  | @torn _ _ _ _ _ _ row file e hheld happends hfile =>
    exact ⟨rfl, fun other hother => happends.torn hfile hother⟩

/-- The committed bytes of an upload are the appended ones, its session only advances, a rejected append
changes neither, and `finalize` succeeds with the artifact that the appended bytes make up. -/
theorem uploads_assembled (h : Run (uploadStore limits) unpruned log s) :
    (∀ row ∈ s.ledger.sessions.rows, StagedRow log (s.data row.uploadId) row) ∧
    (∀ log' s', Later (uploadStore limits) unpruned log s log' s' → Advanced s s') ∧
    (∀ ownerId uploadId offset bytes nowMs fate e s',
      s.act limits (.append ownerId uploadId offset bytes nowMs fate) = some (s', .failed e) →
      s'.ledger = s.ledger ∧ ∀ row ∈ s.ledger.sessions.rows,
        committedBytes (s'.data row.uploadId) row = committedBytes (s.data row.uploadId) row) ∧
    (∀ a ownerId artifact s', s.act limits a = some (s', .finalized ownerId artifact) →
      ∃ uploadId row, finalizedUpload s a = some uploadId ∧ CompletedRow s ownerId uploadId artifact row ∧
        artifact = ⟨Sha256.digestBytes (appendedBytes uploadId log), (appendedBytes uploadId log).length⟩) := by
  have hstaged := run_staged h
  refine ⟨hstaged.rows, fun log' s' hlater => ?_, fun _ _ _ _ _ _ _ _ hact => (act_step hact).rejected,
    fun a ownerId artifact s' hact => ?_⟩
  · exact hlater.relates h Advanced.refl (fun _ _ _ hh hh' => hh.trans hh')
      fun _ _ _ _ _ hrun hallowed hact => (act_step hact).advanced (run_sessions hrun) hallowed
  · obtain ⟨uploadId, row, hupload, hrow⟩ := (act_step hact).finalized_row hstaged
    obtain ⟨hmem, rfl⟩ := Table.find_eq_some.mp hrow.found
    obtain ⟨hdigest, hlength⟩ := (hstaged.rows row hmem).assembled hrow.state
    exact ⟨row.uploadId, row, hupload, hrow, by rw [hdigest, hlength]; exact hrow.artifact⟩

omit [Sha256]

def unprunedTest : StoreAction → Bool
  | .pruneExpired .. => false
  | _ => true

theorem unpruned_of_test (log : History StoreAction StoreReply) (s : StoreState) (a : StoreAction)
    (h : unprunedTest a = true) : unpruned log s a := by
  rintro _ _ rfl
  cases h

/-- Two chunks, the second at the second try, and a finalization up to its record. -/
theorem uploads_assembled_sample :
    ∃ log s, Run sampleStore unpruned log s ∧ appendedBytes "upload-7" log = [1, 2] ∧
      ∃ row ∈ s.ledger.sessions.rows, row.state = .completed ∧
        @Sha256.digestBytes transparentSha256 (appendedBytes row.uploadId log) = row.expectedDigest := by
  obtain ⟨log, s, hrun, -, hcheck⟩ := play_reaches sampleStore unpruned (fun _ _ a => unprunedTest a) sampleUploadSteps
    (fun log s => appendedBytes "upload-7" log = [1, 2] ∧
      (s.ledger.sessions.find "upload-7").any fun row => row.state = .completed)
    unpruned_of_test (by decide) (by decide +kernel)
  obtain ⟨hbytes, hcompleted⟩ := of_decide_eq_true hcheck
  obtain ⟨row, hrow, hstate⟩ := (Option.any_eq_true _ _).mp hcompleted
  obtain ⟨hmem, -⟩ := Table.find_eq_some.mp hrow
  have hstaged := (@uploads_assembled transparentSha256 sampleLimits log s hrun).1 row hmem
  have hstate := of_decide_eq_true hstate
  exact ⟨log, s, hrun, hbytes, row, hmem, hstate, (@StagedRow.assembled transparentSha256 _ _ _ hstaged hstate).1⟩

/-- A finalization takes the upload data of a completed session away. -/
theorem completed_data_removed :
    ¬ ∀ log s, Run sampleStore unpruned log s → ∀ row ∈ s.ledger.sessions.rows,
      committedBytes (s.data row.uploadId) row = appendedBytes row.uploadId log := by
  intro hall
  obtain ⟨log, s, hrun, -, hcheck⟩ := play_reaches sampleStore unpruned (fun _ _ a => unprunedTest a)
    (sampleUploadSteps ++ [StoreAction.removeUploadData])
    (fun log s => appendedBytes "upload-7" log = [1, 2] ∧ s.data "upload-7" = none ∧
      (s.ledger.sessions.find "upload-7").isSome)
    unpruned_of_test (by decide +kernel) (by decide)
  obtain ⟨hbytes, hdata, hsome⟩ := of_decide_eq_true hcheck
  obtain ⟨row, hrow⟩ := Option.isSome_iff_exists.mp hsome
  obtain ⟨hmem, hid⟩ := Table.find_eq_some.mp hrow
  have hh := hall log s hrun row hmem
  rw [hid, hbytes, hdata] at hh
  simp [committedBytes] at hh

end AlloyPort.Artifacts
