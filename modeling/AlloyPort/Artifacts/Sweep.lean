import AlloyPort.Artifacts.Collection

/-! How much one collection collects. The objects it examines are chosen before the readers are looked at, so an object
that a reader holds takes a place among them. -/

namespace AlloyPort.Artifacts

open Database UploadDatabase Machine Transaction SqliteUploadStore

def StoreState.collectible (s : StoreState) (nowMs : Nat) (digest : Sha256Digest) : Bool :=
  s.readers digest = 0 && !s.ledger.artifactIsReachable digest nowMs

def StoreState.collectibleObjects (s : StoreState) (nowMs : Nat) : List ObjectRow :=
  s.ledger.objects.rows.filter fun object => s.collectible nowMs object.digest

/-- A call has collected as many objects as it may, of those that nothing keeps. -/
structure Collects (s : StoreState) (nowMs limit : Nat) (s' : StoreState) (report : GarbageCollectionReport) :
    Prop where
  counted : report.collectedObjects = min limit (s.collectibleObjects nowMs).length
  removed : s'.ledger.objects.rows.length + report.collectedObjects = s.ledger.objects.rows.length

/-- The objects that a call examines: of the marked ones, the first by the time of the mark and the digest. -/
def StoreState.examined (s : StoreState) (nowMs limit : Nat) (selected : List ObjectRow) : List Sha256Digest :=
  (((SqliteUploadStore.stageGarbageCandidates nowMs limit selected).run s.ledger).1.pendingGarbage limit).map Prod.fst

/-- No examined object is kept, or every object that nothing keeps is examined. -/
def Unobstructed (s : StoreState) (nowMs limit : Nat) (selected : List ObjectRow) : Prop :=
  (∀ digest ∈ s.examined nowMs limit selected, s.collectible nowMs digest = true) ∨
    ∀ object ∈ s.collectibleObjects nowMs, object.digest ∈ s.examined nowMs limit selected

section selection

variable {s : StoreState} {nowMs limit now : Nat} {selected : List ObjectRow} {digest : Sha256Digest}
  {db ledger : UploadDatabase} {object : ObjectRow}

theorem isGarbageCandidate_eq : db.isGarbageCandidate nowMs object = !db.artifactIsReachable object.digest nowMs := by
  unfold isGarbageCandidate artifactIsReachable
  rw [Bool.eq_iff_iff]
  simp only [Bool.and_eq_true, Bool.not_eq_true', Bool.or_eq_false_iff, List.any_eq_false, decide_eq_true_eq]
  grind

theorem forEach_insertPending :
    forEach (fun object : ObjectRow => (write (insertPending ⟨object.digest, now⟩) : UploadTransaction Unit)) selected
      db = (.ok (), selected.foldl (fun db object => insertPending ⟨object.digest, now⟩ db) db) := by
  induction selected generalizing db with
  | nil => rfl
  | cons object rest ih => exact (bind_ok rfl).trans ih

theorem isSome_insertPending {row : PendingRow} (h : (db.gcPending.find digest).isSome = true) :
    ((insertPending row db).gcPending.find digest).isSome = true := by
  obtain ⟨marked, hmarked, hdigest⟩ := Table.find_isSome.mp h
  exact Table.find_isSome.mpr ⟨marked, Table.mem_insertOrIgnore.mpr (.inl hmarked), hdigest⟩

theorem foldl_insertPending : (selected.foldl (fun db object => insertPending ⟨object.digest, now⟩ db) db).objects =
    db.objects ∧ (∀ digest, (db.gcPending.find digest).isSome = true →
      ((selected.foldl (fun db object => insertPending ⟨object.digest, now⟩ db) db).gcPending.find digest).isSome =
      true) ∧
    ∀ object ∈ selected, ((selected.foldl (fun db object => insertPending ⟨object.digest, now⟩ db) db).gcPending.find
      object.digest).isSome = true := by
  induction selected generalizing db with
  | nil => exact ⟨rfl, fun _ h => h, fun _ h => by cases h⟩
  | cons object rest ih =>
    obtain ⟨hobjects, hkept, hrest⟩ := @ih (insertPending ⟨object.digest, now⟩ db)
    refine ⟨hobjects, fun digest h => hkept digest (isSome_insertPending h), fun other hother => ?_⟩
    rcases List.mem_cons.mp hother with rfl | hmem
    · refine hkept _ ?_
      rw [insertPending, Table.find_insertOrIgnore]
      rfl
    · exact hrest other hmem

theorem staged_pending (h : (stageGarbageCandidates nowMs limit selected).run db = (ledger, .ok ())) :
    ledger.objects = db.objects ∧ limit < 2 ^ 63 ∧
      ∀ object ∈ selected, (ledger.gcPending.find object.digest).isSome = true := by
  have hmarked : (stageGarbageCandidates nowMs limit selected).wp db
      (fun _ ledger => ledger.objects = db.objects ∧ limit < 2 ^ 63 ∧
        ∀ object ∈ selected, (ledger.gcPending.find object.digest).isSome = true) fun _ _ => True := by
    unfold stageGarbageCandidates
    simp only [wp_bind, wp_attempt, wp_ite, wp_raise]
    refine ⟨fun now _ => ?_, fun _ _ => trivial⟩
    by_cases hlimit : 2 ^ 63 ≤ limit
    · rw [if_pos hlimit]
      trivial
    · rw [if_neg hlimit, wp, forEach_insertPending]
      obtain ⟨hobjects, -, hselected⟩ := @foldl_insertPending now selected db
      exact ⟨hobjects, by omega, hselected⟩
  rcases run_cases hmarked with ⟨_, _, hdb⟩ | ⟨e, hfailed, _⟩
  · rw [h] at hdb
    exact hdb
  · rw [h] at hfailed
    cases hfailed

theorem staged_keeps (h : (stageGarbageCandidates nowMs limit selected).run db = (ledger, .ok ())) :
    ledger.references = db.references ∧ ledger.sessions = db.sessions := by
  have hkeeps : (stageGarbageCandidates nowMs limit selected).wp db
      (fun _ db' => db' = { db with gcPending := db'.gcPending }) fun _ _ => True := stageGarbageCandidates_wp
  rcases run_cases hkeeps with ⟨_, _, hdb⟩ | ⟨e, hfailed, _⟩
  · rw [h] at hdb
    have hledger : ledger = { db with gcPending := ledger.gcPending } := hdb
    exact ⟨by rw [hledger], by rw [hledger]⟩
  · rw [h] at hfailed
    cases hfailed

theorem mem_pendingGarbage {candidate : Sha256Digest × Nat} (h : candidate ∈ db.pendingGarbage limit) :
    (db.objects.find candidate.1).isSome = true := by
  unfold pendingGarbage at h
  obtain ⟨row, -, hrow⟩ := List.mem_filterMap.mp (List.mem_of_mem_take h)
  obtain ⟨object, hobject, rfl⟩ := Option.map_eq_some_iff.mp hrow
  exact Option.isSome_iff_exists.mpr ⟨object, hobject⟩

theorem filterMap_digests_sublist (rows : List PendingRow) :
    ((rows.filterMap fun row => (db.objects.find row.digest).map fun object => (row.digest, object.sizeBytes)).map
      Prod.fst).Sublist (rows.map PendingRow.digest) := by
  induction rows with
  | nil => exact .slnil
  | cons row rest ih =>
    cases hobject : db.objects.find row.digest with
    | none => simpa [hobject] using ih.cons row.digest
    | some object => simpa [hobject] using ih.cons_cons row.digest

theorem pendingGarbage_nodup (db : UploadDatabase) (limit : Nat) : ((db.pendingGarbage limit).map Prod.fst).Nodup := by
  unfold pendingGarbage
  rw [List.map_take]
  refine List.Sublist.nodup ((List.take_sublist _ _).trans (filterMap_digests_sublist _)) ?_
  exact ((List.perm_insertionSort _ db.gcPending.rows).map _).nodup_iff.mpr db.gcPending.nodup

theorem mem_pendingGarbage_of_room (hroom : (db.pendingGarbage limit).length < limit)
    (hpending : (db.gcPending.find digest).isSome = true) (hobject : (db.objects.find digest).isSome = true) :
    digest ∈ (db.pendingGarbage limit).map Prod.fst := by
  unfold pendingGarbage at hroom ⊢
  rw [List.length_take] at hroom
  rw [List.take_of_length_le (by omega)]
  obtain ⟨row, hrow⟩ := Option.isSome_iff_exists.mp hpending
  obtain ⟨object, hobject⟩ := Option.isSome_iff_exists.mp hobject
  obtain ⟨hmem, rfl⟩ := Table.find_eq_some.mp hrow
  refine List.mem_map.mpr ⟨(row.digest, object.sizeBytes), List.mem_filterMap.mpr ⟨row, ?_, by rw [hobject]; rfl⟩, rfl⟩
  exact (List.mem_insertionSort _).mpr hmem

theorem pendingGarbage_length_le (db : UploadDatabase) (limit : Nat) : (db.pendingGarbage limit).length ≤ limit := by
  unfold pendingGarbage
  rw [List.length_take]
  exact Nat.min_le_left _ _

/-- Of the examined objects as many are collectible as the call may collect exactly where none of them is kept, or all
collectible ones are examined. -/
theorem examined_count_iff
    (h : (stageGarbageCandidates nowMs limit selected).run s.ledger = (ledger, .ok ()))
    (hselected : s.ledger.isSelection nowMs limit selected = true) :
    ((s.examined nowMs limit selected).filter (s.collectible nowMs)).length =
        min limit (s.collectibleObjects nowMs).length ↔ Unobstructed s nowMs limit selected := by
  have hexamined : s.examined nowMs limit selected = (ledger.pendingGarbage limit).map Prod.fst := by
    rw [StoreState.examined, h]
  obtain ⟨hobjects, -, hmarked⟩ := staged_pending h
  simp only [isSelection, decide_eq_true_eq] at hselected
  obtain ⟨hdistinct, hcandidates, hcount⟩ := hselected
  have hlimit : (s.examined nowMs limit selected).length ≤ limit := by
    rw [hexamined, List.length_map]
    exact pendingGarbage_length_le _ _
  have hnodup : (s.examined nowMs limit selected).Nodup := by
    rw [hexamined]
    exact pendingGarbage_nodup _ _
  have hfilter := List.length_filter_le (s.collectible nowMs) (s.examined nowMs limit selected)
  -- The collectible objects that are examined, among all collectible ones.
  have hsubset : ((s.examined nowMs limit selected).filter (s.collectible nowMs)) ⊆
      (s.collectibleObjects nowMs).map ObjectRow.digest := by
    intro digest hmem
    obtain ⟨hdigest, hcollectible⟩ := List.mem_filter.mp hmem
    rw [hexamined] at hdigest
    obtain ⟨candidate, hcandidate, rfl⟩ := List.mem_map.mp hdigest
    have hfound := mem_pendingGarbage hcandidate
    rw [hobjects] at hfound
    obtain ⟨object, hobject, hsame⟩ := Table.find_isSome.mp hfound
    rw [← hsame] at hcollectible ⊢
    exact List.mem_map_of_mem (List.mem_filter.mpr ⟨hobject, hcollectible⟩)
  have hsubperm := List.subperm_of_subset (hnodup.filter (s.collectible nowMs)) hsubset
  have hle := hsubperm.length_le
  rw [List.length_map] at hle
  have hback : (∀ object ∈ s.collectibleObjects nowMs, object.digest ∈ s.examined nowMs limit selected) →
      (s.collectibleObjects nowMs).length ≤ ((s.examined nowMs limit selected).filter
      (s.collectible nowMs)).length := by
    intro hevery
    have hkeys : ((s.collectibleObjects nowMs).map ObjectRow.digest).Nodup :=
      s.ledger.objects.nodup.sublist (List.filter_sublist.map ObjectRow.digest)
    have hin := List.subperm_of_subset hkeys fun digest hdigest => by
      obtain ⟨object, hobject, rfl⟩ := List.mem_map.mp hdigest
      exact List.mem_filter.mpr ⟨hevery object hobject, (List.mem_filter.mp hobject).2⟩
    simpa using hin.length_le
  constructor
  · intro hexact
    by_cases hall : (s.collectibleObjects nowMs).length ≤ limit
    · refine .inr fun object hobject => ?_
      have hperm := hsubperm.perm_of_length_le (by rw [List.length_map]; omega)
      exact (List.mem_filter.mp (hperm.mem_iff.mpr (List.mem_map_of_mem hobject))).1
    · refine .inl fun digest hdigest => ?_
      have hfull : ((s.examined nowMs limit selected).filter (s.collectible nowMs)).length =
          (s.examined nowMs limit selected).length := by omega
      exact List.filter_eq_self.mp (List.filter_sublist.eq_of_length hfull) digest hdigest
  · rintro (hnone | hevery)
    · have hfull : (s.examined nowMs limit selected).filter (s.collectible nowMs) = s.examined nowMs limit selected :=
        List.filter_eq_self.mpr hnone
      rw [hfull] at hle ⊢
      by_cases hroom : (s.examined nowMs limit selected).length < limit
      · have hroom' : (ledger.pendingGarbage limit).length < limit := by rwa [hexamined, List.length_map] at hroom
        have hin : ∀ object ∈ selected, object.digest ∈ s.examined nowMs limit selected := by
          intro object hobject
          rw [hexamined]
          refine mem_pendingGarbage_of_room hroom' (hmarked object hobject) ?_
          rw [hobjects]
          exact Table.find_isSome.mpr ⟨object, (hcandidates object hobject).1, rfl⟩
        have hkeys : (selected.map ObjectRow.digest).Nodup := by
          refine hdistinct.map_on fun object hobject other hother hsame => ?_
          exact Table.eq_of_key (hcandidates object hobject).1 (hcandidates other hother).1 hsame
        have hfewer := (List.subperm_of_subset hkeys fun digest hdigest => by
          obtain ⟨object, hobject, rfl⟩ := List.mem_map.mp hdigest
          exact hin object hobject).length_le
        rw [List.length_map] at hfewer
        -- There was room for every candidate, so each was selected.
        have hall : selected.Perm (s.ledger.objects.rows.filter (s.ledger.isGarbageCandidate nowMs)) := by
          refine (List.subperm_of_subset hdistinct fun object hobject => ?_).perm_of_length_le (by omega)
          exact List.mem_filter.mpr (hcandidates object hobject)
        have hmore := hback fun object hobject => by
          obtain ⟨hrow, hcollectible⟩ := List.mem_filter.mp hobject
          refine hin object (hall.mem_iff.mpr (List.mem_filter.mpr ⟨hrow, ?_⟩))
          rw [isGarbageCandidate_eq]
          exact ((Bool.and_eq_true _ _).mp hcollectible).2
        rw [hfull] at hmore
        omega
      · omega
    · have hmore := hback hevery
      omega

end selection

section sweep

variable [Sha256] {limits : StoreLimits} {log log' : History StoreAction StoreReply} {s₁ s s' s'' : StoreState}
  {a : StoreAction} {r : StoreReply} {nowMs limit size : Nat} {digest : Sha256Digest}
  {all done rest : List (Sha256Digest × Nat)} {report : GarbageCollectionReport} {selected : List ObjectRow}

/-- The steps of one call: it holds the lifecycle lock, does not give up and is not cut off by a crash. -/
def uninterrupted : Guard StoreState StoreAction StoreReply := fun _ s a =>
  s.holder.isCollecting = true ∧ a ≠ .crash ∧ ∀ error, a ≠ .giveUp error

structure Progress (s₁ : StoreState) (nowMs : Nat) (done rest : List (Sha256Digest × Nat))
    (report : GarbageCollectionReport) (s : StoreState) : Prop where
  readers : s.readers = s₁.readers
  references : s.ledger.references = s₁.ledger.references
  sessions : s.ledger.sessions = s₁.ledger.sessions
  counted : report.collectedObjects = (done.filter fun candidate => s₁.collectible nowMs candidate.1).length
  removed : s.ledger.objects.rows.length + report.collectedObjects = s₁.ledger.objects.rows.length
  present : ∀ candidate ∈ rest, (s.ledger.objects.find candidate.1).isSome = true

inductive Sweep (s₁ : StoreState) (nowMs : Nat) (all : List (Sha256Digest × Nat)) (s : StoreState) : Prop
  | examining {done rest : List (Sha256Digest × Nat)} {report : GarbageCollectionReport}
      (hheld : s.holder = .collecting nowMs rest report) (hall : all = done ++ rest)
      (hprogress : Progress s₁ nowMs done rest report s)
  | deleting {done rest : List (Sha256Digest × Nat)} {digest : Sha256Digest} {size : Nat}
      {report : GarbageCollectionReport}
      (hheld : s.holder = .removed nowMs digest size rest report) (hall : all = done ++ (digest, size) :: rest)
      (hcollectible : s₁.collectible nowMs digest = true)
      (hprogress : Progress s₁ nowMs done ((digest, size) :: rest) report s)

section sweeping

omit [Sha256]

theorem Progress.collectible_eq (h : Progress s₁ nowMs done rest report s) :
    s.collectible nowMs digest = s₁.collectible nowMs digest := by
  unfold StoreState.collectible artifactIsReachable
  rw [h.readers, h.references, h.sessions]

theorem length_deleteArtifact {db : UploadDatabase} (h : (db.objects.find digest).isSome = true) :
    (deleteArtifact digest db).objects.rows.length + 1 = db.objects.rows.length := by
  obtain ⟨object, hobject, rfl⟩ := Table.find_isSome.mp h
  have hcount : db.objects.rows.countP (fun row => decide (row.digest = object.digest)) = 1 := by
    have hkey := List.count_eq_one_of_mem db.objects.nodup (List.mem_map_of_mem hobject)
    rw [List.count_eq_countP, List.countP_map] at hkey
    rw [← hkey]
    refine List.countP_congr fun row _ => ?_
    simp
  have hsplit := List.length_eq_countP_add_countP (fun row : ObjectRow => decide (row.digest = object.digest))
    (l := db.objects.rows)
  simp only [deleteArtifact, Table.deleteWhere, ← List.countP_eq_length_filter]
  rw [hsplit, hcount, Nat.add_comm]
  congr 1
  refine List.countP_congr fun row _ => ?_
  simp

theorem Sweep.examine (hall : all = done ++ (digest, size) :: rest)
    (hprogress : Progress s₁ nowMs done ((digest, size) :: rest) report s)
    (h : s.examine nowMs report ((digest, size) :: rest) = (s', r)) : r = .working ∧ Sweep s₁ nowMs all s' := by
  have hsame : s.collectible nowMs digest = s₁.collectible nowMs digest := hprogress.collectible_eq
  have hall' : all = (done ++ [(digest, size)]) ++ rest := by
    rw [hall, List.append_assoc]
    rfl
  have hspared : s₁.collectible nowMs digest = false → ∀ report' : GarbageCollectionReport,
      report'.collectedObjects = report.collectedObjects →
      Sweep s₁ nowMs all
        { s with ledger := s.ledger.deletePending digest, holder := .collecting nowMs rest report' } := by
    intro hkept report' hreport
    refine .examining rfl hall' ?_
    refine ⟨hprogress.readers, hprogress.references, hprogress.sessions, ?_, ?_, fun candidate hmem => ?_⟩
    · rw [hreport, hprogress.counted, List.filter_append]
      simp [hkept]
    · rw [hreport]
      exact hprogress.removed
    · exact hprogress.present candidate (List.mem_cons_of_mem _ hmem)
  unfold StoreState.examine at h
  dsimp only at h
  by_cases hreaders : s.readers digest ≠ 0
  · rw [if_pos hreaders] at h
    cases h
    refine ⟨rfl, hspared ?_ _ rfl⟩
    rw [← hsame, StoreState.collectible, decide_eq_false hreaders, Bool.false_and]
  · rw [if_neg hreaders] at h
    by_cases hreach : s.ledger.artifactIsReachable digest nowMs = true
    · rw [if_pos hreach] at h
      cases h
      refine ⟨rfl, hspared ?_ _ rfl⟩
      rw [← hsame, StoreState.collectible, hreach, Bool.not_true, Bool.and_false]
    · rw [if_neg hreach] at h
      cases h
      refine ⟨rfl, .deleting rfl hall ?_ ?_⟩
      · rw [← hsame, StoreState.collectible, decide_eq_true (not_not.mp hreaders), Bool.true_and]
        simpa using hreach
      · exact ⟨hprogress.readers, hprogress.references, hprogress.sessions, hprogress.counted, hprogress.removed,
          hprogress.present⟩

theorem Sweep.delete (hkeys : (all.map Prod.fst).Nodup) (hbound : all.length < 2 ^ 63)
    (hall : all = done ++ (digest, size) :: rest) (hcollectible : s₁.collectible nowMs digest = true)
    (hprogress : Progress s₁ nowMs done ((digest, size) :: rest) report s) (bytes : Nat) :
    Sweep s₁ nowMs all { s with
      ledger := s.ledger.deleteArtifact digest
      holder := .collecting nowMs rest ⟨saturatingAdd report.collectedObjects 1, bytes,
        report.skippedActiveReaders⟩ } := by
  have hfew : report.collectedObjects ≤ done.length := by
    rw [hprogress.counted]
    exact List.length_filter_le _ _
  have hlength : done.length < all.length := by
    rw [hall, List.length_append, List.length_cons]
    omega
  have hnext : saturatingAdd report.collectedObjects 1 = report.collectedObjects + 1 := by
    unfold saturatingAdd
    omega
  have hremoved : (s.ledger.deleteArtifact digest).objects.rows.length + 1 = s.ledger.objects.rows.length :=
    length_deleteArtifact (hprogress.present (digest, size) List.mem_cons_self)
  have hall' : all = (done ++ [(digest, size)]) ++ rest := by
    rw [hall, List.append_assoc]
    rfl
  refine .examining rfl hall' ?_
  refine ⟨hprogress.readers, hprogress.references, hprogress.sessions, ?_, ?_, fun candidate hmem => ?_⟩
  · show saturatingAdd report.collectedObjects 1 = _
    rw [hnext, hprogress.counted, List.filter_append, List.length_append]
    simp [hcollectible]
  · show (s.ledger.deleteArtifact digest).objects.rows.length + saturatingAdd report.collectedObjects 1 = _
    rw [hnext, ← hprogress.removed]
    omega
  · have hother : candidate.1 ≠ digest := by
      intro hsame
      rw [hall, List.map_append, List.map_cons] at hkeys
      have hnodup := (List.nodup_append.mp hkeys).2.1
      exact (List.nodup_cons.mp hnodup).1 (List.mem_map.mpr ⟨candidate, hmem, hsame⟩)
    obtain ⟨object, hobject⟩ := Option.isSome_iff_exists.mp (hprogress.present candidate (List.mem_cons_of_mem _ hmem))
    obtain ⟨-, hdigest⟩ := Table.find_eq_some.mp hobject
    show ((s.ledger.deleteArtifact digest).objects.find candidate.1).isSome = true
    rw [deleteArtifact, Table.find_deleteWhere, hobject, Option.filter_some, if_pos (by simp [hdigest, hother])]
    rfl

theorem Sweep.objects (h : Sweep s₁ nowMs all s) (objects : Sha256Digest → Option (List UInt8)) :
    Sweep s₁ nowMs all { s with objects } := by
  cases h with
  | examining hheld hall hprogress =>
    exact .examining hheld hall ⟨hprogress.readers, hprogress.references, hprogress.sessions, hprogress.counted,
      hprogress.removed, hprogress.present⟩
  | deleting hheld hall hcollectible hprogress =>
    exact .deleting hheld hall hcollectible ⟨hprogress.readers, hprogress.references, hprogress.sessions,
      hprogress.counted, hprogress.removed, hprogress.present⟩

end sweeping

theorem Sweep.step (h : Sweep s₁ nowMs all s) (hkeys : (all.map Prod.fst).Nodup) (hbound : all.length < 2 ^ 63)
    (hguard : uninterrupted log s a) (hact : (uploadStore limits).act s a = some (s', r)) :
    (∃ report, r = .collected report ∧ s'.holder = .free ∧ Progress s₁ nowMs all [] report s') ∨
      (∀ report, r ≠ .collected report) ∧ Sweep s₁ nowMs all s' := by
  have hrest := hguard.2
  have ingested {reads : List (List UInt8)} {request : IngestRequest}
      (hact : (uploadStore limits).act s (.ingestLocal reads request) = some (s', r)) :
      (∀ report, r ≠ .collected report) ∧ Sweep s₁ nowMs all s' := by
    simp only [uploadStore, StoreState.act] at hact
    cases hingest : ingest limits.maxArtifactBytes s.objects reads request with
    | ok done =>
      rw [hingest] at hact
      cases hact
      exact ⟨(fun _ h => by cases h), h.objects done.2⟩
    | error error =>
      rw [hingest] at hact
      cases hact
      exact ⟨(fun _ h => by cases h), h⟩
  cases h with
  | @examining done rest report hheld hall hprogress =>
    cases a with
    | examineCandidate =>
      simp only [uploadStore, StoreState.act, hheld, Option.some.injEq] at hact
      cases rest with
      | nil =>
        cases hact
        rw [List.append_nil] at hall
        subst hall
        exact .inl ⟨report, rfl, rfl, hprogress.readers, hprogress.references, hprogress.sessions, hprogress.counted,
          hprogress.removed, hprogress.present⟩
      | cons candidate rest =>
        obtain ⟨rfl, hsweep⟩ := Sweep.examine hall hprogress hact
        exact .inr ⟨(fun _ h => by cases h), hsweep⟩
    | ingestLocal reads request => exact .inr (ingested hact)
    | crash => exact absurd rfl hrest.1
    | giveUp error => exact absurd rfl (hrest.2 error)
    | _ => simp [uploadStore, StoreState.act, hheld, GuardHolder.isCollecting] at hact
  | @deleting done rest digest size report hheld hall hcollectible hprogress =>
    cases a with
    | deleteRows =>
      simp only [uploadStore, StoreState.act, hheld, Option.some.injEq] at hact
      cases hact
      exact .inr ⟨(fun _ h => by cases h), Sweep.delete hkeys hbound hall hcollectible hprogress _⟩
    | ingestLocal reads request => exact .inr (ingested hact)
    | crash => exact absurd rfl hrest.1
    | giveUp error => exact absurd rfl (hrest.2 error)
    | _ => simp [uploadStore, StoreState.act, hheld, GuardHolder.isCollecting] at hact

def Finishes (limits : StoreLimits) (log : History StoreAction StoreReply) (s s' : StoreState)
    (report : GarbageCollectionReport) : Prop :=
  ∃ log' s'' a, Later (uploadStore limits) uninterrupted log s log' s'' ∧ uninterrupted log' s'' a ∧
    (uploadStore limits).act s'' a = some (s', .collected report)

theorem Sweep.finishes (h : Sweep s₁ nowMs all s) (hkeys : (all.map Prod.fst).Nodup) (hbound : all.length < 2 ^ 63)
    (hends : Finishes limits log s s' report) : Progress s₁ nowMs all [] report s' := by
  obtain ⟨log', s'', a, hlater, hguard, hact⟩ := hends
  have hsweep : Sweep s₁ nowMs all s'' ∨ s''.holder = .free := by
    clear hguard hact
    induction hlater with
    | refl => exact .inl h
    | step hlater hguard hact ih =>
      rcases ih with hsweep | hfree
      · rcases hsweep.step hkeys hbound hguard hact with ⟨_, -, hfree, -⟩ | ⟨-, hsweep⟩
        · exact .inr hfree
        · exact .inl hsweep
      · have hheld := hguard.1
        rw [hfree] at hheld
        cases hheld
  rcases hsweep with hsweep | hfree
  · rcases hsweep.step hkeys hbound hguard hact with ⟨report', hreport, -, hprogress⟩ | ⟨hnone, -⟩
    · cases hreport
      exact hprogress
    · exact absurd rfl (hnone report)
  · have hheld := hguard.1
    rw [hfree] at hheld
    cases hheld

theorem Finishes.head (hguard : uninterrupted log s a) (hact : (uploadStore limits).act s a = some (s₁, r))
    (h : Finishes limits (log ++ [(a, r)]) s₁ s' report) : Finishes limits log s s' report := by
  obtain ⟨log', s'', b, hlater, hend⟩ := h
  exact ⟨log', s'', b, .head hguard hact hlater, hend⟩

theorem finishes (hheld : s.holder = .collecting nowMs rest report) :
    ∃ s' report', Finishes limits log s s' report' := by
  have hguard : ∀ (log : History StoreAction StoreReply) (s : StoreState) rest report,
      s.holder = .collecting nowMs rest report → uninterrupted log s .examineCandidate := by
    intro log s rest report hheld
    exact ⟨by rw [hheld]; rfl, (fun h => by cases h), fun _ h => by cases h⟩
  have hexamine : ∀ (s : StoreState) rest report, s.holder = .collecting nowMs rest report →
      (uploadStore limits).act s .examineCandidate = some (s.examine nowMs report rest) := by
    intro s rest report hheld
    simp only [uploadStore, StoreState.act, hheld]
  induction rest generalizing s report log with
  | nil => exact ⟨_, report, log, s, _, .refl, hguard _ _ _ _ hheld, hexamine _ _ _ hheld⟩
  | cons candidate rest ih =>
    have hact := hexamine _ _ _ hheld
    unfold StoreState.examine at hact
    dsimp only at hact
    by_cases hreaders : s.readers candidate.1 ≠ 0
    · rw [if_pos hreaders] at hact
      obtain ⟨s', report', hends⟩ := ih (s := { s with
        ledger := s.ledger.deletePending candidate.1
        holder := .collecting nowMs rest
          { report with skippedActiveReaders := saturatingAdd report.skippedActiveReaders 1 } }) rfl
      exact ⟨s', report', hends.head (hguard _ _ _ _ hheld) hact⟩
    · rw [if_neg hreaders] at hact
      by_cases hreach : s.ledger.artifactIsReachable candidate.1 nowMs = true
      · rw [if_pos hreach] at hact
        obtain ⟨s', report', hends⟩ := ih (s := { s with
          ledger := s.ledger.deletePending candidate.1, holder := .collecting nowMs rest report }) rfl
        exact ⟨s', report', hends.head (hguard _ _ _ _ hheld) hact⟩
      · rw [if_neg hreach] at hact
        obtain ⟨s', report', hends⟩ := ih (s := { s with
          ledger := s.ledger.deleteArtifact candidate.1
          objects := Function.update s.objects candidate.1 none
          holder := .collecting nowMs rest { report with
            collectedObjects := saturatingAdd report.collectedObjects 1
            reclaimedBytes := saturatingAdd report.reclaimedBytes candidate.2 } }) rfl
        exact ⟨s', report', .head (hguard _ _ _ _ hheld) hact
          (hends.head (a := .deleteRows) ⟨rfl, (fun h => by cases h), fun _ h => by cases h⟩ rfl)⟩

/-- A collection that begins comes to an end, and has then collected as many objects as it may exactly where no examined
object is kept, or all that nothing keeps are examined. -/
theorem collection_collects_iff {nowMs limit : Nat} {selected : List ObjectRow} {s s₁ : StoreState}
    (hcall : (uploadStore limits).act s (.collect nowMs limit selected) = some (s₁, .working)) :
    (∃ s' report, Finishes limits [] s₁ s' report) ∧ ∀ s' report, Finishes limits [] s₁ s' report →
      (Collects s nowMs limit s' report ↔ Unobstructed s nowMs limit selected) := by
  simp only [uploadStore, StoreState.act] at hcall
  by_cases hfree : s.holder = .free
  · rw [if_pos hfree, StoreState.collect] at hcall
    by_cases hlimit : limit = 0
    · simp [hlimit] at hcall
    · rw [if_neg hlimit] at hcall
      cases hstage : (SqliteUploadStore.stageGarbageCandidates nowMs limit selected).run s.ledger with
      | mk ledger result =>
        rw [hstage] at hcall
        cases result with
        | error error => simp at hcall
        | ok answer =>
          by_cases hselected : s.ledger.isSelection nowMs limit selected = true
          · simp only [hselected, if_true, Option.some.injEq, Prod.mk.injEq, and_true] at hcall
            subst hcall
            refine ⟨finishes rfl, fun s' report hends => ?_⟩
            have hexamined : s.examined nowMs limit selected = (ledger.pendingGarbage limit).map Prod.fst := by
              rw [StoreState.examined, hstage]
            obtain ⟨hobjects, hbound, -⟩ := staged_pending hstage
            have hshort := pendingGarbage_length_le ledger limit
            have hprogress := Sweep.finishes
              (.examining rfl (List.nil_append (ledger.pendingGarbage limit)).symm
                ⟨rfl, rfl, rfl, rfl, rfl, fun _ => mem_pendingGarbage⟩)
              (pendingGarbage_nodup ledger limit) (by omega) hends
            obtain ⟨hreferences, hsessions⟩ := staged_keeps hstage
            have hcollectible : ∀ holder, ({ s with ledger, holder } : StoreState).collectible nowMs =
              s.collectible nowMs := by
              intro holder
              funext digest
              simp only [StoreState.collectible, artifactIsReachable, hreferences, hsessions]
            have hcounted := hprogress.counted
            have hremoved := hprogress.removed
            have hcount : report.collectedObjects =
                ((s.examined nowMs limit selected).filter (s.collectible nowMs)).length := by
              rw [hcounted, hexamined, List.filter_map, List.length_map, hcollectible]
              rfl
            rw [← examined_count_iff hstage hselected, ← hcount]
            constructor
            · exact Collects.counted
            · intro hexact
              refine ⟨hexact, ?_⟩
              rw [hremoved, hobjects]
          · simp [hselected] at hcall
  · simp [hfree] at hcall

end sweep

def heldDigest : Sha256Digest := ⟨[3]⟩

def heldSteps : List StoreAction :=
  [.ingestLocal [[1, 2]] ⟨none, none⟩, .recordLocal "worker" sampleArtifact 10,
    .ingestLocal [[3]] ⟨none, none⟩, .recordLocal "worker" ⟨heldDigest, 1⟩ 10, .openReader "worker" heldDigest,
    .revoke "worker" (localReferenceKey sampleArtifact.digest) 20, .revoke "worker" (localReferenceKey heldDigest) 20]

def starving (s : StoreState) : Bool :=
  let staged := (SqliteUploadStore.stageGarbageCandidates 30 1 [⟨heldDigest, 1⟩]).run s.ledger
  s.holder = .free ∧ s.readers heldDigest ≠ 0 ∧ staged.2 = .ok () ∧ s.ledger.isSelection 30 1 [⟨heldDigest, 1⟩] = true ∧
    staged.1.pendingGarbage 1 = [(heldDigest, 1)] ∧ staged.1.deletePending heldDigest = s.ledger ∧
    (s.collectibleObjects 30).length = 1

/-- The call leaves the store as it was, and so does every call that selects the same object. -/
theorem held_object_starves_collection : ∃ log s s₁ report, Run sampleStore anything log s ∧
    sampleStore.act s (.collect 30 1 [⟨heldDigest, 1⟩]) = some (s₁, .working) ∧
    @Finishes transparentSha256 sampleLimits [] s₁ s report ∧ ¬ Collects s 30 1 s report := by
  obtain ⟨log, s, hrun, -, hcheck⟩ := play_reaches sampleStore anything (fun _ _ _ => true) heldSteps
    (fun _ s => starving s) (fun _ _ _ _ => trivial) (allowedFrom_true _ _ _) (by decide +kernel)
  simp only [starving, decide_eq_true_eq] at hcheck
  obtain ⟨hfree, hreaders, hok, hselection, hpending, hdeleted, hcount⟩ := hcheck
  cases hstage : (SqliteUploadStore.stageGarbageCandidates 30 1 [⟨heldDigest, 1⟩]).run s.ledger with
  | mk ledger result =>
    rw [hstage] at hok hpending hdeleted
    dsimp only at hok hpending hdeleted
    subst hok
    have hend : { s with ledger := ledger.deletePending heldDigest, holder := .free } = s := by
      rw [hdeleted, ← hfree]
    let s₁ : StoreState := { s with ledger, holder := .collecting 30 [(heldDigest, 1)] ⟨0, 0, 0⟩ }
    let s₂ : StoreState := { s with ledger := ledger.deletePending heldDigest, holder := .collecting 30 [] ⟨0, 0, 1⟩ }
    have hbegun : sampleStore.act s (.collect 30 1 [⟨heldDigest, 1⟩]) = some (s₁, .working) := by
      change (if s.holder = .free then s.collect 30 1 [⟨heldDigest, 1⟩] else none) = _
      rw [if_pos hfree, StoreState.collect, if_neg (by decide), hstage]
      simp only [hselection, if_true, hpending, s₁]
    have hspared : sampleStore.act s₁ .examineCandidate = some (s₂, .working) := by
      change some (StoreState.examine s₁ 30 ⟨0, 0, 0⟩ [(heldDigest, 1)]) = _
      unfold StoreState.examine
      dsimp only
      rw [if_pos (show s₁.readers heldDigest ≠ 0 from hreaders)]
      rfl
    have hended : sampleStore.act s₂ .examineCandidate = some (s, .collected ⟨0, 0, 1⟩) := by
      conv =>
        rhs
        rw [← hend]
      rfl
    have hguard : ∀ log, uninterrupted log s₁ .examineCandidate ∧ uninterrupted log s₂ .examineCandidate :=
      fun _ => ⟨⟨rfl, nofun, nofun⟩, rfl, nofun, nofun⟩
    refine ⟨log, s, s₁, ⟨0, 0, 1⟩, hrun, hbegun, ?_, ?_⟩
    · exact ⟨_, s₂, _, .step .refl (hguard _).1 hspared, (hguard _).2, hended⟩
    · intro hcollects
      have hcounted := hcollects.counted
      rw [hcount] at hcounted
      exact absurd hcounted (by decide)

def roomy (s : StoreState) : Bool :=
  let selected : List ObjectRow := [⟨sampleArtifact.digest, 2⟩, ⟨heldDigest, 1⟩]
  s.holder = .free ∧ ((SqliteUploadStore.stageGarbageCandidates 30 2 selected).run s.ledger).2 = .ok () ∧
    s.ledger.isSelection 30 2 selected = true ∧
    (s.collectibleObjects 30).all (fun object => object.digest ∈ s.examined 30 2 selected) = true

theorem collection_collects_sample : ∃ s s₁ selected, selected ≠ [] ∧
    sampleStore.act s (.collect 30 2 selected) = some (s₁, .working) ∧
    ∀ s' report, @Finishes transparentSha256 sampleLimits [] s₁ s' report → Collects s 30 2 s' report := by
  obtain ⟨log, s, hrun, -, hcheck⟩ := play_reaches sampleStore anything (fun _ _ _ => true) heldSteps
    (fun _ s => roomy s) (fun _ _ _ _ => trivial) (allowedFrom_true _ _ _) (by decide +kernel)
  simp only [roomy, decide_eq_true_eq] at hcheck
  obtain ⟨hfree, hok, hselection, hall⟩ := hcheck
  cases hstage : (SqliteUploadStore.stageGarbageCandidates 30 2 [⟨sampleArtifact.digest, 2⟩, ⟨heldDigest, 1⟩]).run
    s.ledger with
  | mk ledger result =>
    rw [hstage] at hok
    dsimp only at hok
    subst hok
    have hcall : sampleStore.act s (.collect 30 2 [⟨sampleArtifact.digest, 2⟩, ⟨heldDigest, 1⟩]) =
        some ({ s with ledger, holder := .collecting 30 (ledger.pendingGarbage 2) ⟨0, 0, 0⟩ }, .working) := by
      change (if s.holder = .free then s.collect 30 2 [⟨sampleArtifact.digest, 2⟩, ⟨heldDigest, 1⟩] else none) = _
      rw [if_pos hfree, StoreState.collect, if_neg (by decide), hstage]
      simp only [hselection, if_true]
    refine ⟨s, _, _, List.cons_ne_nil _ _, hcall, fun s' report hends => ?_⟩
    refine ((@collection_collects_iff transparentSha256 sampleLimits _ _ _ _ _ hcall).2 s' report hends).mpr ?_
    exact .inr fun object hobject => of_decide_eq_true (List.all_eq_true.mp hall object hobject)

end AlloyPort.Artifacts
