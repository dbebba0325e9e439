import Mathlib.Data.Nat.Log
import AlloyPort.Library.Machine
import AlloyPort.Interaction.Replay

/-! The hub publishes what the store has committed. Between its commit and its publication an append can be overtaken
by others, and a subscription attaches its receiver before it reads the high-water mark. -/

namespace AlloyPort.Interaction

open Events SqliteInteractionStore

structure HubConfig where
  liveCapacity : Nat
  replayBatchSize : Nat
  capacity_pos : 0 < liveCapacity
  batch_pos : 0 < replayBatchSize

def HubConfig.channelCapacity (config : HubConfig) : Nat := 2 ^ Nat.clog 2 config.liveCapacity

inductive SubscriptionError where
  | store (error : InteractionError)
  | slowConsumer (lastSequence skippedNotifications : Nat)
  | sequenceGap (expectedSequence observedSequence : Nat)
  deriving DecidableEq

/-- A subscription with what it has returned so far; `none` as long as its high-water mark is not read. -/
structure InteractionSubscription where
  runId : String
  afterSequence : Nat
  lastSequence : Nat
  replayThrough : Option Nat
  position : Nat
  replay : List EventEnvelope
  yielded : List EventEnvelope
  ended : Option SubscriptionError

namespace InteractionSubscription

def terminate (subscription : InteractionSubscription) (error : SubscriptionError) : InteractionSubscription :=
  { subscription with ended := some error }

def accept (subscription : InteractionSubscription) (envelope : EventEnvelope) : InteractionSubscription :=
  let expectedSequence := saturatingAdd subscription.lastSequence 1
  if envelope.sequence ≠ expectedSequence then
    subscription.terminate (.sequenceGap expectedSequence envelope.sequence)
  else { subscription with
    lastSequence := envelope.sequence
    yielded := subscription.yielded ++ [envelope] }

def refill (subscription : InteractionSubscription) (config : HubConfig) (database : InteractionDatabase)
    (replayThrough : Nat) : InteractionSubscription :=
  match SqliteInteractionStore.eventsAfter database subscription.runId subscription.lastSequence
    config.replayBatchSize with
  | .error error => subscription.terminate (.store error)
  | .ok events => match events.takeWhile fun event => event.sequence ≤ replayThrough with
    | [] => subscription.terminate (.sequenceGap (saturatingAdd subscription.lastSequence 1) replayThrough)
    | replay => { subscription with replay }

def receive (subscription : InteractionSubscription) (config : HubConfig) (channel : List EventEnvelope) :
    InteractionSubscription :=
  let waiting := channel.length - subscription.position
  if config.channelCapacity < waiting then
    subscription.terminate (.slowConsumer subscription.lastSequence (waiting - config.channelCapacity))
  else match channel[subscription.position]? with
    | none => subscription
    | some envelope =>
      let subscription := { subscription with position := subscription.position + 1 }
      if envelope.runId ≠ subscription.runId ∨ envelope.sequence ≤ subscription.lastSequence then subscription
      else subscription.accept envelope

/-- One pass of the loop in `recv`. -/
def recv (subscription : InteractionSubscription) (config : HubConfig) (database : InteractionDatabase)
    (channel : List EventEnvelope) : InteractionSubscription :=
  match subscription.ended, subscription.replayThrough with
  | none, some replayThrough => match subscription.replay with
    | envelope :: rest => { subscription with replay := rest }.accept envelope
    | [] =>
      if subscription.lastSequence < replayThrough then subscription.refill config database replayThrough
      else subscription.receive config channel
  | _, _ => subscription

/-- The second half of `subscribe`. -/
def snapshot (subscription : InteractionSubscription) (database : InteractionDatabase) : InteractionSubscription :=
  let replayThrough := (SqliteInteractionStore.latestSequence database subscription.runId).getD 0
  if replayThrough < subscription.afterSequence then
    subscription.terminate (.store (.invalidCursor subscription.runId subscription.afterSequence replayThrough))
  else { subscription with replayThrough := some replayThrough }

end InteractionSubscription

/-- `publishing` are the outcomes of the appends that have committed and not yet published. -/
structure HubState where
  database : InteractionDatabase
  live : String → Option (List EventEnvelope)
  publishing : List AppendOutcome
  subscriptions : List InteractionSubscription

def HubState.initial : HubState := ⟨.empty, fun _ => none, [], []⟩

namespace HubState

def channel (s : HubState) (runId : String) : List EventEnvelope := (s.live runId).getD []

def publish (s : HubState) : AppendOutcome → HubState
  | .duplicate _ => s
  | .inserted envelope => match s.live envelope.runId with
    | none => s
    | some channel => { s with live := Function.update s.live envelope.runId (some (channel ++ [envelope])) }

/-- The first half of `subscribe`. -/
def attach (s : HubState) (runId : String) (afterSequence : Nat) : HubState :=
  { s with
    live := Function.update s.live runId (some (s.channel runId))
    subscriptions := s.subscriptions ++
      [⟨runId, afterSequence, afterSequence, none, (s.channel runId).length, [], [], none⟩] }

def replaceSubscription (s : HubState) (index : Nat) (f : InteractionSubscription → InteractionSubscription) :
    Option HubState :=
  match s.subscriptions[index]? with
  | none => none
  | some subscription => some { s with subscriptions := s.subscriptions.set index (f subscription) }

end HubState

/-- Appends commit, fail or publish; subscriptions attach, read the high-water mark and receive. -/
inductive HubAction where
  | commit (call : InteractionCall)
  | fail (call : InteractionCall)
  | publish (index : Nat)
  | attach (runId : String) (afterSequence : Nat)
  | snapshot (index : Nat)
  | recv (index : Nat)
  | recvFailed (index : Nat) (detail : String)

def HubState.act (config : HubConfig) (s : HubState) : HubAction → Option HubState
  | .commit call => match call.execute s.database with
    | (database, .ok result) => some { s with database, publishing := s.publishing ++ [result.outcome] }
    | (database, .error _) => some { s with database }
  | .fail _ => some s
  | .publish index => match s.publishing[index]? with
    | none => none
    | some outcome => some ({ s with publishing := s.publishing.eraseIdx index }.publish outcome)
  | .attach runId afterSequence => some (s.attach runId afterSequence)
  | .snapshot index => s.replaceSubscription index fun subscription =>
    if subscription.ended = none ∧ subscription.replayThrough = none then subscription.snapshot s.database
    else subscription
  | .recv index => s.replaceSubscription index fun subscription =>
    subscription.recv config s.database (s.channel subscription.runId)
  | .recvFailed index detail => s.replaceSubscription index fun subscription =>
    if subscription.ended = none then subscription.terminate (.store (.storage detail)) else subscription

def interactionHub (config : HubConfig) : Machine.System HubState HubAction Unit where
  initial := .initial
  act s a := (s.act config a).map fun s' => (s', ())

/-- No append publishes while an earlier event of its run is still to be published. -/
def PublishesInOrder : Machine.Guard HubState HubAction Unit
  | _, s, .publish index => ∀ envelope, s.publishing[index]? = some (.inserted envelope) →
    ∀ other, .inserted other ∈ s.publishing → other.runId = envelope.runId → envelope.sequence ≤ other.sequence
  | _, _, _ => True

/-! When appends publish in the order of their commits, the events of a run are lined up: those no channel has seen,
those in the channel, those to be published. A subscription passes along this line without a gap. -/

open Database Machine

variable {config : HubConfig} {s s' : HubState} {subscription : InteractionSubscription} {runId : String}

def storedEvents (database : InteractionDatabase) (runId : String) : List EventEnvelope :=
  (rowsOf database runId).map EventRow.envelope

def insertedOf (runId : String) : AppendOutcome → Option EventEnvelope
  | .inserted envelope => if envelope.runId = runId then some envelope else none
  | .duplicate _ => none

def pendingOf (s : HubState) (runId : String) : List EventEnvelope := s.publishing.filterMap (insertedOf runId)

/-- What a subscription has returned, and what it has yet to find in its channel. -/
structure Follows (stored channel pending : List EventEnvelope) (subscription : InteractionSubscription) : Prop where
  gapless : ∀ expected observed, subscription.ended ≠ some (.sequenceGap expected observed)
  attached : subscription.position ≤ channel.length
  yielded : subscription.yielded = (stored.take subscription.lastSequence).drop subscription.afterSequence
  after : subscription.afterSequence ≤ subscription.lastSequence
  unread : subscription.replayThrough = none →
    subscription.lastSequence = subscription.afterSequence ∧ subscription.replay = []
  read : ∀ through, subscription.replayThrough = some through → through ≤ stored.length ∧
    subscription.lastSequence ≤ stored.length ∧ subscription.replay <+: stored.drop subscription.lastSequence ∧
    stored.length ≤ max subscription.lastSequence through + (channel.length - subscription.position) + pending.length

structure Lined (s : HubState) : Prop where
  sound : Sound s.database
  line : ∀ runId, ∃ unseen, storedEvents s.database runId = unseen ++ s.channel runId ++ pendingOf s runId
  follows : ∀ subscription ∈ s.subscriptions, s.live subscription.runId ≠ none ∧
    Follows (storedEvents s.database subscription.runId) (s.channel subscription.runId)
      (pendingOf s subscription.runId) subscription

section stored

variable {database : InteractionDatabase} {envelope : EventEnvelope} {index : Nat}

theorem stored_labelled (hs : Sound database) (h : envelope ∈ storedEvents database runId) :
    envelope.runId = runId ∧ envelope.sequence < 2 ^ 63 := by
  obtain ⟨row, hrow, rfl⟩ := List.mem_map.mp h
  obtain ⟨hmem, hid⟩ := List.mem_filter.mp hrow
  obtain ⟨hlt, hsequence, hrun, -⟩ := hs.labelled row hmem
  rw [decide_eq_true_eq] at hid
  exact ⟨hrun.trans hid, hsequence ▸ hlt⟩

theorem stored_sequences (hs : Sound database) : (storedEvents database runId).map EventEnvelope.sequence =
    List.range' 1 (storedEvents database runId).length := by
  have hnumbered := hs.numbered runId
  rw [storedEvents, List.length_map, ← hnumbered, List.map_map]
  apply List.map_congr_left
  intro row hrow
  exact (hs.labelled row (List.mem_filter.mp hrow).1).2.1

theorem stored_sequence (hs : Sound database) (h : (storedEvents database runId)[index]? = some envelope) :
    envelope.sequence = index + 1 := by
  have hnumber : ((storedEvents database runId).map EventEnvelope.sequence)[index]? = some envelope.sequence := by
    rw [List.getElem?_map, h]
    rfl
  have hlt := (List.getElem?_eq_some_iff.mp h).1
  rw [stored_sequences hs, List.getElem?_range' hlt] at hnumber
  have hnumber := Option.some.inj hnumber
  omega

variable {database' : InteractionDatabase}

theorem stored_appended {dedupKey : String} {frame : ProducerEvent} {outcome : AppendOutcome}
    (h : Appended database dedupKey frame outcome database') :
    storedEvents database' runId = storedEvents database runId ++ (insertedOf runId outcome).toList := by
  cases h with
  | known row hrow hrun hkey hstamp => simp [insertedOf]
  | fresh sequence hnext hlt hnew hkey =>
    rw [storedEvents, rowsOf_entered hnew, List.map_append]
    have hrun : (envelopeAt frame sequence).runId = frame.runId := rfl
    by_cases hid : frame.runId = runId
    · simp only [insertedOf, hrun, if_pos hid]
      rfl
    · simp only [insertedOf, hrun, if_neg hid]
      rfl

theorem stored_served {call : InteractionCall} {result : OutputAppend} (h : Served database call result database') :
    storedEvents database' runId = storedEvents database runId ++ (insertedOf runId result.outcome).toList := by
  cases h with
  | event h => exact stored_appended h
  | repeated chunk row hchunk hrow hstamp => simp [insertedOf]
  | @chunk dedupKey frame outcome database₁ attemptId stream byteOffset payload hnone hend h =>
    have happended : storedEvents database₁ runId = _ := stored_appended h
    exact happended

theorem storedEvents_eq (hs : Sound database) : events database runId = storedEvents database runId := by
  rw [events, hs.eventsOf_eq]
  rfl

theorem latestSequence_eq (hs : Sound database) :
    (latestSequence database runId).getD 0 = (storedEvents database runId).length := by
  rw [latestSequence, hs.eventsOf_eq, hs.numbered, storedEvents, List.length_map]
  by_cases hn : (rowsOf database runId).length = 0
  · rw [hn]
    rfl
  · have hmax : (List.range' 1 (rowsOf database runId).length).max? = some (rowsOf database runId).length := by
      rw [List.max?_eq_some_iff]
      refine ⟨List.mem_range'_1.mpr (by omega), fun k hk => ?_⟩
      have hlt := (List.mem_range'_1.mp hk).2
      omega
    rw [hmax]
    rfl

theorem filter_numbered {α : Type} {f : α → Nat} {l : List α} {start last : Nat}
    (h : l.map f = List.range' (start + 1) l.length) : l.filter (fun a => last < f a) = l.drop (last - start) := by
  induction l generalizing start with
  | nil => simp
  | cons a l ih =>
    rw [List.map_cons, List.length_cons, List.range'_succ, List.cons.injEq] at h
    obtain ⟨hfirst, hrest⟩ := h
    have hrest' := ih hrest
    by_cases hlt : last < f a
    · have hall : last - start = 0 := by omega
      have htail : last - (start + 1) = 0 := by omega
      rw [htail, List.drop_zero] at hrest'
      rw [List.filter_cons_of_pos (by simpa using hlt), hrest', hall, List.drop_zero]
    · have hsucc : last - start = last - (start + 1) + 1 := by omega
      rw [List.filter_cons_of_neg (by simpa using hlt), hrest', hsucc, List.drop_succ_cons]

theorem eventsAfter_eq (hs : Sound database) {last limit : Nat} {events : List EventEnvelope}
    (h : eventsAfter database runId last limit = .ok events) :
    events = ((storedEvents database runId).drop last).take limit := by
  have hrows : (rowsOf database runId).filter (fun row => last < row.sequence) = (rowsOf database runId).drop last :=
    filter_numbered (hs.numbered runId)
  unfold eventsAfter at h
  by_cases hzero : limit = 0
  · rw [if_pos hzero] at h
    cases h
    rw [hzero, List.take_zero]
  · rw [if_neg hzero, hs.eventsOf_eq] at h
    by_cases hlast : last < 2 ^ 63
    · have hread : toI64 last = .ok last := if_pos hlast
      by_cases hlimit : limit < 2 ^ 63
      · simp only [hread, if_pos hlimit] at h
        have hevents := (Except.ok.inj h).symm
        rw [hevents, hrows, storedEvents, ← List.map_drop, ← List.map_take]
      · simp only [hread, if_neg hlimit] at h
        cases h
    · have hread : toI64 last = .error (.valueOutOfRange last) := if_neg hlast
      simp only [hread] at h
      cases h

end stored

section queue

variable {envelope : EventEnvelope} {index : Nat}
variable {outcome : AppendOutcome}

theorem eraseIdx_split (h : s.publishing[index]? = some outcome) :
    ∃ before after, s.publishing = before ++ outcome :: after ∧ s.publishing.eraseIdx index = before ++ after := by
  obtain ⟨hlt, hget⟩ := List.getElem?_eq_some_iff.mp h
  refine ⟨s.publishing.take index, s.publishing.drop (index + 1), ?_, List.eraseIdx_eq_take_drop_succ _ _⟩
  rw [← hget, List.getElem_cons_drop, List.take_append_drop]

theorem insertedOf_some (h : insertedOf runId outcome = some envelope) :
    outcome = .inserted envelope ∧ envelope.runId = runId := by
  cases outcome with
  | duplicate envelope' => cases h
  | inserted envelope' =>
    simp only [insertedOf] at h
    by_cases hid : envelope'.runId = runId
    · rw [if_pos hid] at h
      cases h
      exact ⟨rfl, hid⟩
    · rw [if_neg hid] at h
      cases h

theorem Lined.pending_ordered (h : Lined s) (runId : String) :
    (pendingOf s runId).Pairwise fun u v => u.sequence < v.sequence := by
  obtain ⟨unseen, hline⟩ := h.line runId
  have hlt : ((storedEvents s.database runId).map EventEnvelope.sequence).Pairwise (· < ·) := by
    rw [stored_sequences h.sound]
    exact List.pairwise_lt_range' 1
  have hstored := List.pairwise_map.mp hlt
  rw [hline] at hstored
  exact (List.pairwise_append.mp hstored).2.1

theorem Lined.published_first (h : Lined s) (hget : s.publishing[index]? = some (.inserted envelope))
    (hleast : ∀ other, .inserted other ∈ s.publishing → other.runId = envelope.runId →
      envelope.sequence ≤ other.sequence) :
    pendingOf s envelope.runId = envelope :: (s.publishing.eraseIdx index).filterMap (insertedOf envelope.runId) := by
  obtain ⟨before, after, hsplit, herase⟩ := eraseIdx_split hget
  have hself : insertedOf envelope.runId (.inserted envelope) = some envelope := if_pos rfl
  have hpending : pendingOf s envelope.runId = before.filterMap (insertedOf envelope.runId) ++
      envelope :: after.filterMap (insertedOf envelope.runId) := by
    rw [pendingOf, hsplit, List.filterMap_append, List.filterMap_cons_some hself]
  have hnone : before.filterMap (insertedOf envelope.runId) = [] := by
    apply List.eq_nil_iff_forall_not_mem.mpr
    intro other hother
    have hordered := h.pending_ordered envelope.runId
    rw [hpending] at hordered
    have hlt := (List.pairwise_append.mp hordered).2.2 other hother envelope List.mem_cons_self
    obtain ⟨outcome, hmem, hinserted⟩ := List.mem_filterMap.mp hother
    obtain ⟨rfl, hrun⟩ := insertedOf_some hinserted
    have hle := hleast other (by rw [hsplit]; exact List.mem_append_left _ hmem) hrun
    omega
  rw [hpending, hnone, herase, List.filterMap_append, hnone]
  rfl

theorem pendingOf_other (hget : s.publishing[index]? = some outcome) (hother : insertedOf runId outcome = none) :
    (s.publishing.eraseIdx index).filterMap (insertedOf runId) = pendingOf s runId := by
  obtain ⟨before, after, hsplit, herase⟩ := eraseIdx_split hget
  rw [herase, pendingOf, hsplit, List.filterMap_append, List.filterMap_append, List.filterMap_cons_none hother]

end queue

open InteractionSubscription

section follows

variable {stored channel pending : List EventEnvelope} {envelope : EventEnvelope} {database : InteractionDatabase}
  {through : Nat}

theorem drop_take_self {α : Type} (l : List α) (n : Nat) : (l.take n).drop n = [] := by
  rw [List.drop_eq_nil_iff, List.length_take]
  omega

theorem Follows.committed (h : Follows stored channel pending subscription) (news : List EventEnvelope) :
    Follows (stored ++ news) channel (pending ++ news) subscription := by
  refine ⟨h.gapless, h.attached, ?_, h.after, h.unread, fun through hthrough => ?_⟩
  · cases hread : subscription.replayThrough with
    | none =>
      have hyielded := h.yielded
      rw [(h.unread hread).1, drop_take_self] at hyielded ⊢
      exact hyielded
    | some through =>
      obtain ⟨-, hlast, -, -⟩ := h.read through hread
      rw [List.take_append_of_le_length hlast]
      exact h.yielded
  · obtain ⟨hle, hlast, hreplay, hahead⟩ := h.read through hthrough
    simp only [List.length_append]
    refine ⟨by omega, by omega, ?_, by omega⟩
    rw [List.drop_append_of_le_length hlast]
    exact hreplay.trans (List.prefix_append _ _)

theorem Follows.published (h : Follows stored channel (envelope :: pending) subscription) :
    Follows stored (channel ++ [envelope]) pending subscription := by
  have hattached := h.attached
  refine ⟨h.gapless, ?_, h.yielded, h.after, h.unread, fun through hthrough => ?_⟩
  · rw [List.length_append]
    omega
  · obtain ⟨hle, hlast, hreplay, hahead⟩ := h.read through hthrough
    simp only [List.length_append, List.length_cons, List.length_nil] at hahead ⊢
    exact ⟨hle, hlast, hreplay, by omega⟩

theorem Follows.terminated (h : Follows stored channel pending subscription) {error : SubscriptionError}
    (herror : ∀ expected observed, error ≠ .sequenceGap expected observed) :
    Follows stored channel pending (subscription.terminate error) := by
  refine ⟨fun expected observed hended => ?_, h.attached, h.yielded, h.after, h.unread, h.read⟩
  exact herror expected observed (Option.some.inj hended)

theorem Follows.accepted {position : Nat} {replay : List EventEnvelope}
    (h : Follows stored channel pending subscription) (hthrough : subscription.replayThrough = some through)
    (hnext : stored[subscription.lastSequence]? = some envelope)
    (hsequence : envelope.sequence = subscription.lastSequence + 1) (hlt : envelope.sequence < 2 ^ 63)
    (hposition : position ≤ channel.length) (hreplay : replay <+: stored.drop (subscription.lastSequence + 1))
    (hahead : stored.length ≤ max (subscription.lastSequence + 1) through + (channel.length - position) +
      pending.length) :
    Follows stored channel pending ({ subscription with replay, position }.accept envelope) := by
  have hexpected : saturatingAdd subscription.lastSequence 1 = subscription.lastSequence + 1 := by
    unfold saturatingAdd
    omega
  have hin := (List.getElem?_eq_some_iff.mp hnext).1
  have hafter := h.after
  have hsame : ¬ envelope.sequence ≠ saturatingAdd subscription.lastSequence 1 := by
    rw [hexpected]
    exact not_not.mpr hsequence
  simp only [accept, if_neg hsame]
  refine ⟨h.gapless, hposition, ?_, ?_, fun hnone => ?_, fun through' hthrough' => ?_⟩
  · rw [hsequence, List.take_add_one, hnext, h.yielded, List.drop_append_of_le_length]
    · rfl
    · show subscription.afterSequence ≤ _
      rw [List.length_take]
      omega
  · rw [hsequence]
    exact Nat.le_succ_of_le hafter
  · rw [show subscription.replayThrough = none from hnone] at hthrough
    cases hthrough
  · rw [show subscription.replayThrough = some through' from hthrough'] at hthrough
    cases hthrough
    obtain ⟨hle, -, -, -⟩ := h.read _ hthrough'
    rw [hsequence]
    exact ⟨hle, hin, hreplay, hahead⟩

theorem Follows.snapshot (hs : Sound database)
    (h : Follows (storedEvents database subscription.runId) channel pending subscription)
    (hunread : subscription.replayThrough = none) :
    Follows (storedEvents database subscription.runId) channel pending (subscription.snapshot database) := by
  unfold InteractionSubscription.snapshot
  simp only [latestSequence_eq hs]
  by_cases hbeyond : (storedEvents database subscription.runId).length < subscription.afterSequence
  · rw [if_pos hbeyond]
    exact h.terminated nofun
  · rw [if_neg hbeyond]
    refine ⟨h.gapless, h.attached, h.yielded, h.after, nofun, fun through hthrough => ?_⟩
    obtain rfl : (storedEvents database subscription.runId).length = through := Option.some.inj hthrough
    have hlast : subscription.lastSequence ≤ (storedEvents database subscription.runId).length := by
      rw [(h.unread hunread).1]
      omega
    refine ⟨le_rfl, hlast, ?_, ?_⟩
    · rw [show subscription.replay = [] from (h.unread hunread).2]
      exact List.nil_prefix
    · show _ ≤ max subscription.lastSequence (storedEvents database subscription.runId).length + _ + _
      omega

theorem Follows.refilled (hs : Sound database)
    (h : Follows (storedEvents database subscription.runId) channel pending subscription)
    (hthrough : subscription.replayThrough = some through) (hbehind : subscription.lastSequence < through) :
    Follows (storedEvents database subscription.runId) channel pending
      (subscription.refill config database through) := by
  obtain ⟨hle, hlast, -, hahead⟩ := h.read through hthrough
  unfold refill
  cases hevents : eventsAfter database subscription.runId subscription.lastSequence
      config.replayBatchSize with
  | error error => exact h.terminated nofun
  | ok events =>
    have hread := eventsAfter_eq hs hevents
    have hprefix : events.takeWhile (fun event => event.sequence ≤ through) <+:
        (storedEvents database subscription.runId).drop subscription.lastSequence := by
      rw [hread]
      exact (List.takeWhile_prefix _).trans (List.take_prefix _ _)
    simp only []
    cases hreplay : events.takeWhile fun event => event.sequence ≤ through with
    | nil =>
      -- The first event of the batch is the next one, and it is not behind the mark.
      exfalso
      have hlt : subscription.lastSequence < (storedEvents database subscription.runId).length := by omega
      have hcons := List.drop_eq_getElem_cons hlt
      have hbatch : config.replayBatchSize = config.replayBatchSize - 1 + 1 := by
        have hpos := config.batch_pos
        omega
      rw [hread, hcons, hbatch, List.take_succ_cons] at hreplay
      have hsequence := stored_sequence hs (List.getElem?_eq_getElem hlt)
      rw [List.takeWhile_cons_of_pos] at hreplay
      · cases hreplay
      · rw [hsequence]
        exact decide_eq_true (by omega)
    | cons first rest =>
      rw [hreplay] at hprefix
      refine ⟨h.gapless, h.attached, h.yielded, h.after, fun hnone => ?_, fun through' hthrough' => ?_⟩
      · rw [show subscription.replayThrough = none from hnone] at hthrough
        cases hthrough
      · obtain ⟨hle', hlast', -, hahead'⟩ := h.read through' hthrough'
        exact ⟨hle', hlast', hprefix, hahead'⟩

variable {unseen : List EventEnvelope}

theorem Follows.received (hs : Sound database)
    (h : Follows (storedEvents database subscription.runId) channel pending subscription)
    (hline : storedEvents database subscription.runId = unseen ++ channel ++ pending)
    (hthrough : subscription.replayThrough = some through) (hpast : through ≤ subscription.lastSequence)
    (hempty : subscription.replay = []) :
    Follows (storedEvents database subscription.runId) channel pending (subscription.receive config channel) := by
  obtain ⟨hle, hlast, hreplay, hahead⟩ := h.read through hthrough
  have hlength := congrArg List.length hline
  simp only [List.length_append] at hlength
  unfold receive
  simp only []
  by_cases hlags : config.channelCapacity < channel.length - subscription.position
  · rw [if_pos hlags]
    exact h.terminated nofun
  rw [if_neg hlags]
  cases hget : channel[subscription.position]? with
  | none => exact h
  | some envelope =>
    have hlt := (List.getElem?_eq_some_iff.mp hget).1
    -- The notification is the event that follows those before it in line.
    have hstored : (storedEvents database subscription.runId)[unseen.length + subscription.position]? =
      some envelope := by
      rw [hline, List.append_assoc, List.getElem?_append_right (by omega), Nat.add_sub_cancel_left,
        List.getElem?_append_left hlt, hget]
    have hsequence := stored_sequence hs hstored
    obtain ⟨hrun, hsmall⟩ := stored_labelled hs (List.mem_of_getElem? hstored)
    simp only []
    by_cases hknown : envelope.runId ≠ subscription.runId ∨ envelope.sequence ≤ subscription.lastSequence
    · rw [if_pos hknown]
      have hseen : envelope.sequence ≤ subscription.lastSequence := by
        rcases hknown with hother | hseen
        · exact absurd hrun hother
        · exact hseen
      refine ⟨h.gapless, hlt, h.yielded, h.after, h.unread, fun through' hthrough' => ?_⟩
      obtain ⟨hle', hlast', hreplay', -⟩ := h.read through' hthrough'
      refine ⟨hle', hlast', hreplay', ?_⟩
      show _ ≤ max subscription.lastSequence through' + (channel.length - (subscription.position + 1)) + _
      omega
    · rw [if_neg hknown]
      have hnew : subscription.lastSequence < envelope.sequence := by
        by_contra hnot
        exact hknown (.inr (by omega))
      have hindex : unseen.length + subscription.position = subscription.lastSequence := by omega
      rw [hindex] at hstored hsequence
      have hprefix : subscription.replay <+:
          (storedEvents database subscription.runId).drop (subscription.lastSequence + 1) := by
        rw [hempty]
        exact List.nil_prefix
      exact h.accepted hthrough hstored hsequence hsmall hlt hprefix (by omega)

theorem Follows.recv (hs : Sound database)
    (h : Follows (storedEvents database subscription.runId) channel pending subscription)
    (hline : storedEvents database subscription.runId = unseen ++ channel ++ pending) :
    Follows (storedEvents database subscription.runId) channel pending (subscription.recv config database channel) := by
  unfold InteractionSubscription.recv
  cases hended : subscription.ended with
  | some error => exact h
  | none =>
    cases hthrough : subscription.replayThrough with
    | none => exact h
    | some through =>
      simp only []
      cases hreplay : subscription.replay with
      | nil =>
        simp only []
        by_cases hbehind : subscription.lastSequence < through
        · rw [if_pos hbehind]
          exact h.refilled hs hthrough hbehind
        · rw [if_neg hbehind]
          exact h.received hs hline hthrough (by omega) hreplay
      | cons envelope rest =>
        obtain ⟨hle, hlast, ⟨beyond, hprefix⟩, hahead⟩ := h.read through hthrough
        rw [hreplay, List.cons_append] at hprefix
        have hget : (storedEvents database subscription.runId)[subscription.lastSequence]? = some envelope := by
          rw [← List.head?_drop, ← hprefix]
          rfl
        have hrest : rest <+: (storedEvents database subscription.runId).drop (subscription.lastSequence + 1) := by
          refine ⟨beyond, ?_⟩
          rw [← List.tail_drop, ← hprefix]
          rfl
        have hsequence := stored_sequence hs hget
        have haccepted := h.accepted hthrough hget hsequence
          (stored_labelled hs (List.mem_of_getElem? hget)).2 h.attached hrest (by omega)
        rw [hthrough, hended] at haccepted
        exact haccepted

theorem recv_runId {channel : List EventEnvelope} :
    (subscription.recv config database channel).runId = subscription.runId := by
  unfold recv refill receive
    accept terminate
  split
  · split
    · dsimp only
      split <;> rfl
    · split
      · split
        · rfl
        · split <;> rfl
      · dsimp only
        split
        · rfl
        · split
          · rfl
          · split
            · rfl
            · split <;> rfl
  · rfl

theorem snapshot_runId : (subscription.snapshot database).runId = subscription.runId := by
  unfold snapshot
  dsimp only
  split <;> rfl

end follows

section steps

variable {index : Nat}

theorem Lined.initial : Lined .initial := ⟨.empty, fun _ => ⟨[], rfl⟩, nofun⟩

theorem Lined.replaced (h : Lined s) {f : InteractionSubscription → InteractionSubscription}
    (hs' : s.replaceSubscription index f = some s')
    (hf : ∀ subscription ∈ s.subscriptions, (f subscription).runId = subscription.runId ∧
      (Follows (storedEvents s.database subscription.runId) (s.channel subscription.runId)
          (pendingOf s subscription.runId) subscription →
        Follows (storedEvents s.database subscription.runId) (s.channel subscription.runId)
          (pendingOf s subscription.runId) (f subscription))) : Lined s' := by
  unfold HubState.replaceSubscription at hs'
  cases hget : s.subscriptions[index]? with
  | none =>
    rw [hget] at hs'
    cases hs'
  | some subscription =>
    rw [hget] at hs'
    cases hs'
    refine ⟨h.sound, h.line, fun other hother => ?_⟩
    rcases List.mem_or_eq_of_mem_set hother with hmem | rfl
    · exact h.follows other hmem
    · have hmem := List.mem_of_getElem? hget
      obtain ⟨hrun, hkeeps⟩ := hf subscription hmem
      obtain ⟨hlive, hfollows⟩ := h.follows subscription hmem
      simp only [hrun]
      exact ⟨hlive, hkeeps hfollows⟩

theorem Lined.committed (h : Lined s) {call : InteractionCall} {result : OutputAppend} {database : InteractionDatabase}
    (hserved : Served s.database call result database) :
    Lined { s with database, publishing := s.publishing ++ [result.outcome] } := by
  have hpending : ∀ runId, pendingOf { s with database, publishing := s.publishing ++ [result.outcome] } runId =
      pendingOf s runId ++ (insertedOf runId result.outcome).toList := by
    intro runId
    simp only [pendingOf, List.filterMap_append]
    cases hinserted : insertedOf runId result.outcome with
    | none => rw [List.filterMap_cons_none hinserted]; rfl
    | some envelope => rw [List.filterMap_cons_some hinserted]; rfl
  refine ⟨h.sound.served hserved, fun runId => ?_, fun subscription hmem => ?_⟩
  · obtain ⟨unseen, hline⟩ := h.line runId
    refine ⟨unseen, ?_⟩
    show storedEvents database runId = unseen ++ s.channel runId ++ _
    rw [hpending, stored_served hserved, hline, List.append_assoc _ (pendingOf s runId)]
  · obtain ⟨hlive, hfollows⟩ := h.follows subscription hmem
    refine ⟨hlive, ?_⟩
    show Follows (storedEvents database subscription.runId) (s.channel subscription.runId) _ subscription
    rw [hpending, stored_served hserved]
    exact hfollows.committed _

theorem Lined.published (h : Lined s) {outcome : AppendOutcome} (hget : s.publishing[index]? = some outcome)
    (hleast : ∀ envelope, outcome = .inserted envelope → ∀ other, .inserted other ∈ s.publishing →
      other.runId = envelope.runId → envelope.sequence ≤ other.sequence) :
    Lined ({ s with publishing := s.publishing.eraseIdx index }.publish outcome) := by
  cases outcome with
  | duplicate envelope =>
    have hpending : ∀ runId, (s.publishing.eraseIdx index).filterMap (insertedOf runId) = pendingOf s runId :=
      fun runId => pendingOf_other hget rfl
    refine ⟨h.sound, fun runId => ?_, fun subscription hmem => ?_⟩
    · obtain ⟨unseen, hline⟩ := h.line runId
      rw [← hpending runId] at hline
      exact ⟨unseen, hline⟩
    · have hfollows := h.follows subscription hmem
      rw [← hpending subscription.runId] at hfollows
      exact hfollows
  | inserted envelope =>
    have hfirst := h.published_first hget (hleast envelope rfl)
    have hothers : ∀ runId, runId ≠ envelope.runId →
        (s.publishing.eraseIdx index).filterMap (insertedOf runId) = pendingOf s runId :=
      fun runId hne => pendingOf_other hget (if_neg hne.symm)
    cases hlive : s.live envelope.runId with
    | none =>
      have hempty : s.channel envelope.runId = [] := by rw [HubState.channel, hlive]; rfl
      simp only [HubState.publish, hlive]
      refine ⟨h.sound, fun runId => ?_, fun subscription hmem => ?_⟩
      · by_cases hrun : runId = envelope.runId
        · subst hrun
          obtain ⟨unseen, hline⟩ := h.line envelope.runId
          rw [hfirst, hempty] at hline
          refine ⟨unseen ++ [envelope], ?_⟩
          show _ = unseen ++ [envelope] ++ s.channel envelope.runId ++ _
          rw [hline, hempty, List.append_nil, List.append_nil, List.append_assoc]
          rfl
        · obtain ⟨unseen, hline⟩ := h.line runId
          rw [← hothers runId hrun] at hline
          exact ⟨unseen, hline⟩
      · obtain ⟨hsome, hfollows⟩ := h.follows subscription hmem
        have hrun : subscription.runId ≠ envelope.runId := by
          intro heq
          rw [heq] at hsome
          exact hsome hlive
        rw [← hothers _ hrun] at hfollows
        exact ⟨hsome, hfollows⟩
    | some channel =>
      have hchannel : s.channel envelope.runId = channel := by rw [HubState.channel, hlive]; rfl
      simp only [HubState.publish, hlive]
      refine ⟨h.sound, fun runId => ?_, fun subscription hmem => ?_⟩
      · by_cases hrun : runId = envelope.runId
        · subst hrun
          obtain ⟨unseen, hline⟩ := h.line envelope.runId
          rw [hfirst, hchannel] at hline
          refine ⟨unseen, ?_⟩
          simp only [HubState.channel, Function.update_self, Option.getD_some]
          rw [hline, ← List.append_assoc unseen channel [envelope], List.append_assoc (unseen ++ channel) [envelope]]
          rfl
        · obtain ⟨unseen, hline⟩ := h.line runId
          rw [← hothers runId hrun] at hline
          refine ⟨unseen, ?_⟩
          simp only [HubState.channel, Function.update_of_ne hrun]
          exact hline
      · obtain ⟨hsome, hfollows⟩ := h.follows subscription hmem
        by_cases hrun : subscription.runId = envelope.runId
        · rw [hrun, hfirst, hchannel] at hfollows
          simp only [hrun, HubState.channel, Function.update_self, Option.getD_some]
          exact ⟨nofun, hfollows.published⟩
        · rw [← hothers _ hrun] at hfollows
          simp only [HubState.channel, Function.update_of_ne hrun]
          exact ⟨hsome, hfollows⟩

theorem Lined.attached (h : Lined s) (runId : String) (afterSequence : Nat) : Lined (s.attach runId afterSequence) := by
  have hchannel : ∀ other, (s.attach runId afterSequence).channel other = s.channel other := by
    intro other
    by_cases hother : other = runId
    · subst hother
      simp [HubState.attach, HubState.channel]
    · simp [HubState.attach, HubState.channel, Function.update_of_ne hother]
  have hlive : ∀ other, s.live other ≠ none ∨ other = runId → (s.attach runId afterSequence).live other ≠ none := by
    intro other hor
    by_cases hother : other = runId
    · subst hother
      simp [HubState.attach]
    · rcases hor with hsome | hsame
      · simpa [HubState.attach, Function.update_of_ne hother] using hsome
      · exact absurd hsame hother
  refine ⟨h.sound, fun other => ?_, fun subscription hmem => ?_⟩
  · obtain ⟨unseen, hline⟩ := h.line other
    refine ⟨unseen, ?_⟩
    rw [hchannel]
    exact hline
  · rcases List.mem_append.mp hmem with hmem | hmem
    · obtain ⟨hsome, hfollows⟩ := h.follows subscription hmem
      rw [hchannel]
      exact ⟨hlive _ (.inl hsome), hfollows⟩
    · obtain rfl := List.mem_singleton.mp hmem
      rw [hchannel]
      refine ⟨hlive _ (.inr rfl), ⟨nofun, le_rfl, ?_, le_rfl, fun _ => ⟨rfl, rfl⟩, nofun⟩⟩
      exact (drop_take_self _ _).symm

variable {log : History HubAction Unit}

theorem Lined.step {a : HubAction} (h : Lined s) (hinOrder : PublishesInOrder log s a)
    (hstep : s.act config a = some s') : Lined s' := by
  cases a with
  | commit call =>
    rcases call.execute_cases h.sound with ⟨result, hok, -, hserved⟩ | ⟨error, herror, hsame⟩
    · have hexecute : call.execute s.database = ((call.execute s.database).1, .ok result) := Prod.ext rfl hok
      rw [HubState.act, hexecute] at hstep
      cases hstep
      exact h.committed hserved
    · have hexecute : call.execute s.database = (s.database, .error error) := Prod.ext hsame herror
      rw [HubState.act, hexecute] at hstep
      cases hstep
      exact h
  | fail call =>
    cases hstep
    exact h
  | publish index =>
    cases hget : s.publishing[index]? with
    | none =>
      simp only [HubState.act, hget] at hstep
      cases hstep
    | some outcome =>
      simp only [HubState.act, hget] at hstep
      cases hstep
      refine h.published hget fun envelope heq => ?_
      subst heq
      exact hinOrder envelope hget
  | attach runId afterSequence =>
    cases hstep
    exact h.attached runId afterSequence
  | snapshot index =>
    refine h.replaced hstep fun subscription hmem => ?_
    by_cases hopen : subscription.ended = none ∧ subscription.replayThrough = none
    · rw [if_pos hopen]
      exact ⟨snapshot_runId, fun hfollows => hfollows.snapshot h.sound hopen.2⟩
    · rw [if_neg hopen]
      exact ⟨rfl, id⟩
  | recv index =>
    refine h.replaced hstep fun subscription hmem => ⟨recv_runId, fun hfollows => ?_⟩
    obtain ⟨unseen, hline⟩ := h.line subscription.runId
    exact hfollows.recv h.sound hline
  | recvFailed index detail =>
    refine h.replaced hstep fun subscription hmem => ?_
    by_cases hopen : subscription.ended = none
    · rw [if_pos hopen]
      exact ⟨rfl, fun hfollows => hfollows.terminated nofun⟩
    · rw [if_neg hopen]
      exact ⟨rfl, id⟩

theorem run_lined (h : Run (interactionHub config) PublishesInOrder log s) : Lined s := by
  refine h.invariant (I := fun _ s => Lined s) .initial fun log s a s' r hlined hinOrder hact => ?_
  obtain ⟨next, hstep, heq⟩ := Option.map_eq_some_iff.mp hact
  cases heq
  exact hlined.step hinOrder hstep

end steps

section delivery

variable {envelope : EventEnvelope}

theorem accept_replay : (subscription.accept envelope).replay = subscription.replay := by
  unfold accept terminate
  dsimp only
  split <;> rfl

theorem accept_position : (subscription.accept envelope).position = subscription.position := by
  unfold accept terminate
  dsimp only
  split <;> rfl

theorem waits {database : InteractionDatabase} {channel : List EventEnvelope} {through : Nat}
    (hended : subscription.ended = none) (hthrough : subscription.replayThrough = some through)
    (hsame : subscription.recv config database channel = subscription) :
    through ≤ subscription.lastSequence ∧ channel[subscription.position]? = none := by
  unfold recv at hsame
  simp only [hended, hthrough] at hsame
  cases hreplay : subscription.replay with
  | cons envelope rest =>
    rw [hreplay] at hsame
    have hlength := congrArg (fun subscription => subscription.replay.length) hsame
    simp only [accept_replay, hreplay, List.length_cons] at hlength
    omega
  | nil =>
    rw [hreplay] at hsame
    simp only [] at hsame
    by_cases hbehind : subscription.lastSequence < through
    · rw [if_pos hbehind] at hsame
      unfold refill at hsame
      split at hsame
      · have herror := congrArg ended hsame
        rw [hended] at herror
        cases herror
      · split at hsame
        · have herror := congrArg ended hsame
          rw [hended] at herror
          cases herror
        · rename_i hne
          have hfull := congrArg InteractionSubscription.replay hsame
          rw [hreplay] at hfull
          exact absurd hfull hne
    · rw [if_neg hbehind] at hsame
      refine ⟨by omega, ?_⟩
      unfold receive at hsame
      dsimp only at hsame
      split at hsame
      · have herror := congrArg ended hsame
        rw [hended] at herror
        cases herror
      · split at hsame
        · assumption
        · have hposition := congrArg position hsame
          split at hposition
          · simp at hposition
          · rw [accept_position] at hposition
            simp at hposition

/-- When appends publish in the order of their commits, a subscription returns the stored events behind its cursor
one by one, and all of them once it waits and none is still to be published. -/
theorem subscriptions_follow_store {log : History HubAction Unit}
    (h : Run (interactionHub config) PublishesInOrder log s) : ∀ subscription ∈ s.subscriptions,
    (∀ expected observed, subscription.ended ≠ some (.sequenceGap expected observed)) ∧
    subscription.yielded = ((SqliteInteractionStore.events s.database subscription.runId).take
      subscription.lastSequence).drop subscription.afterSequence ∧
    subscription.yielded.map EventEnvelope.sequence =
      List.range' (subscription.afterSequence + 1) (subscription.lastSequence - subscription.afterSequence) ∧
    (subscription.ended = none → subscription.replayThrough ≠ none → pendingOf s subscription.runId = [] →
      subscription.recv config s.database (s.channel subscription.runId) = subscription →
      subscription.lastSequence = (SqliteInteractionStore.events s.database subscription.runId).length) := by
  intro subscription hmem
  have hlined := run_lined h
  obtain ⟨-, hfollows⟩ := hlined.follows subscription hmem
  have hevents := @storedEvents_eq subscription.runId _ hlined.sound
  refine ⟨hfollows.gapless, ?_, ?_, fun hended hread hpublished hwaits => ?_⟩
  · rw [hevents]
    exact hfollows.yielded
  · rw [hfollows.yielded, List.map_drop, List.map_take, stored_sequences hlined.sound]
    have hbound : subscription.lastSequence ≤ (storedEvents s.database subscription.runId).length ∨
        subscription.lastSequence = subscription.afterSequence := by
      cases hthrough : subscription.replayThrough with
      | none => exact .inr (hfollows.unread hthrough).1
      | some through => exact .inl (hfollows.read through hthrough).2.1
    rcases hbound with hle | heq
    · rw [List.take_range'_of_length_ge hle, List.drop_range']
      congr 1
      omega
    · rw [heq, drop_take_self, Nat.sub_self]
      rfl
  · obtain ⟨through, hthrough⟩ := Option.ne_none_iff_exists'.mp hread
    obtain ⟨hpast, hdrained⟩ := waits hended hthrough hwaits
    obtain ⟨-, hlast, -, hahead⟩ := hfollows.read through hthrough
    have hend := List.getElem?_eq_none_iff.mp hdrained
    rw [hpublished, List.length_nil] at hahead
    rw [hevents]
    omega

end delivery

section samples

theorem sampleCapacity_pos : 0 < 4 := by decide

def sampleConfig : HubConfig := ⟨4, 4, sampleCapacity_pos, sampleCapacity_pos⟩

def warning (message : String) : InteractionCall :=
  .append message (.new "run" ⟨"controller", "server"⟩ 1 (.warning message))

def publishesAlone (_ : History HubAction Unit) (s : HubState) (a : HubAction) : Bool :=
  match a with
  | .publish _ => s.publishing.length ≤ 1
  | _ => true

theorem publishesAlone_inOrder (log : History HubAction Unit) (s : HubState) (a : HubAction)
    (h : publishesAlone log s a = true) : PublishesInOrder log s a := by
  cases a with
  | publish index =>
    intro envelope hget other hother _
    have hlength : s.publishing.length ≤ 1 := of_decide_eq_true h
    obtain ⟨outcome, hsingle⟩ := List.length_eq_one_iff.mp (le_antisymm hlength (List.length_pos_of_mem hother))
    have hmem := List.mem_of_getElem? hget
    rw [hsingle, List.mem_singleton] at hmem hother
    rw [← hother] at hmem
    cases hmem
    exact le_rfl
  | _ => trivial

def subscribedSteps : List HubAction :=
  [.attach "run" 0, .commit (warning "a"), .snapshot 0, .publish 0, .recv 0, .recv 0, .recv 0, .commit (warning "b"),
    .publish 0, .recv 0]

theorem subscriptions_follow_store_sample : ∃ log s, Run (interactionHub sampleConfig) PublishesInOrder log s ∧
    log.map Prod.fst = subscribedSteps ∧ ∃ subscription ∈ s.subscriptions, subscription.lastSequence = 2 ∧
      subscription.yielded.map EventEnvelope.sequence =
        List.range' (subscription.afterSequence + 1) (subscription.lastSequence - subscription.afterSequence) := by
  obtain ⟨log, s, hrun, hlog, hcheck⟩ := play_reaches (interactionHub sampleConfig) PublishesInOrder publishesAlone
    subscribedSteps (fun _ s => s.subscriptions.any fun subscription => subscription.lastSequence = 2)
    publishesAlone_inOrder (by decide) (by decide)
  obtain ⟨subscription, hmem, hlast⟩ := List.any_eq_true.mp hcheck
  refine ⟨log, s, hrun, hlog, subscription, hmem, of_decide_eq_true hlast, ?_⟩
  exact (subscriptions_follow_store hrun subscription hmem).2.2.1

def overtakenSteps : List HubAction :=
  [.attach "run" 0, .snapshot 0, .commit (warning "a"), .commit (warning "b"), .publish 1, .recv 0]

theorem overtaken_publication_ends_subscription :
    ¬ ∀ log s, Run (interactionHub sampleConfig) anything log s → ∀ subscription ∈ s.subscriptions,
      ∀ expected observed, subscription.ended ≠ some (.sequenceGap expected observed) := by
  intro hnever
  obtain ⟨log, s, hrun, -, hcheck⟩ := play_reaches (interactionHub sampleConfig) anything (fun _ _ _ => true)
    overtakenSteps (fun _ s => s.subscriptions.any fun subscription => subscription.ended = some (.sequenceGap 1 2))
    (fun _ _ _ _ => trivial) (allowedFrom_true _ _ _) (by decide)
  obtain ⟨subscription, hmem, hended⟩ := List.any_eq_true.mp hcheck
  exact hnever log s hrun subscription hmem 1 2 (of_decide_eq_true hended)

end samples

end AlloyPort.Interaction
