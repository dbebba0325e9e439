import AlloyPort.Service.Sequence
import AlloyPort.Worker.Record

/-! The frames of a worker connection. Sequence numbers are allocated in one critical section and the
frames are sent in another; while the sends follow the allocations, the channel carries the frames in
strictly consecutive order from the welcome on, and their acknowledgements never regress. -/

namespace AlloyPort

open Effect Interleaving ServiceState

def frames (channel : List (Except Status ServerToWorker)) : List ServerToWorker := channel.filterMap Except.toOption

theorem frames_append_ok (channel : List (Except Status ServerToWorker)) (frame : ServerToWorker) :
    frames (channel ++ [Except.ok frame]) = frames channel ++ [frame] := by
  simp [frames, Except.toOption]

theorem frames_append_error (channel : List (Except Status ServerToWorker)) (status : Status) :
    frames (channel ++ [Except.error status]) = frames channel := by
  simp [frames, Except.toOption]

/-- The frames enter in strictly consecutive order, from the welcome on, and their acknowledgements never
regress. -/
structure InOrder (frames : List ServerToWorker) : Prop where
  consecutive : frames.map (·.sequence) = List.range' 1 frames.length
  monotone : (frames.map (·.acknowledgesWorkerThrough)).Pairwise (· ≤ ·)
  welcome : ∀ frame ∈ frames, frame.sequence = 1 → frame.IsWelcome

def Numbers : ServiceEvent → String → Nat → Prop
  | ⟨_, .publish _ record, _⟩, connectionId, number => record.connectionId = connectionId ∧ number = 1
  | ⟨_, .advance _ owner sequence, true⟩, connectionId, number => owner = connectionId ∧ sequence = number
  | _, _, _ => False

instance (e : ServiceEvent) (connectionId : String) (number : Nat) : Decidable (Numbers e connectionId number) := by
  unfold Numbers
  split <;> infer_instance

abbrev Workers := AList fun _ : String => WorkerRecord

abbrev Channels := String → List (Except Status ServerToWorker)

/-! The ghost `issued` lists what the frames of each connection acknowledge, in the order of their numbers. -/

structure Numbering (workers : Workers) (issued : String → List Nat) : Prop where
  record : ∀ w r, workers.lookup w = some r → r.sender = r.connectionId ∧
    (issued r.connectionId).length + 1 = r.nextServerSequence ∧ 2 ≤ r.nextServerSequence ∧
    ∀ a ∈ issued r.connectionId, a ≤ r.lastWorkerSequence
  owner : ∀ w w' r r', workers.lookup w = some r → workers.lookup w' = some r' →
    r.connectionId = r'.connectionId → w = w'

structure Recalls (workers : Workers) (issued : String → List Nat) (w : String) (r : WorkerRecord) : Prop where
  started : 2 ≤ r.nextServerSequence
  next : r.nextServerSequence ≤ (issued r.connectionId).length + 1
  acknowledged : ∀ a ∈ (issued r.connectionId).take (r.nextServerSequence - 1), a ≤ r.lastWorkerSequence
  later : ∀ r', workers.lookup w = some r' → r'.connectionId = r.connectionId →
    r.lastWorkerSequence ≤ r'.lastWorkerSequence

structure Entered (channels : Channels) (issued : String → List Nat) : Prop where
  monotone : ∀ c, (issued c).Pairwise (· ≤ ·)
  consecutive : ∀ c, (frames (channels c)).map (·.sequence) = List.range' 1 (frames (channels c)).length
  acknowledges : ∀ c, (frames (channels c)).map (·.acknowledgesWorkerThrough) =
    (issued c).take (frames (channels c)).length
  welcome : ∀ c, ∀ frame ∈ frames (channels c), frame.sequence = 1 → frame.IsWelcome

structure Unsent (channels : Channels) (gs : List Carrier) (issued : String → List Nat) : Prop where
  slot : ∀ slot ∈ gs.flatMap (·.slots), 1 ≤ slot.sequence ∧
    (issued slot.connectionId)[slot.sequence - 1]? = some slot.acknowledges
  absent : ∀ slot ∈ gs.flatMap (·.slots), ∀ frame ∈ frames (channels slot.connectionId),
    frame.sequence ≠ slot.sequence
  distinct : (gs.flatMap (·.slots)).Nodup
  sorted : ∀ g ∈ gs, g.slots.Pairwise fun a b => a.connectionId = b.connectionId → a.sequence < b.sequence

/-- Every number given out is in the channel or still with the task it was given to, unless the channel is
closed. -/
structure Attributed (channels : Channels) (closed : String → Bool) (log : List ServiceEvent) (gs : List Carrier)
    (issued : String → List Nat) : Prop where
  numbered : ∀ c k, k < (issued c).length → ∃ e ∈ log, Numbers e c (k + 1)
  pending : ∀ e ∈ log, ∀ c n, Numbers e c n → closed c = true ∨
    (∃ frame ∈ frames (channels c), frame.sequence = n) ∨
    ∃ g, gs[e.task]? = some g ∧ ∃ slot ∈ g.slots, slot.connectionId = c ∧ slot.sequence = n
  own : ∀ (i : Nat) g c, gs[i]? = some g → g.own = some c →
    ∃ w r, (⟨i, .publish w r, ()⟩ : ServiceEvent) ∈ log ∧ r.connectionId = c

structure Issues (s : ServiceState) (log : List ServiceEvent) (gs : List Carrier) (issued : String → List Nat) :
    Prop where
  named : Named s.connectionCounter (gs.map (·.reserved)) fun c => issued c ≠ []
  numbering : Numbering s.workers issued
  seen : ∀ g ∈ gs, ∀ w r, g.seen = some (w, r) → Recalls s.workers issued w r
  entered : Entered s.channels issued
  unsent : Unsent s.channels gs issued
  attributed : Attributed s.channels s.closed log gs issued

def sequencing : Scheme ServiceState ServiceOp ServiceOp.Reply ServiceFailure ServiceReply Carrier where
  contract := carrying
  final _ _ := True
  invariant s log gs := ∃ issued, Issues s log gs issued

/-- No task sends a frame while another holds one of the same connection with an earlier number, and a
registration replays only on its own connection. -/
def inTurn : Guard ServiceState ServiceOp ServiceOp.Reply := fun s log label =>
  match label with
  | .act ⟨i, .send connectionId (.ok frame), true⟩ => ∀ e ∈ log, e.task ≠ i → ∀ number < frame.sequence,
      Numbers e connectionId number → ∃ earlier ∈ frames (s.channels connectionId), earlier.sequence = number
  | .act ⟨i, .advance _ connectionId _, true⟩ => ∀ w r, (⟨i, .publish w r, ()⟩ : ServiceEvent) ∈ log →
      r.connectionId = connectionId
  | _ => True

section steps

variable {s s' : ServiceState} {log : List ServiceEvent} {gs : List Carrier} {issued : String → List Nat} {i : Nat}
variable {g g' : Carrier} {e : ServiceEvent}
variable {channels channels' : Channels} {closed : String → Bool} {c w : String} {frame : ServerToWorker}
variable {f : WorkerRecord → WorkerRecord} {a : Nat} {r record : WorkerRecord} {slot : Slot} {workers : Workers}
  {tail : List Slot}

theorem lookup_insert_cases {workers : AList fun _ : String => WorkerRecord} {w : String} {record : WorkerRecord}
    (w' : String) (r' : WorkerRecord) (hr' : (workers.insert w record).lookup w' = some r') :
    w' = w ∧ r' = record ∨ w' ≠ w ∧ workers.lookup w' = some r' := by
  by_cases heq : w' = w
  · subst heq
    rw [AList.lookup_insert] at hr'
    exact .inl ⟨rfl, (Option.some.inj hr').symm⟩
  · rw [AList.lookup_insert_ne heq] at hr'
    exact .inr ⟨heq, hr'⟩

theorem Attributed.keep (h : Attributed channels closed log gs issued)
    (hget : gs[i]? = some g) (hown : g'.own = g.own) (hslots : g'.slots = g.slots) :
    Attributed channels closed log (gs.set i g') issued where
  numbered := h.numbered
  pending e he c n hnum := by
    refine (h.pending e he c n hnum).imp_right (Or.imp_right ?_)
    rintro ⟨g₁, hg₁, slot, hslot⟩
    by_cases hi : i = e.task
    · subst hi
      obtain rfl : g = g₁ := by rw [hget] at hg₁; exact Option.some.inj hg₁
      exact ⟨g', getElem?_set_self hget, slot, hslots ▸ hslot.1, hslot.2⟩
    · exact ⟨g₁, by rw [List.getElem?_set_ne hi, hg₁], slot, hslot⟩
  own j g₁ c hg₁ hc := by
    rcases getElem?_set_cases hg₁ with ⟨rfl, rfl⟩ | ⟨_, hg₁⟩
    · exact h.own i g c hget (hown ▸ hc)
    · exact h.own j g₁ c hg₁ hc

theorem Unsent.keep (h : Unsent channels gs issued) (hget : gs[i]? = some g)
    (hslots : g'.slots = g.slots) : Unsent channels (gs.set i g') issued := by
  have hsame : (gs.set i g').flatMap (·.slots) = gs.flatMap (·.slots) := flatMap_set_same hget hslots
  refine ⟨hsame ▸ h.slot, hsame ▸ h.absent, hsame ▸ h.distinct, fun g₁ hg₁ => ?_⟩
  rcases List.mem_or_eq_of_mem_set hg₁ with hg₁ | rfl
  · exact h.sorted g₁ hg₁
  · exact hslots ▸ h.sorted g (List.mem_of_getElem? hget)

theorem named_keep {counter : Nat} {used : String → Prop} (h : Named counter (gs.map (·.reserved)) used)
    (hget : gs[i]? = some g) (hreserved : g'.reserved = g.reserved) :
    Named counter ((gs.set i g').map (·.reserved)) used := by
  rw [map_set_same hget hreserved]
  exact h

theorem seen_keep (h : ∀ g ∈ gs, ∀ w r, g.seen = some (w, r) → Recalls workers issued w r)
    (hget : gs[i]? = some g) (hseen : g'.seen = g.seen) :
    ∀ g₁ ∈ gs.set i g', ∀ w r, g₁.seen = some (w, r) → Recalls workers issued w r := by
  intro g₁ hg₁ w r hs
  rcases List.mem_or_eq_of_mem_set hg₁ with hg₁ | rfl
  · exact h g₁ hg₁ w r hs
  · exact h g (List.mem_of_getElem? hget) w r (hseen ▸ hs)

theorem Entered.within (h : Entered channels issued)
    (hm : frame ∈ frames (channels c)) : 1 ≤ frame.sequence ∧ frame.sequence ≤ (frames (channels c)).length ∧
      (frames (channels c)).length ≤ (issued c).length := by
  have hseq : frame.sequence ∈ List.range' 1 (frames (channels c)).length :=
    h.consecutive c ▸ List.mem_map_of_mem hm
  have hlen := congrArg List.length (h.acknowledges c)
  rw [List.length_map, List.length_take] at hlen
  simp only [List.mem_range'_1] at hseq
  omega

theorem Attributed.logged (h : Attributed channels closed log gs issued)
    (hq : ∀ c n, ¬ Numbers e c n) : Attributed channels closed (log ++ [e]) gs issued where
  numbered c k hk := by
    obtain ⟨e', he', hnum⟩ := h.numbered c k hk
    exact ⟨e', List.mem_append_left _ he', hnum⟩
  pending e' he' c n hnum := by
    rcases List.mem_append.mp he' with he' | he'
    · exact h.pending e' he' c n hnum
    · rw [List.mem_singleton.mp he'] at hnum
      exact absurd hnum (hq c n)
  own j g c hg hc := by
    obtain ⟨w, r, hm, hr⟩ := h.own j g c hg hc
    exact ⟨w, r, List.mem_append_left _ hm, hr⟩

theorem Issues.same (h : Issues s log gs issued) (hw : s'.workers = s.workers)
    (hn : s'.connectionCounter = s.connectionCounter) (hc : ∀ c, frames (s'.channels c) = frames (s.channels c))
    (hcl : ∀ c, s.closed c = true → s'.closed c = true) : Issues s' log gs issued where
  named := hn ▸ h.named
  numbering := hw ▸ h.numbering
  seen := hw ▸ h.seen
  entered := by
    refine ⟨h.entered.monotone, fun c => ?_, fun c => ?_, fun c => ?_⟩
    · rw [hc]
      exact h.entered.consecutive c
    · rw [hc]
      exact h.entered.acknowledges c
    · rw [hc]
      exact h.entered.welcome c
  unsent := by
    refine ⟨h.unsent.slot, fun slot hm => ?_, h.unsent.distinct, h.unsent.sorted⟩
    rw [hc]
    exact h.unsent.absent slot hm
  attributed := by
    refine ⟨h.attributed.numbered, fun e he c n hnum => ?_, h.attributed.own⟩
    rw [hc]
    exact (h.attributed.pending e he c n hnum).imp_left (hcl c)

theorem Issues.logged (h : Issues s log gs issued) (hq : ∀ c n, ¬ Numbers e c n) : Issues s (log ++ [e]) gs issued :=
  ⟨h.named, h.numbering, h.seen, h.entered, h.unsent, h.attributed.logged hq⟩

theorem Issues.look (h : Issues s log gs issued) (hget : gs[i]? = some g) {seen : Option (String × WorkerRecord)}
    (hseen : ∀ w r, seen = some (w, r) → Recalls s.workers issued w r) :
    Issues s log (gs.set i { g with seen := seen }) issued where
  named := named_keep h.named hget rfl
  numbering := h.numbering
  seen g' hg' w r hs := by
    rcases List.mem_or_eq_of_mem_set hg' with hg' | rfl
    · exact h.seen g' hg' w r hs
    · exact hseen w r hs
  entered := h.entered
  unsent := h.unsent.keep hget rfl
  attributed := h.attributed.keep hget rfl rfl

theorem Issues.touch (h : Issues s log gs issued)
    (hf : ∀ r, (f r).sender = r.sender ∧ (f r).connectionId = r.connectionId ∧
      (f r).nextServerSequence = r.nextServerSequence)
    (hlast : ∀ r, s.workers.lookup w = some r → r.lastWorkerSequence ≤ (f r).lastWorkerSequence) :
    Issues (s.updateRecord w f) log gs issued := by
  have hback : ∀ w' r', (s.updateRecord w f).workers.lookup w' = some r' → ∃ r, s.workers.lookup w' = some r ∧
      r'.sender = r.sender ∧ r'.connectionId = r.connectionId ∧ r'.nextServerSequence = r.nextServerSequence ∧
      r.lastWorkerSequence ≤ r'.lastWorkerSequence := by
    intro w' r' hr'
    rw [updateRecord_lookup] at hr'
    split at hr'
    · rename_i heq
      obtain ⟨r, hr, rfl⟩ := Option.map_eq_some_iff.mp hr'
      obtain ⟨h₁, h₂, h₃⟩ := hf r
      exact ⟨r, heq ▸ hr, h₁, h₂, h₃, hlast r hr⟩
    · exact ⟨r', hr', rfl, rfl, rfl, le_refl _⟩
  obtain ⟨hn, hc, hcl⟩ := updateRecord_rest (s := s) (w := w) (f := f)
  refine ⟨hn ▸ h.named, ⟨?_, ?_⟩, ?_, hc ▸ h.entered, hc ▸ h.unsent, hc ▸ hcl ▸ h.attributed⟩
  · intro w' r' hr'
    obtain ⟨r, hr, hsender, hconn, hnext, hle⟩ := hback w' r' hr'
    obtain ⟨h₁, h₂, h₃, h₄⟩ := h.numbering.record w' r hr
    rw [hsender, hconn, hnext]
    exact ⟨h₁, h₂, h₃, fun a ha => le_trans (h₄ a ha) hle⟩
  · intro w₁ w₂ r₁ r₂ h₁ h₂ hsame
    obtain ⟨r, hr, _, hconn, _⟩ := hback w₁ r₁ h₁
    obtain ⟨r', hr', _, hconn', _⟩ := hback w₂ r₂ h₂
    exact h.numbering.owner w₁ w₂ r r' hr hr' (by rw [← hconn, ← hconn', hsame])
  · intro g hg w' r hs
    obtain ⟨h₁, h₂, h₃, h₄⟩ := h.seen g hg w' r hs
    refine ⟨h₁, h₂, h₃, fun r' hr' hsame => ?_⟩
    obtain ⟨r₀, hr₀, _, hconn, _, hle⟩ := hback w' r' hr'
    exact le_trans (h₄ r₀ hr₀ (hconn ▸ hsame)) hle

theorem Issues.draw (h : Issues s log gs issued) (hget : gs[i]? = some g) :
    Issues { s with connectionCounter := s.connectionCounter + 1 } log
      (gs.set i { g with reserved := some (connectionName s.connectionCounter) }) issued where
  named := by
    rw [List.map_set]
    exact h.named.draw (by rw [List.getElem?_map, hget]; rfl)
  numbering := h.numbering
  seen := seen_keep h.seen hget rfl
  entered := h.entered
  unsent := h.unsent.keep hget rfl
  attributed := h.attributed.keep hget rfl rfl

theorem Unsent.number (h : Unsent channels gs issued) (hc : Entered channels issued) (hget : gs[i]? = some g)
    (hg' : g'.slots = g.slots ++ [⟨c, (issued c).length + 1, a⟩]) :
    Unsent channels (gs.set i g') (Function.update issued c (issued c ++ [a])) := by
  obtain ⟨rest, hl, hset⟩ := flatMap_set_perm (fun g : Carrier => g.slots) hget
  have hp : ((gs.set i g').flatMap (·.slots)).Perm (⟨c, (issued c).length + 1, a⟩ :: gs.flatMap (·.slots)) := by
    refine (hset g').trans ?_
    rw [hg', List.append_assoc]
    exact List.perm_middle.trans (hl.symm.cons _)
  have hold : ∀ slot ∈ gs.flatMap (·.slots), slot.sequence ≤ (issued slot.connectionId).length := by
    intro slot hm
    have := (List.getElem?_eq_some_iff.mp (h.slot slot hm).2).choose
    have := (h.slot slot hm).1
    omega
  refine ⟨fun slot hm => ?_, fun slot hm frame hframe => ?_, ?_, fun g₁ hg₁ => ?_⟩
  · rcases List.mem_cons.mp (hp.mem_iff.mp hm) with rfl | hm
    · simp
    · refine ⟨(h.slot slot hm).1, ?_⟩
      by_cases heq : slot.connectionId = c
      · have hlt := (List.getElem?_eq_some_iff.mp (h.slot slot hm).2).choose
        rw [heq, Function.update_self, List.getElem?_append_left (heq ▸ hlt), ← heq]
        exact (h.slot slot hm).2
      · rw [Function.update_of_ne heq]
        exact (h.slot slot hm).2
  · rcases List.mem_cons.mp (hp.mem_iff.mp hm) with rfl | hm
    · have hwithin := hc.within hframe
      simp only at hwithin ⊢
      omega
    · exact h.absent slot hm frame hframe
  · refine hp.nodup_iff.mpr (List.nodup_cons.mpr ⟨fun hm => ?_, h.distinct⟩)
    have := hold _ hm
    simp only at this
    omega
  · rcases List.mem_or_eq_of_mem_set hg₁ with hg₁ | rfl
    · exact h.sorted g₁ hg₁
    · rw [hg']
      refine List.pairwise_append.mpr ⟨h.sorted g
        (List.mem_of_getElem? hget), by simp, fun slot hm other hother heq => ?_⟩
      have := hold slot (List.mem_flatMap.mpr ⟨g, List.mem_of_getElem? hget, hm⟩)
      rw [List.mem_singleton.mp hother] at heq ⊢
      rw [heq] at this
      exact Nat.lt_succ_of_le this

theorem Entered.number (h : Entered channels issued)
    (ha : ∀ b ∈ issued c, b ≤ a) : Entered channels (Function.update issued c (issued c ++ [a])) where
  monotone c' := by
    by_cases heq : c' = c
    · subst heq
      rw [Function.update_self]
      refine List.pairwise_append.mpr ⟨h.monotone c', by simp, fun b hb a' ha' => ?_⟩
      rw [List.mem_singleton.mp ha']
      exact ha b hb
    · rw [Function.update_of_ne heq]
      exact h.monotone c'
  consecutive := h.consecutive
  acknowledges c' := by
    have hlen := congrArg List.length (h.acknowledges c')
    rw [List.length_map, List.length_take] at hlen
    by_cases heq : c' = c
    · subst heq
      rw [Function.update_self, List.take_append_of_le_length (by omega)]
      exact h.acknowledges c'
    · rw [Function.update_of_ne heq]
      exact h.acknowledges c'
  welcome := h.welcome

theorem Recalls.number
    (h : Recalls workers issued w r) : Recalls workers (Function.update issued c (issued c ++ [a])) w r := by
  have hnext := h.next
  by_cases heq : r.connectionId = c
  · refine ⟨h.started, ?_, ?_, h.later⟩
    · rw [heq, Function.update_self, List.length_append, ← heq]
      omega
    · rw [heq, Function.update_self, List.take_append_of_le_length (by rw [← heq]; omega), ← heq]
      exact h.acknowledged
  · exact ⟨h.started, by rwa [Function.update_of_ne heq], by rw [Function.update_of_ne heq]; exact h.acknowledged,
      h.later⟩

theorem Attributed.number (h : Attributed channels closed log gs issued) (hget : gs[i]? = some g) (htask : e.task = i)
    (he : ∀ c' n, Numbers e c' n ↔ c' = c ∧ n = (issued c).length + 1)
    (hg' : g'.slots = g.slots ++ [⟨c, (issued c).length + 1, a⟩])
    (hown : ∀ c', g'.own = some c' → g.own = some c' ∨ ∃ w r, e = ⟨i, .publish w r, ()⟩ ∧ r.connectionId = c') :
    Attributed channels closed (log ++ [e]) (gs.set i g') (Function.update issued c (issued c ++ [a])) where
  numbered c' k hk := by
    by_cases hnew : c' = c ∧ k = (issued c).length
    · exact ⟨e, by simp, (he c' (k + 1)).mpr ⟨hnew.1, by omega⟩⟩
    · have hk' : k < (issued c').length := by
        by_cases heq : c' = c
        · subst heq
          rw [Function.update_self, List.length_append, List.length_singleton] at hk
          have : k ≠ (issued c').length := fun hk' => hnew ⟨rfl, hk'⟩
          omega
        · rwa [Function.update_of_ne heq] at hk
      obtain ⟨e', he', hnum⟩ := h.numbered c' k hk'
      exact ⟨e', List.mem_append_left _ he', hnum⟩
  pending e' he' c' n hnum := by
    rcases List.mem_append.mp he' with he' | he'
    · refine (h.pending e' he' c' n hnum).imp_right (Or.imp_right ?_)
      rintro ⟨g₁, hg₁, slot, hm, hslot⟩
      by_cases hi : i = e'.task
      · subst hi
        obtain rfl : g = g₁ := by rw [hget] at hg₁; exact Option.some.inj hg₁
        exact ⟨g', getElem?_set_self hget, slot, by rw [hg']; exact List.mem_append_left _ hm, hslot⟩
      · exact ⟨g₁, by rw [List.getElem?_set_ne hi, hg₁], slot, hm, hslot⟩
    · rw [List.mem_singleton.mp he'] at hnum ⊢
      obtain ⟨rfl, rfl⟩ := (he c' n).mp hnum
      refine .inr (.inr ⟨g', ?_, ⟨c', (issued c').length + 1, a⟩, by rw [hg']; simp, rfl, rfl⟩)
      rw [htask]
      exact getElem?_set_self hget
  own j g₁ c' hg₁ hc' := by
    have hlater : ∀ {j : Nat} {g : Carrier}, gs[j]? = some g → g.own = some c' →
        ∃ w r, (⟨j, .publish w r, ()⟩ : ServiceEvent) ∈ log ++ [e] ∧ r.connectionId = c' := by
      intro j g hg hc'
      obtain ⟨w, r, hm, hr⟩ := h.own j g c' hg hc'
      exact ⟨w, r, List.mem_append_left _ hm, hr⟩
    rcases getElem?_set_cases hg₁ with ⟨rfl, rfl⟩ | ⟨_, hg₁⟩
    · rcases hown c' hc' with hc' | ⟨w, r, rfl, hr⟩
      · exact hlater hget hc'
      · exact ⟨w, r, by simp, hr⟩
    · exact hlater hg₁ hc'

theorem Issues.publish (h : Issues s log gs issued) (hget : gs[i]? = some g)
    (hreserved : g.reserved = some record.connectionId) (hsender : record.sender = record.connectionId)
    (hnext : record.nextServerSequence = 2) (hlast : record.lastWorkerSequence = 1) :
    Issues { s with workers := s.workers.insert w record } (log ++ [⟨i, .publish w record, ()⟩])
      (gs.set i { g with
        reserved := none, own := some record.connectionId, slots := g.slots ++ [⟨record.connectionId, 1, 1⟩] })
      (Function.update issued record.connectionId (issued record.connectionId ++ [1])) := by
  have hdrawn : (gs.map (·.reserved))[i]? = some (some record.connectionId) := by
    rw [List.getElem?_map, hget, Option.map_some, hreserved]
  have hempty : issued record.connectionId = [] :=
    not_not.mp (h.named.fresh _ (List.mem_of_getElem? hdrawn)).1
  have hfirst : 1 = (issued record.connectionId).length + 1 := by simp [hempty]
  have hunused : ∀ w' r', s.workers.lookup w' = some r' → r'.connectionId ≠ record.connectionId := by
    intro w' r' hr' heq
    obtain ⟨_, hlen, hstarted, _⟩ := h.numbering.record w' r' hr'
    rw [heq, hempty, List.length_nil] at hlen
    omega
  have hlookup := @lookup_insert_cases s.workers w record
  refine ⟨?_, ⟨?_, ?_⟩, ?_, h.entered.number (by simp [hempty]), ?_, ?_⟩
  · rw [List.map_set]
    refine (h.named.publish hdrawn).congr fun c => ?_
    by_cases heq : c = record.connectionId
    · simp [heq]
    · rw [Function.update_of_ne heq]
      simp [heq]
  · intro w' r' hr'
    rcases hlookup w' r' hr' with ⟨rfl, rfl⟩ | ⟨_, hr'⟩
    · rw [Function.update_self, hempty, hnext, hlast]
      exact ⟨hsender, rfl, le_refl _, by simp⟩
    · rw [Function.update_of_ne (hunused w' r' hr')]
      exact h.numbering.record w' r' hr'
  · intro w₁ w₂ r₁ r₂ h₁ h₂ hsame
    rcases hlookup w₁ r₁ h₁ with ⟨rfl, rfl⟩ | ⟨_, hold₁⟩
    · rcases hlookup w₂ r₂ h₂ with ⟨rfl, _⟩ | ⟨_, hold₂⟩
      · rfl
      · exact absurd hsame.symm (hunused w₂ r₂ hold₂)
    · rcases hlookup w₂ r₂ h₂ with ⟨rfl, rfl⟩ | ⟨_, hold₂⟩
      · exact absurd hsame (hunused w₁ r₁ hold₁)
      · exact h.numbering.owner w₁ w₂ r₁ r₂ hold₁ hold₂ hsame
  · intro g' hg' w' r hs
    have hold : Recalls s.workers issued w' r := by
      refine seen_keep h.seen hget ?_ g' hg' w' r hs
      rfl
    refine ⟨hold.started, hold.number.next, hold.number.acknowledged, fun r' hr' hsame => ?_⟩
    rcases hlookup w' r' hr' with ⟨rfl, rfl⟩ | ⟨_, hr'⟩
    · have hnext := hold.next
      have hstarted := hold.started
      rw [← hsame, hempty, List.length_nil] at hnext
      omega
    · exact hold.later r' hr' hsame
  · exact h.unsent.number h.entered hget (by rw [← hfirst])
  · refine h.attributed.number hget rfl (fun c n => ?_) (by rw [← hfirst]) fun c hc => ?_
    · rw [← hfirst]
      exact ⟨fun hn => ⟨hn.1.symm, hn.2⟩, fun hn => ⟨hn.1.symm, hn.2⟩⟩
    · exact .inr ⟨w, record, rfl, Option.some.inj hc⟩

theorem Issues.advance (h : Issues s log gs issued) (hget : gs[i]? = some g) {n : Nat}
    (hseen : g.seen = some (w, record)) (hconn : record.connectionId = c)
    (hnext : record.nextServerSequence = n) (hmay : s.mayAdvance w c n = true) :
    Issues (s.advanced w) (log ++ [⟨i, .advance w c n, true⟩])
      (gs.set i { g with slots := g.slots ++ [⟨c, n, record.lastWorkerSequence⟩] })
      (Function.update issued c (issued c ++ [record.lastWorkerSequence])) := by
  obtain ⟨r, hr, hrc, hrn⟩ := mayAdvance_iff.mp hmay
  obtain ⟨_, hlen, hstarted, hacks⟩ := h.numbering.record w r hr
  rw [hrc] at hlen hacks
  have hn : n = (issued c).length + 1 := by omega
  have hrecalls := h.seen g (List.mem_of_getElem? hget) w record hseen
  have hbound : record.lastWorkerSequence ≤ r.lastWorkerSequence := hrecalls.later r hr (by rw [hrc, hconn])
  have hmonotone : ∀ a ∈ issued c, a ≤ record.lastWorkerSequence := by
    have hall := hrecalls.acknowledged
    rw [hconn, hnext, List.take_of_length_le (by omega)] at hall
    exact hall
  have hrest : (s.advanced w).connectionCounter = s.connectionCounter ∧ (s.advanced w).channels = s.channels ∧
      (s.advanced w).closed = s.closed := updateRecord_rest
  obtain ⟨hcounter, hchannels, hclosed⟩ := hrest
  have hother : ∀ w' r', s.workers.lookup w' = some r' → w' ≠ w → r'.connectionId ≠ c :=
    fun w' r' hr' hne heq => hne (h.numbering.owner w' w r' r hr' hr (by rw [heq, hrc]))
  have hlookup : ∀ w' r', (s.advanced w).workers.lookup w' = some r' →
      w' = w ∧ r' = { r with nextServerSequence := r.nextServerSequence + 1 } ∨
        w' ≠ w ∧ s.workers.lookup w' = some r' := by
    intro w' r' hr'
    rw [advanced, updateRecord_lookup] at hr'
    split at hr'
    · rw [hr] at hr'
      exact .inl ⟨‹_›, (Option.some.inj hr').symm⟩
    · exact .inr ⟨‹_›, hr'⟩
  have hnonempty : issued c ≠ [] := by
    intro hnil
    rw [hnil, List.length_nil] at hlen
    omega
  refine ⟨?_, ⟨?_, ?_⟩, ?_, hchannels ▸ h.entered.number hmonotone, ?_, ?_⟩
  · rw [hcounter]
    refine Named.congr (named_keep h.named hget ?_) fun c' => ?_
    · rfl
    by_cases heq : c' = c
    · simp [heq, hnonempty]
    · rw [Function.update_of_ne heq]
  · intro w' r' hr'
    rcases hlookup w' r' hr' with ⟨rfl, rfl⟩ | ⟨hne, hold⟩
    · obtain ⟨hsender, _⟩ := h.numbering.record w' r hr
      refine ⟨hsender, ?_, Nat.le_succ_of_le hstarted, ?_⟩
      · simp only [hrc, Function.update_self, List.length_append, List.length_singleton, hlen]
      · simp only [hrc, Function.update_self, List.mem_append, List.mem_singleton]
        rintro a (ha | rfl)
        · exact hacks a ha
        · exact hbound
    · rw [Function.update_of_ne (hother w' r' hold hne)]
      exact h.numbering.record w' r' hold
  · intro w₁ w₂ r₁ r₂ h₁ h₂ hsame
    rcases hlookup w₁ r₁ h₁ with ⟨rfl, rfl⟩ | ⟨hne₁, hold₁⟩
    · rcases hlookup w₂ r₂ h₂ with ⟨rfl, _⟩ | ⟨_, hold₂⟩
      · rfl
      · exact h.numbering.owner w₁ w₂ r r₂ hr hold₂ hsame
    · rcases hlookup w₂ r₂ h₂ with ⟨rfl, rfl⟩ | ⟨_, hold₂⟩
      · exact h.numbering.owner w₁ w₂ r₁ r hold₁ hr hsame
      · exact h.numbering.owner w₁ w₂ r₁ r₂ hold₁ hold₂ hsame
  · intro g' hg' w' r' hs
    have hold : Recalls s.workers issued w' r' := by
      refine seen_keep h.seen hget ?_ g' hg' w' r' hs
      rfl
    refine ⟨hold.started, hold.number.next, hold.number.acknowledged, fun r'' hr'' hsame => ?_⟩
    rcases hlookup w' r'' hr'' with ⟨rfl, rfl⟩ | ⟨_, hr''⟩
    · exact hold.later r hr hsame
    · exact hold.later r'' hr'' hsame
  · rw [hchannels]
    exact h.unsent.number h.entered hget (by rw [hn])
  · rw [hchannels, hclosed]
    refine h.attributed.number hget rfl (fun c' n' => ?_) (by rw [hn]) fun c' hc' => .inl hc'
    rw [← hn]
    exact ⟨fun h => ⟨h.1.symm, h.2.symm⟩, fun h => ⟨h.1.symm, h.2.symm⟩⟩

theorem Unsent.take (h : Unsent channels gs issued)
    (hget : gs[i]? = some g) (hg : g.slots = slot :: tail) (hg' : g'.slots = tail)
    (habsent : ∀ other ∈ gs.flatMap (·.slots), other ≠ slot → ∀ frame ∈ frames (channels' other.connectionId),
      frame.sequence ≠ other.sequence) : Unsent channels' (gs.set i g') issued := by
  obtain ⟨rest, hl, hset⟩ := flatMap_set_perm (fun g : Carrier => g.slots) hget
  have hp : (gs.flatMap (·.slots)).Perm (slot :: (gs.set i g').flatMap (·.slots)) := by
    refine hl.trans ?_
    rw [hg, List.cons_append, ← hg']
    exact (hset g').symm.cons _
  have hback : ∀ other ∈ (gs.set i g').flatMap (·.slots), other ∈ gs.flatMap (·.slots) :=
    fun other hm => hp.mem_iff.mpr (List.mem_cons_of_mem _ hm)
  obtain ⟨hnot, hnodup⟩ := List.nodup_cons.mp (hp.nodup_iff.mp h.distinct)
  refine ⟨fun other hm => h.slot other (hback other hm), fun other hm => ?_, hnodup, fun g₁ hg₁ => ?_⟩
  · exact habsent other (hback other hm) fun heq => hnot (heq ▸ hm)
  · rcases List.mem_or_eq_of_mem_set hg₁ with hg₁ | rfl
    · exact h.sorted g₁ hg₁
    · have hsorted := h.sorted g (List.mem_of_getElem? hget)
      rw [hg] at hsorted
      exact hg' ▸ (List.pairwise_cons.mp hsorted).2

theorem Attributed.take {closed' : String → Bool}
    (h : Attributed channels closed log gs issued) (hget : gs[i]? = some g) (hg : g.slots = slot :: tail)
    (hg' : g'.slots = tail) (hown : g'.own = g.own)
    (hchannels : ∀ c, ∀ frame ∈ frames (channels c), frame ∈ frames (channels' c))
    (hclosed : ∀ c, closed c = true → closed' c = true)
    (hslot : closed' slot.connectionId = true ∨
      ∃ frame ∈ frames (channels' slot.connectionId), frame.sequence = slot.sequence) :
    Attributed channels' closed' log (gs.set i g') issued where
  numbered := h.numbered
  pending e he c n hnum := by
    rcases h.pending e he c n hnum with hc | ⟨frame, hm, hn⟩ | ⟨g₁, hg₁, other, hm, hother⟩
    · exact .inl (hclosed c hc)
    · exact .inr (.inl ⟨frame, hchannels c frame hm, hn⟩)
    · by_cases hi : i = e.task
      · subst hi
        obtain rfl : g = g₁ := by rw [hget] at hg₁; exact Option.some.inj hg₁
        rw [hg] at hm
        rcases List.mem_cons.mp hm with rfl | hm
        · obtain ⟨rfl, rfl⟩ := hother
          exact hslot.imp_right .inl
        · exact .inr (.inr ⟨g', getElem?_set_self hget, other, hg' ▸ hm, hother⟩)
      · exact .inr (.inr ⟨g₁, by rw [List.getElem?_set_ne hi, hg₁], other, hm, hother⟩)
  own j g₁ c hg₁ hc := by
    rcases getElem?_set_cases hg₁ with ⟨rfl, rfl⟩ | ⟨_, hg₁⟩
    · exact h.own i g c hget (hown ▸ hc)
    · exact h.own j g₁ c hg₁ hc

theorem Entered.enter (h : Entered channels issued) (hsequence : frame.sequence = (frames (channels c)).length + 1)
    (hacknowledges : (issued c)[(frames (channels c)).length]? = some frame.acknowledgesWorkerThrough)
    (hwelcome : frame.sequence = 1 → frame.IsWelcome) :
    Entered (Function.update channels c (channels c ++ [Except.ok frame])) issued where
  monotone := h.monotone
  consecutive c' := by
    by_cases heq : c' = c
    · subst heq
      rw [Function.update_self, frames_append_ok, List.map_append, h.consecutive, List.length_append,
        List.length_singleton, List.range'_concat]
      simp [hsequence, Nat.add_comm]
    · rw [Function.update_of_ne heq]
      exact h.consecutive c'
  acknowledges c' := by
    by_cases heq : c' = c
    · subst heq
      rw [Function.update_self, frames_append_ok, List.map_append, h.acknowledges, List.length_append,
        List.length_singleton, List.take_add_one, hacknowledges]
      rfl
    · rw [Function.update_of_ne heq]
      exact h.acknowledges c'
  welcome c' := by
    by_cases heq : c' = c
    · subst heq
      rw [Function.update_self, frames_append_ok]
      intro frame' hm
      rcases List.mem_append.mp hm with hm | hm
      · exact h.welcome c' frame' hm
      · rw [List.mem_singleton.mp hm]
        exact hwelcome
    · rw [Function.update_of_ne heq]
      exact h.welcome c'

theorem head?_cons {slots : List Slot} (h : slots.head? = some slot) : slots = slot :: slots.tail := by
  cases slots with
  | nil => cases h
  | cons a l =>
    cases h
    rfl

theorem Issues.send (h : Issues s log gs issued) (hget : gs[i]? = some g)
    (hhead : g.slots.head? = some (Slot.of c frame)) (hwelcome : frame.sequence = 1 → frame.IsWelcome)
    (hopen : s.closed c = false)
    (hturn : ∀ e ∈ log, e.task ≠ i → ∀ number < frame.sequence, Numbers e c number →
      ∃ earlier ∈ frames (s.channels c), earlier.sequence = number) :
    Issues (s.sent c (.ok frame)) (log ++ [⟨i, .send c (.ok frame), true⟩])
      (gs.set i { g with slots := g.slots.tail }) issued := by
  have hslots := head?_cons hhead
  have hg := List.mem_of_getElem? hget
  have hm : Slot.of c frame ∈ gs.flatMap (·.slots) := List.mem_flatMap.mpr ⟨g, hg, hslots ▸ List.mem_cons_self⟩
  obtain ⟨hone, hissued⟩ := h.unsent.slot _ hm
  simp only [Slot.of] at hone hissued
  -- every earlier number has been sent: by another task in its turn, or by this one before
  have hearlier : ∀ m, 1 ≤ m → m < frame.sequence → ∃ earlier ∈ frames (s.channels c), earlier.sequence = m := by
    intro m hm₁ hm₂
    have hlt := (List.getElem?_eq_some_iff.mp hissued).choose
    obtain ⟨e, he, hnum⟩ := h.attributed.numbered c (m - 1) (by omega)
    rw [Nat.sub_add_cancel hm₁] at hnum
    by_cases htask : e.task = i
    · rcases h.attributed.pending e he c m hnum with hc | hfound | ⟨g₁, hg₁, slot, hslot, rfl, rfl⟩
      · rw [hopen] at hc
        cases hc
      · exact hfound
      · obtain rfl : g = g₁ := by rw [htask, hget] at hg₁; exact Option.some.inj hg₁
        have hsorted := h.unsent.sorted g hg
        rw [hslots] at hsorted hslot
        rcases List.mem_cons.mp hslot with hsame | hslot
        · rw [hsame] at hm₂
          exact absurd hm₂ (lt_irrefl _)
        · have := (List.pairwise_cons.mp hsorted).1 slot hslot
          simp only [Slot.of] at this
          have := this trivial
          omega
    · exact hturn e he htask m hm₂ hnum
  have hsequence : frame.sequence = (frames (s.channels c)).length + 1 := by
    have hnew : ¬ frame.sequence ≤ (frames (s.channels c)).length := by
      intro hle
      have hseq : frame.sequence ∈ (frames (s.channels c)).map (·.sequence) := by
        rw [h.entered.consecutive c, List.mem_range'_1]
        omega
      obtain ⟨frame', hm', hsame⟩ := List.mem_map.mp hseq
      exact h.unsent.absent _ hm frame' hm' hsame
    by_cases hfirst : frame.sequence = 1
    · omega
    · obtain ⟨earlier, hm', hseq⟩ := hearlier (frame.sequence - 1) (by omega) (by omega)
      have := h.entered.within hm'
      omega
  refine ⟨named_keep h.named hget rfl, h.numbering, seen_keep h.seen hget rfl, h.entered.enter hsequence ?_ hwelcome,
    ?_, ?_⟩
  · rwa [hsequence, Nat.add_sub_cancel] at hissued
  · refine h.unsent.take hget hslots rfl fun other hother hne frame' hm' => ?_
    by_cases heq : other.connectionId = c
    · simp only [sent] at hm'
      rw [heq, Function.update_self, frames_append_ok] at hm'
      rcases List.mem_append.mp hm' with hm' | hm'
      · exact h.unsent.absent other hother frame' (heq ▸ hm')
      · rintro hsame
        obtain rfl := List.mem_singleton.mp hm'
        have hother' := (h.unsent.slot other hother).2
        rw [heq, ← hsame, hissued] at hother'
        refine hne ?_
        obtain ⟨oc, os, oa⟩ := other
        simp only at heq hsame hother'
        rw [heq, ← hsame, ← Option.some.inj hother']
        rfl
    · simp only [sent] at hm'
      rw [Function.update_of_ne heq] at hm'
      exact h.unsent.absent other hother frame' hm'
  · refine Attributed.logged (h.attributed.take hget hslots rfl rfl ?_ (fun _ hc => hc) (.inr ?_)) fun c n hn => hn
    · intro c' frame' hm'
      simp only [sent]
      by_cases heq : c' = c
      · subst heq
        rw [Function.update_self, frames_append_ok]
        exact List.mem_append_left _ hm'
      · rwa [Function.update_of_ne heq]
    · refine ⟨frame, ?_, rfl⟩
      simp only [sent, Slot.of, Function.update_self, frames_append_ok]
      simp

theorem Issues.drop (h : Issues s log gs issued) (hget : gs[i]? = some g)
    (hhead : g.slots.head? = some (Slot.of c frame)) :
    Issues (s.receiverGone c) (log ++ [⟨i, .send c (.ok frame), false⟩])
      (gs.set i { g with slots := g.slots.tail }) issued := by
  have hslots := head?_cons hhead
  refine ⟨named_keep h.named hget rfl, h.numbering, seen_keep h.seen hget rfl, h.entered,
    h.unsent.take hget hslots rfl fun other hother _ => h.unsent.absent other hother, ?_⟩
  refine Attributed.logged (h.attributed.take hget hslots rfl rfl (fun _ _ hm => hm) (fun c' hc => ?_) (.inl ?_))
    fun c n hn => hn
  · simp only [receiverGone]
    by_cases heq : c' = c
    · rw [heq, Function.update_self]
    · rwa [Function.update_of_ne heq]
  · simp [receiverGone, Slot.of]

theorem Issues.quiet (h : Issues s log gs issued) (hget : gs[i]? = some g) (hq : ∀ c n, ¬ Numbers e c n)
    (hw : s'.workers = s.workers) (hn : s'.connectionCounter = s.connectionCounter)
    (hc : ∀ c, frames (s'.channels c) = frames (s.channels c)) (hcl : ∀ c, s.closed c = true → s'.closed c = true) :
    ∃ issued, Issues s' (log ++ [e]) (gs.set i g) issued := by
  rw [set_self hget]
  exact ⟨issued, (h.same hw hn hc hcl).logged hq⟩

theorem Issues.touched (h : Issues s log gs issued) (hget : gs[i]? = some g) (hq : ∀ c n, ¬ Numbers e c n)
      (hf : ∀ r, (f r).sender = r.sender ∧ (f r).connectionId = r.connectionId ∧
      (f r).nextServerSequence = r.nextServerSequence)
    (hlast : ∀ r, s.workers.lookup w = some r → r.lastWorkerSequence ≤ (f r).lastWorkerSequence) :
    ∃ issued, Issues (s.updateRecord w f) (log ++ [e]) (gs.set i g) issued := by
  rw [set_self hget]
  exact ⟨issued, (h.touch hf hlast).logged hq⟩

theorem Issues.recall (h : Issues s log gs issued) (hr : s.workers.lookup w = some r) :
    Recalls s.workers issued w r := by
  obtain ⟨_, hlen, hstarted, hacks⟩ := h.numbering.record w r hr
  refine ⟨hstarted, by omega, fun a ha => hacks a (List.mem_of_mem_take ha), fun r' hr' _ => ?_⟩
  rw [hr] at hr'
  rw [Option.some.inj hr']

theorem Issues.join (h : Issues s log gs issued) : Issues s log (gs ++ [Carrier.idle]) issued := by
  have hslots : (gs ++ [Carrier.idle]).flatMap (·.slots) = gs.flatMap (·.slots) := by simp [Carrier.idle]
  have hnamed : Named s.connectionCounter ((gs ++ [Carrier.idle]).map (·.reserved)) fun c => issued c ≠ [] := by
    rw [List.map_append]
    exact h.named.join
  have hmem : ∀ g ∈ gs ++ [Carrier.idle], g ∈ gs ∨ g = .idle := fun g hg => by simpa using hg
  refine ⟨hnamed, h.numbering, fun g hg w r hs => ?_,
    h.entered, ⟨hslots ▸ h.unsent.slot, hslots ▸ h.unsent.absent, hslots ▸ h.unsent.distinct, fun g hg => ?_⟩,
    ⟨h.attributed.numbered, fun e he c n hnum => ?_, fun j g c hg hc => ?_⟩⟩
  · rcases hmem g hg with hg | rfl
    · exact h.seen g hg w r hs
    · cases hs
  · rcases hmem g hg with hg | rfl
    · exact h.unsent.sorted g hg
    · exact .nil
  · refine (h.attributed.pending e he c n hnum).imp_right (Or.imp_right ?_)
    rintro ⟨g, hg, hslot⟩
    exact ⟨g, by rw [List.getElem?_append_left (List.getElem?_eq_some_iff.mp hg).choose, hg], hslot⟩
  · by_cases hj : j < gs.length
    · rw [List.getElem?_append_left hj] at hg
      exact h.attributed.own j g c hg hc
    · have hidle : g = .idle := by
        rw [List.getElem?_append_right (by omega)] at hg
        simpa using List.mem_of_getElem? hg
      rw [hidle] at hc
      cases hc

theorem sequencing_act {o : ServiceOp} {reply : o.Reply} (h : sequencing.invariant s log gs) (hget : gs[i]? = some g)
    (hpre : carrying.pre g o) (ha : ServiceActs s o reply s') (hguard : inTurn s log (.act ⟨i, o, reply⟩)) :
    ∃ g', carrying.post g o reply g' ∧ sequencing.invariant s' (log ++ [⟨i, o, reply⟩]) (gs.set i g') := by
  obtain ⟨issued, h⟩ := h
  cases ha with
  | nextConnection =>
    refine ⟨_, rfl, issued, Issues.logged (h.draw hget) fun c n hn => ?_⟩
    exact hn
  | worker w =>
    refine ⟨_, ⟨fun r hr => ?_, rfl⟩, issued, Issues.logged (h.look hget ?_) fun c n hn => ?_⟩
    · obtain ⟨hsender, _, hstarted, _⟩ := h.numbering.record w r hr
      exact ⟨hsender, hstarted⟩
    · intro w' r hs
      obtain ⟨r', hr, hpair⟩ := Option.map_eq_some_iff.mp hs
      cases hpair
      exact h.recall hr
    · exact hn
  | publish w record =>
    obtain ⟨hreserved, hsender, hnext, hlast⟩ := hpre
    exact ⟨_, rfl, _, h.publish hget hreserved hsender hnext hlast⟩
  | advanced hmay =>
    obtain ⟨record, hseen, hconn, hnext⟩ := hpre
    refine ⟨_, ⟨fun own hown => ?_, record, hseen, rfl⟩, _, h.advance hget hseen hconn hnext hmay⟩
    obtain ⟨w, r, hm, rfl⟩ := h.attributed.own i g own hget hown
    exact hguard w r hm
  | superseded => exact ⟨g, rfl, h.quiet hget (fun _ _ hn => hn) rfl rfl (fun _ => rfl) fun _ hc => hc⟩
  | accepted hmay =>
    obtain ⟨r, hr, _, _, hseq⟩ := mayAccept_iff.mp hmay
    refine ⟨g, rfl, h.touched hget ?_ (fun _ => ⟨rfl, rfl, rfl⟩) fun r' hr' => ?_⟩
    · exact fun _ _ hn => hn
    · obtain rfl : r = r' := by rw [hr] at hr'; exact Option.some.inj hr'
      simp only
      omega
  | markSendFailed w =>
    refine ⟨g, rfl, h.touched hget ?_ (fun _ => ⟨rfl, rfl, rfl⟩) fun _ _ => le_refl _⟩
    exact fun _ _ hn => hn
  | markDisconnected w c =>
    refine ⟨g, rfl, h.touched hget ?_ (fun r => ?_) fun r _ => ?_⟩
    · exact fun _ _ hn => hn
    · split <;> exact ⟨rfl, rfl, rfl⟩
    · split <;> exact le_refl _
  | @sent c frame hopen =>
    cases frame with
    | ok frame => exact ⟨_, rfl, issued, h.send hget hpre.1 hpre.2 hopen hguard⟩
    | error status =>
      refine ⟨g, rfl, h.quiet hget (fun _ _ hn => hn) rfl rfl (fun c' => ?_) fun _ hc => hc⟩
      simp only [sent]
      by_cases heq : c' = c
      · rw [heq, Function.update_self, frames_append_error]
      · rw [Function.update_of_ne heq]
  | notSent c frame =>
    cases frame with
    | ok frame => exact ⟨_, rfl, issued, h.drop hget hpre.1⟩
    | error status =>
      refine ⟨g, rfl, h.quiet hget (fun _ _ hn => hn) rfl rfl (fun _ => rfl) fun c' hc => ?_⟩
      simp only [receiverGone]
      by_cases heq : c' = c
      · rw [heq, Function.update_self]
      · rwa [Function.update_of_ne heq]
  | _ => exact ⟨g, rfl, h.quiet hget (fun _ _ hn => hn) rfl rfl (fun _ => rfl) fun _ hc => hc⟩

theorem sequencing_kept : sequencing.Kept serviceWorld inTurn where
  act := sequencing_act
  move := by
    rintro s log gs s' ⟨issued, h⟩ ⟨c, frame, rfl⟩ _
    exact ⟨issued, h.same rfl rfl (fun _ => rfl) fun _ hc => hc⟩
  start := by
    rintro s log gs p ⟨issued, h⟩ ⟨request, rfl⟩
    exact ⟨.idle, ends_program request, issued, h.join⟩

end steps

/-- The frame that the worker compares with: the sequence and the acknowledgement of the last one. -/
def lastReceived (received : List ServerToWorker) : Nat × Nat :=
  match received.getLast? with
  | some frame => (frame.sequence, frame.acknowledgesWorkerThrough)
  | none => (0, 0)

theorem InOrder.validates {before after : List ServerToWorker} {frame : ServerToWorker}
    (h : InOrder (before ++ frame :: after)) {sentThrough : Nat} {require : Bool}
    (hs : frame.acknowledgesWorkerThrough ≤ sentThrough)
    (hb : require = true → OutboundWorker.BearsMessageId frame) :
    OutboundWorker.validateServerFrame frame (lastReceived before).1 (lastReceived before).2 sentThrough require =
      .ok () := by
  have hat : ∀ k frame', (before ++ frame :: after)[k]? = some frame' → frame'.sequence = k + 1 := by
    intro k frame' hk
    have hmap := congrArg (·[k]?) h.consecutive
    have hlt := (List.getElem?_eq_some_iff.mp hk).choose
    simp only [List.getElem?_map, hk, Option.map_some, List.getElem?_range' hlt, Option.some.injEq] at hmap
    omega
  have hframe := hat before.length frame (by simp)
  refine OutboundWorker.validateServerFrame_ok_iff.mpr ⟨?_, ?_, hs, hb⟩
  · rcases List.eq_nil_or_concat before with rfl | ⟨earlier, last, rfl⟩
    · exact hframe
    · have hlast := hat earlier.length last (by simp)
      simp only [List.concat_eq_append, lastReceived, List.getLast?_concat] at hframe ⊢
      simp only [List.length_append, List.length_singleton] at hframe
      omega
  · rcases List.eq_nil_or_concat before with rfl | ⟨earlier, last, rfl⟩
    · exact Nat.zero_le _
    · have hpair := h.monotone
      simp only [List.concat_eq_append, List.map_append, List.append_assoc] at hpair
      simp only [List.concat_eq_append, lastReceived, List.getLast?_concat]
      have hrest := (List.pairwise_append.mp hpair).2.1
      simp only [List.map_cons, List.map_nil, List.singleton_append] at hrest
      exact (List.pairwise_cons.mp hrest).1 _ List.mem_cons_self

theorem sequencing_initial (db : ControlDatabase) (counter : Nat) :
    sequencing.Holds (ServingConfig.initial db counter) := by
  refine ⟨[], .nil, fun _ => [], ?_⟩
  refine ⟨⟨fun c hc => absurd rfl hc, by simp, by simp⟩, ⟨?_, ?_⟩, by simp, ⟨fun c => .nil, fun c => rfl, fun c => rfl,
    by simp [ServingConfig.initial, frames]⟩, ⟨by simp, by simp, by simp, by simp⟩, ⟨?_, ?_, by simp⟩⟩
  · intro w r hr
    cases hr
  · intro w w' r r' hr
    cases hr
  · intro c k hk
    cases hk
  · intro e he
    cases he

/-- While every frame is sent in its turn, the frames of each connection enter its channel in strictly
consecutive order from the welcome on, and the worker finds neither a gap nor a regressed acknowledgement. -/
theorem frames_enter_in_order {db : ControlDatabase} {counter : Nat} {c : ServingConfig}
    (h : Run serviceWorld inTurn (ServingConfig.initial db counter) c) (connectionId : String) :
    InOrder (frames (c.state.channels connectionId)) ∧
      ∀ before frame after, frames (c.state.channels connectionId) = before ++ frame :: after →
        ∀ sentThrough require, frame.acknowledgesWorkerThrough ≤ sentThrough →
          (require = true → OutboundWorker.BearsMessageId frame) →
          OutboundWorker.validateServerFrame frame (lastReceived before).1 (lastReceived before).2 sentThrough require =
            .ok () := by
  obtain ⟨gs, _, issued, hissues⟩ := sequencing_kept.run (sequencing_initial db counter) h
  have hordered : InOrder (frames (c.state.channels connectionId)) := by
    refine ⟨hissues.entered.consecutive connectionId, ?_, hissues.entered.welcome connectionId⟩
    rw [hissues.entered.acknowledges]
    exact (hissues.entered.monotone connectionId).sublist (List.take_sublist _ _)
  refine ⟨hordered, fun before frame after heq sentThrough require hs hb => ?_⟩
  rw [heq] at hordered
  exact hordered.validates hs hb

def sampleHello : WorkerHello where
  protocolMajor := 1
  protocolMinor := 7
  workerId := "worker"
  instanceId := "boot"
  workerVersion := "0.1.0"
  features := []
  capabilities := some ⟨1, "sm_121", 1, 4, "590", "13.1", "docker", []⟩
  registration := "registration"

def sampleMeeting : ServingConfig :=
  (ServingConfig.initial .empty 0).serving
    [.openControlStream sampleHello, .enqueueAssignment "worker" (.ok sampleContract)]

def mayTakeTurn (s : ServiceState) (log : List ServiceEvent) : ServiceEvent → Bool
  | ⟨i, .send connectionId (.ok frame), true⟩ => log.all fun e => decide (e.task ≠ i → ∀ number < frame.sequence,
      Numbers e connectionId number → ∃ earlier ∈ frames (s.channels connectionId), earlier.sequence = number)
  | ⟨i, .advance _ connectionId _, true⟩ => log.all fun
    | ⟨j, .publish _ record, _⟩ => decide (j = i → record.connectionId = connectionId)
    | _ => true
  | _ => true

theorem inTurn_of_mayTakeTurn {s : ServiceState} {log : List ServiceEvent} {e : ServiceEvent}
    (h : mayTakeTurn s log e = true) : inTurn s log (.act e) := by
  unfold mayTakeTurn at h
  split at h
  · exact fun e he => of_decide_eq_true (List.all_eq_true.mp h e he)
  · intro w r hm
    exact of_decide_eq_true (List.all_eq_true.mp h _ hm) rfl
  · unfold inTurn
    split <;> simp_all

def inTurnPlayer : Player serviceWorld inTurn where
  perform := ServiceState.perform
  allows := mayTakeTurn
  acts := ServiceState.perform_acts
  guarded _ _ _ h := inTurn_of_mayTakeTurn h

theorem frames_enter_in_order_sample : ∃ c, Run serviceWorld inTurn (ServingConfig.initial .empty 0) c ∧
    (frames (c.state.channels "connection-0")).map (·.sequence) = [1, 2] ∧
    InOrder (frames (c.state.channels "connection-0")) := by
  have hplay : ((inTurnPlayer.play (List.replicate 8 0 ++ List.replicate 14 1) sampleMeeting).any fun c =>
      decide ((frames (c.state.channels "connection-0")).map (·.sequence) = [1, 2])) = true := by
    decide +kernel
  obtain ⟨c, hrun, hframes⟩ := Player.play_any hplay
  have hstart : Run serviceWorld inTurn (ServingConfig.initial .empty 0) sampleMeeting :=
    ServingConfig.run_serving _ _ trivial
  exact ⟨c, hstart.trans hrun, of_decide_eq_true hframes, (frames_enter_in_order (hstart.trans hrun) _).1⟩

/-- An assignment that is enqueued between the publication of a connection and the sending of its welcome overtakes
the welcome, and the worker drops the session. -/
theorem assignment_overtakes_welcome : ∃ c,
    Run serviceWorld (fun _ _ _ => True) (ServingConfig.initial .empty 0) c ∧
      ¬ InOrder (frames (c.state.channels "connection-0")) ∧
      ∃ frame rest, frames (c.state.channels "connection-0") = frame :: rest ∧
        OutboundWorker.validateServerFrame frame 0 0 1 false =
          .error (.protocol "server sequence gap: expected 1, got 2") := by
  have hplay : ((servicePlayer.play (List.replicate 7 0 ++ List.replicate 14 1 ++ [0]) sampleMeeting).any fun c =>
      decide ((frames (c.state.channels "connection-0")).map (·.sequence) = [2, 1])) = true := by
    decide +kernel
  obtain ⟨c, hrun, hframes⟩ := Player.play_any hplay
  have hstart : Run serviceWorld (fun _ _ _ => True) (ServingConfig.initial .empty 0) sampleMeeting :=
    ServingConfig.run_serving _ _ trivial
  have hsequences := of_decide_eq_true hframes
  refine ⟨c, hstart.trans hrun, fun hordered => ?_, ?_⟩
  · have hconsecutive := hordered.consecutive
    rw [hsequences] at hconsecutive
    cases hlen : (frames (c.state.channels "connection-0")).length with
    | zero => simp [hlen] at hconsecutive
    | succ n => simp [hlen, List.range'_succ] at hconsecutive
  · cases hfirst : frames (c.state.channels "connection-0") with
    | nil => simp [hfirst] at hsequences
    | cons frame rest =>
      rw [hfirst, List.map_cons, List.cons.injEq] at hsequences
      refine ⟨frame, rest, rfl, ?_⟩
      simp only [OutboundWorker.validateServerFrame, hsequences.1]
      rfl

end AlloyPort
