import AlloyPort.ControlStream.Flow

/-! No step breaks the invariant of the control streams, so that no run in which every connection is given more to
carry only while there is room for it comes to a deadlock. -/

namespace AlloyPort.ControlStream

open Effect Interleaving Backpressure Link

variable {buffers : Buffers} {s s' : Link} {log log' : List LinkEvent} {gs gs' : List Hand} {i n : Nat} {g g' : Hand}
variable {e : LinkEvent}

section beside

theorem Cast.join (h : Cast s log gs) : Cast s log (gs ++ [Hand.idle]) := by
  have hrole : ∀ g ∈ gs ++ [Hand.idle], ∀ role, g.role = some role → g ∈ gs := by
    intro g hg role hr
    rcases List.mem_append.mp hg with hg | hg
    · exact hg
    · rw [List.mem_singleton] at hg
      subst hg
      cases hr
  refine ⟨fun g hg n hr => h.session g (hrole g hg _ hr) n hr, h.unborn, h.established, h.mute,
    fun g hg n hr => h.serving g (hrole g hg _ hr) n hr, fun g hg n c hr => h.called g (hrole g hg _ hr) n c hr,
    fun g hg c hr => h.consumer g (hrole g hg _ hr) c hr, ?_⟩
  have hold : ∀ (i : Nat) g, (gs ++ [Hand.idle])[i]? = some g → g.role ≠ none → gs[i]? = some g := by
    intro i g hi hr
    by_cases hlt : i < gs.length
    · rwa [List.getElem?_append_left hlt] at hi
    · rw [List.getElem?_append_right (Nat.le_of_not_lt hlt)] at hi
      have hmem := List.mem_of_getElem? hi
      rw [List.mem_singleton] at hmem
      subst hmem
      exact absurd rfl hr
  exact fun i j g g' hi hj heq hr => h.apart i j g g' (hold i g hi hr) (hold j g' hj (heq ▸ hr)) heq hr

theorem dueOn_join (connectionId : String) : dueOn (gs ++ [Hand.idle]) connectionId = dueOn gs connectionId := by
  rw [dueOn, List.flatMap_append, List.flatMap_singleton]
  exact congrArg (List.count connectionId) (List.append_nil _)

theorem Owned.join (h : Owned s gs) : Owned s (gs ++ [Hand.idle]) := by
  refine ⟨?_, h.owner, h.record, fun g hg c hc => ?_, h.attached⟩
  · rw [List.map_append]
    exact h.named.join
  · rcases List.mem_append.mp hg with hg | hg
    · exact h.due g hg c hc
    · rw [List.mem_singleton] at hg
      subst hg
      cases hc

theorem Carries.join (h : Carries buffers s log gs) : Carries buffers s log (gs ++ [Hand.idle]) :=
  ⟨h.silent, h.undrained, fun n c hc => by rw [dueOn_join]; exact h.sent n c hc, h.room⟩

theorem moves_kept (h : Cast s log gs ∧ Owned s gs ∧ Carries buffers s log gs) (hm : s.Moves buffers s') :
    Cast s' log gs ∧ Owned s' gs ∧ Carries buffers s' log gs := by
  obtain ⟨hcast, howned, hcarries⟩ := h
  cases hm with
  | executed workerId hs =>
    exact ⟨⟨hcast.session, hcast.unborn, hcast.established, hcast.mute, hcast.serving, hcast.called, hcast.consumer,
      hcast.apart⟩, ⟨howned.named, howned.owner, howned.record, howned.due, howned.attached⟩,
      ⟨hcarries.silent, hcarries.undrained, hcarries.sent, hcarries.room⟩⟩
  | @carriedUp connectionId frame rest hout hroom =>
    refine ⟨⟨hcast.session, hcast.unborn, hcast.established, hcast.mute, hcast.serving, hcast.called, hcast.consumer,
      hcast.apart⟩, ⟨howned.named, howned.owner, howned.record, howned.due, howned.attached⟩,
      ⟨hcarries.silent, fun c hc => ?_, hcarries.sent, fun n c hc => ?_⟩⟩
    · have hempty := hcarries.undrained c hc
      have hne : c ≠ connectionId := by
        rintro rfl
        rw [hout] at hempty
        cases hempty.2.1
      dsimp only
      rw [Function.update_of_ne hne, Function.update_of_ne hne]
      exact hempty
    · refine (hcarries.room n c hc).less rfl ?_ rfl (Nat.le_refl _)
      by_cases hne : c = connectionId
      · subst hne
        simp [kinds, hout]
      · simp [kinds, Function.update_of_ne hne]
  | @carriedDown connectionId hdrained hmore hroom =>
    refine ⟨⟨hcast.session, hcast.unborn, hcast.established, hcast.mute, hcast.serving, hcast.called, hcast.consumer,
      hcast.apart⟩, ⟨howned.named, howned.owner, howned.record, howned.due, howned.attached⟩,
      ⟨hcarries.silent, fun c hc => ?_, hcarries.sent, hcarries.room⟩⟩
    have hne : c ≠ connectionId := by
      rintro rfl
      exact hc hdrained
    dsimp only
    rw [Function.update_of_ne hne]
    exact hcarries.undrained c hc

end beside

theorem apart_set (h : ∀ (i j : Nat) g g', gs[i]? = some g → gs[j]? = some g' → g.role = g'.role → g.role ≠ none →
    i = j)
    (hget : gs[i]? = some g) (hrole : g'.role = g.role) {j k : Nat} {g₁ g₂ : Hand} (hj : (gs.set i g')[j]? = some g₁)
    (hk : (gs.set i g')[k]? = some g₂) (heq : g₁.role = g₂.role) (hr : g₁.role ≠ none) : j = k := by
  have hold : ∀ (j : Nat) g₁, (gs.set i g')[j]? = some g₁ → ∃ g₂, gs[j]? = some g₂ ∧ g₁.role = g₂.role := by
    intro j g₁ hj
    rcases getElem?_set_cases hj with ⟨rfl, rfl⟩ | ⟨_, hj⟩
    · exact ⟨g, hget, hrole⟩
    · exact ⟨g₁, hj, rfl⟩
  obtain ⟨g₃, hj, hr₁⟩ := hold j g₁ hj
  obtain ⟨g₄, hk, hr₂⟩ := hold k g₂ hk
  exact h j k g₃ g₄ hj hk (by rw [← hr₁, ← hr₂, heq]) (by rwa [← hr₁])

section sessions

variable {b : Burden} {workerId : String} {o : WorkerOp} {reply : o.Reply} {c : String}

theorem after_mute (hpre : speaking.pre b o) (h : b.stream = none → b.owes = []) :
    (b.after o reply).stream = none → (b.after o reply).owes = [] := by
  intro hnone
  unfold Burden.after at hnone ⊢
  split at hnone
  · cases hnone
  · split at hnone
    · cases hnone ▸ ‹b.stream.isSome = true›
    · rw [if_neg ‹_›]
      exact h hnone
  · cases hpre.symm.trans hnone
  · cases hpre.symm.trans hnone
  · cases hpre.1.symm.trans hnone
  · exact h hnone

theorem after_stream (ho : o ≠ .response) : (b.after o reply).stream = b.stream := by
  unfold Burden.after
  split
  · exact absurd rfl ho
  · split <;> rfl
  all_goals rfl

structure WorkStays (s s' : Link) (m : Nat) : Prop where
  connection : (s'.calls m).connection = (s.calls m).connection
  handed : (s'.calls m).isHanded = (s.calls m).isHanded
  serving : s.calls m = .serving → s'.calls m = .serving
  established : ∀ w c, s.calls m = .established w c → s'.calls m = .established w c

theorem WorkerActs.stays (h : WorkerActs s n workerId o reply s') (m : Nat) : WorkStays s s' m := by
  have hstage : ∀ {stage : CallStage}, s.calls n = stage → ∀ stage' : CallStage, stage'.connection = stage.connection →
      stage'.isHanded = stage.isHanded → stage ≠ .serving → (∀ w c, stage ≠ .established w c) →
      WorkStays s (s.withCall n stage') m := by
    intro stage hs stage' hc hh hserving hestablished
    by_cases hm : m = n
    · subst hm
      have hnew : (s.withCall m stage').calls m = stage' := Function.update_self ..
      exact ⟨by rw [hnew, hs, hc], by rw [hnew, hs, hh], fun h => absurd (hs.symm.trans h) hserving,
        fun w c h => absurd (hs.symm.trans h) (hestablished w c)⟩
    · have hnew : (s.withCall n stage').calls m = s.calls m := Function.update_of_ne hm ..
      exact ⟨by rw [hnew], by rw [hnew], fun h => by rw [hnew, h], fun w c h => by rw [hnew, h]⟩
  cases h with
  | openControlStream hello activeAttempts hidle =>
    exact hstage hidle _ rfl rfl (by intro h; cases h) (by intro w c h; cases h)
  | answered hanswered => exact hstage hanswered _ rfl rfl (by intro h; cases h) (by intro w c h; cases h)
  | _ => exact ⟨rfl, rfl, id, fun _ _ h => h⟩

theorem WorkerActs.rest (h : WorkerActs s n workerId o reply s') :
    s'.sessions = s.sessions ∧ s'.attached = s.attached ∧ s'.service = s.service ∧ s'.carried = s.carried := by
  cases h <;> exact ⟨rfl, rfl, rfl, rfl⟩

theorem WorkerActs.stream (h : WorkerActs s n workerId o reply s')
    (hstream : (b.after o reply).stream = some c) : b.stream = some c ∨ ∃ w, s'.calls n = .established w c := by
  cases h with
  | @answered registered connectionId hanswered =>
    cases hstream
    exact .inr ⟨registered, Function.update_self ..⟩
  | unanswered error => exact .inl hstream
  | _ => exact .inl ((after_stream (by intro h; cases h)).symm.trans hstream)

theorem burden_work : burden (log ++ [⟨i, .work n workerId o, reply⟩]) =
    Function.update (burden log) n ((burden log n).after o reply) := by
  funext m
  rw [burden_append]
  by_cases hm : m = n
  · subst hm
    rw [Function.update_self]
    exact if_pos rfl
  · rw [Function.update_of_ne hm]
    exact if_neg fun h => hm h.symm

theorem Cast.work (h : Cast s log gs) (hget : gs[i]? = some g) (hpre : linking.pre g (.work n workerId o))
    (ha : WorkerActs s n workerId o reply s') :
    Cast s' (log ++ [⟨i, .work n workerId o, reply⟩]) (gs.set i { g with burden := g.burden.after o reply }) := by
  obtain ⟨hrole, hspeaks⟩ := hpre
  obtain ⟨hlt, hburden⟩ := h.session g (List.mem_of_getElem? hget) n hrole
  obtain ⟨hsessions, hattached, _, _⟩ := ha.rest
  have hmem : ∀ g₁ ∈ gs.set i { g with burden := g.burden.after o reply }, ∃ g₂ ∈ gs, g₁.role = g₂.role ∧
      g₁.credit = g₂.credit := by
    intro g₁ hg₁
    rcases List.mem_or_eq_of_mem_set hg₁ with hg₁ | rfl
    · exact ⟨g₁, hg₁, rfl, rfl⟩
    · exact ⟨g, List.mem_of_getElem? hget, rfl, rfl⟩
  refine ⟨fun g₁ hg₁ m hm => ?_, fun m hm => ?_, fun m c hc => ?_, fun m hnone => ?_, fun g₁ hg₁ m hm hown => ?_,
    fun g₁ hg₁ m c hm hown => ?_, fun g₁ hg₁ c hc => ?_, fun j k g₁ g₂ hj hk heq hr => ?_⟩
  · rw [hsessions, burden_work]
    obtain ⟨j, hj⟩ := List.mem_iff_getElem?.mp hg₁
    rcases getElem?_set_cases hj with ⟨rfl, rfl⟩ | ⟨hne, hj⟩
    · obtain rfl : n = m := by
        rw [hrole] at hm
        exact Role.session.inj (Option.some.inj hm)
      rw [Function.update_self, ← hburden]
      exact ⟨hlt, rfl⟩
    · have hmn : m ≠ n := by
        rintro rfl
        exact hne (h.apart i j g g₁ hget hj (hrole.trans hm.symm) (by rw [hrole]; exact Option.some_ne_none _))
      rw [Function.update_of_ne hmn]
      exact h.session g₁ (List.mem_of_getElem? hj) m hm
  · rw [hsessions] at hm
    rw [burden_work, Function.update_of_ne (by omega)]
    exact h.unborn m hm
  · rw [burden_work] at hc
    by_cases hm : m = n
    · subst hm
      rw [Function.update_self] at hc
      rcases ha.stream hc with hc | hc
      · obtain ⟨w, hw⟩ := h.established m c hc
        exact ⟨w, (ha.stays m).established w c hw⟩
      · exact hc
    · rw [Function.update_of_ne hm] at hc
      obtain ⟨w, hw⟩ := h.established m c hc
      exact ⟨w, (ha.stays m).established w c hw⟩
  · rw [burden_work] at hnone ⊢
    by_cases hm : m = n
    · subst hm
      rw [Function.update_self] at hnone ⊢
      rw [hburden] at hspeaks
      exact after_mute hspeaks (h.mute m) hnone
    · rw [Function.update_of_ne hm] at hnone ⊢
      exact h.mute m hnone
  · obtain ⟨g₂, hg₂, hr, hcredit⟩ := hmem g₁ hg₁
    rw [hr] at hm
    rw [hcredit] at hown
    exact (ha.stays m).serving (h.serving g₂ hg₂ m hm hown)
  · obtain ⟨g₂, hg₂, hr, hcredit⟩ := hmem g₁ hg₁
    rw [hr] at hm
    rw [hcredit] at hown
    rw [(ha.stays m).connection]
    exact h.called g₂ hg₂ m c hm hown
  · obtain ⟨g₂, hg₂, hr, _⟩ := hmem g₁ hg₁
    rw [hr] at hc
    rw [hattached]
    exact h.consumer g₂ hg₂ c hc
  · have hsame : Hand.role { g with burden := g.burden.after o reply } = g.role := rfl
    exact apart_set h.apart hget hsame hj hk heq hr

theorem known_congr (h : ∀ m, (s'.calls m).connection = (s.calls m).connection) (c : String) :
    s'.Known c ↔ s.Known c := by
  unfold Link.Known
  simp only [h]

theorem Owned.work (h : Owned s gs) (hget : gs[i]? = some g) (ha : WorkerActs s n workerId o reply s') :
    Owned s' (gs.set i { g with burden := b }) := by
  obtain ⟨_, hattached, hservice, _⟩ := ha.rest
  have hconn : ∀ m, (s'.calls m).connection = (s.calls m).connection := fun m => (ha.stays m).connection
  have hknown := known_congr hconn
  refine ⟨?_, fun m m' c hm hm' => ?_, fun w r hr => ?_, fun g₁ hg₁ c hc => ?_, fun c hc => ?_⟩
  · have hreserved : (gs.set i { g with burden := b }).map (·.credit.reserved) = gs.map (·.credit.reserved) :=
      map_set_same hget rfl
    rw [hservice, hreserved]
    exact h.named.congr hknown
  · rw [hconn] at hm hm'
    exact h.owner m m' c hm hm'
  · rw [hservice] at hr
    exact ⟨(h.record w r hr).1, (hknown _).mpr (h.record w r hr).2⟩
  · refine (hknown c).mpr ?_
    rcases List.mem_or_eq_of_mem_set hg₁ with hg₁ | rfl
    · exact h.due g₁ hg₁ c hc
    · exact h.due g (List.mem_of_getElem? hget) c hc
  · rw [hattached] at hc
    obtain ⟨m, hm, hhanded⟩ := h.attached c hc
    exact ⟨m, (hconn m).trans hm, (ha.stays m).handed.trans hhanded⟩

theorem owes_after (ho : ∀ stream frame, o ≠ .send stream frame) : (b.after o reply).owes = b.owes ∨
    ∀ c, (s.calls n).connection = some c → Loads s n c ⟨i, .work n workerId o, reply⟩ := by
  unfold Burden.after
  split
  · exact .inl rfl
  · exact .inr fun c hc => ⟨rfl, hc⟩
  · exact .inr fun c hc => ⟨rfl, hc⟩
  · exact .inr fun c hc => ⟨rfl, hc⟩
  · exact absurd rfl (ho _ _)
  · exact .inl rfl

theorem Carries.room_work (h : Carries buffers s log gs)
    (howes : ((burden log n).after o reply).owes = (burden log n).owes ∨
      ∀ c, (s.calls n).connection = some c → Loads s n c ⟨i, .work n workerId o, reply⟩)
    (hguard : ∀ c, Loads s n c ⟨i, .work n workerId o, reply⟩ →
      Room buffers s (log ++ [⟨i, .work n workerId o, reply⟩]) n c) {m : Nat}
    (hc : (s.calls m).connection = some c) : Room buffers s (log ++ [⟨i, .work n workerId o, reply⟩]) m c := by
  have hcommits : commitments (log ++ [⟨i, .work n workerId o, reply⟩]) m c = commitments log m c := by
    rw [commitments_append]
    rfl
  by_cases hm : m = n
  · subst hm
    rcases howes with howes | hloads
    · refine (h.room m c hc).less rfl ?_ hcommits (Nat.le_refl _)
      rw [burden_work, Function.update_self, howes]
    · exact hguard c (hloads c hc)
  · refine (h.room m c hc).less rfl ?_ hcommits (Nat.le_refl _)
    rw [burden_work, Function.update_of_ne hm]

theorem Carries.work (h : Carries buffers s log gs) (hcast : Cast s log gs) (howned : Owned s gs)
    (hget : gs[i]? = some g) (hpre : linking.pre g (.work n workerId o)) (ha : WorkerActs s n workerId o reply s')
    (hguard : ∀ c, Loads s n c ⟨i, .work n workerId o, reply⟩ →
      Room buffers s (log ++ [⟨i, .work n workerId o, reply⟩]) n c) :
    Carries buffers s' (log ++ [⟨i, .work n workerId o, reply⟩])
      (gs.set i { g with burden := g.burden.after o reply }) := by
  obtain ⟨hrole, hspeaks⟩ := hpre
  obtain ⟨_, hburden⟩ := hcast.session g (List.mem_of_getElem? hget) n hrole
  obtain ⟨_, hattached, hservice, hcarried⟩ := ha.rest
  have hconn : ∀ m, (s'.calls m).connection = (s.calls m).connection := fun m => (ha.stays m).connection
  have hhanded : ∀ m, (s'.calls m).isHanded = (s.calls m).isHanded := fun m => (ha.stays m).handed
  have hdrained : ∀ c, s'.Drained c ↔ s.Drained c := by
    intro c
    unfold Link.Drained
    simp only [hconn, hhanded]
  have hcommits : ∀ m c, commitments (log ++ [⟨i, .work n workerId o, reply⟩]) m c = commitments log m c := by
    intro m c
    rw [commitments_append]
    rfl
  have hdue : ∀ c, dueOn (gs.set i { g with burden := g.burden.after o reply }) c = dueOn gs c := by
    intro c
    exact congrArg (List.count c) (flatMap_set_same hget rfl)
  have hsilent : ∀ c, ¬ s'.Known c → s'.service.channels c = [] := by
    intro c hc
    rw [hservice]
    exact h.silent c fun hk => hc ((known_congr hconn c).mpr hk)
  have hsent : ∀ m c, (s'.calls m).connection = some c → (s'.service.channels c).length +
      dueOn (gs.set i { g with burden := g.burden.after o reply }) c ≤
        commitments (log ++ [⟨i, .work n workerId o, reply⟩]) m c + if c ∈ s'.attached then 1 else 0 := by
    intro m c hc
    rw [hservice, hdue, hcommits, hattached]
    exact h.sent m c ((hconn m).symm.trans hc)
  have hkeeps : s'.outgoing = s.outgoing →
      (((burden log n).after o reply).owes = (burden log n).owes ∨
        ∀ c, (s.calls n).connection = some c → Loads s n c ⟨i, .work n workerId o, reply⟩) →
      (∀ c, s.read c ≤ s'.read c) → Carries buffers s' (log ++ [⟨i, .work n workerId o, reply⟩])
      (gs.set i { g with burden := g.burden.after o reply }) := by
    intro hout howes hread
    refine ⟨hsilent, fun c hc => ?_, hsent, fun m c hc => ?_⟩
    · rw [hcarried, hout, hservice]
      exact h.undrained c fun hd => hc ((hdrained c).mpr hd)
    · have hroom := h.room_work howes hguard ((hconn m).symm.trans hc)
      refine hroom.less (hhanded m) ?_ rfl (hread c)
      rw [kinds, kinds, hservice, hout]
  have hreads : ∀ {stream : String} (c : String), s.read c ≤ (s.readFrame stream).read c := by
    intro stream c
    show s.read c ≤ Function.update s.read stream (s.read stream + 1) c
    rw [Function.update_apply]
    split
    · subst c
      exact Nat.le_succ _
    · exact Nat.le_refl _
  cases ha with
  | @sent stream frame hfree =>
    obtain ⟨hstream, rest, howes⟩ := hspeaks
    rw [hburden] at hstream howes
    obtain ⟨w, hstage⟩ := hcast.established n stream hstream
    have hown : (s.calls n).connection = some stream := by rw [hstage]; rfl
    refine ⟨hsilent, fun c hc => ?_, hsent, fun m c hc => ?_⟩
    · have hne : c ≠ stream := by
        rintro rfl
        exact hc ⟨n, hown, by rw [hhanded, hstage]; rfl⟩
      have hempty := h.undrained c hc
      exact ⟨hempty.1, (Function.update_of_ne hne _ s.outgoing).trans hempty.2.1, hempty.2.2⟩
    · have hroom := h.room m c hc
      by_cases hm : m = n
      · subst hm
        obtain rfl : c = stream := Option.some.inj (hc.symm.trans hown)
        refine hroom.less rfl ?_ (hcommits m c) (Nat.le_refl _)
        rw [burden_work, Function.update_self, howes, Burden.after, howes]
        show ((s.service.inbound c ++ Function.update s.outgoing c (s.outgoing c ++ [frame]) c).map isDurable) ++
          rest = _
        rw [Function.update_self, kinds]
        simp
      · have hne : c ≠ stream := fun heq => hm (howned.owner m n stream (heq ▸ hc) hown)
        refine hroom.less rfl ?_ (hcommits m c) (Nat.le_refl _)
        rw [burden_work, Function.update_of_ne hm, kinds, kinds]
        rw [show (s.sentFrame stream frame).outgoing c = s.outgoing c from Function.update_of_ne hne _ s.outgoing]
        rfl
  | notSent stream frame => exact hkeeps rfl (.inl rfl) fun c => Nat.le_refl _
  | received | incoming => exact hkeeps rfl (owes_after (by intro _ _ h; cases h)) hreads
  | _ => exact hkeeps rfl (owes_after (by intro _ _ h; cases h)) fun c => Nat.le_refl _

end sessions

section service

variable {service' : ServiceState} {caller : Caller} {o : ServiceOp} {reply : o.Reply} {credit : Credit}

theorem burden_serve : burden (log ++ [⟨i, .serve caller o, reply⟩]) = burden log := by
  funext m
  rw [burden_append]
  rfl

theorem Cast.serve (h : Cast s log gs) (hget : gs[i]? = some g) (hown : credit.own = g.credit.own)
    (hsessions : s'.sessions = s.sessions) (hattached : s'.attached = s.attached) (hcalls : s'.calls = s.calls) :
    Cast s' (log ++ [⟨i, .serve caller o, reply⟩]) (gs.set i { g with credit := credit }) := by
  have hmem : ∀ g₁ ∈ gs.set i { g with credit := credit }, ∃ g₂ ∈ gs, g₁.role = g₂.role ∧ g₁.burden = g₂.burden ∧
      g₁.credit.own = g₂.credit.own := by
    intro g₁ hg₁
    rcases List.mem_or_eq_of_mem_set hg₁ with hg₁ | rfl
    · exact ⟨g₁, hg₁, rfl, rfl, rfl⟩
    · exact ⟨g, List.mem_of_getElem? hget, rfl, rfl, hown⟩
  have hsame : Hand.role { g with credit := credit } = g.role := rfl
  refine ⟨fun g₁ hg₁ m hm => ?_, fun m hm => ?_, fun m c hc => ?_, fun m hm => ?_, fun g₁ hg₁ m hm hnone => ?_,
    fun g₁ hg₁ m c hm hsome => ?_, fun g₁ hg₁ c hc => ?_, fun j k g₁ g₂ hj hk => apart_set h.apart hget hsame hj hk⟩
  · obtain ⟨g₂, hg₂, hr, hb, _⟩ := hmem g₁ hg₁
    rw [hsessions, burden_serve, hb]
    exact h.session g₂ hg₂ m (hr ▸ hm)
  · rw [hsessions] at hm
    rw [burden_serve]
    exact h.unborn m hm
  · rw [burden_serve] at hc
    rw [hcalls]
    exact h.established m c hc
  · rw [burden_serve] at hm ⊢
    exact h.mute m hm
  · obtain ⟨g₂, hg₂, hr, _, ho⟩ := hmem g₁ hg₁
    rw [hcalls]
    exact h.serving g₂ hg₂ m (hr ▸ hm) (ho ▸ hnone)
  · obtain ⟨g₂, hg₂, hr, _, ho⟩ := hmem g₁ hg₁
    rw [hcalls]
    exact h.called g₂ hg₂ m c (hr ▸ hm) (ho ▸ hsome)
  · obtain ⟨g₂, hg₂, hr, _⟩ := hmem g₁ hg₁
    rw [hattached]
    exact h.consumer g₂ hg₂ c (hr ▸ hc)

/-- Every record is one that was there before, or at least of the same connection. -/
def Records (service service' : ServiceState) : Prop :=
  ∀ w r', service'.workers.lookup w = some r' → ∃ w₀ r, service.workers.lookup w₀ = some r ∧ r.sender = r'.sender ∧
    r.connectionId = r'.connectionId

variable {service : ServiceState} {f : WorkerRecord → WorkerRecord} {stream : String} {w : String}

theorem records_update (hf : ∀ r, (f r).sender = r.sender ∧ (f r).connectionId = r.connectionId) :
    Records service (service.updateRecord w f) := by
  intro w' r' hr'
  rw [ServiceState.updateRecord_lookup] at hr'
  split at hr'
  · obtain ⟨r, hr, rfl⟩ := Option.map_eq_some_iff.mp hr'
    exact ⟨w, r, hr, (hf r).1.symm, (hf r).2.symm⟩
  · exact ⟨w', r', hr', rfl, rfl⟩

structure Undisturbed (service service' : ServiceState) : Prop where
  channels : service'.channels = service.channels
  inbound : service'.inbound = service.inbound
  records : Records service service'

theorem undisturbed_rfl : Undisturbed service service :=
  ⟨rfl, rfl, fun w r h => ⟨w, r, h, rfl, rfl⟩⟩

theorem undisturbed_update (hf : ∀ r, (f r).sender = r.sender ∧ (f r).connectionId = r.connectionId) :
    Undisturbed service (service.updateRecord w f) := by
  have hrest := ServiceState.updateRecord_rest (s := service) (w := w) (f := f)
  refine ⟨hrest.2.1, ?_, records_update hf⟩
  unfold ServiceState.updateRecord
  split <;> rfl

theorem plain_undisturbed (ho : IsPlain o) (ha : ServiceActs service o reply service') :
    Undisturbed service service' := by
  cases ha with
  | nextConnection | publish | advanced | superseded | sent | notSent | received | broken => exact ho.elim
  | accepted | markSendFailed => exact undisturbed_update fun r => ⟨rfl, rfl⟩
  | markDisconnected w c =>
    refine undisturbed_update fun r => ?_
    split <;> exact ⟨rfl, rfl⟩
  | _ => exact ⟨rfl, rfl, fun w r h => ⟨w, r, h, rfl, rfl⟩⟩

theorem plain_counter (ho : IsPlain o) (ha : ServiceActs service o reply service') :
    service'.connectionCounter = service.connectionCounter := by
  cases ha with
  | nextConnection | advanced => exact ho.elim
  | accepted | markSendFailed | markDisconnected => exact ServiceState.updateRecord_rest.1
  | _ => rfl

/-- What a step of the service leaves of the streams, but for what is sent and taken in. -/
structure ServeStays (s s' : Link) : Prop where
  sessions : s'.sessions = s.sessions
  attached : s'.attached = s.attached
  outgoing : s'.outgoing = s.outgoing
  carried : s'.carried = s.carried
  read : s'.read = s.read

theorem served_stays : ServeStays s (s.served caller o service') := by
  cases caller <;> exact ⟨rfl, rfl, rfl, rfl, rfl⟩

theorem served_service : (s.served caller o service').service = service' := by
  cases caller <;> rfl

theorem served_calls (ho : ∀ w r, o ≠ .publish w r) : (s.served caller o service').calls = s.calls := by
  have hafter : ∀ stage : CallStage, stage.after o = stage := by
    intro stage
    cases o with
    | publish w r => exact absurd rfl (ho w r)
    | _ => rfl
  cases caller with
  | call n =>
    show Function.update s.calls n ((s.calls n).after o) = s.calls
    rw [hafter, Function.update_eq_self]
  | _ => rfl

theorem Owned.serve (h : Owned s gs) (hservice : Undisturbed s.service s'.service)
    (hcalls : s'.calls = s.calls) (hattached : s'.attached = s.attached)
    (hnamed : Named s'.service.connectionCounter ((gs.map (·.credit.reserved)).set i credit.reserved) s.Known)
    (hdue : ∀ c ∈ credit.due, s.Known c) : Owned s' (gs.set i { g with credit := credit }) := by
  have hknown : ∀ c, s'.Known c ↔ s.Known c := known_congr fun m => by rw [hcalls]
  refine ⟨?_, fun m m' c hm hm' => ?_, fun w r hr => ?_, fun g₁ hg₁ c hc => (hknown c).mpr ?_, fun c hc => ?_⟩
  · rw [List.map_set]
    exact hnamed.congr hknown
  · rw [hcalls] at hm hm'
    exact h.owner m m' c hm hm'
  · obtain ⟨w₀, r₀, hr₀, hsender, hconnection⟩ := hservice.records w r hr
    obtain ⟨hown, hk⟩ := h.record w₀ r₀ hr₀
    rw [← hsender, ← hconnection]
    exact ⟨hown, (hknown _).mpr hk⟩
  · rcases List.mem_or_eq_of_mem_set hg₁ with hg₁ | rfl
    · exact h.due g₁ hg₁ c hc
    · exact hdue c hc
  · rw [hattached] at hc
    obtain ⟨m, hm, hhanded⟩ := h.attached c hc
    exact ⟨m, by rw [hcalls]; exact hm, by rw [hcalls]; exact hhanded⟩

theorem Carries.serve (h : Carries buffers s log gs) (hservice : Undisturbed s.service s'.service)
    (hcalls : s'.calls = s.calls) (hstays : ServeStays s s')
    (hsent : ∀ n c, (s.calls n).connection = some c →
      dueOn gs' c + commitments log n c ≤ dueOn gs c + commitments log' n c)
    (hroom : ∀ n c, (s.calls n).connection = some c → Room buffers s log' n c) : Carries buffers s' log' gs' := by
  refine ⟨fun c hc => ?_, fun c hc => ?_, fun m c hc => ?_, fun m c hc => ?_⟩
  · rw [hservice.channels]
    exact h.silent c fun hk => hc ((known_congr (fun m => by rw [hcalls]) c).mpr hk)
  · rw [hstays.carried, hstays.outgoing, hservice.inbound]
    refine h.undrained c fun hd => hc ?_
    obtain ⟨m, hm, hhanded⟩ := hd
    exact ⟨m, by rw [hcalls]; exact hm, by rw [hcalls]; exact hhanded⟩
  · rw [hcalls] at hc
    have hbefore := h.sent m c hc
    have hstep := hsent m c hc
    rw [hservice.channels, hstays.attached]
    omega
  · rw [hcalls] at hc
    refine (hroom m c hc).less (by rw [hcalls]) ?_ rfl (by rw [hstays.read])
    rw [kinds, kinds, hservice.inbound, hstays.outgoing]

theorem serve_step (h : Cast s log gs ∧ Owned s gs ∧ Carries buffers s log gs) (hget : gs[i]? = some g)
    (hservice : Undisturbed s.service service') (ho : ∀ w r, o ≠ .publish w r) (hown : credit.own = g.credit.own)
    (hnamed : Named service'.connectionCounter ((gs.map (·.credit.reserved)).set i credit.reserved) s.Known)
    (hdue : ∀ c ∈ credit.due, s.Known c)
    (hcommits : ∀ n c, (s.calls n).connection = some c → credit.due.count c ≤
      g.credit.due.count c + if commits n c ⟨i, .serve caller o, reply⟩ then 1 else 0)
    (hguard : ∀ n c, (s.calls n).connection = some c → commits n c ⟨i, .serve caller o, reply⟩ = true →
      Room buffers s (log ++ [⟨i, .serve caller o, reply⟩]) n c) :
    let s' := s.served caller o service'
    let log' := log ++ [⟨i, .serve caller o, reply⟩]
    let gs' := gs.set i { g with credit := credit }
    Cast s' log' gs' ∧ Owned s' gs' ∧ Carries buffers s' log' gs' := by
  obtain ⟨hcast, howned, hcarries⟩ := h
  have hcalls : (s.served caller o service').calls = s.calls := served_calls ho
  have hstays : ServeStays s (s.served caller o service') := served_stays
  have hservice' : Undisturbed s.service (s.served caller o service').service := by rwa [served_service]
  refine ⟨hcast.serve hget hown hstays.sessions hstays.attached hcalls,
    howned.serve hservice' hcalls hstays.attached (by rwa [served_service]) hdue,
    hcarries.serve hservice' hcalls hstays (fun m c hc => ?_) fun m c hc => ?_⟩
  · have hset := dueOn_set hget { g with credit := credit } c
    have hcount := hcommits m c hc
    rw [commitments_append]
    dsimp only at hset
    omega
  · by_cases hm : commits m c ⟨i, .serve caller o, reply⟩ = true
    · exact hguard m c hc hm
    · refine (hcarries.room m c hc).less rfl (by rw [burden_serve]) ?_ (Nat.le_refl _)
      rw [commitments_append, if_neg hm, Nat.add_zero]

theorem reserved_get (hget : gs[i]? = some g) : (gs.map (·.credit.reserved))[i]? = some g.credit.reserved := by
  rw [List.getElem?_map, hget]
  rfl

theorem plain_step (h : Cast s log gs ∧ Owned s gs ∧ Carries buffers s log gs) (hget : gs[i]? = some g)
    (hservice : Undisturbed s.service service') (hcounter : service'.connectionCounter = s.service.connectionCounter)
    (ho : ∀ w r, o ≠ .publish w r) (hcommits : ∀ n c, commits n c ⟨i, .serve caller o, reply⟩ = false) :
    let s' := s.served caller o service'
    let log' := log ++ [⟨i, .serve caller o, reply⟩]
    Cast s' log' (gs.set i g) ∧ Owned s' (gs.set i g) ∧ Carries buffers s' log' (gs.set i g) := by
  refine serve_step h hget hservice ho rfl ?_ (h.2.1.due g (List.mem_of_getElem? hget))
    (fun n c _ => Nat.le_add_right _ _) fun n c _ hc => ?_
  · rw [hcounter, set_self (reserved_get hget)]
    exact h.2.1.named
  · rw [hcommits] at hc
    cases hc

theorem advance_step (h : Cast s log gs ∧ Owned s gs ∧ Carries buffers s log gs) (hget : gs[i]? = some g)
    (hrole : g.role = caller.role) {found : String} {sequence : Nat}
    (hmay : s.service.mayAdvance w found sequence = true)
    (hguard : ∀ n c, Loads s n c ⟨i, .serve caller (.advance w found sequence), true⟩ →
      Room buffers s (log ++ [⟨i, .serve caller (.advance w found sequence), true⟩]) n c) :
    let s' := s.served caller (.advance w found sequence) (s.service.advanced w)
    let log' := log ++ [⟨i, .serve caller (.advance w found sequence), true⟩]
    let gs' := gs.set i { g with credit :=
      { g.credit with due := caller.dueFor g.credit.own found ++ g.credit.due } }
    Cast s' log' gs' ∧ Owned s' gs' ∧ Carries buffers s' log' gs' := by
  have hmem := List.mem_of_getElem? hget
  obtain ⟨record, hrecord, hfound, _⟩ := ServiceState.mayAdvance_iff.mp hmay
  have hknown : s.Known found := hfound ▸ (h.2.1.record w record hrecord).2
  have hown : ∀ m c, caller = .call m → g.credit.own = some c → (s.calls m).connection = some c := by
    rintro m c rfl hc
    exact h.1.called g hmem m c hrole hc
  refine serve_step h hget (undisturbed_update fun r => ⟨rfl, rfl⟩) (by intro _ _ h; cases h) rfl ?_ ?_ ?_ ?_
  · rw [show (s.service.advanced w).connectionCounter =
      s.service.connectionCounter from ServiceState.updateRecord_rest.1, set_self (reserved_get hget)]
    exact h.2.1.named
  · intro c hc
    rcases List.mem_append.mp hc with hc | hc
    · cases caller with
      | call m => exact ⟨m, hown m c rfl (Option.mem_toList.mp hc)⟩
      | consumer stream => cases hc
      | request => rwa [List.mem_singleton.mp hc]
    · exact h.2.1.due g hmem c hc
  · intro m c hc
    dsimp only
    rw [List.count_append]
    have hcount : (caller.dueFor g.credit.own found).count c ≤
        if commits m c ⟨i, .serve caller (.advance w found sequence), true⟩ then 1 else 0 := by
      cases caller with
      | consumer stream => exact Nat.zero_le _
      | request =>
        show List.count c [found] ≤ if decide (found = c) = true then 1 else 0
        rw [List.count_singleton]
        simp
      | call k =>
        show List.count c g.credit.own.toList ≤ if decide (k = m) = true then 1 else 0
        cases hsome : g.credit.own with
        | none => exact Nat.zero_le _
        | some own =>
          have hconn := hown k own rfl hsome
          rw [Option.toList_some, List.count_singleton]
          by_cases hsame : own = c
          · subst hsame
            rw [h.2.1.owner k m own hconn hc]
            simp
          · simp [hsame]
    omega
  · intro m c hc hcommits
    refine hguard m c ?_
    cases caller with
    | consumer stream => cases hcommits
    | request | call => exact ⟨of_decide_eq_true hcommits, hc⟩

theorem draw_step (h : Cast s log gs ∧ Owned s gs ∧ Carries buffers s log gs) (hget : gs[i]? = some g) :
    let s' := s.served caller .nextConnection
      { s.service with connectionCounter := s.service.connectionCounter + 1 }
    let log' := log ++ [⟨i, .serve caller .nextConnection, s.service.connectionCounter⟩]
    let gs' := gs.set i { g with credit :=
      { g.credit with reserved := some (connectionName s.service.connectionCounter) } }
    Cast s' log' gs' ∧ Owned s' gs' ∧ Carries buffers s' log' gs' := by
  refine serve_step h hget ⟨rfl, rfl, fun w r hr => ⟨w, r, hr, rfl, rfl⟩⟩ (by intro _ _ h; cases h) rfl
    (h.2.1.named.draw (reserved_get hget)) (h.2.1.due g (List.mem_of_getElem? hget))
    (fun m c _ => Nat.le_add_right _ _) ?_
  intro m c _ hcommits
  cases caller <;> cases hcommits

theorem update_of_head {α : Type} {f : String → List α} {frame : α} {rest : List α}
    (h : f stream = frame :: rest) {c : String} (hc : f c = []) : Function.update f stream rest c = [] := by
  rw [Function.update_of_ne, hc]
  rintro rfl
  rw [h] at hc
  cases hc

theorem receive_step (h : Cast s log gs ∧ Owned s gs ∧ Carries buffers s log gs) (hget : gs[i]? = some g)
    (hrole : g.role = some (.consumer stream)) {frame : WorkerToServer} {rest : List WorkerToServer}
    (hhead : s.service.inbound stream = frame :: rest) :
    let e : LinkEvent := ⟨i, .serve (.consumer stream) (.receive stream), some (.ok frame)⟩
    let s' : Link := { s with service := { s.service with inbound := Function.update s.service.inbound stream rest } }
    let gs' := gs.set i { g with credit :=
      { g.credit with due := if isDurable frame then stream :: g.credit.due else g.credit.due } }
    Cast s' (log ++ [e]) gs' ∧ Owned s' gs' ∧ Carries buffers s' (log ++ [e]) gs' := by
  obtain ⟨hcast, howned, hcarries⟩ := h
  have hmem := List.mem_of_getElem? hget
  have hdrained : s.Drained stream := howned.attached stream (hcast.consumer g hmem stream hrole)
  refine ⟨hcast.serve hget rfl rfl rfl rfl, ⟨?_, howned.owner, howned.record, fun g₁ hg₁ c hc => ?_, howned.attached⟩,
    hcarries.silent, fun c hc => ?_, fun m c hc => ?_, fun m c hc => ?_⟩
  · rw [List.map_set, set_self (reserved_get hget)]
    exact howned.named
  · rcases List.mem_or_eq_of_mem_set hg₁ with hg₁ | rfl
    · exact howned.due g₁ hg₁ c hc
    · dsimp only at hc
      split at hc
      · rcases List.mem_cons.mp hc with rfl | hc
        · exact hdrained.known
        · exact howned.due g hmem c hc
      · exact howned.due g hmem c hc
  · have hempty := hcarries.undrained c hc
    exact ⟨hempty.1, hempty.2.1, update_of_head hhead hempty.2.2⟩
  · have hbefore := hcarries.sent m c hc
    have hset := dueOn_set hget { g with credit :=
      { g.credit with due := if isDurable frame then stream :: g.credit.due else g.credit.due } } c
    have hcount : (if isDurable frame then stream :: g.credit.due else g.credit.due).count c = g.credit.due.count c +
        if (decide (stream = c) && isDurable frame) = true then 1 else 0 := by
      cases isDurable frame with
      | false => simp
      | true => simp [List.count_cons]
    rw [commitments_append]
    show (s.service.channels c).length + _ ≤ _ + (if (decide (stream = c) && isDurable frame) = true then 1 else 0) + _
    dsimp only at hset ⊢
    omega
  · have hroom := hcarries.room m c hc
    by_cases hsame : c = stream
    · subst hsame
      obtain ⟨k, hk, hhanded⟩ := hdrained
      obtain rfl := howned.owner m k c hc hk
      have hcommits : commitments (log ++ [⟨i, .serve (.consumer c) (.receive c), some (.ok frame)⟩]) m c =
          commitments log m c + if isDurable frame = true then 1 else 0 := by
        rw [commitments_append]
        show _ + (if (decide (c = c) && isDurable frame) = true then 1 else 0) = _
        simp
      have hkinds : s.kinds c ++ (burden log m).owes = isDurable frame ::
          ((rest ++ s.outgoing c).map isDurable ++ (burden log m).owes) := by
        rw [kinds, hhead]
        rfl
      unfold Room at hroom ⊢
      rw [if_pos hhanded, hkinds] at hroom
      rw [if_pos hhanded, hcommits, burden_serve]
      have htaken := hroom.take
      rw [show kinds _ c = (rest ++ s.outgoing c).map isDurable by
        rw [kinds]
        dsimp only
        rw [Function.update_self]]
      refine htaken.mono ?_
      dsimp only
      omega
    · refine hroom.less rfl ?_ ?_ (Nat.le_refl _)
      · rw [burden_serve, kinds, kinds]
        dsimp only
        rw [Function.update_of_ne hsame]
      · rw [commitments_append]
        show _ + (if (decide (stream = c) && isDurable frame) = true then 1 else 0) = _
        rw [decide_eq_false fun h => hsame h.symm]
        rfl

theorem send_step (h : Cast s log gs ∧ Owned s gs ∧ Carries buffers s log gs) (hget : gs[i]? = some g)
    (hdue : stream ∈ g.credit.due) {frame : Except Status ServerToWorker} {sent : Bool} {closed : String → Bool}
    {channels : String → List (Except Status ServerToWorker)}
    (hchannels : ∀ c, (channels c).length ≤ (s.service.channels c).length + if c = stream then 1 else 0)
    (hsilent : ∀ c, c ≠ stream → channels c = s.service.channels c) :
    let e : LinkEvent := ⟨i, .serve caller (.send stream frame), sent⟩
    let s' : Link := { s with service := { s.service with channels := channels, closed := closed } }
    let gs' := gs.set i { g with credit := { g.credit with due := g.credit.due.erase stream } }
    Cast s' (log ++ [e]) gs' ∧ Owned s' gs' ∧ Carries buffers s' (log ++ [e]) gs' := by
  obtain ⟨hcast, howned, hcarries⟩ := h
  have hmem := List.mem_of_getElem? hget
  have hcommits : ∀ m c, commitments (log ++ [⟨i, .serve caller (.send stream frame), sent⟩]) m c =
    commitments log m c := by
    intro m c
    rw [commitments_append]
    cases caller <;> rfl
  refine ⟨hcast.serve hget rfl rfl rfl rfl, ⟨?_, howned.owner, howned.record, fun g₁ hg₁ c hc => ?_, howned.attached⟩,
    fun c hc => ?_, hcarries.undrained, fun m c hc => ?_, fun m c hc => ?_⟩
  · rw [List.map_set, set_self (reserved_get hget)]
    exact howned.named
  · rcases List.mem_or_eq_of_mem_set hg₁ with hg₁ | rfl
    · exact howned.due g₁ hg₁ c hc
    · exact howned.due g hmem c (List.mem_of_mem_erase hc)
  · have hne : c ≠ stream := by
      rintro rfl
      exact hc (howned.due g hmem c hdue)
    exact (hsilent c hne).trans (hcarries.silent c hc)
  · have hbefore := hcarries.sent m c hc
    have hlength := hchannels c
    have hset := dueOn_set hget { g with credit := { g.credit with due := g.credit.due.erase stream } } c
    rw [hcommits]
    dsimp only at hset ⊢
    by_cases hsame : c = stream
    · subst hsame
      have hpos := List.count_pos_iff.mpr hdue
      rw [List.count_erase_self] at hset
      rw [if_pos rfl] at hlength
      omega
    · rw [List.count_erase_of_ne hsame] at hset
      rw [if_neg hsame] at hlength
      omega
  · exact (hcarries.room m c hc).less rfl (by rw [burden_serve]; rfl) (hcommits m c) (Nat.le_refl _)

theorem publish_step (h : Cast s log gs ∧ Owned s gs ∧ Carries buffers s log gs) (hget : gs[i]? = some g)
    (hrole : g.role = some (.call n)) {workerId : String} {record : WorkerRecord}
    (hreserved : g.credit.reserved = some record.connectionId) (hnone : g.credit.own = none)
    (hsender : record.sender = record.connectionId)
    (hguard : Room buffers s (log ++ [⟨i, .serve (.call n) (.publish workerId record), ()⟩]) n record.connectionId) :
    let e : LinkEvent := ⟨i, .serve (.call n) (.publish workerId record), ()⟩
    let s' : Link := { s with
      service := { s.service with workers := s.service.workers.insert workerId record }
      calls := Function.update s.calls n (.published workerId record.connectionId) }
    let gs' := gs.set i { g with credit := ⟨none, some record.connectionId, record.connectionId :: g.credit.due⟩ }
    Cast s' (log ++ [e]) gs' ∧ Owned s' gs' ∧ Carries buffers s' (log ++ [e]) gs' := by
  obtain ⟨hcast, howned, hcarries⟩ := h
  have hmem := List.mem_of_getElem? hget
  have hserving := hcast.serving g hmem n hrole hnone
  have hstage : (s.calls n).connection = none := by rw [hserving]; rfl
  have hfresh : ¬ s.Known record.connectionId :=
    (howned.named.fresh _ (List.mem_map.mpr ⟨g, hmem, hreserved⟩)).1
  intro e s' gs'
  have hself : s'.calls n = .published workerId record.connectionId := Function.update_self ..
  have hother : ∀ m, m ≠ n → s'.calls m = s.calls m := fun m hm => Function.update_of_ne hm ..
  have hconn : ∀ m c, (s.calls m).connection = some c → m ≠ n ∧ s'.calls m = s.calls m := by
    intro m c hc
    have hm : m ≠ n := by
      rintro rfl
      rw [hstage] at hc
      cases hc
    exact ⟨hm, hother m hm⟩
  have hback : ∀ m c, (s'.calls m).connection = some c →
      m = n ∧ c = record.connectionId ∨ m ≠ n ∧ (s.calls m).connection = some c := by
    intro m c hc
    by_cases hm : m = n
    · subst hm
      rw [hself] at hc
      exact .inl ⟨rfl, (Option.some.inj hc).symm⟩
    · rw [hother m hm] at hc
      exact .inr ⟨hm, hc⟩
  have hknown : ∀ c, s'.Known c ↔ c = record.connectionId ∨ s.Known c := by
    intro c
    constructor
    · rintro ⟨m, hc⟩
      rcases hback m c hc with ⟨_, rfl⟩ | ⟨_, hc⟩
      · exact .inl rfl
      · exact .inr ⟨m, hc⟩
    · rintro (rfl | ⟨m, hc⟩)
      · exact ⟨n, by rw [hself]; rfl⟩
      · exact ⟨m, by rw [(hconn m c hc).2]; exact hc⟩
  have hdrained : ∀ c, s.Drained c → s'.Drained c := by
    rintro c ⟨m, hc, hhanded⟩
    exact ⟨m, by rw [(hconn m c hc).2]; exact hc, by rw [(hconn m c hc).2]; exact hhanded⟩
  have hplace : ∀ g₁ ∈ gs',
      g₁ = { g with credit := ⟨none, some record.connectionId, record.connectionId :: g.credit.due⟩ } ∨
      g₁ ∈ gs ∧ (g₁.role ≠ some (.call n)) := by
    intro g₁ hg₁
    obtain ⟨j, hj⟩ := List.mem_iff_getElem?.mp hg₁
    rcases getElem?_set_cases hj with ⟨_, rfl⟩ | ⟨hne, hj⟩
    · exact .inl rfl
    · refine .inr ⟨List.mem_of_getElem? hj, fun hr => hne ?_⟩
      exact hcast.apart i j g g₁ hget hj (hrole.trans hr.symm) (by rw [hrole]; exact Option.some_ne_none _)
  have hburden : burden (log ++ [e]) = burden log := burden_serve
  refine ⟨⟨fun g₁ hg₁ m hm => ?_, fun m hm => ?_, fun m c hc => ?_, fun m hm => ?_, fun g₁ hg₁ m hm hown => ?_,
    fun g₁ hg₁ m c hm hown => ?_, fun g₁ hg₁ c hc => ?_, fun j k g₁ g₂ hj hk => apart_set hcast.apart hget ?_ hj hk⟩,
    ⟨?_, fun m m' c hm hm' => ?_, fun w r hr => ?_, fun g₁ hg₁ c hc => ?_, fun c hc =>
      hdrained c (howned.attached c hc)⟩,
    ⟨fun c hc => ?_, fun c hc => hcarries.undrained c fun hd => hc (hdrained c hd), fun m c hc => ?_, fun m c hc => ?_⟩⟩
  · rw [hburden]
    rcases hplace g₁ hg₁ with rfl | ⟨hg₁, _⟩
    · exact hcast.session g hmem m hm
    · exact hcast.session g₁ hg₁ m hm
  · rw [hburden]
    exact hcast.unborn m hm
  · rw [hburden] at hc
    obtain ⟨w, hw⟩ := hcast.established m c hc
    exact ⟨w, by rw [(hconn m c (by rw [hw]; rfl)).2]; exact hw⟩
  · rw [hburden] at hm ⊢
    exact hcast.mute m hm
  · rcases hplace g₁ hg₁ with rfl | ⟨hg₁, hr⟩
    · cases hown
    · rw [hother m (by rintro rfl; exact hr hm)]
      exact hcast.serving g₁ hg₁ m hm hown
  · rcases hplace g₁ hg₁ with rfl | ⟨hg₁, hr⟩
    · obtain rfl : n = m := by
        rw [show Hand.role { g with credit := _ } = g.role from rfl, hrole] at hm
        exact Role.call.inj (Option.some.inj hm)
      rw [hself]
      exact hown
    · rw [hother m (by rintro rfl; exact hr hm)]
      exact hcast.called g₁ hg₁ m c hm hown
  · rcases hplace g₁ hg₁ with rfl | ⟨hg₁, _⟩
    · exact hcast.consumer g hmem c hc
    · exact hcast.consumer g₁ hg₁ c hc
  · rfl
  · rw [List.map_set]
    exact (howned.named.publish (by rw [reserved_get hget, hreserved])).congr hknown
  · rcases hback m c hm with ⟨rfl, rfl⟩ | ⟨_, hm⟩
    · rcases hback m' _ hm' with ⟨rfl, _⟩ | ⟨_, hm'⟩
      · rfl
      · exact absurd ⟨m', hm'⟩ hfresh
    · rcases hback m' c hm' with ⟨_, rfl⟩ | ⟨_, hm'⟩
      · exact absurd ⟨m, hm⟩ hfresh
      · exact howned.owner m m' c hm hm'
  · have hr : (s.service.workers.insert workerId record).lookup w = some r := hr
    by_cases hw : w = workerId
    · subst hw
      rw [AList.lookup_insert] at hr
      cases hr
      exact ⟨hsender, (hknown _).mpr (.inl rfl)⟩
    · rw [AList.lookup_insert_ne hw] at hr
      exact ⟨(howned.record w r hr).1, (hknown _).mpr (.inr (howned.record w r hr).2)⟩
  · refine (hknown c).mpr ?_
    rcases hplace g₁ hg₁ with rfl | ⟨hg₁, _⟩
    · rcases List.mem_cons.mp hc with rfl | hc
      · exact .inl rfl
      · exact .inr (howned.due g hmem c hc)
    · exact .inr (howned.due g₁ hg₁ c hc)
  · exact hcarries.silent c fun hk => hc ((hknown c).mpr (.inr hk))
  · have hset : dueOn gs' c + g.credit.due.count c =
        dueOn gs c + (record.connectionId :: g.credit.due).count c := dueOn_set hget _ c
    rw [commitments_append]
    show (s.service.channels c).length + dueOn gs' c ≤ _ + (if decide (n = m) = true then 1 else 0) + _
    rcases hback m c hc with ⟨rfl, rfl⟩ | ⟨hm, hc⟩
    · have hzero : dueOn gs record.connectionId = 0 := by
        refine List.count_eq_zero.mpr fun hin => hfresh ?_
        obtain ⟨g₁, hg₁, hin⟩ := List.mem_flatMap.mp hin
        exact howned.due g₁ hg₁ _ hin
      rw [hcarries.silent _ hfresh, decide_eq_true rfl, if_pos rfl, List.length_nil]
      rw [List.count_cons_self, hzero] at hset
      omega
    · have hne : c ≠ record.connectionId := fun heq => hfresh (heq ▸ ⟨m, hc⟩)
      have hbefore := hcarries.sent m c hc
      rw [List.count_cons_of_ne (Ne.symm hne)] at hset
      have hattached : s'.attached = s.attached := rfl
      rw [hattached]
      omega
  · rcases hback m c hc with ⟨rfl, rfl⟩ | ⟨hm, hc⟩
    · refine hguard.less ?_ rfl rfl (Nat.le_refl _)
      rw [hself, hserving]
      rfl
    · refine (hcarries.room m c hc).less (by rw [hother m hm]) (by rw [hburden]; rfl) ?_ (Nat.le_refl _)
      rw [commitments_append]
      show _ + (if decide (n = m) = true then 1 else 0) = _
      rw [decide_eq_false fun h => hm h.symm]
      rfl

end service

section roles

theorem Cast.enter (h : Cast s log gs) {role : Role} {credit : Credit} (hcredit : credit.own = none)
    (hfresh : ∀ g₁ ∈ gs, g₁.role ≠ some role) (hburden : burden log' = burden log)
    (hsessions : s.sessions ≤ s'.sessions) (hattached : ∀ c ∈ s.attached, c ∈ s'.attached)
    (hsession : ∀ n, role = .session n → n < s'.sessions ∧ burden log n = .idle)
    (hcall : ∀ n, role = .call n → s'.calls n = .serving ∧ ∀ w c, s.calls n ≠ .established w c)
    (hconsumer : ∀ c, role = .consumer c → c ∈ s'.attached) (hcalls : ∀ m, role ≠ .call m → s'.calls m = s.calls m) :
    Cast s' log' (gs.set i ⟨some role, credit, .idle⟩) := by
  have hplace : ∀ g₁ ∈ gs.set i ⟨some role, credit, .idle⟩, g₁ = ⟨some role, credit, .idle⟩ ∨ g₁ ∈ gs := by
    intro g₁ hg₁
    exact (List.mem_or_eq_of_mem_set hg₁).symm
  have hold : ∀ g₁ ∈ gs, ∀ m, g₁.role = some (.call m) → s'.calls m = s.calls m := by
    intro g₁ hg₁ m hm
    refine hcalls m ?_
    rintro rfl
    exact hfresh g₁ hg₁ hm
  refine ⟨fun g₁ hg₁ m hm => ?_, fun m hm => ?_, fun m c hc => ?_, fun m hm => ?_, fun g₁ hg₁ m hm hown => ?_,
    fun g₁ hg₁ m c hm hown => ?_, fun g₁ hg₁ c hc => ?_, fun j k g₁ g₂ hj hk heq hr => ?_⟩
  · rw [hburden]
    rcases hplace g₁ hg₁ with rfl | hg₁
    · obtain ⟨hlt, hidle⟩ := hsession m (Option.some.inj hm)
      exact ⟨hlt, hidle.symm⟩
    · exact ⟨Nat.lt_of_lt_of_le (h.session g₁ hg₁ m hm).1 hsessions, (h.session g₁ hg₁ m hm).2⟩
  · rw [hburden]
    exact h.unborn m (Nat.le_trans hsessions hm)
  · rw [hburden] at hc
    obtain ⟨w, hw⟩ := h.established m c hc
    refine ⟨w, (hcalls m fun hr => ?_).trans hw⟩
    exact (hcall m hr).2 w c hw
  · rw [hburden] at hm ⊢
    exact h.mute m hm
  · rcases hplace g₁ hg₁ with rfl | hg₁
    · exact (hcall m (Option.some.inj hm)).1
    · rw [hold g₁ hg₁ m hm]
      exact h.serving g₁ hg₁ m hm hown
  · rcases hplace g₁ hg₁ with rfl | hg₁
    · cases hcredit.symm.trans hown
    · rw [hold g₁ hg₁ m hm]
      exact h.called g₁ hg₁ m c hm hown
  · rcases hplace g₁ hg₁ with rfl | hg₁
    · exact hconsumer c (Option.some.inj hc)
    · exact hattached c (h.consumer g₁ hg₁ c hc)
  · rcases getElem?_set_cases hj with ⟨rfl, rfl⟩ | ⟨hij, hj⟩
    · rcases getElem?_set_cases hk with ⟨hik, _⟩ | ⟨_, hk⟩
      · exact hik
      · exact absurd heq.symm (hfresh g₂ (List.mem_of_getElem? hk))
    · rcases getElem?_set_cases hk with ⟨rfl, rfl⟩ | ⟨_, hk⟩
      · exact absurd heq (hfresh g₁ (List.mem_of_getElem? hj))
      · exact h.apart j k g₁ g₂ hj hk heq hr

theorem burden_apart (he : ∀ n b, Burden.step n b e = b) : burden (log ++ [e]) = burden log := by
  funext m
  rw [burden_append, he]

theorem Carries.still (h : Carries buffers s log gs) (hservice : s'.service = s.service)
    (hconn : ∀ m, (s'.calls m).connection = (s.calls m).connection)
    (hhanded : ∀ m, (s'.calls m).isHanded = (s.calls m).isHanded) (hcarried : s'.carried = s.carried)
    (hout : s'.outgoing = s.outgoing) (hread : s'.read = s.read) (hburden : burden log' = burden log)
    (hcommits : ∀ m c, commitments log' m c = commitments log m c)
    (hdue : ∀ c, dueOn gs' c + (if c ∈ s.attached then 1 else 0) ≤ dueOn gs c + if c ∈ s'.attached then 1 else 0) :
    Carries buffers s' log' gs' := by
  refine ⟨fun c hc => ?_, fun c hc => ?_, fun m c hc => ?_, fun m c hc => ?_⟩
  · rw [hservice]
    exact h.silent c fun hk => hc ((known_congr hconn c).mpr hk)
  · rw [hcarried, hout, hservice]
    refine h.undrained c fun hd => hc ?_
    obtain ⟨m, hm, hh⟩ := hd
    exact ⟨m, (hconn m).trans hm, (hhanded m).trans hh⟩
  · have hbefore := h.sent m c ((hconn m).symm.trans hc)
    have hstep := hdue c
    rw [hservice, hcommits]
    omega
  · refine (h.room m c ((hconn m).symm.trans hc)).less (hhanded m) ?_ (hcommits m c) (by rw [hread])
    rw [hburden, kinds, kinds, hservice, hout]

theorem Owned.still (h : Owned s gs) (hservice : s'.service = s.service)
    (hconn : ∀ m, (s'.calls m).connection = (s.calls m).connection)
    (hreserved : gs'.map (·.credit.reserved) = gs.map (·.credit.reserved))
    (hdue : ∀ g ∈ gs', ∀ c ∈ g.credit.due, s.Known c) (hattached : ∀ c ∈ s'.attached, s'.Drained c) : Owned s' gs' := by
  have hknown := known_congr hconn
  refine ⟨?_, fun m m' c hm hm' => ?_, fun w r hr => ?_, fun g hg c hc => (hknown c).mpr (hdue g hg c hc), hattached⟩
  · rw [hservice, hreserved]
    exact h.named.congr hknown
  · rw [hconn] at hm hm'
    exact h.owner m m' c hm hm'
  · rw [hservice] at hr
    exact ⟨(h.record w r hr).1, (hknown _).mpr (h.record w r hr).2⟩

theorem due_enter (howned : Owned s gs) {g' : Hand} (hdue : ∀ c ∈ g'.credit.due, s.Known c) :
    ∀ g ∈ gs.set i g', ∀ c ∈ g.credit.due, s.Known c := by
  intro g hg c hc
  rcases List.mem_or_eq_of_mem_set hg with hg | rfl
  · exact howned.due g hg c hc
  · exact hdue c hc

theorem begin_step (h : Cast s log gs ∧ Owned s gs ∧ Carries buffers s log gs) (hget : gs[i]? = some .idle)
    {workerId : String} {active : List String} :
    let s' : Link := { s with sessions := s.sessions + 1, active := active }
    let log' := log ++ [⟨i, .begin workerId, s.sessions⟩]
    let gs' := gs.set i ⟨some (.session s.sessions), .idle, .idle⟩
    Cast s' log' gs' ∧ Owned s' gs' ∧ Carries buffers s' log' gs' := by
  obtain ⟨hcast, howned, hcarries⟩ := h
  have hburden : burden (log ++ [⟨i, .begin workerId, s.sessions⟩]) = burden log := burden_apart fun _ _ => rfl
  refine ⟨hcast.enter rfl (fun g₁ hg₁ hr => ?_) hburden (Nat.le_succ _) (fun _ hc => hc) ?_ ?_ ?_ fun _ _ => rfl,
    howned.still rfl (fun _ => rfl) (map_set_same hget rfl) (due_enter howned fun c hc => by cases hc) howned.attached,
    hcarries.still rfl (fun _ => rfl) (fun _ => rfl) rfl rfl rfl hburden (fun m c => commitments_append) fun c => ?_⟩
  · exact absurd (hcast.session g₁ hg₁ _ hr).1 (Nat.lt_irrefl _)
  · rintro n hn
    obtain rfl := Role.session.inj hn
    exact ⟨Nat.lt_succ_self _, hcast.unborn _ (Nat.le_refl _)⟩
  · rintro n hn
    cases hn
  · rintro c hc
    cases hc
  · exact le_of_eq (congrArg (· + _) (congrArg (List.count c) (flatMap_set_same hget rfl)))

theorem accept_step (h : Cast s log gs ∧ Owned s gs ∧ Carries buffers s log gs) (hget : gs[i]? = some .idle)
    {hello : WorkerHello} (hstage : s.calls n = .requested hello) :
    let s' := s.withCall n .serving
    let log' := log ++ [⟨i, .accept, (n, hello)⟩]
    let gs' := gs.set i ⟨some (.call n), .idle, .idle⟩
    Cast s' log' gs' ∧ Owned s' gs' ∧ Carries buffers s' log' gs' := by
  obtain ⟨hcast, howned, hcarries⟩ := h
  have hburden : burden (log ++ [⟨i, .accept, (n, hello)⟩]) = burden log := burden_apart fun _ _ => rfl
  have hself : (s.withCall n .serving).calls n = .serving := Function.update_self ..
  have hother : ∀ m, m ≠ n → (s.withCall n .serving).calls m = s.calls m := fun m hm => Function.update_of_ne hm ..
  have hconn : ∀ m, ((s.withCall n .serving).calls m).connection = (s.calls m).connection := by
    intro m
    by_cases hm : m = n
    · rw [hm, hself, hstage]
      rfl
    · rw [hother m hm]
  have hhanded : ∀ m, ((s.withCall n .serving).calls m).isHanded = (s.calls m).isHanded := by
    intro m
    by_cases hm : m = n
    · rw [hm, hself, hstage]
      rfl
    · rw [hother m hm]
  refine ⟨hcast.enter rfl (fun g₁ hg₁ hr => ?_) hburden (Nat.le_refl _) (fun _ hc => hc) ?_ ?_ ?_ ?_,
    howned.still rfl hconn (map_set_same hget rfl) (due_enter howned fun c hc => by cases hc) fun c hc => ?_,
    hcarries.still rfl hconn hhanded rfl rfl rfl hburden (fun m c => commitments_append) fun c => ?_⟩
  · cases hown : g₁.credit.own with
    | none => cases hstage.symm.trans (hcast.serving g₁ hg₁ n hr hown)
    | some c =>
      have hc := hcast.called g₁ hg₁ n c hr hown
      rw [hstage] at hc
      cases hc
  · rintro m hm
    cases hm
  · rintro m hm
    obtain rfl := Role.call.inj hm
    exact ⟨hself, fun w c hw => by cases hstage.symm.trans hw⟩
  · rintro c hc
    cases hc
  · intro m hm
    exact hother m fun heq => hm (heq ▸ rfl)
  · obtain ⟨m, hm, hh⟩ := howned.attached c hc
    exact ⟨m, (hconn m).trans hm, (hhanded m).trans hh⟩
  · exact le_of_eq (congrArg (· + _) (congrArg (List.count c) (flatMap_set_same hget rfl)))

theorem attach_step (h : Cast s log gs ∧ Owned s gs ∧ Carries buffers s log gs) (hget : gs[i]? = some .idle)
    {workerId connectionId : String} (hnew : connectionId ∉ s.attached) (hdrained : s.Drained connectionId) :
    let s' : Link := { s with attached := connectionId :: s.attached }
    let log' := log ++ [⟨i, .attach, (workerId, connectionId)⟩]
    let gs' := gs.set i ⟨some (.consumer connectionId), { Credit.idle with due := [connectionId] }, .idle⟩
    Cast s' log' gs' ∧ Owned s' gs' ∧ Carries buffers s' log' gs' := by
  obtain ⟨hcast, howned, hcarries⟩ := h
  have hburden : burden (log ++ [⟨i, .attach, (workerId, connectionId)⟩]) = burden log := burden_apart fun _ _ => rfl
  refine ⟨hcast.enter rfl (fun g₁ hg₁ hr => hnew (hcast.consumer g₁ hg₁ _ hr)) hburden (Nat.le_refl _)
      (fun c hc => List.mem_cons_of_mem _ hc) ?_ ?_ ?_ fun _ _ => rfl,
    howned.still rfl (fun _ => rfl) (map_set_same hget rfl) (due_enter howned fun c hc => ?_) fun c hc => ?_,
    hcarries.still rfl (fun _ => rfl) (fun _ => rfl) rfl rfl rfl hburden (fun m c => commitments_append) fun c => ?_⟩
  · rintro m hm
    cases hm
  · rintro m hm
    cases hm
  · rintro c hc
    obtain rfl := Role.consumer.inj hc
    exact List.mem_cons_self
  · rw [List.mem_singleton.mp hc]
    exact hdrained.known
  · rcases List.mem_cons.mp hc with rfl | hc
    · exact hdrained
    · exact howned.attached c hc
  · have hset : _ = dueOn gs c + List.count c [connectionId] := dueOn_set hget
      ⟨some (.consumer connectionId), { Credit.idle with due := [connectionId] }, .idle⟩ c
    rw [show List.count c Hand.idle.credit.due = 0 from rfl, Nat.add_zero, List.count_singleton] at hset
    rw [hset]
    dsimp only
    by_cases hc : c = connectionId
    · subst hc
      simp [hnew]
    · simp [hc, Ne.symm hc]

theorem answer_step (h : Cast s log gs ∧ Owned s gs ∧ Carries buffers s log gs) (hget : gs[i]? = some g)
    {workerId connectionId : String} (hstage : s.calls n = .published workerId connectionId) :
    let s' := s.withCall n (.answered workerId connectionId)
    let log' := log ++ [⟨i, .answer n, ()⟩]
    Cast s' log' (gs.set i g) ∧ Owned s' (gs.set i g) ∧ Carries buffers s' log' (gs.set i g) := by
  obtain ⟨hcast, howned, hcarries⟩ := h
  rw [set_self hget]
  have hburden : burden (log ++ [⟨i, .answer n, ()⟩]) = burden log := burden_apart fun _ _ => rfl
  have hself : (s.withCall n (.answered workerId connectionId)).calls n = .answered workerId connectionId :=
    Function.update_self ..
  have hother : ∀ m, m ≠ n → (s.withCall n (.answered workerId connectionId)).calls m = s.calls m :=
    fun m hm => Function.update_of_ne hm ..
  have hconn : ∀ m, ((s.withCall n (.answered workerId connectionId)).calls m).connection = (s.calls m).connection := by
    intro m
    by_cases hm : m = n
    · rw [hm, hself, hstage]
      rfl
    · rw [hother m hm]
  have hdrained : ∀ c, s.Drained c → (s.withCall n (.answered workerId connectionId)).Drained c := by
    rintro c ⟨m, hm, hh⟩
    by_cases hmn : m = n
    · subst hmn
      rw [hstage] at hh
      cases hh
    · exact ⟨m, (hconn m).trans hm, by rw [hother m hmn]; exact hh⟩
  have hne : ∀ m, s.calls m ≠ .published workerId connectionId → m ≠ n := by
    rintro m hm rfl
    exact hm hstage
  refine ⟨⟨by rw [hburden]; exact hcast.session, by rw [hburden]; exact hcast.unborn, fun m c hc => ?_,
    by rw [hburden]; exact hcast.mute, fun g₁ hg₁ m hm hown => ?_, fun g₁ hg₁ m c hm hown => ?_, hcast.consumer,
    hcast.apart⟩, howned.still rfl hconn rfl howned.due fun c hc => hdrained c (howned.attached c hc), ?_⟩
  · rw [hburden] at hc
    obtain ⟨w, hw⟩ := hcast.established m c hc
    exact ⟨w, (hother m (hne m (by rw [hw]; intro h; cases h))).trans hw⟩
  · have hserving := hcast.serving g₁ hg₁ m hm hown
    exact (hother m (hne m (by rw [hserving]; intro h; cases h))).trans hserving
  · exact (hconn m).trans (hcast.called g₁ hg₁ m c hm hown)
  · refine ⟨fun c hc => hcarries.silent c fun hk => hc ((known_congr hconn c).mpr hk),
      fun c hc => hcarries.undrained c fun hd => hc (hdrained c hd), fun m c hc => ?_, fun m c hc => ?_⟩
    · rw [commitments_append]
      exact hcarries.sent m c ((hconn m).symm.trans hc)
    · rw [hconn] at hc
      by_cases hm : m = n
      · subst hm
        have hundrained : ¬ s.Drained c := by
          rintro ⟨k, hk, hh⟩
          obtain rfl := howned.owner m k c hc hk
          rw [hstage] at hh
          cases hh
        have hempty := hcarries.undrained c hundrained
        have howes : (burden log m).owes = [] := by
          refine hcast.mute m ?_
          cases hstream : (burden log m).stream with
          | none => rfl
          | some stream =>
            obtain ⟨w, hw⟩ := hcast.established m stream hstream
            cases hstage.symm.trans hw
        have hhanded : ((s.withCall m (.answered workerId connectionId)).calls m).isHanded = true := by
          rw [hself]
          rfl
        unfold Room
        rw [if_pos hhanded, hburden, howes]
        refine passes_of_length_le ?_
        have hkinds : (s.withCall m (.answered workerId connectionId)).kinds c = [] := by
          show (s.service.inbound c ++ s.outgoing c).map isDurable = []
          rw [hempty.2.1, hempty.2.2]
          rfl
        rw [hkinds]
        exact Nat.zero_le _
      · refine (hcarries.room m c hc).less (by rw [hother m hm]) (by rw [hburden]; rfl) commitments_append
          (Nat.le_refl _)

end roles

end AlloyPort.ControlStream
