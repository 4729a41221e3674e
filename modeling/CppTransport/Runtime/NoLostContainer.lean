import CppTransport.Runtime.PollWorkers

/-!
# No container is lost or aggregated twice

Containers are announced by workers, queued by the master in the order in which
the announcements are received, and taken from the queue in two places: one at a
time while the master is idle, and all that remain after the loop. The loop ends
once every worker is inactive, a condition set by other messages.

The workers here may send anything at any time, except that announcements come
before the close-down message and are of a kind for which the master has an
aggregator. `Tracked` relates, for every worker, what it announced, what the
master received, and what is still in the channel; it holds as long as the
scheduler does not throw (`tracked_of_reachable`). When `poll_workers` returns,
all channels are free of announcements and the queue is empty.
-/

namespace CppTransport.Runtime

open CppTransport.Library WorkerScheduler

/-! ### Which workers are active -/

namespace WorkerScheduler

/-- Which workers are active, by number. -/
def activity (s : WorkerScheduler) : List Bool := s.workerData.map (·.active)

/-- The two states agree on which workers are active, and on how many. -/
def SameActivity (s s' : WorkerScheduler) : Prop := s'.active = s.active ∧ s'.activity = s.activity

theorem sameActivity_takeItems (worker : ℕ) (items : List ℕ) (s : WorkerScheduler) :
    SameActivity s (takeItems worker items s).2 := by
  induction items generalizing s with
  | nil => exact ⟨rfl, rfl⟩
  | cons item items ih =>
    rw [takeItems]
    split
    · exact ih _
    · exact ⟨rfl, rfl⟩

theorem sameActivity_markAssigned (s : WorkerScheduler) (a : WorkAssignment) :
    SameActivity s (s.markAssigned a).2 := by
  unfold markAssigned
  split
  · exact ⟨rfl, rfl⟩
  · split
    · exact ⟨rfl, rfl⟩
    · rename_i w hw
      split
      · exact ⟨rfl, rfl⟩
      · obtain ⟨h1, h2⟩ := sameActivity_takeItems a.worker a.items { s with
          workerData := s.workerData.set a.worker { w with assigned := true }
          unassigned := unsignedPred s.unassigned }
        refine ⟨h1, h2.trans ?_⟩
        exact map_set_of_eq hw rfl

theorem sameActivity_markUnassigned (s : WorkerScheduler) (worker : ℕ) (time : ℤ) (items : ℕ) :
    SameActivity s (s.markUnassigned worker time items).2 := by
  unfold markUnassigned
  split
  · exact ⟨rfl, rfl⟩
  · rename_i w hw
    split
    · exact ⟨rfl, rfl⟩
    · dsimp only
      split
      · exact ⟨rfl, map_set_of_eq hw rfl⟩
      · exact ⟨rfl, map_set_of_eq hw rfl⟩

/-- When `mark_inactive` does not throw, one active worker has become inactive. -/
theorem activity_markInactive {s s' : WorkerScheduler} {worker : ℕ}
    (h : s.markInactive worker = (.ok (), s')) :
    s.activity[worker]? = some true ∧ s'.activity = s.activity.set worker false ∧
      s'.active = unsignedPred s.active := by
  unfold markInactive at h
  split at h
  · cases h
  · rename_i w hw
    split at h
    · cases h
    · rename_i hact
      dsimp only at h
      split at h
      · cases h
      · cases h
        refine ⟨?_, ?_, rfl⟩
        · have hact : w.active = true := by simpa using hact
          rw [activity, List.getElem?_map, hw, Option.map_some, hact]
        · rw [activity, activity, List.map_set]

end WorkerScheduler

/-! ### The invariant -/

/-- What holds between worker `i`, its channel and the announcements the master received. -/
structure LinkTracked (received : List AggregationRecord) (i : ℕ) (active : Bool) (L : Link) : Prop where
  /-- What was announced was received or is in the channel, in this order. -/
  announced_eq : L.announced =
    (received.filter (·.worker = i)).map (·.content) ++ L.outbox.filterMap ToMaster.announcement
  /-- A worker whose close-down message is in the channel has closed down. -/
  closed_of_mem : .workerCloseDown ∈ L.outbox → L.state = .closed
  /-- No announcement follows a close-down message. -/
  nothing_after : L.outbox.Pairwise fun a b => a = .workerCloseDown → b.announcement = none
  /-- A worker counted as inactive has closed down, and announces nothing more. -/
  inactive : active = false → L.state = .closed ∧ L.outbox.filterMap ToMaster.announcement = []

/-- **The invariant** of the poll loop while the scheduler has not thrown. -/
structure Tracked (w : World) : Prop where
  /-- The counter of active workers is right. -/
  active_eq : w.sched.active = w.sched.activity.count true
  /-- Every worker has its channels. -/
  length_eq : w.links.length = w.sched.activity.length
  /-- What was received is aggregated or waits for aggregation, in this order. -/
  received_eq : w.received = w.aggregated ++ w.aggregationQueue
  /-- Aggregations are numbered in order of receipt. -/
  ids : w.received.map (·.id) = List.range w.aggregationCounter
  /-- Every channel is accounted for. -/
  links : ∀ {i : ℕ} {L : Link} {active : Bool}, w.links[i]? = some L →
    w.sched.activity[i]? = some active → LinkTracked w.received i active L
  /-- The loop ends when no worker is active. -/
  exhausted : (w.phase = .draining ∨ ∃ b, w.phase = .returned b) → w.sched.active = 0
  /-- Nothing waits for aggregation on return. -/
  returned : (∃ b, w.phase = .returned b) → w.aggregationQueue = []

/-- The scheduler has thrown, or the invariant holds. -/
def TrackedUnlessThrown (w : World) : Prop := (∃ e, w.phase = .thrown e) ∨ Tracked w

section Events

variable {P : Platform} {aggs : Aggregators} {w : World} {i : ℕ} {L L' : Link}

/-- Changing the channels of one worker. -/
theorem Tracked.setLink (h : Tracked w) (hL : w.links[i]? = some L)
    (hnew : ∀ active, LinkTracked w.received i active L → LinkTracked w.received i active L') :
    Tracked { w with links := w.links.set i L' } where
  active_eq := h.active_eq
  length_eq := by
    rw [List.length_set]
    exact h.length_eq
  received_eq := h.received_eq
  ids := h.ids
  links hM ha := by
    rcases (getElem?_set_eq_some_iff hL).mp hM with ⟨rfl, rfl⟩ | ⟨-, hM⟩
    · exact hnew _ (h.links hL ha)
    · exact h.links hM ha
  exhausted := h.exhausted
  returned := h.returned

/-- Changing the scheduler without touching the activity of workers. -/
theorem Tracked.setSched (h : Tracked w) {s : WorkerScheduler} (hs : SameActivity w.sched s) :
    Tracked { w with sched := s } where
  active_eq := by
    rw [hs.1, hs.2]
    exact h.active_eq
  length_eq := by
    rw [hs.2]
    exact h.length_eq
  received_eq := h.received_eq
  ids := h.ids
  links hM ha := h.links hM (hs.2 ▸ ha)
  exhausted hp := hs.1 ▸ h.exhausted hp
  returned := h.returned

/-- Moving on to a phase inside the loop. -/
theorem Tracked.setPhase (h : Tracked w) {phase : Phase} (hd : phase ≠ .draining)
    (hr : ∀ b, phase ≠ .returned b) : Tracked { w with phase := phase } where
  active_eq := h.active_eq
  length_eq := h.length_eq
  received_eq := h.received_eq
  ids := h.ids
  links := h.links
  exhausted hp := by
    rcases hp with hp | ⟨b, hp⟩
    · exact absurd hp hd
    · exact absurd hp (hr b)
  returned hp := by
    obtain ⟨b, hp⟩ := hp
    exact absurd hp (hr b)

theorem LinkTracked.inbox {received : List AggregationRecord} {active : Bool}
    (h : LinkTracked received i active L) (inbox : List ToWorker) :
    LinkTracked received i active { L with inbox := inbox } :=
  ⟨h.announced_eq, h.closed_of_mem, h.nothing_after, h.inactive⟩

theorem Tracked.sendClosedown (h : Tracked w) : Tracked w.sendClosedown where
  active_eq := h.active_eq
  length_eq := by
    rw [World.sendClosedown, List.length_map]
    exact h.length_eq
  received_eq := h.received_eq
  ids := h.ids
  links hM ha := by
    simp only [World.sendClosedown, List.getElem?_map, Option.map_eq_some_iff] at hM
    obtain ⟨M, hM, rfl⟩ := hM
    exact (h.links hM ha).inbox _
  exhausted := h.exhausted
  returned := h.returned

theorem Tracked.loopHead (h : Tracked w) : TrackedUnlessThrown (w.loopHead P) := by
  unfold World.loopHead
  split
  · rename_i hall
    exact Or.inr { h with
      exhausted := fun _ => by simpa [allInactive] using hall
      returned := by simp }
  · have hsend : Tracked (if w.sched.isFinished && !w.sentClosedown then w.sendClosedown else w) := by
      split
      · exact h.sendClosedown
      · exact h
    dsimp only
    generalize (if w.sched.isFinished && !w.sentClosedown then w.sendClosedown else w) = v at hsend
    split
    · split
      · exact Or.inr (hsend.setPhase (by simp) (by simp))
      · exact Or.inl ⟨_, rfl⟩
    · exact Or.inr (hsend.setPhase (by simp) (by simp))

theorem Tracked.sendAssignment (h : Tracked w) (a : WorkAssignment) (rest : List WorkAssignment) :
    TrackedUnlessThrown (w.sendAssignment a rest) := by
  have hs := sameActivity_markAssigned w.sched a
  unfold World.sendAssignment
  cases hm : w.sched.markAssigned a with
  | mk r s =>
    rw [hm] at hs
    cases r with
    | error e => exact Or.inl ⟨e, rfl⟩
    | ok _ =>
      cases hL : w.links[a.worker]? with
      | none => exact Or.inr ((h.setSched hs).setPhase (by simp) (by simp))
      | some L =>
        have hlink := h.setLink hL fun _ hl => hl.inbox (L.inbox ++ [.newWorkAssignment a.items])
        exact Or.inr ((hlink.setSched hs).setPhase (by simp) (by simp))

theorem Tracked.aggregate (h : Tracked w) (time : Option ℤ)
    (hr : ∀ b, w.phase ≠ .returned b) : Tracked (w.aggregate time) := by
  unfold World.aggregate
  split
  · exact h
  · rename_i record queue hqueue
    have hs : SameActivity w.sched (time.elim w.sched w.sched.reportAggregation) := by
      cases time <;> exact ⟨rfl, rfl⟩
    have h' := h.setSched hs
    exact { h' with
      received_eq := by rw [h.received_eq, hqueue, List.append_assoc]; rfl
      returned := fun ⟨b, hb⟩ => absurd hb (hr b) }

/-- What `announcesBeforeClosing` rules out. -/
theorem announcesBeforeClosing_spec {s s' : WorkerState} {msg : ToMaster}
    (h : announcesBeforeClosing aggs s msg s' = true) :
    (s = .closed → s' = .closed ∧ msg.announcement = none) ∧ (msg = .workerCloseDown → s' = .closed) := by
  cases s <;> cases msg <;> simp_all [announcesBeforeClosing, ToMaster.announcement]

theorem LinkTracked.emit {received : List AggregationRecord} {active : Bool} {msg : ToMaster}
    {state : WorkerState} (h : LinkTracked received i active L)
    (hrule : announcesBeforeClosing aggs L.state msg state = true) :
    LinkTracked received i active (L.emit msg state) := by
  obtain ⟨hclosed, hclose⟩ := announcesBeforeClosing_spec hrule
  constructor
  · simp only [Link.emit, h.announced_eq, List.filterMap_append, List.append_assoc]
    cases msg <;> rfl
  · intro hmem
    rcases List.mem_append.mp hmem with hmem | hmem
    · exact (hclosed (h.closed_of_mem hmem)).1
    · exact hclose (List.mem_singleton.mp hmem).symm
  · refine List.pairwise_append.mpr ⟨h.nothing_after, List.pairwise_singleton _ _, ?_⟩
    rintro a ha b hb rfl
    rw [List.mem_singleton.mp hb]
    exact (hclosed (h.closed_of_mem ha)).2
  · intro ha
    obtain ⟨hstate, hnone⟩ := h.inactive ha
    obtain ⟨hstate', hmsg⟩ := hclosed hstate
    exact ⟨hstate', by simp [Link.emit, hnone, hmsg]⟩

/-- Receiving a message that is no announcement. -/
theorem LinkTracked.receive_other {received : List AggregationRecord} {active : Bool} {msg : ToMaster}
    {outbox : List ToMaster} (h : LinkTracked received i active L) (hout : L.outbox = msg :: outbox)
    (hmsg : msg.announcement = none) : LinkTracked received i active { L with outbox := outbox } := by
  obtain ⟨h1, h2, h3, h4⟩ := h
  rw [hout] at h1 h2 h3 h4
  rw [List.filterMap_cons_none hmsg] at h1 h4
  exact ⟨h1, fun hm => h2 (List.mem_cons_of_mem _ hm), (List.pairwise_cons.mp h3).2, h4⟩

/-- Receiving a message of worker `i`: an announcement is appended to those received. -/
theorem Tracked.receive (h : Tracked w) (hL : w.links[i]? = some L) {msg : ToMaster}
    {outbox : List ToMaster} (hout : L.outbox = msg :: outbox) (hphase : w.phase = .probing) :
    TrackedUnlessThrown
      (({ w with links := w.links.set i { L with outbox := outbox } }).handle i msg) := by
  have hother : msg.announcement = none →
      Tracked { w with links := w.links.set i { L with outbox := outbox } } :=
    fun hmsg => h.setLink hL fun _ hl => hl.receive_other hout hmsg
  cases msg with
  | newWorkAcknowledgment => exact Or.inr (hother rfl)
  | unexpected tag => exact Or.inr (hother rfl)
  | reportError message =>
    have h' := hother rfl
    exact Or.inr ⟨h'.active_eq, h'.length_eq, h'.received_eq, h'.ids, h'.links, h'.exhausted, h'.returned⟩
  | finished kind failed payload =>
    have hs := sameActivity_markUnassigned w.sched i payload.wallclockTime payload.itemsProcessed
    simp only [World.handle, World.handleFinished]
    cases hm : w.sched.markUnassigned i payload.wallclockTime payload.itemsProcessed with
    | mk r s =>
      rw [hm] at hs
      cases r with
      | error e => exact Or.inl ⟨e, rfl⟩
      | ok _ =>
        have h' := (hother rfl).setSched hs
        exact Or.inr
          ⟨h'.active_eq, h'.length_eq, h'.received_eq, h'.ids, h'.links, h'.exhausted, h'.returned⟩
  | dataReady kind container =>
    refine Or.inr ⟨h.active_eq, ?_, ?_, ?_, fun {j M active} hM ha => ?_, ?_, ?_⟩
    · simpa [World.handle] using h.length_eq
    · simp [World.handle, h.received_eq]
    · simp [World.handle, h.ids, List.range_succ]
    · simp only [World.handle] at hM ha ⊢
      rcases (getElem?_set_eq_some_iff hL).mp hM with ⟨rfl, rfl⟩ | ⟨hne, hM⟩
      · obtain ⟨h1, h2, h3, h4⟩ := h.links hL ha
        rw [hout] at h1 h2 h3 h4
        refine ⟨?_, fun hm => h2 (List.mem_cons_of_mem _ hm), (List.pairwise_cons.mp h3).2, fun hact => ?_⟩
        · simp [h1, ToMaster.announcement]
        · simp [ToMaster.announcement] at h4
          exact absurd hact (by simp [h4])
      · obtain ⟨h1, h2, h3, h4⟩ := h.links hM ha
        refine ⟨?_, h2, h3, h4⟩
        simp [h1, Ne.symm hne]
    · simp [World.handle, hphase]
    · simp [World.handle, hphase]
  | workerCloseDown =>
    have h' := hother rfl
    simp only [World.handle]
    cases hm : w.sched.markInactive i with
    | mk r s =>
      cases r with
      | error e => exact Or.inl ⟨e, rfl⟩
      | ok _ =>
        obtain ⟨hact, hset, hpred⟩ := activity_markInactive hm
        have hcount : 0 < w.sched.activity.count true :=
          List.count_pos_iff.mpr (List.mem_of_getElem? hact)
        refine Or.inr ⟨?_, ?_, h'.received_eq, h'.ids, fun {j M active} hM ha => ?_, ?_, ?_⟩
        · have hc := countP_set_add (b := false) hact (· == true)
          simp only [BEq.rfl, if_true, Bool.false_beq, Bool.not_true, Bool.false_eq_true, if_false,
            add_zero] at hc
          simp only [hpred, hset, h.active_eq, unsignedPred, hcount.ne', if_false]
          simp only [List.count] at hcount ⊢
          omega
        · simpa [hset] using h.length_eq
        · simp only [hset] at ha
          rcases (getElem?_set_eq_some_iff hact).mp ha with ⟨rfl, rfl⟩ | ⟨hne, ha⟩
          · -- the message just received precedes what is left in the channel
            obtain rfl : { L with outbox := outbox } = M := by
              have hlt : j < w.links.length := (List.getElem?_eq_some_iff.mp hL).1
              simpa [hlt] using hM
            obtain ⟨h1, h2, h3, h4⟩ := h'.links hM hact
            obtain ⟨-, g2, g3, -⟩ := h.links hL hact
            rw [hout] at g2 g3
            refine ⟨h1, h2, h3, fun _ => ⟨g2 (by simp), ?_⟩⟩
            rw [List.filterMap_eq_nil_iff]
            exact fun b hb => (List.pairwise_cons.mp g3).1 b hb rfl
          · exact h'.links hM ha
        · simp [hphase]
        · simp [hphase]

/-- **Step lemma**: an event keeps the invariant, unless the scheduler throws. -/
theorem Tracked.next (h : Tracked w) {e : Event} {w' : World}
    (hn : w.next P aggs (announcesBeforeClosing aggs) e = some w') : TrackedUnlessThrown w' := by
  cases e with
  | loop =>
    simp only [World.next, Option.ite_none_right_eq_some, Option.some.injEq] at hn
    obtain ⟨-, rfl⟩ := hn
    exact h.loopHead
  | send =>
    simp only [World.next] at hn
    split at hn
    · obtain rfl := Option.some.inj hn
      exact Or.inr (h.setPhase (by simp) (by simp))
    · obtain rfl := Option.some.inj hn
      exact h.sendAssignment _ _
    · cases hn
  | receive worker =>
    simp only [World.next] at hn
    split at hn
    · rename_i hphase
      split at hn
      · rename_i L hL
        split at hn
        · cases hn
        · rename_i msg outbox hout
          split at hn
          · obtain rfl := Option.some.inj hn
            exact Or.inr h
          · obtain rfl := Option.some.inj hn
            exact h.receive hL hout hphase
      · cases hn
    · cases hn
  | noMessage =>
    simp only [World.next, Option.ite_none_right_eq_some, Option.some.injEq] at hn
    obtain ⟨-, rfl⟩ := hn
    exact Or.inr (h.setPhase (by simp) (by simp))
  | idle early =>
    simp only [World.next, Option.ite_none_right_eq_some, Option.some.injEq] at hn
    obtain ⟨hphase, rfl⟩ := hn
    cases early with
    | none => exact Or.inr (h.setPhase (by simp) (by simp))
    | some time => exact Or.inr ((h.aggregate time (by simp [hphase])).setPhase (by simp) (by simp))
  | drain time =>
    simp only [World.next, Option.ite_none_right_eq_some, Option.some.injEq] at hn
    obtain ⟨⟨hphase, hq⟩, rfl⟩ := hn
    exact Or.inr (h.aggregate time (by simp [hphase]))
  | finish =>
    simp only [World.next, Option.ite_none_right_eq_some, Option.some.injEq] at hn
    obtain ⟨⟨hphase, hq⟩, rfl⟩ := hn
    exact Or.inr { h with
      exhausted := fun _ => h.exhausted (Or.inl hphase)
      returned := fun _ => hq }
  | accept worker =>
    simp only [World.next] at hn
    split at hn
    · rename_i L hL
      split at hn
      · rename_i items inbox hstate hin
        obtain rfl := Option.some.inj hn
        refine Or.inr (h.setLink hL fun _ hl => ?_)
        have hrule : announcesBeforeClosing aggs L.state .newWorkAcknowledgment (.working items) = true := by
          simp [hstate, announcesBeforeClosing]
        exact (hl.emit hrule).inbox inbox
      · rename_i inbox hstate hin
        obtain rfl := Option.some.inj hn
        refine Or.inr (h.setLink hL fun _ hl => ?_)
        refine ⟨hl.announced_eq, fun hm => ?_, hl.nothing_after, fun ha => ?_⟩
        · have := hl.closed_of_mem hm
          rw [hstate] at this
          cases this
        · have := (hl.inactive ha).1
          rw [hstate] at this
          cases this
      · cases hn
    · cases hn
  | emit worker msg state =>
    simp only [World.next] at hn
    split at hn
    · rename_i L hL
      split at hn
      · rename_i hrule
        obtain rfl := Option.some.inj hn
        have h' := h.setLink hL fun _ hl => hl.emit hrule
        exact Or.inr
          ⟨h'.active_eq, h'.length_eq, h'.received_eq, h'.ids, h'.links, h'.exhausted, h'.returned⟩
      · cases hn
    · cases hn

end Events

/-- **Run lemma**: the invariant holds in every reachable state in which nothing was thrown. -/
theorem tracked_of_reachable {P : Platform} {aggs : Aggregators} {kind : WorkerType} {src : WorkSource}
    {w : World} (hw : (pollSystem P aggs (announcesBeforeClosing aggs) kind src).Reachable w) :
    TrackedUnlessThrown w := by
  refine System.Invariant.reachable (I := TrackedUnlessThrown) ⟨?_, ?_⟩ hw
  · rintro _ ⟨s, hs, rfl⟩
    obtain ⟨hc, -, -, hfresh⟩ := hs.spec
    refine Or.inr ⟨?_, by simp [activity], rfl, rfl, fun {i L active} hL ha => ?_, by simp, by simp⟩
    · rw [hc.active_eq, activity, List.count, List.countP_map]
      exact List.countP_congr fun w _ => by simp
    · obtain ⟨-, rfl⟩ : i < s.workerData.length ∧ L = {} := by
        rw [List.getElem?_replicate] at hL
        split at hL <;> simp_all
      rw [activity, List.getElem?_map, Option.map_eq_some_iff] at ha
      obtain ⟨v, hv, rfl⟩ := ha
      exact ⟨rfl, by simp, List.Pairwise.nil, fun hact => by simp [(hfresh hv).2] at hact⟩
  · rintro w e w' (⟨e', hthrown⟩ | h) hn
    · exact Or.inl ⟨e', (phase_of_thrown hthrown hn).1⟩
    · exact h.next hn

/-- **No lost container**: when `poll_workers` has returned, the containers aggregated are those
received, in order of receipt and each under its own number, and for each worker they are the
containers it announced. -/
theorem returned_aggregates_all {P : Platform} {aggs : Aggregators} {kind : WorkerType}
    {src : WorkSource} {w : World} {success : Bool}
    (hw : (pollSystem P aggs (announcesBeforeClosing aggs) kind src).Reachable w)
    (hr : w.phase = .returned success) :
    w.aggregated = w.received ∧ w.received.map (·.id) = List.range w.received.length ∧
      ∀ i L, w.links[i]? = some L →
        (w.aggregated.filter (·.worker = i)).map (·.content) = L.announced := by
  rcases tracked_of_reachable hw with ⟨e, he⟩ | h
  · rw [hr] at he
    cases he
  · have hall : w.aggregated = w.received := by
      rw [h.received_eq, h.returned ⟨success, hr⟩, List.append_nil]
    have hlen := congrArg List.length h.ids
    rw [List.length_map, List.length_range] at hlen
    refine ⟨hall, hlen ▸ h.ids, fun i L hL => ?_⟩
    have hi : i < w.sched.activity.length := h.length_eq ▸ (List.getElem?_eq_some_iff.mp hL).1
    have hact : w.sched.activity[i]? = some false := by
      have hzero : w.sched.activity.count true = 0 := by
        rw [← h.active_eq]
        exact h.exhausted (Or.inr ⟨success, hr⟩)
      have := List.count_eq_zero.mp hzero
      cases hb : w.sched.activity[i] with
      | true => exact absurd (hb ▸ List.getElem_mem hi) this
      | false => rw [List.getElem?_eq_getElem hi, hb]
    obtain ⟨hann, -, -, hin⟩ := h.links hL hact
    rw [hann, (hin rfl).2, hall, List.append_nil]

/-- One worker announces one container, and it is aggregated. -/
theorem returned_aggregates_all_oneWorker :
    ∃ w : World, w.phase = .returned true ∧ w.aggregated = [⟨0, 0, (.integration, "container")⟩] ∧
      w.aggregated = w.received := by
  let aggs : Aggregators := fun kind => kind = .integration
  let events : List Event :=
    oneWorkerEvents [.dataReady .integration "container", .finished .integration false ⟨40, 1, []⟩] ++
      [Event.noMessage, .idle none, .loop, .drain (some 3), .finish]
  have hrun : (events.foldlM (World.next exactPlatform aggs (announcesBeforeClosing aggs))
      oneWorkerTask).map (fun w => (w.phase, w.aggregated)) =
        some (.returned true, [⟨0, 0, (.integration, "container")⟩]) := by decide
  obtain ⟨w, hw, hval⟩ := Option.map_eq_some_iff.mp hrun
  obtain ⟨hphase, hagg⟩ := Prod.mk.inj hval
  have hreach : (pollSystem exactPlatform aggs (announcesBeforeClosing aggs) .cpu (.database [7])).Reachable w :=
    ⟨_, _, oneWorkerTask_init _ _, System.run_ofNext_of_foldlM hw⟩
  exact ⟨w, hphase, hagg, (returned_aggregates_all hreach hphase).1⟩

end CppTransport.Runtime
