import Cadence.Proofs.Launching
import Cadence.Proofs.Occasion
import Cadence.Proofs.Pace
import Cadence.Proofs.TurnOrder

/-!
# Cadence.Proofs.Callbacks — what a subscriber finds when it is notified

A notification is delivered one subscriber at a time, and each may call the controller.  By then the state machine
has made its transition, the turn is counted and the domain's hook is over, and none of this changes before the
last subscriber is served, whatever the others do.

* `Delivers`: what holds from the announcement of a notification until everybody has been told.
* `Reachable.delivers`: it does so in every run.
* `Reacting.sees`: the answers that a subscriber gets.
-/

namespace Cadence.Controller

open Engine (Served)

variable {A : Assembly} {w v : Controller A}

/-- The state that a notification goes with. -/
def stateAt : Notification → State
  | .setupDone => .setupDone
  | .actionDone => .runningTurn
  | .disposeDone => .disposed
  | .error m => .failed m

/-- A notification goes out with the transition to its state. -/
theorem after_of_noticeOf {s : State} {x : Event} {n : Notification} (h : s.noticeOf x = some n) :
    s.after x = stateAt n := by
  unfold State.noticeOf at h
  unfold State.after
  cases s <;> cases x <;> cases h <;> rfl

/-! ## From the announcement on -/

/-- What holds while a notification is delivered. -/
structure Delivers (n : Notification) (w : Controller A) : Prop where
  last : ∃ ns, w.emissions.map Prod.fst = ns ++ [n]
  state : w.state = stateAt n
  /-- The last call of the worker was the hook that the notification is about. -/
  hook : ∀ k, n = feat k → ∃ past since, w.history = past ++ .hook k (.ok ()) :: since ∧
    ∀ e ∈ since, ¬ e.IsOwn

namespace Delivers

variable {n : Notification}

/-- Nothing else changes it: entries about other things do not. -/
theorem more (h : Delivers n w) (news : List (Entry A.Id)) (hj : v.journal = news ++ w.journal)
    (hn : ∀ e ∈ news, ¬ e.IsOwn) (he : v.emissions = w.emissions) (hs : v.state = w.state) : Delivers n v where
  last := he ▸ h.last
  state := hs.trans h.state
  hook k hk := by
    obtain ⟨past, since, hw, hsince⟩ := h.hook k hk
    refine ⟨past, since ++ news.reverse, ?_, fun e he => ?_⟩
    · rw [history, hj, List.reverse_append, ← history, hw]
      simp
    · rw [List.mem_append, List.mem_reverse] at he
      exact he.elim (hsince e) (hn e)

theorem effect (h : Delivers n w) (hl : w.launch ≠ none) (he : Effect w v) : Delivers n v := by
  obtain ⟨-, hs, -, hem, -⟩ := he.of_launched hl
  cases he with
  | load _ _ _ hn | loadFails _ _ hn | launch _ hn | noThread hn => exact absurd hn hl
  | nothing => exact h
  | query | release | releaseNobody | stop | setMode => exact h.more [_] rfl (by simp [Entry.IsOwn]) hem hs
  | subscribers => exact h.more [] rfl (by simp) hem hs

theorem told (h : Delivers n w) (ht : Told w v) : Delivers n v := by
  cases ht with
  | observer | channel =>
    exact h.more [_] rfl (by simp [Entry.IsOwn]) (by simp [emissions, note, Entry.emission?]) rfl

/-- An announcement, right after the hook that it is about. -/
theorem apply {x : Event} (ho : w.outbox = [])
    (hk : ∀ k, w.state.noticeOf x = some (feat k) → ∃ past, w.history = past ++ [.hook k (.ok ())]) :
    ∀ p ∈ (w.apply x).outbox, Delivers p.2 (w.apply x) := by
  intro p hp
  rw [apply_eq] at hp ⊢
  cases hn : w.state.noticeOf x with
  | none => simp [ho, hn] at hp
  | some n =>
    obtain ⟨s, -, rfl⟩ : ∃ s ∈ w.registry.members, (s, n) = p := by simpa [ho, hn] using hp
    constructor
    · simp [emissions, Entry.emission?]
    · exact after_of_noticeOf hn
    · rintro k rfl
      obtain ⟨past, hpast⟩ := hk k hn
      rw [history] at hpast
      exact ⟨past, [.event x (w.state.next x).isOk, .emitted (feat k) w.registry.members],
        by simp [history, hpast], by simp [Entry.IsOwn]⟩

theorem fail {f : Failure} (ho : w.outbox = []) : ∀ p ∈ (w.fail f).outbox, Delivers p.2 (w.fail f) := by
  intro p hp
  have hd := apply (x := .faulted f.message) ho (fun k hk => ?_) p hp
  · exact hd.more [.ended (some f)] rfl (by simp [Entry.IsOwn])
      (by simp [Controller.fail, emissions, note, Entry.emission?]) rfl
  · -- a failure is reported as an error
    unfold State.noticeOf at hk
    cases k <;> cases hs : w.state <;> rw [hs] at hk <;> cases hk

end Delivers

theorem callHook_last {k : Domain.Hook} (h : Failure.of? (w.callHook k).1 = none) :
    ∃ past, (w.callHook k).2.history = past ++ [.hook k (.ok ())] := by
  cases hg : w.engine with
  | none => rw [callHook_of_none hg] at h; cases h
  | some g =>
    simp only [callHook, hg] at h ⊢
    rcases he : (Engine.perform (Domain.hook k w.domain) g).1.1 with ⟨⟩ | e | p <;> rw [he] at h
    · exact ⟨_, List.reverse_cons⟩
    · cases h
    · cases h

/-- The announcement of a hook that has just ended well. -/
theorem Delivers.hooked {k : Domain.Hook} {x : Event} (ho : w.outbox = [])
    (h : Failure.of? (w.callHook k).1 = none)
    (hx : ∀ s : State, ∀ j, s.noticeOf x = some (feat j) → j = k) :
    ∀ p ∈ ((w.callHook k).2.apply x).outbox, Delivers p.2 ((w.callHook k).2.apply x) :=
  Delivers.apply (by simpa using ho) fun j hj => by rw [hx _ j hj]; exact callHook_last h

theorem Labour.delivers (h : Labour w v) (ho : w.outbox = []) : ∀ p ∈ v.outbox, Delivers p.2 v := by
  have hb : w.beginTurn.outbox = [] := (beginTurn_outbox w).trans ho
  cases h with
  | resetFails => exact Delivers.fail (by simpa using ho)
  | setUpFails => exact Delivers.fail (by simpa using ho)
  | advanceFails => exact Delivers.fail (by simpa using hb)
  | actionFails => exact Delivers.fail (by simpa using hb)
  | disposeFails => exact Delivers.fail (by simpa using ho)
  | setUp _ _ hf =>
    intro p hp
    refine (Delivers.hooked (x := .setupCompleted) (by simpa using ho) hf (fun s j hj => ?_) p hp).more [] rfl
      (by simp) rfl rfl
    cases s <;> cases j <;> first | rfl | cases hj
  | turn _ _ hf =>
    intro p hp
    refine (Delivers.hooked (x := .turnCompleted) (by simpa using hb) hf (fun s j hj => ?_) p hp).more [] rfl
      (by simp) rfl rfl
    cases s <;> cases j <;> first | rfl | cases hj
  | dispose _ hf =>
    intro p hp
    refine (Delivers.hooked (x := .disposed) ho hf (fun s j hj => ?_) p hp).more [.ended none] rfl
      (by simp [Entry.IsOwn]) (by simp [enter, emissions, note, Entry.emission?]) rfl
    cases s <;> cases j <;> first | rfl | cases hj

theorem Stride.delivers (h : Stride w v) (hl : w.phase.isLabour = false) (ho : w.outbox = []) :
    ∀ p ∈ v.outbox, Delivers p.2 v := by
  cases h with
  | noEngine _ phase => rcases phase with hp | hp <;> rw [hp] at hl <;> cases hl
  | noEngineInTurn _ hp | resetFails hp | setUpFails hp | setUp hp | advanceFails hp | actionFails hp
  | turn hp | disposeFails hp | dispose hp => rw [hp] at hl; cases hl
  | askFails => exact Delivers.fail ho
  | cancel => exact Delivers.fail ho
  | cancelParked => exact Delivers.fail ho
  | goOn | isDone | comeUp | pass | leave => simp [enter, note, ho]
  | park =>
    rw [enter, apply_eq, noticeOf_gateParked]
    simp [ho]

/-- **From its announcement until everybody has been told**, a notification agrees with the run. -/
theorem Reachable.delivers (h : Reachable w) : ∀ p ∈ w.outbox, Delivers p.2 w := by
  refine h.upholds (P := fun w => ∀ p ∈ w.outbox, Delivers p.2 w) ?_ ?_ ?_ ?_
  · simp [Controller.create]
  · intro w a hr hw p hp
    have he := access_effect w a
    rw [he.outbox_eq] at hp
    refine (hw p hp).effect (fun hl => ?_) he
    rw [(hr.sound.nothing_due (by simp [hr.sound.phase_of_launch hl])
      (by simp [hr.sound.phase_of_launch hl])).1] at hp
    cases hp
  · intro w v _ hw ht p hp
    refine (hw p ?_).told ht
    cases ht with
    | observer due | channel due => rw [due]; exact List.mem_cons_of_mem _ hp
  · intro w r _ _ ho _ hr
    by_cases hl : w.phase.isLabour = true
    · exact (proceed_labour hr hl).delivers ho
    · exact (proceed_stride hr).delivers (by simpa using hl) ho

/-! ## The engine since the last call -/

/-- The engine in use after a history, as a run left it. -/
def EngineAfter (es : List (Entry A.Id)) (g : A.Eng) : Prop :=
  InUse (fun j script g => ∃ u, Reachable u ∧ u.journal = j ∧ (A.load script u.source).1 = .ok g)
    es.reverse (some g)

theorem Reachable.engineAfter (h : Reachable w) {g : A.Eng} (hg : w.engine = some g) :
    EngineAfter w.history g := by
  have hu := h.upholds (P := fun w => InUse (fun j script g => ∃ u, Reachable u ∧ u.journal = j ∧
      (A.load script u.source).1 = .ok g) w.journal w.engine) (fun _ _ _ _ => .nil)
    (fun w a hr h => h.access a fun script g _ hl => ⟨w, hr, rfl, hl⟩) (fun _ _ _ h ht => h.told ht)
    (fun _ _ _ h _ _ hr => h.phase hr)
  rw [hg] at hu
  rwa [EngineAfter, history, List.reverse_reverse]

/-- Since a call of the worker, the engine has answered only those who asked for its texts. -/
theorem Reachable.engine_since (h : Reachable w) {past since : List (Entry A.Id)} {e : Entry A.Id} {g : A.Eng}
    (hw : w.history = past ++ e :: since) (he : e.IsOwn) (hg : w.engine = some g) :
    ∃ g₁, EngineAfter (past ++ [e]) g₁ ∧ Served g₁ (since.filterMap Entry.record?) g := by
  have hn := h.divided.late_after hw (fun h => h.1 he)
  have hu := h.engineAfter hg
  rw [EngineAfter, hw, ← List.singleton_append, ← List.append_assoc, List.reverse_append] at hu
  obtain ⟨g₁, hg₁, hs⟩ := hu.since fun x hx => (hn x (by simpa using hx)).not_isLoad
  exact ⟨g₁, hg₁, by simpa [readOff] using hs⟩

theorem exists_last_own {es : List (Entry A.Id)} (h : ∃ e ∈ es, e.IsOwn) :
    ∃ past e since, es = past ++ e :: since ∧ e.IsOwn ∧ ∀ x ∈ since, ¬ x.IsOwn := by
  induction es using List.reverseRecOn with
  | nil => simp at h
  | append_singleton es e ih =>
    by_cases he : e.IsOwn
    · exact ⟨es, e, [], rfl, he, by simp⟩
    obtain ⟨x, hx, hown⟩ := h
    have hmem : x ∈ es := by
      rcases List.mem_append.mp hx with hx | hx
      · exact hx
      · rw [List.mem_singleton.mp hx] at hown; exact absurd hown he
    obtain ⟨past, y, since, rfl, hy, hs⟩ := ih ⟨x, hmem, hown⟩
    refine ⟨past, y, since ++ [e], by simp, hy, fun z hz => ?_⟩
    rcases List.mem_append.mp hz with hz | hz
    · exact hs z hz
    · rw [List.mem_singleton.mp hz]; exact he

/-- A run that has anything to deliver has called the engine. -/
theorem Sound.has_own (h : Sound w) (hd : w.phase = .checking ∨ w.phase = .finished) :
    ∃ e ∈ w.history, e.IsOwn := by
  have hacts : ∃ f, .engine .reset f ∈ w.acts := by
    have hs := h.stands
    unfold Stands at hs
    rcases hd with hp | hp <;> rw [hp] at hs
    · obtain ⟨ms, hms⟩ := run_reads hs.1
      exact ⟨none, by rw [hms]; simp [soFar, opening]⟩
    · obtain ⟨f, hr, -⟩ := hs
      have hreads := run_reads hr
      cases f with
      | none =>
        obtain ⟨ms, hms⟩ := hreads
        exact ⟨none, by rw [hms]; simp [soFar, opening]⟩
      | some f =>
        obtain ⟨bs, hb, hms⟩ := hreads
        rw [hms]
        cases hb <;> simp [soFar, opening]
  obtain ⟨f, hf⟩ := hacts
  obtain ⟨e, he, hact⟩ := (mem_readOff _).mp hf
  refine ⟨e, List.mem_reverse.mpr he, ?_⟩
  cases e with
  | hasDone r => cases r <;> cases hact
  | engine r => trivial
  | _ => cases hact

/-! ## What a subscriber sees -/

/-- What a subscriber finds while `n` is delivered. -/
structure Sees (n : Notification) (w : Controller A) : Prop where
  /-- The last announcement is the one that is delivered, -/
  last : ∃ ns, w.emissions.map Prod.fst = ns ++ [n]
  /-- and the state is the one after it. -/
  state : (w.call .state).1 = stateAt n
  /-- Turns are counted as they are announced, failures aside: there is none yet when the domain is set up. -/
  turns : (∀ m, n ≠ .error m) → (w.call .turns).1 = (w.emissions.map Prod.fst).count .actionDone
  first : n = .setupDone → (w.call .turns).1 = 0
  /-- The engine is as the worker's last call left it, but for the texts that were asked for since; that call was the
  hook that the notification is about. -/
  engine : ∃ past e since g₁ g, w.history = past ++ e :: since ∧ e.IsOwn ∧ (∀ x ∈ since, ¬ x.IsOwn) ∧
    (∀ k, n = feat k → e = .hook k (.ok ())) ∧ EngineAfter (past ++ [e]) g₁ ∧
    Served g₁ (since.filterMap Entry.record?) g ∧
    (w.call .facts).1 = (Engine.call .facts g).1.mapError .engine ∧
    (w.call .agenda).1 = (Engine.call .agenda g).1.mapError .engine
  /-- The mode is the one that was set last. -/
  mode : (w.call .mode).1 = inForce w.config.initialMode w.history
  /-- There is nobody to resume, -/
  resume : (w.call .resume).1 = false
  isSuspended : (w.call .isSuspended).1 = false
  /-- and nothing to launch or to load. -/
  execute : (w.call .execute).1 = .error .alreadyExecuted
  runBlocking : ∀ thread, (w.call (.runBlocking thread)).1 = .error .alreadyExecuted
  startEngine : ∀ script, (w.call (.startEngine script)).1 = .error .alreadyLaunched

theorem count_soFar (ms : List Mode) :
    (notices (soFar ms)).count .actionDone = (advances (soFar ms)).length := by
  induction ms using List.reverseRecOn with
  | nil => rfl
  | append_singleton ms m ih =>
    rw [soFar_concat, notices_append, advances_append, List.count_append, List.length_append, ih]
    cases m <;> rfl

/-- Turns are counted as they are announced, unless the run has failed. -/
theorem Sound.turns_announced (h : Sound w) (hd : w.phase = .checking ∨ w.phase = .finished)
    (hn : ∀ m, w.state ≠ .failed m) : w.turns = (w.emissions.map Prod.fst).count .actionDone := by
  have hs := h.stands
  rw [h.turns, ← notices_acts]
  unfold Stands at hs
  rcases hd with hp | hp <;> rw [hp] at hs
  · obtain ⟨ms, hms⟩ := run_reads hs.1
    rw [hms, count_soFar]
  · obtain ⟨_ | f, hr, hstate, -⟩ := hs
    · obtain ⟨ms, hms⟩ := run_reads hr
      rw [hms, notices_append, advances_append, List.count_append, List.length_append, count_soFar]
      rfl
    · exact absurd hstate (hn _)

/-- Nothing is announced before the domain is set up. -/
theorem Prescribed.eq_nil {ns : List Notification} (h : Prescribed (ns ++ [.setupDone])) : ns = [] := by
  rcases h with ⟨k, t, ht, hp⟩ | ⟨m, hm⟩
  · cases ns with
    | nil => rfl
    | cons x ns =>
      obtain ⟨-, hp⟩ := List.cons_prefix_cons.mp hp
      have hmem := hp.subset (List.mem_append_right ns (List.mem_singleton_self _))
      rcases List.mem_append.mp hmem with hmem | hmem
      · cases List.eq_of_mem_replicate hmem
      · rw [← List.mem_singleton.mp hmem] at ht
        cases ht
  · cases (List.append_inj' (hm.trans (List.nil_append _).symm) rfl).2

/-- **What a subscriber sees** when it calls the controller while it is notified, whatever it and others have called
before. -/
theorem Reacting.sees {i : A.Id} {n : Notification} {rest : Reaction A.Id A.Dom A.Crowd}
    (h : Reacting i n w rest) : Sees n w := by
  obtain ⟨later, hout⟩ := h.due
  have hr := h.reachable
  have hsound := hr.sound
  have hd := hr.delivers (.observer i, n) (by rw [hout]; simp)
  have hphase : w.phase = .checking ∨ w.phase = .finished := hsound.due (.inl (by simp [hout]))
  have hlaunched : w.launch.isSome := by
    rw [Option.isSome_iff_ne_none, ne_eq, hsound.launched]
    rcases hphase with hp | hp <;> simp [hp]
  have hparked : w.phase ≠ .parked := by rcases hphase with hp | hp <;> simp [hp]
  have hclaim (l : Launch) : (w.launchOn l).1 = .error .alreadyExecuted := by
    rw [launchOn, claim, if_pos hlaunched]
  have hturns (hn : ∀ m, n ≠ .error m) : w.turns = (w.emissions.map Prod.fst).count .actionDone := by
    refine hsound.turns_announced hphase fun m hm => ?_
    have hs := hd.state.symm.trans hm
    cases n with
    | error m' => exact hn m' rfl
    | _ => cases hs
  exact
    { last := hd.last
      state := hd.state
      turns := hturns
      first := by
        rintro rfl
        obtain ⟨ns, hl⟩ := hd.last
        obtain ⟨s, hrun, -⟩ := hsound.run
        have hns : ns = [] := Prescribed.eq_nil (hl ▸ notices_acts w ▸ prescribed_of_run hrun)
        rw [call, hturns (by simp), hl, hns]
        rfl
      engine := by
        obtain ⟨g, hg⟩ := Option.isSome_iff_exists.mp
          (hsound.engine (by rcases hphase with hp | hp <;> simp [hp]))
        obtain ⟨past, e, since, hw, he, hs, hk⟩ : ∃ past e since, w.history = past ++ e :: since ∧ e.IsOwn ∧
            (∀ x ∈ since, ¬ x.IsOwn) ∧ ∀ k, n = feat k → e = .hook k (.ok ()) := by
          by_cases hn : ∃ k, n = feat k
          · obtain ⟨k, hk⟩ := hn
            obtain ⟨past, since, hw, hs⟩ := hd.hook k hk
            refine ⟨past, _, since, hw, trivial, hs, fun j hj => ?_⟩
            have hjk : j = k := by cases j <;> cases k <;> first | rfl | cases hk.symm.trans hj
            rw [hjk]
          · obtain ⟨past, e, since, hw, he, hs⟩ := exists_last_own (hsound.has_own hphase)
            exact ⟨past, e, since, hw, he, hs, fun k hk => absurd ⟨k, hk⟩ hn⟩
        obtain ⟨g₁, hg₁, hserved⟩ := hr.engine_since hw he hg
        exact ⟨past, e, since, g₁, g, hw, he, hs, hk, hg₁, hserved, by simp only [call, query, hg],
          by simp only [call, query, hg]⟩
      mode := hr.recorded.mode.symm
      resume := by
        rw [← Bool.not_eq_true, call, hsound.resume_iff]
        exact fun h => hparked h.1
      isSuspended := by
        rw [← Bool.not_eq_true, call, isSuspended, hsound.parked]
        exact hparked
      execute := hclaim .spawned
      runBlocking := fun thread => hclaim (.borrowed thread)
      startEngine := fun script => by rw [call, startEngine, if_pos hlaunched] }

/-- The bench with subscribers that look at the facts and let the run go before they say that they are done. -/
abbrev Bench.nosyParts : Assembly :=
  { Bench.trialParts with
    react := fun _ _ book => .ask (.call .facts) fun _ => .ask (.call (.setMode .run)) fun _ => .done (none, book) }

/-- A controller to try out with such subscribers, which would wait at the gate without them. -/
def Bench.nosy : Controller Bench.nosyParts :=
  .create Config.standard (Bench.trial .step 3 []).source { doneAfter := 3 } {}

/-- After two turns the first of two subscribers has had its say, and the second one is in the middle of it. -/
theorem sees_of_second_turn :
    (Bench.nosy.moves (Bench.launched 12)).outbox = [(.observer "watcher", .actionDone)] ∧
      (((Bench.nosy.moves (Bench.launched 12)).call .facts).2.call (.setMode .run)).2.turns = 2 ∧
      ((Bench.nosy.moves (Bench.launched 12)).call .facts).1 = .ok "f-0     (initial-fact)" ∧
      Sees .actionDone (((Bench.nosy.moves (Bench.launched 12)).call .facts).2.call (.setMode .run)).2 := by
  have due : (Bench.nosy.moves (Bench.launched 12)).outbox = [(.observer "watcher", .actionDone)] := by decide
  have hnotified := Reacting.notified (Reachable.moves (.create _ _ _ _) _) (by decide) due
  exact ⟨due, by decide, by decide +kernel, hnotified.called.called.sees⟩

end Cadence.Controller
