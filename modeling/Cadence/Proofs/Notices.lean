import Cadence.Proofs.Record

/-!
# Cadence.Proofs.Notices — what a subscriber is told

A subscriber that is registered whenever something is announced is told all of it, in order.  What is
announced in a run is prescribed by the turn protocol: that the domain is set up, then one completed turn after
another, and one terminal notification at the end.

* `toldTo_append`: what a subscriber was told and what is due to it make up what was announced to it.
* `prescribed_of_run`: the notifications of acts by the rules.
* `Reachable.contract`: the notification contract of a run.
-/

namespace Cadence.Controller

variable {A : Assembly} {w v : Controller A}

/-! ## From announcements to deliveries -/

theorem notices_acts (w : Controller A) : notices w.acts = w.emissions.map Prod.fst := by
  simp only [notices, acts, emissions, readOff, List.filterMap_filterMap, List.map_filterMap]
  congr 1
  funext e
  cases e with
  | hasDone r => cases r <;> rfl
  | _ => rfl

theorem filterMap_members {ι : Type} [DecidableEq ι] {members : List ι} (h : members.Nodup) (s : ι)
    (n : Notification) :
    (members.map (·, n)).filterMap (fun p => if p.1 = s then some p.2 else none) =
      if s ∈ members then [n] else [] := by
  induction members with
  | nil => rfl
  | cons a members ih =>
    obtain ⟨ha, h⟩ := List.nodup_cons.mp h
    rw [List.map_cons, List.filterMap_cons, ih h]
    by_cases hs : a = s
    · subst hs; simp [ha]
    · simp [hs, Ne.symm hs]

/-- What is still due to one subscriber. -/
def dueTo (w : Controller A) (s : Subscriber A.Id) : List Notification :=
  w.outbox.filterMap fun p => if p.1 = s then some p.2 else none

/-- **A subscriber is told what was announced while it was registered**, each once and in order. -/
theorem toldTo_append (h : Recorded w) (s : Subscriber A.Id) :
    w.toldTo s ++ w.dueTo s = (w.emissions.filter (s ∈ ·.2)).map Prod.fst := by
  rw [toldTo, dueTo, ← List.filterMap_append, h.delivered, List.filterMap_flatMap]
  have honce := h.once
  revert honce
  induction w.emissions with
  | nil => exact fun _ => rfl
  | cons e es ih =>
    intro honce
    obtain ⟨he, hes⟩ := List.forall_mem_cons.mp honce
    rw [List.flatMap_cons, ih hes, filterMap_members he]
    by_cases hs : s ∈ e.2 <;> simp [hs]

theorem toldTo_append_of_stays (h : Recorded w) {s : Subscriber A.Id}
    (stays : ∀ e ∈ w.emissions, s ∈ e.2) : w.toldTo s ++ w.dueTo s = notices w.acts := by
  rw [toldTo_append h, notices_acts, List.filter_eq_self.mpr]
  simpa using stays

/-! ## What the protocol prescribes -/

/-- The notifications of a run, whole or so far. -/
def Prescribed (ns : List Notification) : Prop :=
  (∃ k t, t.isTerminal = true ∧ ns <+: .setupDone :: List.replicate k .actionDone ++ [t]) ∨
    ∃ m, ns = [.error m]

theorem Prescribed.of_beginning {ms ns : List Notification} (h : Prescribed ns) (hp : ms <+: ns) :
    Prescribed ms := by
  rcases h with ⟨k, t, ht, h⟩ | ⟨m, rfl⟩
  · exact .inl ⟨k, t, ht, hp.trans h⟩
  · rcases List.prefix_cons_iff.mp hp with rfl | ⟨ns, rfl, hns⟩
    · exact .inl ⟨0, .disposeDone, rfl, List.nil_prefix⟩
    · rw [List.prefix_nil.mp hns]
      exact .inr ⟨m, rfl⟩

theorem notices_broken {f : Failure} {as : List Act} (h : Broken f as) :
    notices as = [] ∨ ∃ k, notices as = .setupDone :: List.replicate k .actionDone := by
  cases h with
  | reset | setUp => exact .inl rfl
  | ask ms | gate ms | advance ms | action ms | dispose ms =>
    refine .inr ⟨ms.length, ?_⟩
    rw [notices_append, notices_soFar]
    exact List.append_nil _

/-- The notifications of a run that is over, but for the last one, which is as the run ended. -/
theorem notices_finished {f : Option Failure} {as : List Act} (h : Reads (.finished f) as) :
    ∃ ns t, notices as = ns ++ [t] ∧ t = (f.map report).getD .disposeDone ∧
      (ns = [] ∧ f ≠ none ∨ ∃ k, ns = .setupDone :: List.replicate k .actionDone) := by
  cases f with
  | none =>
    obtain ⟨ms, rfl⟩ := h
    refine ⟨_, _, ?_, rfl, .inr ⟨ms.length, rfl⟩⟩
    rw [notices_append, notices_soFar]
    rfl
  | some f =>
    obtain ⟨bs, hb, rfl⟩ := h
    refine ⟨_, _, notices_append _ _, rfl, (notices_broken hb).imp_left fun h => ⟨h, by simp⟩⟩

theorem prescribed_of_run {s : Spot} {as : List Act} (h : Spot.Run .reset as s) :
    Prescribed (notices as) := by
  obtain ⟨bs, f, hb⟩ := s.run_to_end
  obtain ⟨ns, t, hn, ht, hns⟩ := notices_finished (run_reads (h.append hb))
  refine Prescribed.of_beginning ?_ (notices_append as bs ▸ List.prefix_append _ _)
  rw [hn]
  rcases hns with ⟨rfl, hf⟩ | ⟨k, rfl⟩
  · obtain ⟨f, rfl⟩ := Option.ne_none_iff_exists'.mp hf
    exact .inr ⟨_, congrArg (fun t => [t]) ht⟩
  · refine .inl ⟨k, t, ?_, List.prefix_rfl⟩
    cases f <;> rw [ht] <;> rfl

theorem failureText_not_blank (m : String) : Text.isBlankText (failureText m) = false := by
  unfold failureText
  split
  · decide
  · rename_i h
    simpa using h

/-- The text of a reported failure is never blank. -/
theorem error_not_blank {s : Spot} {as : List Act} (h : Spot.Run .reset as s) {m : String}
    (hm : .error m ∈ notices as) : Text.isBlankText m = false := by
  obtain ⟨a, ha, hn⟩ := List.mem_filterMap.mp hm
  obtain ⟨bs, cs, rfl⟩ := List.append_of_mem ha
  obtain ⟨t, t', -, hnext, -⟩ := h.cut
  cases hnext <;> cases hn <;> exact failureText_not_blank _

/-! ## The end of a run -/

theorem isDone_iff {w : Controller A} :
    w.isDone = true ↔ w.phase = .finished ∧ w.outbox = [] ∧ w.isHeldUp = false := by
  simp [isDone, and_assoc]

/-- Nobody can change anything about a run that is over. -/
theorem Effect.of_done (h : Effect w v) (hw : Sound w) (hd : w.isDone = true) :
    v.isDone = true ∧ v.state = w.state ∧ v.emissions = w.emissions ∧ v.tellings = w.tellings := by
  obtain ⟨hp, ho, hh⟩ := isDone_iff.mp hd
  have hl : w.launch ≠ none := by rw [ne_eq, hw.launched, hp]; simp
  obtain ⟨hphase, hstate, -, hem, htell⟩ := h.of_launched hl
  have hheld : v.isHeldUp = false := by
    by_contra hv
    rw [h.isHeldUp_of (by simpa using hv)] at hh
    cases hh
  exact ⟨isDone_iff.mpr ⟨hphase.trans hp, h.outbox_eq.trans ho, hheld⟩, hstate, hem, htell⟩

theorem step_of_done (hd : w.isDone = true) : w.step = none := by
  obtain ⟨hp, ho, hh⟩ := isDone_iff.mp hd
  simp [step, hh, ho, proceed?, hp]

/-- Nothing more is announced or delivered once the worker is done, whatever is asked of the controller. -/
theorem Reachable.silent (h : Reachable w) (hd : w.isDone = true) (ms : List (Move A.Id)) :
    (w.moves ms).isDone = true ∧ (w.moves ms).state = w.state ∧
      (w.moves ms).emissions = w.emissions ∧ (w.moves ms).tellings = w.tellings := by
  induction ms generalizing w with
  | nil => exact ⟨hd, rfl, rfl, rfl⟩
  | cons m ms ih =>
    obtain ⟨hd', hs, he, ht⟩ := move_cases (P := fun v => v.isDone = true ∧ v.state = w.state ∧
      v.emissions = w.emissions ∧ v.tellings = w.tellings) w (fun v hv => hv.of_done h.sound hd)
      (fun v hv => by rw [step_of_done hd] at hv; cases hv) m
    rw [moves_cons, ← hs, ← he, ← ht]
    exact ih (h.move m) hd'

/-- The state that a terminal notification goes with. -/
def closingState : Notification → Option State
  | .disposeDone => some .disposed
  | .error m => some (.failed m)
  | _ => none

/-- A run that is over was closed with one terminal notification. -/
theorem Sound.closed (h : Sound w) (hd : w.phase = .finished) :
    ∃ ns t, notices w.acts = ns ++ [t] ∧ (∀ n ∈ ns, n.isTerminal = false) ∧ t.isTerminal = true ∧
      closingState t = some w.state := by
  have hs := h.stands
  rw [Stands, hd] at hs
  obtain ⟨f, hr, hstate, -⟩ := hs
  obtain ⟨ns, t, hn, ht, hns⟩ := notices_finished (run_reads hr)
  refine ⟨ns, t, hn, ?_, ?_, ?_⟩
  · rcases hns with ⟨rfl, -⟩ | ⟨k, rfl⟩
    · simp
    · intro n hn
      rcases List.mem_cons.mp hn with rfl | hn
      · rfl
      · rw [List.eq_of_mem_replicate hn]; rfl
  · cases f <;> rw [ht] <;> rfl
  · rw [hstate]
    cases f <;> rw [ht] <;> rfl

theorem notices_of_settled {s : Spot} {as : List Act} (h : Spot.Run .reset as s) (hs : s.IsSettled)
    (ho : ¬ ∃ f, s = .finished f) : ∀ n ∈ notices as, n.isTerminal = false := by
  have hsofar (ms : List Mode) : ∀ n ∈ notices (soFar ms), n.isTerminal = false := by
    intro n hn
    rw [notices_soFar] at hn
    rcases List.mem_cons.mp hn with rfl | hn
    · rfl
    · rw [List.eq_of_mem_replicate hn]; rfl
  have hr := run_reads h
  cases s with
  | reset => rw [show as = [] from hr]; simp [notices]
  | ask => obtain ⟨ms, rfl⟩ := hr; exact hsofar ms
  | gate | advance m | dispose =>
    obtain ⟨ms, rfl⟩ := hr
    rw [notices_append]
    simpa [notices] using hsofar ms
  | finished f => exact absurd ⟨f, rfl⟩ ho
  | _ => exact hs.elim

/-- A terminal notification agrees with the state from the moment it is announced. -/
theorem Sound.agrees (h : Sound w) {n : Notification} (hn : n ∈ notices w.acts)
    (ht : n.isTerminal = true) : closingState n = some w.state := by
  by_cases hp : w.phase = .finished
  · obtain ⟨ns, t, heq, hns, -, ha⟩ := h.closed hp
    rw [heq] at hn
    rcases List.mem_append.mp hn with hn | hn
    · rw [hns n hn] at ht; cases ht
    · rw [List.mem_singleton.mp hn]; exact ha
  · obtain ⟨s, hr, hs, ho⟩ := h.run
    rw [notices_of_settled hr hs (mt ho.mp hp) n hn] at ht
    cases ht

/-- A run that ended in a failure is over, and its state carries the text. -/
theorem Sound.failed_of_ended (h : Sound w) {f : Failure} (he : .ended (some f) ∈ w.acts) :
    w.phase = .finished ∧ w.state = .failed (failureText f.message) := by
  obtain ⟨s, hr, -, ho⟩ := h.run
  have hp : w.phase = .finished := ho.mp ⟨_, (ended_mem_iff hr _).mp he⟩
  have hstands := h.stands
  rw [Stands, hp] at hstands
  obtain ⟨g, hg, hstate, -⟩ := hstands
  have hsome : some f = g := Spot.finished.inj ((ended_mem_iff hg _).mp he).symm
  exact ⟨hp, by rw [hstate, ← hsome]; rfl⟩

theorem Sound.state_of_fail {f : Failure} (h : Sound (w.fail f)) :
    (w.fail f).state = .failed (failureText f.message) := by
  have hend : .ended (some f) ∈ (w.fail f).acts := (mem_readOff _).mpr ⟨.ended (some f), .head _, rfl⟩
  exact (h.failed_of_ended hend).2

/-- A failure does not get past the run, a panic as little as an error: it is what the run is closed with. -/
theorem Sound.contained (h : Sound w) {a : Act} {f : Failure} (ha : a ∈ w.acts)
    (hf : a.failure? = some f) :
    .ended (some f) ∈ w.acts ∧ w.state = .failed (failureText f.message) := by
  obtain ⟨s, hr, hs, -⟩ := h.run
  have hend := (ended_mem_iff hr (some f)).mpr (finished_of_failure hr hs ha hf)
  exact ⟨hend, (h.failed_of_ended hend).2⟩

/-! ## How the thread ends -/

theorem Effect.died_eq (h : Effect w v) : v.died = w.died := by
  cases h with
  | load => rw [apply_eq]; rfl
  | _ => rfl

theorem Part.died_eq (h : Part w v) : v.died = w.died := by
  cases h with
  | report x => rw [apply_eq]
  | ask c => unfold Controller.ask; split <;> rfl
  | callHook k => unfold Controller.callHook; split <;> rfl
  | remark e he => rfl
  | point p g n => rfl

/-- **No panic gets out of the worker's thread**: a phase that panics is concluded as a failure. -/
theorem Reachable.alive (h : Reachable w) : w.died = none :=
  h.upholds (P := fun v => v.died = none) (fun _ _ _ _ => rfl)
    (fun w a _ h => (access_effect w a).died_eq.trans h)
    (fun _ _ _ h ht => by cases ht <;> exact h)
    (fun _ _ _ h _ _ hr => (proceed_parts hr).rec (motive := fun v _ => v.died = none) h
      fun _ hp h => hp.died_eq.trans h)

theorem Reachable.join?_of_done (h : Reachable w) (hd : w.isDone = true) : w.join? = some (.ok ()) := by
  have hresult : w.threadResult = .ok () := by rw [threadResult, h.alive]
  unfold join?
  split
  · rw [if_pos hd, hresult]
  · rfl

/-! ## The contract -/

/-- The notification contract of a run, for one subscriber. -/
structure Contract (w : Controller A) (s : Subscriber A.Id) : Prop where
  /-- At any time it has been told a beginning of what a run prescribes. -/
  prescribed : Prescribed (w.toldTo s)
  /-- A failure has a text. -/
  text : ∀ m, .error m ∈ w.toldTo s → Text.isBlankText m = false
  /-- Once the worker is done, the last notification is the only terminal one and agrees with the state. -/
  closed : w.isDone = true → ∃ ns t, w.toldTo s = ns ++ [t] ∧ (∀ n ∈ ns, n.isTerminal = false) ∧
    t.isTerminal = true ∧ closingState t = some w.state
  /-- It does so from the moment it is announced, so while it is delivered. -/
  agrees : ∀ e ∈ w.emissions, e.1.isTerminal = true → closingState e.1 = some w.state
  /-- Once the worker is done, nobody is told anything more, and the state stays. -/
  silent : w.isDone = true → ∀ ms, (w.moves ms).state = w.state ∧
    (w.moves ms).emissions = w.emissions ∧ (w.moves ms).tellings = w.tellings
  /-- What fails or panics in a call of the worker is what the run is closed with, -/
  contained : ∀ a ∈ w.acts, ∀ f, a.failure? = some f →
    .ended (some f) ∈ w.acts ∧ w.state = .failed (failureText f.message)
  /-- so the host that waits for the worker finds that it ended well, however the run did. -/
  joined : w.isDone = true → ∀ ms, (w.moves ms).join? = some (.ok ())

/-- **The notification contract of a run**, for whoever is registered whenever something is announced. -/
theorem Reachable.contract (h : Reachable w) (s : Subscriber A.Id) (stays : ∀ e ∈ w.emissions, s ∈ e.2) :
    Contract w s := by
  obtain ⟨spot, hr, -, -⟩ := h.sound.run
  have htold := toldTo_append_of_stays h.recorded stays
  have hpre : w.toldTo s <+: notices w.acts := ⟨_, htold⟩
  exact
    { prescribed := (prescribed_of_run hr).of_beginning hpre
      text := fun m hm => error_not_blank hr (hpre.subset hm)
      closed := fun hd => by
        obtain ⟨hp, ho, -⟩ := isDone_iff.mp hd
        have hall : w.toldTo s = notices w.acts := by simpa [dueTo, ho] using htold
        rw [hall]
        exact h.sound.closed hp
      agrees := fun e he => h.sound.agrees (by rw [notices_acts]; exact List.mem_map_of_mem he)
      silent := fun hd ms => (h.silent hd ms).2
      contained := fun a ha f hf => h.sound.contained ha hf
      joined := fun hd ms => (h.moves ms).join?_of_done (h.silent hd ms).1 }

/-- The engine panics in the second turn, one of two subscribers always; the other is told all of it. -/
theorem contract_of_panicking_run :
    (∀ e ∈ ((Bench.trial .run 3 [⟨.run, 2, .panic .other⟩]).moves (Bench.launched 13)).emissions,
        .observer "watcher" ∈ e.2) ∧
      ((Bench.trial .run 3 [⟨.run, 2, .panic .other⟩]).moves (Bench.launched 13)).isDone = true ∧
      ((Bench.trial .run 3 [⟨.run, 2, .panic .other⟩]).moves (Bench.launched 13)).toldTo
          (.observer "watcher") =
        [.setupDone, .actionDone, .error "panic during execution: non-string panic payload"] ∧
      Contract ((Bench.trial .run 3 [⟨.run, 2, .panic .other⟩]).moves (Bench.launched 13))
        (.observer "watcher") :=
  ⟨by decide, by decide, by decide,
    Reachable.contract (Reachable.moves (.create _ _ _ _) _) _ (by decide)⟩

end Cadence.Controller
