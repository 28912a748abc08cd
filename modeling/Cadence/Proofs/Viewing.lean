import Cadence.Proofs.Diagnosing
import Cadence.Proofs.Endings
import Cadence.Proofs.Mirroring
import Cadence.Proofs.TurnCount

/-!
# Cadence.Proofs.Viewing — what the domain has seen last

A domain that waits for quiescence looks at the engine when it is set up and once in every turn; nothing else that
is asked of the engine reaches it.  Between two looks it stands by what it has seen: it answers by the agenda, and
it reports the facts.

* `perform_viewed`: a look at the engine that goes well.
* `LastView`: the look of a turn, which is the last one that a journal tells of.
* `Seen`: what the domain has seen, by the worker's phase.
* `Reachable.turns_on`: when another turn begins.
* `Accounted`, `Tallies.accounts`: the report, and whether there is another turn.
-/

namespace Cadence

namespace Domain

/-- An agenda lists something to fire: a line of it is neither blank nor the summary. -/
def ListsActivation (agenda : String) : Prop :=
  ∃ line ∈ Text.lines agenda.toList, ∃ t, Text.Trims line t ∧ t ≠ [] ∧ ¬ "For a total of".toList <+: t

theorem agendaIsEmpty_iff {agenda : String} : agendaIsEmpty agenda = true ↔ ¬ ListsActivation agenda := by
  simp only [agendaIsEmpty, ListsActivation, Text.trims_iff, List.all_eq_true, List.mem_filter, List.mem_map,
    Bool.not_eq_true', List.isEmpty_eq_false_iff, List.isPrefixOf_iff_prefix]
  constructor
  · rintro hall ⟨line, hline, t, rfl, hne, hrule⟩
    exact hrule (hall _ ⟨⟨line, hline, rfl⟩, hne⟩)
  · rintro hnone t ⟨⟨line, hline, rfl⟩, hne⟩
    by_contra hrule
    exact hnone ⟨line, hline, _, rfl, hne, hrule⟩

namespace Quiescence

/-- **A look at the engine that goes well**: two calls, of which the domain keeps the facts, and whether the agenda
lists anything. -/
theorem perform_viewed {σ : Type} [Engine σ] {d : Quiescence} {g : σ}
    (h : (Engine.perform d.refresh g).1.1 = .ok ()) :
    ∃ facts agenda, (Engine.perform d.refresh g).2.2 = [⟨.facts, .ok facts⟩, ⟨.agenda, .ok agenda⟩] ∧
      (Engine.perform d.refresh g).1.2 = { d with facts, done := agendaIsEmpty agenda } := by
  simp only [Engine.perform, refresh, query, Dialogue.play_ask, Engine.recorded] at h ⊢
  generalize Engine.call .facts g = asked at h ⊢
  obtain ⟨facts | e | p, g'⟩ := asked
  · simp only [Dialogue.play_ask, Engine.recorded] at h ⊢
    generalize Engine.call .agenda g' = asked at h ⊢
    obtain ⟨agenda | e | p, g''⟩ := asked
    · exact ⟨facts, agenda, rfl, rfl⟩
    · cases h
    · cases h
  · cases h
  · cases h

end Quiescence

end Domain

namespace Controller

open Domain.Quiescence (entered perform_viewed)

/-- The entries of a hook that has looked at the engine, newest first. -/
def view {ι : Type} (hook : Domain.Hook) (facts agenda : String) : List (Entry ι) :=
  [.hook hook (.ok ()), .lent ⟨.agenda, .ok agenda⟩, .lent ⟨.facts, .ok facts⟩]

/-- The last time that a journal tells of a hook asking anything, it has read these facts and this agenda, in the
action of turn number `n`, or in setting up if that is zero. -/
def LastView {ι : Type} (n : Nat) (facts agenda : String) (j : List (Entry ι)) : Prop :=
  ∃ after before, j = after ++ (view (if n = 0 then .setup else .action) facts agenda ++ before) ∧
    lents after = [] ∧
    (readOff Entry.act? (view (if n = 0 then .setup else .action) facts agenda ++ before)).count
      (.hook .action none) = n

theorem count_action_soFar (ms : List Mode) :
    (soFar ms).count (.hook .action none) = (advances (soFar ms)).length := by
  induction ms using List.reverseRecOn with
  | nil => rfl
  | append_singleton ms m ih =>
    rw [soFar_concat, List.count_append, advances_append, List.length_append, ih]
    cases m <;> rfl

section

variable {E S I C : Type} [Engine E] [DecidableEq I]
  {load : Engine.Script → S → Outcome Engine.Error E × S}
  {react : I → Notification → C → Reaction I Domain.Quiescence C}
  {u v w : Controller (quietParts load react)}

theorem LastView.leaves {n : Nat} {facts agenda : String} (h : LastView n facts agenda w.journal) (hl : Leaves w v) :
    LastView n facts agenda v.journal := by
  obtain ⟨after, before, hj, hafter, hn⟩ := h
  obtain ⟨news, hnews, hlents⟩ := hl.news
  exact ⟨news ++ after, before, by rw [hnews, hj, List.append_assoc], by simp [hlents, hafter], hn⟩

/-! ## A look at the engine -/

/-- A hook has looked at the engine. -/
theorem callHook_viewed {hook : Domain.Hook} (hk : hook ≠ .dispose) (he : w.engine.isSome)
    (hok : Failure.of? (w.callHook hook).1 = none) :
    ∃ facts agenda, (w.callHook hook).2.journal = view hook facts agenda ++ w.journal ∧
      (w.callHook hook).2.domain.facts = facts ∧
      (w.callHook hook).2.domain.done = Domain.agendaIsEmpty agenda := by
  obtain ⟨g, hg⟩ := Option.isSome_iff_exists.mp he
  have hentered : Domain.hook hook w.domain = (entered hook w.domain).refresh := by
    cases hook <;> first | rfl | exact absurd rfl hk
  simp only [callHook, hg, hentered] at hok ⊢
  have hended : (Engine.perform (entered hook w.domain).refresh g).1.1 = .ok () := by
    cases hr : (Engine.perform (entered hook w.domain).refresh g).1.1 with
    | ok => rfl
    | _ => rw [hr] at hok; cases hok
  obtain ⟨facts, agenda, hlog, hdomain⟩ := perform_viewed hended
  rw [hended, hlog, hdomain]
  exact ⟨facts, agenda, rfl, rfl, rfl⟩

/-! ## What has been seen -/

/-- The domain stands by what it has seen last. -/
def HasSeen (w : Controller (quietParts load react)) : Prop :=
  ∃ agenda, LastView w.turns w.domain.facts agenda w.journal ∧ w.domain.done = Domain.agendaIsEmpty agenda

theorem HasSeen.leaves (h : HasSeen w) (hl : Leaves w v) (ht : v.turns = w.turns)
    (hd : v.domain.done = w.domain.done) : HasSeen v := by
  obtain ⟨agenda, hview, hdone⟩ := h
  refine ⟨agenda, ?_, hd.trans hdone⟩
  rw [ht, hl.facts]
  exact hview.leaves hl

/-- What a hook has seen stands when its success is announced. -/
theorem HasSeen.of_callHook {hook : Domain.Hook} {x : Event} (hk : hook ≠ .dispose) (he : w.engine.isSome)
    (hok : Failure.of? (w.callHook hook).1 = none) (hv : Sound (((w.callHook hook).2.apply x).enter .checking))
    (hwhich : hook = if (w.callHook hook).2.turns = 0 then .setup else .action) :
    HasSeen (((w.callHook hook).2.apply x).enter .checking) := by
  obtain ⟨facts, agenda, hj, hfacts, hdone⟩ := callHook_viewed hk he hok
  have hacts : (((w.callHook hook).2.apply x).enter .checking).acts = (w.callHook hook).2.acts ++
      ((w.callHook hook).2.state.noticeOf x).toList.map .emitted := acts_apply _ _
  have hturns := hv.turns
  have stood := hv.stands
  rw [Stands, enter_phase] at stood
  obtain ⟨ms, hms⟩ := run_reads stood.1
  rw [hms, ← count_action_soFar, ← hms, hacts, List.count_append, enter_turns, apply_turns] at hturns
  have hnone : (((w.callHook hook).2.state.noticeOf x).toList.map Act.emitted).count (.hook .action none) = 0 := by
    cases (w.callHook hook).2.state.noticeOf x <;> rfl
  rw [hnone, Nat.add_zero] at hturns
  have hsame : Leaves (w.callHook hook).2 (((w.callHook hook).2.apply x).enter .checking) :=
    ((Leaves.refl _).apply x).enter _
  refine HasSeen.leaves (w := (w.callHook hook).2) ⟨agenda, ⟨[], w.journal, ?_, rfl, ?_⟩, hdone⟩ hsame
    (apply_turns _ _) (congrArg _ (apply_domain _ _))
  · rw [hfacts, ← hwhich, hj, List.nil_append]
  · rw [hfacts, ← hwhich, ← hj]
    exact hturns.symm

/-- While turns are made, and once the run was disposed, the domain stands by what it has seen last.  A run that
has failed may have failed over a look. -/
def Seen (w : Controller (quietParts load react)) : Prop :=
  w.phase.isUnderWay = true ∨ w.state = .disposed → HasSeen w

namespace Seen

theorem of_not (hp : v.phase.isUnderWay = false) (hs : v.state ≠ .disposed) : Seen v := by
  rintro (hunder | hdisposed)
  · rw [hp] at hunder
    cases hunder
  · exact absurd hdisposed hs

theorem effect (h : Seen w) (hr : Reachable w) (hv : Sound v) (he : Effect w v) : Seen v := by
  by_cases hl : w.launch = none
  · have hidle := hr.sound.phase_of_launch hl
    have hp : v.phase = .idle ∨ v.phase = .starting := he.phase_cases.imp_left fun h => h.trans hidle
    refine of_not (by rcases hp with hp | hp <;> rw [hp] <;> rfl) fun hs => ?_
    have hover := hv.finished_of_isTerminal (by rw [hs]; rfl)
    rcases hp with hp | hp <;> rw [hp] at hover <;> cases hover
  · obtain ⟨hphase, hstate, -⟩ := he.of_launched hl
    rw [Seen, hphase, hstate]
    exact fun hw => (h hw).leaves (.effect he) he.turns_eq (by rw [he.domain_eq])

theorem told (h : Seen w) (ht : Told w v) : Seen v := by
  obtain ⟨-, hphase, -, hdomain⟩ := ht.frame
  have hstate : v.state = w.state := by cases ht <;> rfl
  rw [Seen, hphase, hstate]
  exact fun hw => (h hw).leaves (.told ht) ht.turns_eq (by rw [hdomain])

/-- A run that has failed has nothing to stand by. -/
theorem fails (hv : Sound v) {f : Failure} (hf : v = fail u f) : Seen v := by
  subst hf
  exact of_not rfl (by simp [hv.state_of_fail])

/-- Where the worker makes calls, the domain looks at the engine, or the run fails or is disposed. -/
theorem labour (h : Seen w) (hr : Reachable w) (hv : Sound v) (hl : Labour w v) : Seen v := by
  have engine (hp : w.phase ≠ .idle) : w.engine.isSome := hr.sound.engine hp
  cases hl with
  | resetFails | setUpFails | advanceFails | actionFails | disposeFails => exact fails hv rfl
  | setUp hp _ hf =>
    have hask := ask_since (engine (by simp [hp])) .reset
    have hturns : ((w.ask .reset).2.callHook .setup).2.turns = w.turns :=
      (callHook_since hask.engine .setup).frame.2.1.trans hask.frame.2.1
    have hzero : w.turns = 0 := by
      have stood := hr.sound.stands
      rw [Stands, hp] at stood
      rw [hr.sound.turns, show w.acts = [] from run_reads stood.1]
      rfl
    exact fun _ => .of_callHook (by simp) hask.engine hf hv (by rw [hturns, hzero]; rfl)
  | @turn m hp _ hf =>
    have hadvance := advance_since (w := w.beginTurn) (by rw [beginTurn_engine]; exact engine (by simp [hp])) m
    have hturns : ((w.beginTurn.advance m).2.callHook .action).2.turns = w.turns + 1 := by
      rw [(callHook_since hadvance.engine .action).frame.2.1, hadvance.frame.2.1, beginTurn_turns]
    exact fun _ => .of_callHook (by simp) hadvance.engine hf hv (by rw [hturns]; rfl)
  | dispose hp _ =>
    have hengine := engine (by simp [hp])
    have hsame := ((((Leaves.refl w).dispose.apply .disposed).note (.ended none) rfl).enter .finished)
    refine fun _ => (h (.inl (by rw [hp]; rfl))).leaves hsame ?_ ?_
    · exact (apply_turns _ _).trans (callHook_since hengine .dispose).frame.2.1
    · refine (congrArg _ (apply_domain _ _)).trans ?_
      rw [callHook_dispose hengine]
      rfl

theorem stride (h : Seen w) (hv : Sound v) (hs : Stride w v) (hl : w.phase.isLabour = false) : Seen v := by
  have hsame := Leaves.stride hs hl
  have hdomain := hs.domain_eq hl
  have hturns := hs.turns_of_not_labour hl
  have keeps (hp : w.phase.isUnderWay = true) : Seen v := fun _ => (h (.inl hp)).leaves hsame hturns (by rw [hdomain])
  cases hs with
  | noEngine | noEngineInTurn | resetFails | setUpFails | advanceFails | actionFails | disposeFails | askFails
  | cancel | cancelParked => exact fails hv rfl
  | setUp hp | turn hp | dispose hp => rw [hp] at hl; cases hl
  | goOn hp | isDone hp | comeUp hp | park hp | leave hp => exact keeps (by rw [hp]; rfl)
  | pass hp => exact keeps (by rcases hp with hp | hp <;> rw [hp] <;> rfl)

end Seen

/-- **What the domain stands by**, in every run. -/
theorem Reachable.seen (h : Reachable w) : Seen w := by
  refine h.upholds (P := Seen) (fun _ _ _ _ => .of_not rfl (by simp [Controller.create])) ?_ ?_ ?_
  · exact fun w a hr hw => hw.effect hr (hr.move (.access a)).sound (access_effect w a)
  · exact fun w v _ hw ht => hw.told ht
  · intro w r hr hw hout hheld hproceed
    have hv := (hr.of_proceed hout hheld hproceed).sound
    by_cases hl : w.phase.isLabour = true
    · exact hw.labour hr hv (proceed_labour hproceed hl)
    · exact hw.stride hv (proceed_stride hproceed) (by simpa using hl)

/-! ## Between two turns -/

/-- The worker was let through the gate since. -/
def LetPast (w v : Controller (quietParts load react)) : Prop :=
  ∃ later m, v.acts = w.acts ++ later ∧ .passed m ∈ later

/-- **Another turn begins** iff the worker is let through, and that is only if the domain has more to do. -/
theorem Reachable.turns_on (h : Reachable w) (hp : w.phase = .checking) {ms : List (Move I)}
    (ha : ∀ m, (w.moves ms).phase ≠ .advancing m) :
    w.turns < (w.moves ms).turns ↔ w.domain.done = false ∧ LetPast w (w.moves ms) := by
  have hv := h.moves ms
  have hpassed : w.turns < (w.moves ms).turns ↔ LetPast w (w.moves ms) := by
    obtain ⟨later, hlater⟩ := acts_grow w ms
    rw [h.sound.turns_eq (by simp [hp]), hv.sound.turns_eq ha, ← hlater, passages_append, List.length_append,
      Nat.lt_add_right_iff_pos, List.length_pos_iff_exists_mem]
    simp only [mem_passages, LetPast, ← hlater, List.append_cancel_left_eq, exists_and_left, exists_eq_left']
  rw [hpassed, iff_and_self]
  rintro ⟨later, m, hlater, hm⟩
  rcases h.answered hp rfl ms with ⟨-, hsame⟩ | ⟨rest, hrest⟩
  · rw [hsame, List.self_eq_append_right] at hlater
    rw [hlater] at hm
    cases hm
  · cases hdone : w.domain.done with
    | false => rfl
    | true =>
      -- a domain that is done is disposed, and the gate is not come to any more
      rw [hdone] at hrest
      obtain ⟨s, hrun⟩ := hv.run_of_answer hrest
      rw [hrest, List.append_cancel_left_eq] at hlater
      rw [← hlater] at hm
      have hclosing : .passed m ∈ rest := by simpa using hm
      rcases Spot.run_dispose hrun with hpre | ⟨f, hpre⟩
      · simpa using hpre.subset hclosing
      · simpa [ending] using hpre.subset hclosing

/-! ## The report -/

/-- Between two turns, an agenda decides how the run goes on. -/
structure DecidedBy (agenda : String) (w : Controller (quietParts load react)) : Prop where
  /-- The next thing that is done is to ask the domain, which answers by the agenda. -/
  answer : ∀ ms, (w.moves ms).acts = w.acts ∨ ∃ done later, (w.moves ms).acts = w.acts ++ .hasDone done :: later ∧
    (done = false ↔ Domain.ListsActivation agenda)
  /-- Another turn begins iff the agenda lists an activation and the worker is let through the gate; a worker that
  has been let through a moment ago is about to begin it. -/
  turn : ∀ ms, (∀ m, (w.moves ms).phase ≠ .advancing m) →
    (w.turns < (w.moves ms).turns ↔ Domain.ListsActivation agenda ∧ LetPast w (w.moves ms))

/-- What a domain that waits for quiescence has to account for. -/
structure Accounted (w : Controller (quietParts load react)) : Prop where
  /-- There is a report iff the run was disposed, -/
  report_iff : w.domain.report.isSome = true ↔ w.state = .disposed
  /-- with the turns that domain and controller have counted and that were announced, -/
  turns : ∀ r, w.domain.report = some r →
    r.turns = w.domain.turns ∧ r.turns = w.turns ∧ r.turns = w.actionsDone
  /-- and with the facts that the domain has read in the last turn, since when it has asked nothing. -/
  facts : ∀ r, w.domain.report = some r → ∃ agenda, LastView r.turns r.finalFacts agenda w.journal
  /-- Whether there is another turn is decided by the agenda that the domain has read last. -/
  goesOn : w.phase = .checking → ∃ facts agenda, LastView w.turns facts agenda w.journal ∧ DecidedBy agenda w

theorem Tallies.accounts (h : Tallies w) (hr : Reachable w) : Accounted w := by
  have hiff : w.domain.report.isSome = true ↔ w.state = .disposed := by
    by_cases hp : w.phase = .finished
    · exact h.isSome_report_iff hr hp
    · refine iff_of_false (by simp [h.report_eq_none hp]) fun hs => hp ?_
      exact hr.sound.finished_of_isTerminal (by rw [hs]; rfl)
  have ended {r : Domain.Report} (hd : w.domain.report = some r) : w.state = .disposed := hiff.mp (by rw [hd]; rfl)
  have reported {r : Domain.Report} (hd : w.domain.report = some r) :
      w.domain.turns = w.turns ∧ r = ⟨w.turns, w.domain.facts⟩ := by
    have hs := ended hd
    have htally := h
    rw [Tallies, hr.sound.finished_of_isTerminal (by rw [hs]; rfl)] at htally
    simp only [hs, if_true] at htally
    exact ⟨htally.1, Option.some.inj (hd.symm.trans htally.2)⟩
  refine ⟨hiff, fun r hd => ?_, fun r hd => ?_, fun hp => ?_⟩
  · obtain ⟨hturns, rfl⟩ := reported hd
    exact ⟨hturns.symm, rfl, hr.sound.turns_of_unfailed (by simp [ended hd])⟩
  · obtain ⟨-, rfl⟩ := reported hd
    obtain ⟨agenda, hview, -⟩ := hr.seen (.inr (ended hd))
    exact ⟨agenda, hview⟩
  · obtain ⟨agenda, hview, hdone⟩ := hr.seen (.inl (by rw [hp]; rfl))
    have hlists : w.domain.done = false ↔ Domain.ListsActivation agenda := by
      rw [hdone, ← Bool.not_eq_true, Domain.agendaIsEmpty_iff, not_not]
    refine ⟨w.domain.facts, agenda, hview, ⟨fun ms => ?_, fun ms ha => ?_⟩⟩
    · rcases hr.answered hp rfl ms with ⟨-, hsame⟩ | ⟨later, hlater⟩
      · exact .inl hsame
      · exact .inr ⟨_, later, hlater, hlists⟩
    · rw [hr.turns_on hp ha, hlists]

/-- **Every run accounts for what it reports**, whatever the engine answers and whoever else asks it. -/
theorem accounted (config : Config) (source : S) (d : Domain.Quiescence) (crowd : C) (hd : d.report = none)
    (ms : List (Move I)) :
    Accounted ((Controller.create (A := quietParts load react) config source d crowd).moves ms) := by
  have hr : Reachable (Controller.create (A := quietParts load react) config source d crowd) := .create _ _ _ _
  exact (hr.tallies hd ms).accounts (hr.moves ms)

end

namespace Bench

/-- An engine with one rule to fire, whose second answer about the facts is made up. -/
def boasting : BenchEngine where
  inside := { initial := ["0 lay: *"], failing := fun _ => none }
  faults := []
  planned c := if c = .facts then [none, some "f-0 (made-up)"] else []

/-- A run in which the host asks for the facts after the domain has, and is told what the domain is not. -/
def interrogation : List (Move String) :=
  [.call (.startEngine ⟨"rules"⟩), .call .execute, .work, .call .facts] ++ List.replicate 5 .work

/-- A controller with this engine to run. -/
def hearing : Controller (parts Domain.Quiescence fun _ => .watcher []) :=
  .create { Config.standard with initialMode := .run } [("rules", .ok boasting)] {} {}

theorem accounted_of_interrogation :
    (({} : Domain.Quiescence).report = none ∧ (hearing.moves interrogation).domain.report =
      some ⟨1, "f-0     (initial-fact)\nf-1     (fired lay)"⟩) ∧
    Accounted (E := BenchEngine) (hearing.moves interrogation) :=
  ⟨⟨rfl, by decide +kernel⟩, accounted (E := BenchEngine) _ _ _ _ rfl _⟩

end Bench

end Controller

end Cadence
