import Cadence.Domain.Quiescence
import Cadence.Proofs.Callbacks

/-!
# Cadence.Proofs.Reporting — the report of a domain that waits for quiescence

The domain counts its turns as the controller does, and writes its report when it is disposed, which
is at the end of a run that has not failed.  So there is a report iff the run was disposed, and it has
the turns that were announced, whatever the engine answers and whoever subscribes.

* `Ends`: what holds of every end that a dialogue can come to.
* `Quiescence.perform_hook`: what a hook makes of count and report.
* `Tallies`: count and report by the worker's phase.
-/

namespace Cadence

namespace Dialogue

variable {Q : Type} {R : Q → Type} {α σ : Type} {P : α → Prop}

/-- Whatever is answered, a dialogue comes to a result with a property. -/
def Ends (P : α → Prop) : Dialogue Q R α → Prop
  | done a => P a
  | ask _ next => ∀ r, (next r).Ends P

theorem Ends.play {d : Dialogue Q R α} (h : d.Ends P) (serve : (q : Q) → σ → R q × σ) (s : σ) :
    P (d.play serve s).1 := by
  induction d generalizing s with
  | done a => exact h
  | ask q next ih => exact ih _ (h _) _

end Dialogue

namespace Domain

namespace Quiescence

/-- The domain as a hook leaves it, but for what it reads of the engine. -/
def entered : Hook → Quiescence → Quiescence
  | .setup, d => { d with turns := 0, report := none }
  | .action, d => { d with turns := d.turns + 1 }
  | .dispose, d => { d with report := some ⟨d.turns, d.facts⟩ }

/-- Reading the engine changes neither count nor report, however it ends. -/
theorem ends_refresh (d : Quiescence) :
    d.refresh.Ends fun r => r.2.turns = d.turns ∧ r.2.report = d.report := by
  rintro (facts | e | p)
  · rintro (agenda | e | p) <;> exact ⟨rfl, rfl⟩
  · exact ⟨rfl, rfl⟩
  · exact ⟨rfl, rfl⟩

/-- **What a hook makes of count and report** does not depend on the engine, nor on how it ends. -/
theorem perform_hook {σ : Type} [Engine σ] (k : Hook) (d : Quiescence) (g : σ) :
    (Engine.perform (hook k d) g).1.2.turns = (entered k d).turns ∧
      (Engine.perform (hook k d) g).1.2.report = (entered k d).report := by
  cases k with
  | setup => exact (ends_refresh (entered .setup d)).play _ _
  | action => exact (ends_refresh (entered .action d)).play _ _
  | dispose => exact ⟨rfl, rfl⟩

end Quiescence

end Domain

namespace Controller

section Calls

variable {A : Assembly} (w : Controller A)

@[simp] theorem ask_domain (c : Engine.Call) : (w.ask c).2.domain = w.domain := by
  unfold ask; split <;> rfl

@[simp] theorem advance_domain (m : Mode) : (w.advance m).2.domain = w.domain := by
  unfold advance; split <;> exact ask_domain w _

@[simp] theorem beginTurn_domain : w.beginTurn.domain = w.domain := apply_domain w _

end Calls

section

variable {E S I C : Type} [Engine E] [DecidableEq I]
  {load : Engine.Script → S → Outcome Engine.Error E × S}
  {react : I → Notification → C → Reaction I Domain.Quiescence C}

/-- Any engines, driven by a domain that waits for quiescence; the subscribers are left open too. -/
abbrev quietParts (load : Engine.Script → S → Outcome Engine.Error E × S)
    (react : I → Notification → C → Reaction I Domain.Quiescence C) : Assembly where
  Eng := E
  Dom := Domain.Quiescence
  Source := S
  Id := I
  Crowd := C
  load := load
  react := react

variable {w v : Controller (quietParts load react)}

open Domain.Quiescence (entered)

theorem callHook_tally (he : w.engine.isSome) (k : Domain.Hook) :
    (w.callHook k).2.domain.turns = (entered k w.domain).turns ∧
      (w.callHook k).2.domain.report = (entered k w.domain).report := by
  obtain ⟨g, hg⟩ := Option.isSome_iff_exists.mp he
  simp only [callHook, hg]
  exact Domain.Quiescence.perform_hook k w.domain g

/-- Disposing keeps the facts, and writes them down. -/
theorem callHook_dispose (he : w.engine.isSome) :
    (w.callHook .dispose).2.domain = entered .dispose w.domain := by
  obtain ⟨g, hg⟩ := Option.isSome_iff_exists.mp he
  simp only [callHook, hg]
  rfl

/-- The domain has counted the turns that the controller has, and not reported them yet. -/
def InStep (w : Controller (quietParts load react)) : Prop :=
  w.domain.turns = w.turns ∧ w.domain.report = none

/-- Setting up starts the domain's count where that of a new controller is. -/
theorem setUp_inStep (he : w.engine.isSome) (hw : w.turns = 0) :
    InStep ((w.ask .reset).2.callHook .setup).2 := by
  have hask := ask_since he .reset
  obtain ⟨hturns, hreport⟩ := callHook_tally hask.engine .setup
  have hkept := (callHook_since hask.engine .setup).frame.2.1
  refine ⟨?_, hreport⟩
  rw [hturns, hkept, hask.frame.2.1, hw]
  rfl

/-- The controller counts a turn when it begins, and the domain when its action is called. -/
theorem turn_inStep (he : w.engine.isSome) (hw : InStep w) (m : Mode) :
    InStep ((w.beginTurn.advance m).2.callHook .action).2 := by
  have hadvance := advance_since (w := w.beginTurn) (by rwa [beginTurn_engine]) m
  obtain ⟨hturns, hreport⟩ := callHook_tally hadvance.engine .action
  have hkept := (callHook_since hadvance.engine .action).frame.2.1
  rw [advance_domain, beginTurn_domain] at hturns hreport
  refine ⟨?_, hreport.trans hw.2⟩
  rw [hturns, hkept, hadvance.frame.2.1, beginTurn_turns, ← hw.1]
  rfl

/-- Between setting up and the end. -/
def Phase.isUnderWay : Phase → Bool
  | idle | starting | finished => false
  | _ => true

/-- Count and report by the worker's phase. -/
def Tallies (w : Controller (quietParts load react)) : Prop :=
  match w.phase with
  | .idle | .starting => w.domain.report = none
  | .finished =>
    if w.state = .disposed then
      w.domain.turns = w.turns ∧ w.domain.report = some ⟨w.turns, w.domain.facts⟩
    else w.domain.report = none
  | _ => w.domain.turns = w.turns ∧ w.domain.report = none

namespace Tallies

theorem same (h : Tallies w) (phase : v.phase = w.phase) (state : v.state = w.state)
    (domain : v.domain = w.domain) (turns : v.turns = w.turns) : Tallies v := by
  unfold Tallies
  rw [phase, state, domain, turns]
  exact h

/-- Before the end there is no report. -/
theorem report_eq_none (h : Tallies w) (hp : w.phase ≠ .finished) : w.domain.report = none := by
  unfold Tallies at h
  cases hphase : w.phase <;> rw [hphase] at h
  case finished => exact absurd hphase hp
  case idle | starting => exact h
  all_goals exact h.2

theorem effect (h : Tallies w) (hr : Reachable w) (he : Effect w v) : Tallies v := by
  by_cases hl : w.launch = none
  · have hidle := hr.sound.phase_of_launch hl
    have hreport : v.domain.report = none := by
      rw [he.domain_eq]
      exact h.report_eq_none (by simp [hidle])
    have hp : v.phase = .idle ∨ v.phase = .starting := he.phase_cases.imp_left fun h => h.trans hidle
    rcases hp with hp | hp <;> rw [Tallies, hp] <;> exact hreport
  · obtain ⟨hphase, hstate, -⟩ := he.of_launched hl
    exact h.same hphase hstate he.domain_eq he.turns_eq

theorem told (h : Tallies w) (ht : Told w v) : Tallies v := by
  cases ht <;> exact h

/-- A run that fails has no report. -/
theorem fails (hv : Sound v) (hf : ∃ f u, v = fail u f ∧ u.domain.report = none) : Tallies v := by
  obtain ⟨f, u, rfl, hreport⟩ := hf
  have hstate := hv.state_of_fail
  have hdomain : (u.fail f).domain = u.domain := apply_domain u _
  rw [Tallies, fail_phase]
  simp only [hstate, hdomain, reduceCtorEq, if_false]
  exact hreport

/-- While turns are made the domain has counted what the controller has. -/
theorem underWay (hp : v.phase.isUnderWay = true) (hd : InStep v) : Tallies v := by
  unfold Tallies
  cases hphase : v.phase <;> rw [hphase] at hp <;> first | exact hd | cases hp

theorem inStep (h : Tallies w) (hp : w.phase.isUnderWay = true) : InStep w := by
  unfold Tallies at h
  cases hphase : w.phase <;> rw [hphase] at h hp <;> first | exact h | cases hp

/-- Calls on engine and domain keep count and report in step. -/
theorem labour (h : Tallies w) (hr : Reachable w) (hv : Sound v) (hl : Labour w v) : Tallies v := by
  have stood := hr.sound.stands
  have engine (hp : w.phase ≠ .idle) : w.engine.isSome := hr.sound.engine hp
  have unturned (hp : w.phase = .starting) : w.turns = 0 := by
    rw [Stands, hp] at stood
    have hacts : w.acts = [] := run_reads stood.1
    rw [hr.sound.turns, hacts]
    rfl
  cases hl with
  | @resetFails hp f _ =>
    refine fails hv ⟨f, _, rfl, ?_⟩
    rw [ask_domain]
    exact h.report_eq_none (by simp [hp])
  | @setUpFails hp f _ _ =>
    exact fails hv ⟨f, _, rfl, (setUp_inStep (engine (by simp [hp])) (unturned hp)).2⟩
  | setUp hp _ _ =>
    refine underWay rfl ?_
    simp only [InStep, enter, apply_domain, apply_turns]
    exact setUp_inStep (engine (by simp [hp])) (unturned hp)
  | @advanceFails m hp f _ =>
    refine fails hv ⟨f, _, rfl, ?_⟩
    rw [advance_domain, beginTurn_domain]
    exact h.report_eq_none (by simp [hp])
  | @actionFails m hp f _ _ =>
    have hw := h.inStep (by rw [hp]; rfl)
    exact fails hv ⟨f, _, rfl, (turn_inStep (engine (by simp [hp])) hw m).2⟩
  | @turn m hp _ _ =>
    have hw := h.inStep (by rw [hp]; rfl)
    refine underWay rfl ?_
    simp only [InStep, enter, apply_domain, apply_turns]
    exact turn_inStep (engine (by simp [hp])) hw m
  | @disposeFails hp f hf =>
    -- this domain has nothing to fail with when it is disposed
    obtain ⟨g, hg⟩ := Option.isSome_iff_exists.mp (engine (by simp [hp]))
    simp only [callHook, hg] at hf
    cases hf
  | dispose hp _ =>
    have hengine := engine (by simp [hp])
    obtain ⟨hstate, hturns, -⟩ := (callHook_since hengine .dispose).frame
    have hlast : (((w.callHook .dispose).2.apply .disposed).note (.ended none)).state = .disposed := by
      rw [Stands, hp] at stood
      simp only [note, apply_state]
      rw [hstate, stood.2, State.after, next_disposed]
    have hw := h.inStep (by rw [hp]; rfl)
    rw [Tallies, enter_phase]
    simp only [enter, hlast, if_true]
    simp only [note, apply_domain, apply_turns]
    rw [callHook_dispose hengine, hturns, ← hw.1]
    exact ⟨rfl, rfl⟩

/-- The other phases leave the domain alone. -/
theorem stride (h : Tallies w) (hv : Sound v) (hs : Stride w v) (hl : w.phase.isLabour = false) :
    Tallies v := by
  cases hs with
  | noEngine _ phase => rcases phase with hp | hp <;> rw [hp] at hl <;> cases hl
  | noEngineInTurn _ hp | resetFails hp | setUpFails hp | setUp hp | advanceFails hp | actionFails hp
  | turn hp | disposeFails hp | dispose hp => rw [hp] at hl; cases hl
  | @askFails hp p _ => exact fails hv ⟨_, w.note _, rfl, h.report_eq_none (by simp [hp])⟩
  | cancel hp => exact fails hv ⟨_, w, rfl, h.report_eq_none (by rcases hp with hp | hp <;> simp [hp])⟩
  | cancelParked hp =>
    exact fails hv ⟨_, { w with gate := ⟨false, false⟩ }, rfl, h.report_eq_none (by simp [hp])⟩
  | goOn hp => exact underWay rfl (h.inStep (by rw [hp]; rfl))
  | isDone hp => exact underWay rfl (h.inStep (by rw [hp]; rfl))
  | comeUp hp => exact underWay rfl (h.inStep (by rw [hp]; rfl))
  | leave hp => exact underWay rfl (h.inStep (by rw [hp]; rfl))
  | pass hp => exact underWay rfl (h.inStep (by rcases hp with hp | hp <;> rw [hp] <;> rfl))
  | park hp =>
    refine underWay rfl ?_
    simp only [InStep, enter, apply_domain, apply_turns]
    exact h.inStep (by rw [hp]; rfl)

theorem phase (h : Tallies w) (hr : Reachable w) {r : Outcome Failure Phase × Controller (quietParts load react)}
    (hproceed : w.proceed? = some r) (hv : Sound (conclude r)) : Tallies (conclude r) := by
  by_cases hl : w.phase.isLabour = true
  · exact h.labour hr hv (proceed_labour hproceed hl)
  · exact h.stride hv (proceed_stride hproceed) (by simpa using hl)

end Tallies

/-- **Count and report are in step in the rest of a run**, once they are. -/
theorem Reachable.tallies (h : Reachable w) (hw : Tallies w) (ms : List (Move I)) : Tallies (w.moves ms) :=
  h.moves_uphold (P := fun w => Tallies w) (fun w a hr hw => hw.effect hr (access_effect w a))
    (fun _ _ _ hw ht => hw.told ht) (fun _ _ hr hw hproceed hv => hw.phase hr hproceed hv.sound) hw ms

/-- A run that is over has a report iff it was disposed, with the turns that were announced. -/
theorem Tallies.reported (h : Tallies w) (hr : Reachable w) (hp : w.phase = .finished) :
    (w.state = .disposed →
      w.domain.report = some ⟨(notices w.acts).count .actionDone, w.domain.facts⟩) ∧
      (w.state ≠ .disposed → w.domain.report = none) := by
  rw [Tallies, hp] at h
  constructor
  · intro hs
    simp only [hs, if_true] at h
    have hturns := hr.sound.turns_announced (.inr hp) (by simp [hs])
    rw [notices_acts, ← hturns]
    exact h.2
  · intro hs
    simpa only [if_neg hs] using h

theorem Tallies.isSome_report_iff (h : Tallies w) (hr : Reachable w) (hp : w.phase = .finished) :
    w.domain.report.isSome = true ↔ w.state = .disposed := by
  obtain ⟨hdisposed, hfailed⟩ := h.reported hr hp
  by_cases hs : w.state = .disposed
  · simp [hdisposed hs, hs]
  · simp [hfailed hs, hs]

theorem Tallies.turns_of_report (h : Tallies w) (hr : Reachable w) (hp : w.phase = .finished)
    {report : Domain.Report} (hd : w.domain.report = some report) :
    report.turns = (notices w.acts).count .actionDone := by
  have hs : w.state = .disposed := (h.isSome_report_iff hr hp).mp (by simp [hd])
  rw [(h.reported hr hp).1 hs] at hd
  cases hd
  rfl

end

end Controller

end Cadence
