import Cadence.Proofs.Notices

/-!
# Cadence.Proofs.Position — the state tells where the run is

The lifecycle state is kept by a pure state machine, which knows nothing of engine, gate and domain.  Still it
tells the real position of the run whenever the worker is at rest or notifies somebody; it lags behind only
between the gate and the beginning of the turn that the gate let through.

* `Sound.places`: the state by the position.
* `Reachable.inPosition`: the controller refines the state machine.
-/

namespace Cadence.Controller

variable {A : Assembly} {w : Controller A}

/-! ## The position of a run -/

/-- An engine was loaded. -/
def IsLoaded (w : Controller A) : Prop := ∃ script, .load script true ∈ w.journal

/-- The domain was set up. -/
def IsSetUp (w : Controller A) : Prop := .hook .setup none ∈ w.acts

/-- The gate has let a turn through. -/
def HasBegun (w : Controller A) : Prop := ∃ m, .passed m ∈ w.acts

/-- The run has ended. -/
def IsOver (w : Controller A) : Prop := ∃ f, .ended f ∈ w.acts

theorem Sound.isOver_iff (h : Sound w) : IsOver w ↔ w.phase = .finished := by
  obtain ⟨s, hr, -, ho⟩ := h.run
  rw [← ho]
  exact exists_congr (ended_mem_iff hr)

theorem Sound.isSetUp_iff (h : Sound w) (hf : w.phase ≠ .finished) :
    IsSetUp w ↔ w.phase ≠ .idle ∧ w.phase ≠ .starting := by
  have hs := h.stands
  unfold Stands at hs
  cases hp : w.phase <;> rw [hp] at hs
  case finished => exact absurd hp hf
  case idle | starting => simp [IsSetUp, show w.acts = [] from run_reads hs.1]
  all_goals
    obtain ⟨ms, has⟩ := run_reads hs.1
    simp [IsSetUp, has, soFar, opening]

/-- Turns are counted as the gate lets them through. -/
theorem Sound.turns_eq (h : Sound w) (ha : ∀ m, w.phase ≠ .advancing m) :
    w.turns = (passages w.acts).length := by
  have hn : w.pending = [] := by
    unfold pending
    cases hp : w.phase with
    | advancing m => exact absurd hp (ha m)
    | _ => rfl
  have heq := congrArg List.length h.advances_eq
  simp only [hn, List.map_nil, List.append_nil, List.length_map] at heq
  rw [heq, h.turns]

theorem Sound.hasBegun_iff (h : Sound w) (ha : ∀ m, w.phase ≠ .advancing m) :
    HasBegun w ↔ w.turns ≠ 0 := by
  rw [h.turns_eq ha, ne_eq, List.length_eq_zero_iff]
  constructor
  · rintro ⟨m, hm⟩
    exact List.ne_nil_of_mem (mem_passages.mpr hm)
  · intro hne
    obtain ⟨m, hm⟩ := List.exists_mem_of_ne_nil _ hne
    exact ⟨m, mem_passages.mp hm⟩

/-- **The state by the position**, except between the gate and the turn it lets through. -/
structure Placed (w : Controller A) : Prop where
  new : w.state = .new ↔ ¬ IsLoaded w
  started : w.state = .started ↔ IsLoaded w ∧ ¬ IsSetUp w ∧ ¬ IsOver w
  setupDone : w.state = .setupDone ↔ IsSetUp w ∧ ¬ HasBegun w ∧ w.phase ≠ .parked ∧ ¬ IsOver w
  suspended : w.state = .suspended ↔ w.phase = .parked
  runningTurn : w.state = .runningTurn ↔ HasBegun w ∧ w.phase ≠ .parked ∧ ¬ IsOver w
  disposed : w.state = .disposed ↔ .ended none ∈ w.acts
  failed : ∀ m, w.state = .failed m ↔ ∃ f, .ended (some f) ∈ w.acts ∧ m = failureText f.message

theorem Sound.placed (h : Sound w) (hrec : Recorded w) (ha : ∀ m, w.phase ≠ .advancing m) :
    Placed w := by
  have hl : IsLoaded w ↔ w.engine.isSome := hrec.loaded
  have hb := h.hasBegun_iff ha
  have ho := h.isOver_iff
  have hu := h.isSetUp_iff
  have he := h.engine
  have hs := h.stands
  have hend (f : Option Failure) (hf : w.phase ≠ .finished) : .ended f ∉ w.acts :=
    fun hmem => hf (ho.mp ⟨f, hmem⟩)
  unfold Stands at hs
  cases hp : w.phase <;> rw [hp] at hs hu ho he hend
  case advancing m => exact absurd hp (ha m)
  case finished =>
    obtain ⟨f, hr, hf, -⟩ := hs
    have hover : IsOver w := ho.mpr rfl
    have hmem (g : Option Failure) : .ended g ∈ w.acts ↔ f = g := by
      rw [ended_mem_iff hr g]; simp
    have hload : IsLoaded w := hl.mpr (he (by simp))
    constructor
    all_goals cases f <;> simp [hf, endState, hover, hload, hp, hmem, eq_comm]
  all_goals have hover : ¬ IsOver w := by rw [ho]; simp
  case idle =>
    have hn : w.turns = 0 := by rw [h.turns, show w.acts = [] from run_reads hs.1]; rfl
    have hstate := hs.2
    cases hg : w.engine.isSome <;> rw [hg] at hstate hl <;> constructor <;>
      simp [hstate, hl, hu, hb, hp, hn, hover, hend]
  case starting =>
    have hn : w.turns = 0 := by rw [h.turns, show w.acts = [] from run_reads hs.1]; rfl
    have hload : IsLoaded w := hl.mpr (he (by simp))
    constructor <;> simp [hs.2, hload, hu, hb, hp, hn, hover, hend]
  case parked =>
    have hload : IsLoaded w := hl.mpr (he (by simp))
    constructor <;> simp [hs.2, hload, hu, hb, hp, hover, hend]
  all_goals
    have hload : IsLoaded w := hl.mpr (he (by simp))
    have hstate := hs.2
    unfold betweenTurns at hstate
    by_cases hn : w.turns = 0
    · rw [if_pos hn] at hstate
      constructor <;> simp [hstate, hload, hu, hb, hp, hn, hover, hend]
    · rw [if_neg hn] at hstate
      constructor <;> simp [hstate, hload, hu, hb, hp, hn, hover, hend]

/-! ## Refinement of the state machine -/

/-- A worker about to run a turn is neither at rest nor does it notify anybody. -/
theorem Sound.not_advancing (h : Sound w) (hw : w.AtRest ∨ w.outbox ≠ []) (m : Mode) :
    w.phase ≠ .advancing m := by
  intro hp
  have hc : w.phase ≠ .checking := by simp [hp]
  have hf : w.phase ≠ .finished := by simp [hp]
  rcases hw with hrest | hne
  · rw [h.atRest_iff hc hf, proceed?, hp] at hrest
    cases hrest
  · exact hne (h.nothing_due hc hf).1

theorem Sound.not_engineMissing (h : Sound w) : .ended (some .engineMissing) ∉ w.acts := by
  intro hmem
  have hs := h.stands
  rw [Stands, h.isOver_iff.mp ⟨_, hmem⟩] at hs
  obtain ⟨f, hr, -, hf, -⟩ := hs
  have heq := (ended_mem_iff hr _).mp hmem
  exact hf (Spot.finished.inj heq)

/-- How a controller goes with the pure state machine. -/
structure InPosition (w : Controller A) : Prop where
  /-- No event was rejected, -/
  accepted : ∀ e, .event e false ∉ w.journal
  /-- so the state and the notifications are those of the state machine fed with the same events, -/
  refines : State.new.feed w.events = (w.state, w.emissions.map Prod.fst)
  /-- no run ended for want of an engine, -/
  engine : .ended (some .engineMissing) ∉ w.acts
  /-- and the state tells the position of the run whenever the worker rests or notifies somebody. -/
  placed : w.AtRest ∨ w.outbox ≠ [] → Placed w

/-- **The controller refines the state machine** in every run. -/
theorem Reachable.inPosition (h : Reachable w) : InPosition w where
  accepted := h.sound.accepted
  refines := h.recorded.fed
  engine := h.sound.not_engineMissing
  placed hw := h.sound.placed h.recorded (h.sound.not_advancing hw)

/-- A worker that rests at the gate before its first turn. -/
theorem inPosition_of_parked_run :
    ((Bench.trial .step 3 []).moves (Bench.launched 6)).state = .suspended ∧
      InPosition ((Bench.trial .step 3 []).moves (Bench.launched 6)) :=
  ⟨by decide, Reachable.inPosition (Reachable.moves (.create _ _ _ _) _)⟩

end Cadence.Controller
