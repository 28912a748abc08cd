import Cadence.Proofs.Gating
import Cadence.Proofs.Halting
import Mathlib.Data.Prod.Lex
import Mathlib.Order.WellFounded

/-!
# Cadence.Proofs.Fairness — a run that is not kept from going on comes to its end

Host, observers and worker take turns by a schedule that never ends.  It is fair if the worker has its turn again
and again, and is kept waiting for ever neither at the gate nor at a full channel.  Each phase brings the worker
nearer to its next turn, and each delivery leaves one less to be made; so there is an end of it, unless there is
no end of turns.

* `Stride.ahead`: a phase brings the worker nearer to its next turn, or to the end.
* `Reachable.step_nearer`: so does a step, where there is an end of turns.
* `Reachable.lull`: there is a time from which on the worker does nothing.
* `IsFair.ends`: in the end the worker is done.
-/

namespace Cadence.Controller

variable {A : Assembly} {w v : Controller A}

/-! ## To the next turn -/

/-- How much lies ahead of the worker before the engine is advanced next, or before the end.  An announcement on the
way counts three: it is due, it is in the channel, and it has arrived. -/
def Phase.ahead : Phase → Nat
  | idle => 11
  | starting => 10
  | checking => 7
  | approaching => 6
  | arriving => 5
  | parked => 4
  | advancing _ | disposing => 3
  | finished => 0

theorem apply_outbox_le (w : Controller A) (x : Event) :
    (w.apply x).outbox.length ≤ w.outbox.length + w.registry.members.length := by
  rw [apply_eq]
  cases w.state.noticeOf x <;> simp

theorem Since.registry {as : List Act} (h : Since w as v) : v.registry = w.registry := by cases h; rfl

/-- **A phase brings the worker nearer to its next turn, or to the end**, though it may make announcements. -/
theorem Stride.ahead (h : Stride w v) (ho : w.outbox = []) :
    ∃ k, v.outbox.length ≤ k * w.registry.members.length ∧
      v.phase.ahead + 2 * k + 7 * w.turns < w.phase.ahead + 7 * v.turns := by
  have due {u : Controller A} (x : Event) (hu : u.outbox = []) (hr : u.registry = w.registry) :
      (u.apply x).outbox.length ≤ 1 * w.registry.members.length := by
    have hle := apply_outbox_le u x
    rw [hu, hr, List.length_nil, Nat.zero_add] at hle
    rwa [Nat.one_mul]
  have fails {u : Controller A} (hu : u.outbox = []) (hr : u.registry = w.registry) (ht : w.turns ≤ u.turns)
      (hp : 3 ≤ w.phase.ahead) (f : Failure) : ∃ k, (u.fail f).outbox.length ≤ k * w.registry.members.length ∧
        (u.fail f).phase.ahead + 2 * k + 7 * w.turns < w.phase.ahead + 7 * (u.fail f).turns := by
    refine ⟨1, due (.faulted f.message) hu hr, ?_⟩
    rw [fail_turns, fail_phase, Phase.ahead]
    omega
  have quiet (hv : v.outbox = []) (hp : v.phase.ahead < w.phase.ahead) (ht : v.turns = w.turns) :
      ∃ k, v.outbox.length ≤ k * w.registry.members.length ∧
        v.phase.ahead + 2 * k + 7 * w.turns < w.phase.ahead + 7 * v.turns :=
    ⟨0, by simp [hv], by omega⟩
  have hb : w.beginTurn.outbox = [] := (beginTurn_outbox w).trans ho
  cases h with
  | noEngine _ hp | cancel hp =>
    exact fails ho rfl (Nat.le_refl _) (by rcases hp with hp | hp <;> simp [hp, Phase.ahead]) _
  | noEngineInTurn _ hp => exact fails hb (beginTurn_registry w) (by simp) (by simp [hp, Phase.ahead]) _
  | resetFails hp hv | setUpFails hp hv | disposeFails hp hv =>
    obtain ⟨-, ht, hu, -⟩ := hv.frame
    exact fails (hu.trans ho) hv.registry (by omega) (by simp [hp, Phase.ahead]) _
  | advanceFails hp hv | actionFails hp hv =>
    obtain ⟨-, ht, hu, -⟩ := hv.frame
    rw [beginTurn_turns] at ht
    exact fails (hu.trans hb) (hv.registry.trans (beginTurn_registry w)) (by omega) (by simp [hp, Phase.ahead]) _
  | askFails hp => exact fails (u := w.note _) ho rfl (Nat.le_refl _) (by simp [hp, Phase.ahead]) _
  | cancelParked hp =>
    exact fails (u := { w with gate := ⟨false, false⟩ }) ho rfl (Nat.le_refl _) (by simp [hp, Phase.ahead]) _
  | setUp hp hv =>
    obtain ⟨-, ht, hu, -⟩ := hv.frame
    refine ⟨1, due .setupCompleted (hu.trans ho) hv.registry, ?_⟩
    simp only [apply_turns, enter, hp, Phase.ahead]
    omega
  | turn hp hv =>
    obtain ⟨-, ht, hu, -⟩ := hv.frame
    refine ⟨1, due .turnCompleted (hu.trans hb) (hv.registry.trans (beginTurn_registry w)), ?_⟩
    rw [beginTurn_turns] at ht
    simp only [apply_turns, enter, hp, Phase.ahead]
    omega
  | dispose hp hv =>
    obtain ⟨-, ht, hu, -⟩ := hv.frame
    refine ⟨1, due .disposed (hu.trans ho) hv.registry, ?_⟩
    simp only [apply_turns, enter, note, hp, Phase.ahead]
    omega
  | goOn hp | isDone hp | comeUp hp | leave hp => exact quiet ho (by simp [hp, Phase.ahead]) rfl
  | pass hp => exact quiet ho (by rcases hp with hp | hp <;> simp [hp, Phase.ahead]) rfl
  | park hp =>
    refine quiet ?_ (by simp [hp, Phase.ahead]) (apply_turns _ _)
    rw [apply_eq, noticeOf_gateParked]
    simp [enter, ho]

/-- How far a worker is from its end, where there are no more than so many turns. -/
def remaining (limit : Nat) (w : Controller A) : Nat ×ₗ Nat :=
  toLex (7 * (limit - w.turns) + w.phase.ahead, w.outbox.length)

/-- **A step of the worker brings it nearer to its end**, where there is an end of turns. -/
theorem Reachable.step_nearer (h : Reachable w) {limit : Nat} (hv : w.step = some v) (hl : v.turns ≤ limit) :
    v.remaining limit < w.remaining limit := by
  rw [remaining, remaining, Prod.Lex.toLex_lt_toLex]
  cases ho : w.outbox with
  | nil =>
    obtain ⟨k, -, hlt⟩ := (step_stride ho hv).ahead ho
    have hturns := (step_stride ho hv).turns_eq
    left
    simp only
    omega
  | cons x rest =>
    obtain ⟨hrest, hp, ht⟩ := h.step_of_due ho hv
    right
    simp [hp, ht, hrest]

/-! ## What the others can do about it -/

/-- Nobody but the worker brings a launched run nearer to its end, or takes it back. -/
theorem Effect.remaining_eq (h : Effect w v) (hl : w.launch ≠ none) (limit : Nat) :
    v.remaining limit = w.remaining limit := by
  rw [remaining, remaining, (h.of_launched hl).1, h.turns_eq, h.outbox_eq]

/-- Nobody takes a permit back. -/
theorem Effect.keeps_released (h : Effect w v) (hl : w.launch ≠ none) (hw : w.station ≠ .waiting) :
    v.station ≠ .waiting := by
  rw [ne_eq, station_eq_waiting] at hw ⊢
  cases h with
  | load script source g h => exact absurd h hl
  | launch l h => exact absurd h hl
  | release => exact fun hv => nomatch hv.2
  | _ => exact hw

/-- **A move brings the worker nearer to its end**, or it is one that the worker has no part in. -/
theorem Reachable.move_nearer (h : Reachable w) (m : Move A.Id) {limit : Nat} (hl : (w.move m).turns ≤ limit) :
    (w.move m).remaining limit < w.remaining limit ∨ Effect w (w.move m) ∧ (m = .work → w.AtRest) := by
  cases m with
  | access a => exact .inr ⟨access_effect w a, by simp⟩
  | work =>
    cases hs : w.step with
    | some v =>
      have hv : w.move .work = v := by rw [Controller.move, hs]; rfl
      exact .inl (hv ▸ h.step_nearer hs (hv ▸ hl))
    | none =>
      have hv : w.move .work = w := by rw [Controller.move, hs]; rfl
      refine .inr ⟨?_, fun _ => hs⟩
      rw [hv]
      exact .nothing

/-! ## Schedules -/

/-- The controller after so many moves of a schedule. -/
def along (w : Controller A) (s : Nat → Move A.Id) : Nat → Controller A
  | 0 => w
  | n + 1 => (w.along s n).move (s n)

section

variable {s : Nat → Move A.Id}

theorem along_eq (w : Controller A) (s : Nat → Move A.Id) (n : Nat) :
    w.along s n = w.moves ((List.range n).map s) := by
  induction n with
  | zero => rfl
  | succ n ih => rw [along, ih, List.range_succ, List.map_append, moves_append]; rfl

theorem Reachable.along (h : Reachable w) (s : Nat → Move A.Id) (n : Nat) : Reachable (w.along s n) := by
  rw [along_eq]
  exact h.moves _

/-- What comes later along a schedule is reached by moves. -/
theorem along_later (w : Controller A) (s : Nat → Move A.Id) {n m : Nat} (h : n ≤ m) :
    ∃ ms, w.along s m = (w.along s n).moves ms := by
  obtain ⟨k, rfl⟩ := Nat.exists_eq_add_of_le h
  refine ⟨(List.range k).map (s ∘ (n + ·)), ?_⟩
  rw [along_eq, along_eq, ← moves_append, List.range_add, List.map_append, List.map_map]

/-- A schedule under which nothing keeps the worker from going on for ever. -/
structure IsFair (w : Controller A) (s : Nat → Move A.Id) : Prop where
  /-- The worker has its turn again and again. -/
  works : ∀ n, ∃ m ≥ n, s m = .work
  /-- A worker that waits at the gate is let go some time. -/
  resumed : ∀ n, (w.along s n).station = .waiting → ∃ m ≥ n, (w.along s m).station ≠ .waiting
  /-- So is a worker that is held up by a full channel. -/
  received : ∀ n, (w.along s n).isHeldUp = true → ∃ m ≥ n, (w.along s m).isHeldUp = false

/-- A schedule that brings the run to its end is fair. -/
theorem IsFair.of_done (h : Reachable w) (works : ∀ n, ∃ m ≥ n, s m = .work) {k : Nat}
    (hd : (w.along s k).isDone = true) : IsFair w s := by
  have finished (n : Nat) : (w.along s (max n k)).isDone = true := by
    obtain ⟨ms, hms⟩ := along_later w s (Nat.le_max_right n k)
    rw [hms]
    exact ((h.along s k).silent hd ms).1
  refine ⟨works, fun n _ => ⟨max n k, Nat.le_max_left n k, ?_⟩, fun n _ => ⟨max n k, Nat.le_max_left n k, ?_⟩⟩
  · rw [ne_eq, station_eq_waiting, (isDone_iff.mp (finished n)).1]
    simp
  · exact (isDone_iff.mp (finished n)).2.2

/-- From some point of a schedule on, the worker does nothing. -/
def LullFrom (w : Controller A) (s : Nat → Move A.Id) (n : Nat) : Prop :=
  ∀ m ≥ n, Effect (w.along s m) (w.along s (m + 1)) ∧ (s m = .work → (w.along s m).AtRest)

/-- What others cannot undo, lasts in a lull. -/
theorem LullFrom.lasts {n : Nat} (h : LullFrom w s n) {P : Controller A → Prop}
    (hP : ∀ m ≥ n, ∀ v, Effect (w.along s m) v → P (w.along s m) → P v) {k : Nat} (hk : n ≤ k)
    (hp : P (w.along s k)) {m : Nat} (hm : k ≤ m) : P (w.along s m) := by
  induction m, hm using Nat.le_induction with
  | base => exact hp
  | succ m hm ih => exact hP m (hk.trans hm) _ (h m (hk.trans hm)).1 ih

/-- **There is a lull in the end**, where there is an end of turns. -/
theorem Reachable.lull (h : Reachable w) (hp : w.phase ≠ .idle) {limit : Nat}
    (hl : ∀ n, (w.along s n).turns ≤ limit) : ∃ n, LullFrom w s n := by
  have launched (n : Nat) : (w.along s n).launch ≠ none := by
    rw [ne_eq, (h.along s n).sound.launched, along_eq]
    exact h.stays_launched hp _
  have move (n : Nat) : (w.along s (n + 1)).remaining limit < (w.along s n).remaining limit ∨
      Effect (w.along s n) (w.along s (n + 1)) ∧ (s n = .work → (w.along s n).AtRest) :=
    (h.along s n).move_nearer (s n) (hl (n + 1))
  obtain ⟨-, ⟨n, rfl⟩, hleast⟩ := WellFounded.has_min wellFounded_lt
    (Set.range fun n => (w.along s n).remaining limit) (Set.range_nonempty _)
  have hleast (m : Nat) : ¬ (w.along s m).remaining limit < (w.along s n).remaining limit := hleast _ ⟨m, rfl⟩
  -- from where the least remains, there is always as much
  have least (m : Nat) (hm : n ≤ m) : (w.along s m).remaining limit = (w.along s n).remaining limit := by
    induction m, hm using Nat.le_induction with
    | base => rfl
    | succ m hm ih =>
      rcases move m with hlt | ⟨he, -⟩
      · exact absurd (ih ▸ hlt) (hleast (m + 1))
      · exact (he.remaining_eq (launched m) limit).trans ih
  refine ⟨n, fun m hm => ?_⟩
  rcases move m with hlt | hmove
  · exact absurd (least m hm ▸ hlt) (hleast (m + 1))
  · exact hmove

/-- **In the end the worker is done**, unless there is no end of turns. -/
theorem IsFair.ends (hs : IsFair w s) (h : Reachable w) (hp : w.phase ≠ .idle) {limit : Nat}
    (hl : ∀ n, (w.along s n).turns ≤ limit) : ∃ n, ∀ m ≥ n, (w.along s m).isDone = true := by
  have launched (n : Nat) : (w.along s n).phase ≠ .idle := by
    rw [along_eq]
    exact h.stays_launched hp _
  -- once there is a lull, the worker is let go at the channel, then at the gate, and then has its turn
  obtain ⟨n, hlull⟩ := h.lull hp hl
  obtain ⟨i, hi, hfree⟩ : ∃ i ≥ n, (w.along s i).isHeldUp = false := by
    cases hheld : (w.along s n).isHeldUp with
    | true => exact hs.received n hheld
    | false => exact ⟨n, Nat.le_refl n, hheld⟩
  obtain ⟨j, hj, hgone⟩ : ∃ j ≥ i, (w.along s j).station ≠ .waiting := by
    by_cases hwaits : (w.along s i).station = .waiting
    · exact hs.resumed i hwaits
    · exact ⟨i, Nat.le_refl i, hwaits⟩
  obtain ⟨k, hk, hwork⟩ := hs.works j
  have hfree : (w.along s k).isHeldUp = false :=
    hlull.lasts (P := fun v => v.isHeldUp = false) (fun m _ v he => he.stays_free) hi hfree (hj.trans hk)
  have hgone : (w.along s k).station ≠ .waiting :=
    hlull.lasts (P := fun v => v.station ≠ .waiting)
      (fun m _ v he => he.keeps_released (by rw [ne_eq, (h.along s m).sound.launched]; exact launched m))
      (hi.trans hj) hgone hk
  have hdone : (w.along s k).isDone = true := by
    rcases ((hlull k (hi.trans (hj.trans hk))).2 hwork).cases (mt station_eq_waiting.mpr hgone) with hidle | hheld | hd
    · exact absurd hidle (launched k)
    · rw [hfree] at hheld
      cases hheld
    · exact hd
  refine ⟨k, fun m hm => ?_⟩
  obtain ⟨ms, hms⟩ := along_later w s hm
  rw [hms]
  exact ((h.along s k).silent hdone ms).1

end

end Cadence.Controller
