import Cadence.Proofs.Notices

/-!
# Cadence.Proofs.Halting — a cancelled run gets no further

Cancellation is looked at where a turn comes to the gate and where a parked worker looks up, and nowhere else.  A
run is `Barred` if it is cancelled and no turn is past the gate or can still get there by a permit.

* `Stride.barred`: a stride of a barred run does nothing that belongs to a turn, and brings it nearer to its end.
* `Reachable.stays_barred`: whatever is done, a barred run stays barred, without a turn.
* `Reachable.comes_to_rest`: left to itself, its worker comes to rest; only a full channel can hold it up.
* `Reachable.rests_of_cancelled`: so does the worker of any cancelled run.
-/

namespace Cadence.Controller

variable {A : Assembly} {u v w : Controller A}

/-! ## Without a turn -/

/-- Whether an act belongs to a turn: the way past the gate, the advance of the engine, or the action. -/
def Act.isOfTurn : Act → Bool
  | passed _ => true
  | engine c _ => c ≠ .reset
  | hook h _ => h = .action
  | _ => false

/-- `v` has come from `w` without any act of a turn. -/
def WithoutTurn (w v : Controller A) : Prop :=
  ∃ later, v.acts = w.acts ++ later ∧ ∀ a ∈ later, a.isOfTurn = false

namespace WithoutTurn

theorem refl (w : Controller A) : WithoutTurn w w := ⟨[], by simp, by simp⟩

theorem more (h : WithoutTurn u w) {later : List Act} (hv : v.acts = w.acts ++ later)
    (hl : ∀ a ∈ later, a.isOfTurn = false) : WithoutTurn u v := by
  obtain ⟨before, hw, hb⟩ := h
  refine ⟨before ++ later, by rw [hv, hw, List.append_assoc], fun a ha => ?_⟩
  exact (List.mem_append.mp ha).elim (hb a) (hl a)

theorem same (h : WithoutTurn u w) (hv : v.acts = w.acts) : WithoutTurn u v :=
  h.more (by rw [hv, List.append_nil]) (by simp)

theorem report (h : WithoutTurn u w) (x : Event) : WithoutTurn u (w.apply x) := by
  refine h.more (acts_apply w x) fun a ha => ?_
  obtain ⟨n, -, rfl⟩ := List.mem_map.mp ha
  rfl

theorem calls (h : WithoutTurn u w) {as : List Act} (hv : Since w as v)
    (has : ∀ a ∈ as, a.isOfTurn = false) : WithoutTurn u v := h.more hv.acts_eq has

theorem note (h : WithoutTurn u w) {e : Entry A.Id} (he : ∀ a ∈ e.act?, a.isOfTurn = false) :
    WithoutTurn u (w.note e) := by
  refine h.more (acts_note w e) fun a ha => ?_
  exact he a (Option.mem_toList.mp ha)

theorem fail (h : WithoutTurn u w) (f : Failure) : WithoutTurn u (w.fail f) :=
  (h.report _).note (e := .ended (some f)) (by simp [Entry.act?, Act.isOfTurn])

end WithoutTurn

/-! ## Barred runs -/

/-- The run is cancelled, and no turn is past the gate or can get there by a permit. -/
structure Barred (w : Controller A) : Prop where
  cancelled : w.cancelled = true
  parked : w.phase ≠ .parked
  advancing : ∀ m, w.phase ≠ .advancing m

theorem Barred.same (hb : Barred w) (hc : v.cancelled = true) (hp : v.phase = w.phase) : Barred v :=
  ⟨hc, by rw [hp]; exact hb.parked, by rw [hp]; exact hb.advancing⟩

theorem Effect.barred (h : Effect w v) (hb : Barred w) : Barred v := by
  have hc := h.stays_cancelled hb.cancelled
  rcases h.phase_cases with hp | hp
  · exact hb.same hc hp
  · exact ⟨hc, by simp [hp], by simp [hp]⟩

theorem Told.barred (h : Told w v) (hb : Barred w) : Barred v := by
  obtain ⟨hc, hp, -, -⟩ := h.frame
  exact hb.same (hc.trans hb.cancelled) hp

/-- How many phases a barred run can still go through. -/
def Phase.left : Phase → Nat
  | starting => 3
  | checking => 2
  | approaching | arriving | disposing => 1
  | _ => 0

theorem Barred.of_cancelled (hc : w.cancelled = true) (f : Failure) : Barred (w.fail f) :=
  ⟨by simpa using hc, by simp, by simp⟩

/-- **No turn gets past the gate** in a barred run, and it comes nearer to its end. -/
theorem Stride.barred (hs : Stride w v) (hb : Barred w) :
    Barred v ∧ WithoutTurn w v ∧ v.phase.left < w.phase.left := by
  have here := WithoutTurn.refl w
  have hc := hb.cancelled
  cases hs with
  | noEngine he phase =>
    refine ⟨.of_cancelled hc _, here.fail _, ?_⟩
    rcases phase with hp | hp <;> simp [hp, Phase.left]
  | resetFails hp hv | setUpFails hp hv | disposeFails hp hv =>
    refine ⟨.of_cancelled (hv.frame.2.2.2.trans hc) _, (here.calls hv ?_).fail _, ?_⟩
    · simp [Act.isOfTurn]
    · simp [hp, Phase.left]
  | setUp hp hv =>
    refine ⟨⟨?_, by simp, by simp⟩, ((here.calls hv ?_).report _).same rfl, ?_⟩
    · simpa [hv.frame.2.2.2] using hc
    · simp [Act.isOfTurn]
    · simp [hp, Phase.left]
  | @askFails hp p hd =>
    refine ⟨.of_cancelled (w := w.note (.hasDone (.error p))) hc _, (here.note ?_).fail _, ?_⟩
    · simp [Entry.act?, Act.isOfTurn]
    · simp [hp, Phase.left]
  | goOn hp hd | isDone hp hd =>
    refine ⟨⟨hc, by simp, by simp⟩, (here.note ?_).same rfl, by simp [hp, Phase.left]⟩
    simp [Entry.act?, Act.isOfTurn]
  | cancel phase _ =>
    refine ⟨.of_cancelled hc _, here.fail _, ?_⟩
    rcases phase with hp | hp <;> simp [hp, Phase.left]
  | dispose hp hv =>
    refine ⟨⟨?_, by simp, by simp⟩, (((here.calls hv ?_).report _).note ?_).same rfl, ?_⟩
    · simpa [hv.frame.2.2.2] using hc
    · simp [Act.isOfTurn]
    · simp [Entry.act?, Act.isOfTurn]
    · simp [hp, Phase.left]
  | comeUp _ hf | pass _ hf | park _ hf => rw [hc] at hf; cases hf
  | leave hp | cancelParked hp => exact absurd hp hb.parked
  | noEngineInTurn _ hp | advanceFails hp | actionFails hp | turn hp => exact absurd hp (hb.advancing _)

/-- **A barred run stays barred**, and there is no turn in it any more. -/
theorem Reachable.stays_barred (h : Reachable w) (hb : Barred w) (ms : List (Move A.Id)) :
    Barred (w.moves ms) ∧ WithoutTurn w (w.moves ms) := by
  refine h.moves_keep (P := fun v => Barred v ∧ WithoutTurn w v) ?_ ?_ ?_ ⟨hb, .refl w⟩ ms
  · rintro u v - ⟨hb, hw⟩ he
    exact ⟨he.barred hb, hw.same he.acts_eq⟩
  · rintro u v - ⟨hb, hw⟩ ht
    exact ⟨ht.barred hb, hw.same ht.frame.2.2.1⟩
  · rintro u v - ⟨hb, hw⟩ - - hs
    obtain ⟨hb', ⟨later, hv, hl⟩, -⟩ := hs.barred hb
    exact ⟨hb', hw.more hv hl⟩

/-! ## The last turn -/

/-- How many turns a cancelled run may still begin. -/
def Phase.toBegin : Phase → Nat
  | parked | advancing _ => 1
  | _ => 0

theorem Effect.last_turn (h : Effect w v) :
    v.turns + v.phase.toBegin ≤ w.turns + w.phase.toBegin := by
  rw [h.turns_eq]
  rcases h.phase_cases with hp | hp <;> simp [hp, Phase.toBegin]

theorem Told.last_turn (h : Told w v) : v.turns + v.phase.toBegin = w.turns + w.phase.toBegin := by
  rw [h.turns_eq, h.frame.2.1]

theorem Stride.last_turn (hs : Stride w v) (hc : w.cancelled = true) :
    v.turns + v.phase.toBegin ≤ w.turns + w.phase.toBegin := by
  rw [hs.turns_eq]
  cases hs with
  | comeUp _ hf | pass _ hf | park _ hf => rw [hc] at hf; cases hf
  | noEngine _ hp | cancel hp => rcases hp with hp | hp <;> simp [hp, Phase.toBegin]
  | noEngineInTurn _ hp | resetFails hp | setUpFails hp | setUp hp | askFails hp | goOn hp | isDone hp | leave hp
  | cancelParked hp | advanceFails hp | actionFails hp | turn hp | disposeFails hp | dispose hp =>
    simp [hp, Phase.toBegin]

/-- **A cancelled run begins no more than one turn**, and that only if it is past the gate or parked there. -/
theorem Reachable.last_turn (h : Reachable w) (hc : w.cancelled = true) (ms : List (Move A.Id)) :
    (w.moves ms).cancelled = true ∧
      (w.moves ms).turns + (w.moves ms).phase.toBegin ≤ w.turns + w.phase.toBegin := by
  refine h.moves_keep (P := fun v => v.cancelled = true ∧
    v.turns + v.phase.toBegin ≤ w.turns + w.phase.toBegin) ?_ ?_ ?_ ⟨hc, Nat.le_refl _⟩ ms
  · rintro u v - ⟨hu, hn⟩ he
    exact ⟨he.stays_cancelled hu, Nat.le_trans he.last_turn hn⟩
  · rintro u v - ⟨hu, hn⟩ ht
    exact ⟨ht.frame.1.trans hu, ht.last_turn ▸ hn⟩
  · rintro u v - ⟨hu, hn⟩ - - hs
    exact ⟨hs.cancelled_eq.trans hu, Nat.le_trans (hs.last_turn hu) hn⟩

/-! ## Coming to rest -/

theorem Reachable.stays_launched (h : Reachable w) (hp : w.phase ≠ .idle) (ms : List (Move A.Id)) :
    (w.moves ms).phase ≠ .idle := by
  refine h.moves_keep (P := fun v => v.phase ≠ .idle) ?_ ?_ ?_ hp ms
  · intro u v hu hp he
    rcases he.phase_cases with h | h <;> rw [h]
    · exact hp
    · simp
  · intro u v hu hp ht
    rw [ht.frame.2.1]
    exact hp
  · exact fun u v _ _ _ _ hs => hs.phase_ne_idle

/-- A delivery takes what was due first, and leaves the worker in its phase and its turn. -/
theorem Reachable.step_of_due (h : Reachable w) {x : Subscriber A.Id × Notification}
    {rest : List (Subscriber A.Id × Notification)} (ho : w.outbox = x :: rest) (hv : w.step = some v) :
    v.outbox = rest ∧ v.phase = w.phase ∧ v.turns = w.turns := by
  have hidle : w.phase ≠ .idle := by
    rcases h.sound.due (.inl (by simp [ho])) with hp | hp <;> simp [hp]
  obtain ⟨s, n⟩ := x
  unfold step at hv
  rw [ho] at hv
  split at hv
  · cases hv
  cases hv
  refine ⟨rfl, ?_⟩
  cases s with
  | channel k => exact ⟨rfl, rfl⟩
  | observer i =>
    have hplay : Reachable ((A.react i n w.crowd).play access w).2 ∧
        ((A.react i n w.crowd).play access w).2.phase = w.phase ∧
        ((A.react i n w.crowd).play access w).2.turns = w.turns := by
      refine Dialogue.play_induct access (P := fun v => Reachable v ∧ v.phase = w.phase ∧ v.turns = w.turns) ?_ _ w
        ⟨h, rfl, rfl⟩
      rintro a v ⟨hr, hp, ht⟩
      exact ⟨hr.move (.access a), (hr.sound.access_phase (hp ▸ hidle) a).trans hp,
        (access_effect v a).turns_eq.trans ht⟩
    exact hplay.2

/-- **Left to itself, the worker of a barred run comes to rest.** -/
theorem Reachable.comes_to_rest {w : Controller A} (h : Reachable w) (hb : Barred w) :
    ∃ n, (w.moves (List.replicate n .work)).AtRest := by
  cases hs : w.step with
  | none => exact ⟨0, hs⟩
  | some v =>
    have hv : w.move .work = v := by rw [Controller.move, hs]; rfl
    have hb' : Barred (w.moves [.work]) := (h.stays_barred hb [.work]).1
    rw [moves_cons, moves_nil, hv] at hb'
    obtain ⟨n, hn⟩ := (h.of_step hs).comes_to_rest hb'
    refine ⟨n + 1, ?_⟩
    rw [List.replicate_succ, moves_cons, hv]
    exact hn
termination_by (w.phase.left, w.outbox.length)
decreasing_by
  -- either something is delivered, or the next phase is entered
  cases ho : w.outbox with
  | nil => exact Prod.Lex.left _ _ ((step_stride ho hs).barred hb).2.2
  | cons x rest =>
    obtain ⟨hrest, hp, -⟩ := h.step_of_due ho hs
    rw [hp, hrest]
    exact Prod.Lex.right _ (Nat.lt_succ_self _)

theorem Stride.of_permit (hs : Stride w v) (hp : w.phase = .parked) (hg : w.gate.permit = true) :
    v.phase = .advancing w.mode ∧ v.acts = w.acts ++ [.passed w.mode] := by
  cases hs with
  | leave => exact ⟨rfl, acts_note w _⟩
  | cancelParked _ hnone => rw [hg] at hnone; cases hnone
  | _ => simp_all

theorem Stride.barred_of_advancing (hs : Stride w v) (hc : w.cancelled = true) {m : Mode}
    (hp : w.phase = .advancing m) : Barred v := by
  cases hs with
  | noEngineInTurn => exact .of_cancelled (w := w.beginTurn) (by simpa using hc) _
  | advanceFails _ hv | actionFails _ hv => exact .of_cancelled (by simpa [hv.frame.2.2.2] using hc) _
  | turn _ hv => exact ⟨by simpa [hv.frame.2.2.2] using hc, by simp, by simp⟩
  | _ => simp_all

theorem Reachable.rests_of_step (h : Reachable w) (hv : ∀ v, w.step = some v → Reachable v →
    ∃ n, (v.moves (List.replicate n .work)).AtRest) : ∃ n, (w.moves (List.replicate n .work)).AtRest := by
  cases hs : w.step with
  | none => exact ⟨0, hs⟩
  | some v =>
    obtain ⟨n, hn⟩ := hv v hs (h.of_step hs)
    have hwork : w.move .work = v := by rw [Controller.move, hs]; rfl
    exact ⟨n + 1, by rwa [List.replicate_succ, moves_cons, hwork]⟩

/-- **Left to itself, the worker of a cancelled run comes to rest**, wherever it is. -/
theorem Reachable.rests_of_cancelled (h : Reachable w) (hc : w.cancelled = true) :
    ∃ n, (w.moves (List.replicate n .work)).AtRest := by
  have advancing {v : Controller A} (hv : Reachable v) (hcv : v.cancelled = true) {m : Mode}
      (hp : v.phase = .advancing m) : ∃ n, (v.moves (List.replicate n .work)).AtRest := by
    refine hv.rests_of_step fun u hs hu => hu.comes_to_rest ?_
    exact (step_stride (hv.sound.nothing_due (by simp [hp]) (by simp [hp])).1 hs).barred_of_advancing hcv hp
  cases hp : w.phase with
  | advancing m => exact advancing h hc hp
  | parked =>
    refine h.rests_of_step fun v hs hv => ?_
    have stride := step_stride (h.sound.nothing_due (by simp [hp]) (by simp [hp])).1 hs
    have hcv := stride.cancelled_eq.trans hc
    by_cases hg : w.gate.permit = true
    · exact advancing hv hcv (stride.of_permit hp hg).1
    · refine hv.comes_to_rest ?_
      cases stride with
      | leave _ hpermit => exact absurd hpermit hg
      | cancelParked => exact .of_cancelled (w := { w with gate := ⟨false, false⟩ }) hc _
      | _ => simp_all
  | _ => exact h.comes_to_rest ⟨hc, by simp [hp], by simp [hp]⟩

/-- Away from the gate, a worker that is launched rests only where it is held up, or done. -/
theorem AtRest.cases (hr : w.AtRest) (hp : ¬ (w.phase = .parked ∧ w.gate.permit = false)) :
    w.phase = .idle ∨ w.isHeldUp = true ∨ w.isDone = true := by
  by_cases hh : w.isHeldUp = true
  · exact .inr (.inl hh)
  rw [Bool.not_eq_true] at hh
  cases ho : w.outbox with
  | cons x rest => simp [AtRest, step, hh, ho] at hr
  | nil =>
    have hnone : w.proceed? = none := by simpa [AtRest, step, hh, ho] using hr
    unfold proceed? at hnone
    cases hphase : w.phase <;> simp only [hphase, reduceCtorEq] at hnone
    case idle => exact .inl rfl
    case finished => exact .inr (.inr (isDone_iff.mpr ⟨hphase, ho, hh⟩))
    case parked =>
      have hg : w.gate.permit = true := by simpa [hphase] using hp
      simp [look?, Gate.look, hg] at hnone

theorem Barred.of_atRest (hb : Barred w) (hp : w.phase ≠ .idle) (hr : w.AtRest) :
    w.isHeldUp = true ∨ w.isDone = true :=
  (hr.cases fun h => hb.parked h.1).resolve_left hp

end Cadence.Controller
