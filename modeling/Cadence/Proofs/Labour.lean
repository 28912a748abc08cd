import Cadence.Proofs.History
import Cadence.Proofs.Moves
import Mathlib.Logic.Relation

/-!
# Cadence.Proofs.Labour — the phases in which the worker calls engine and domain

Starting, turns and disposal are made of calls on engine and domain, of which the first failure is the end.
`Labour` has one case for each call that can fail and one for each phase that goes through, with the calls
written out.

* `conclude_follow`: a call is followed up only if it succeeded.
* `start_labour`, `turn_labour`, `finish_labour`: there is nothing else these phases can come to.
* `Labour.parts`: they are made of reports, calls, remarks and changes of the program point.
-/

namespace Cadence.Controller

variable {A : Assembly} {w v : Controller A}

def fail (w : Controller A) (f : Failure) : Controller A :=
  { (w.apply (.faulted f.message)).note (.ended (some f)) with phase := .finished }

def enter (w : Controller A) (p : Phase) : Controller A := { w with phase := p }

def beginTurn (w : Controller A) : Controller A :=
  let v := w.apply .turnStarted
  { v with turns := v.turns + 1 }

theorem noticeOf_engineLoaded (s : State) : s.noticeOf .engineLoaded = none := by cases s <;> rfl

theorem noticeOf_turnStarted (s : State) : s.noticeOf .turnStarted = none := by cases s <;> rfl

theorem noticeOf_gateParked (s : State) : s.noticeOf .gateParked = none := by cases s <;> rfl

@[simp] theorem fail_phase (w : Controller A) (f : Failure) : (w.fail f).phase = .finished := rfl
@[simp] theorem fail_cancelled (w : Controller A) (f : Failure) : (w.fail f).cancelled = w.cancelled :=
  apply_cancelled w _
@[simp] theorem fail_turns (w : Controller A) (f : Failure) : (w.fail f).turns = w.turns := apply_turns w _

@[simp] theorem enter_phase (w : Controller A) (p : Phase) : (w.enter p).phase = p := rfl
@[simp] theorem enter_cancelled (w : Controller A) (p : Phase) : (w.enter p).cancelled = w.cancelled := rfl
@[simp] theorem enter_turns (w : Controller A) (p : Phase) : (w.enter p).turns = w.turns := rfl

@[simp] theorem beginTurn_cancelled (w : Controller A) : w.beginTurn.cancelled = w.cancelled :=
  apply_cancelled w _
@[simp] theorem beginTurn_outbox (w : Controller A) : w.beginTurn.outbox = w.outbox := by
  rw [beginTurn, apply_eq, noticeOf_turnStarted]
  simp
@[simp] theorem beginTurn_registry (w : Controller A) : w.beginTurn.registry = w.registry := apply_registry w _
@[simp] theorem beginTurn_engine (w : Controller A) : w.beginTurn.engine = w.engine := apply_engine w _
@[simp] theorem beginTurn_turns (w : Controller A) : w.beginTurn.turns = w.turns + 1 := by simp [beginTurn]

@[simp] theorem ask_outbox (w : Controller A) (c : Engine.Call) : (w.ask c).2.outbox = w.outbox := by
  unfold ask; split <;> rfl
@[simp] theorem callHook_outbox (w : Controller A) (k : Domain.Hook) :
    (w.callHook k).2.outbox = w.outbox := by unfold callHook; split <;> rfl
@[simp] theorem advance_outbox (w : Controller A) (m : Mode) : (w.advance m).2.outbox = w.outbox := by
  unfold advance; split <;> exact ask_outbox w _

/-! ## One call after another -/

/-- A call is followed up only if it succeeded; else its failure ends the run. -/
theorem conclude_follow {α : Type} (r : Outcome Failure α × Controller A)
    (k : α → Controller A → Outcome Failure Phase × Controller A) :
    (∃ f, Failure.of? r.1 = some f ∧ conclude (Outcome.follow r k) = r.2.fail f) ∨
      ∃ a, Failure.of? r.1 = none ∧ Outcome.follow r k = k a r.2 := by
  obtain ⟨a | f | p, v⟩ := r
  · exact .inr ⟨a, rfl, rfl⟩
  · exact .inl ⟨f, rfl, rfl⟩
  · exact .inl ⟨.panicked p, rfl, rfl⟩

/-- What the worker does in a phase in which it makes calls, by the way it ends. -/
inductive Labour (w : Controller A) : Controller A → Prop where
  | resetFails (phase : w.phase = .starting) {f : Failure}
      (h : Failure.of? (w.ask .reset).1 = some f) : Labour w ((w.ask .reset).2.fail f)
  | setUpFails (phase : w.phase = .starting) {f : Failure} (h : Failure.of? (w.ask .reset).1 = none)
      (h' : Failure.of? ((w.ask .reset).2.callHook .setup).1 = some f) :
      Labour w (((w.ask .reset).2.callHook .setup).2.fail f)
  | setUp (phase : w.phase = .starting) (h : Failure.of? (w.ask .reset).1 = none)
      (h' : Failure.of? ((w.ask .reset).2.callHook .setup).1 = none) :
      Labour w ((((w.ask .reset).2.callHook .setup).2.apply .setupCompleted).enter .checking)
  | advanceFails {m : Mode} (phase : w.phase = .advancing m) {f : Failure}
      (h : Failure.of? (w.beginTurn.advance m).1 = some f) : Labour w ((w.beginTurn.advance m).2.fail f)
  | actionFails {m : Mode} (phase : w.phase = .advancing m) {f : Failure}
      (h : Failure.of? (w.beginTurn.advance m).1 = none)
      (h' : Failure.of? ((w.beginTurn.advance m).2.callHook .action).1 = some f) :
      Labour w (((w.beginTurn.advance m).2.callHook .action).2.fail f)
  | turn {m : Mode} (phase : w.phase = .advancing m) (h : Failure.of? (w.beginTurn.advance m).1 = none)
      (h' : Failure.of? ((w.beginTurn.advance m).2.callHook .action).1 = none) :
      Labour w ((((w.beginTurn.advance m).2.callHook .action).2.apply .turnCompleted).enter .checking)
  | disposeFails (phase : w.phase = .disposing) {f : Failure}
      (h : Failure.of? (w.callHook .dispose).1 = some f) : Labour w ((w.callHook .dispose).2.fail f)
  | dispose (phase : w.phase = .disposing) (h : Failure.of? (w.callHook .dispose).1 = none) :
      Labour w ((((w.callHook .dispose).2.apply .disposed).note (.ended none)).enter .finished)

theorem start_labour (hp : w.phase = .starting) : Labour w (conclude w.start) := by
  rw [start]
  rcases conclude_follow (w.ask .reset) _ with ⟨f, hf, h⟩ | ⟨a, hf, h⟩ <;> rw [h]
  · exact .resetFails hp hf
  rcases conclude_follow ((w.ask .reset).2.callHook .setup) _ with ⟨f, hf', h⟩ | ⟨a, hf', h⟩ <;> rw [h]
  · exact .setUpFails hp hf hf'
  · exact .setUp hp hf hf'

theorem turn_labour {m : Mode} (hp : w.phase = .advancing m) : Labour w (conclude (w.turn m)) := by
  have hturn : w.turn m = Outcome.follow (w.beginTurn.advance m) fun _ w =>
      Outcome.follow (w.callHook .action) fun _ w => (.ok .checking, w.apply .turnCompleted) := rfl
  rw [hturn]
  rcases conclude_follow (w.beginTurn.advance m) _ with ⟨f, hf, h⟩ | ⟨a, hf, h⟩ <;> rw [h]
  · exact .advanceFails hp hf
  rcases conclude_follow ((w.beginTurn.advance m).2.callHook .action) _ with ⟨f, hf', h⟩ | ⟨a, hf', h⟩ <;>
    rw [h]
  · exact .actionFails hp hf hf'
  · exact .turn hp hf hf'

theorem finish_labour (hp : w.phase = .disposing) : Labour w (conclude w.finish) := by
  rw [finish]
  rcases conclude_follow (w.callHook .dispose) _ with ⟨f, hf, h⟩ | ⟨a, hf, h⟩ <;> rw [h]
  · exact .disposeFails hp hf
  · exact .dispose hp hf

/-- Phases in which the worker makes calls. -/
def Phase.isLabour : Phase → Bool
  | starting | advancing _ | disposing => true
  | _ => false

theorem proceed_labour {r : Outcome Failure Phase × Controller A} (h : w.proceed? = some r)
    (hp : w.phase.isLabour = true) : Labour w (conclude r) := by
  unfold proceed? at h
  cases hphase : w.phase <;> simp only [hphase, Phase.isLabour, Option.some.injEq, reduceCtorEq] at h hp
  · exact h ▸ start_labour hphase
  · exact h ▸ turn_labour hphase
  · exact h ▸ finish_labour hphase

/-! ## What phases are made of -/

/-- Entries that remark on the run and are not about a call. -/
def Entry.IsRemark {ι : Type} : Entry ι → Prop
  | hasDone _ => True
  | passed _ => True
  | ended _ => True
  | _ => False

/-- The parts of a phase. -/
inductive Part (w : Controller A) : Controller A → Prop where
  | report (x : Event) : Part w (w.apply x)
  | ask (c : Engine.Call) : Part w (w.ask c).2
  | callHook (k : Domain.Hook) : Part w (w.callHook k).2
  | remark (e : Entry A.Id) (h : e.IsRemark) : Part w (w.note e)
  | point (p : Phase) (g : Gate) (n : Nat) : Part w { w with phase := p, gate := g, turns := n }

abbrev Parts : Controller A → Controller A → Prop := Relation.ReflTransGen Part

/-- Entries that the worker notes in a phase. -/
def Entry.IsWork {ι : Type} : Entry ι → Prop
  | engine _ | lent _ | hook _ _ | hasDone _ | event _ _ | emitted _ _ | passed _ | ended _ => True
  | _ => False

theorem Part.news (h : Part w v) : ∃ news, v.journal = news ++ w.journal ∧ ∀ e ∈ news, e.IsWork := by
  cases h with
  | report x =>
    rw [apply_eq]
    refine ⟨(w.state.noticeOf x).toList.map (.emitted · w.registry.members) ++
      [.event x (w.state.next x).isOk], by simp, fun e he => ?_⟩
    simp only [List.mem_append, List.mem_map, List.mem_cons, List.not_mem_nil, or_false] at he
    obtain ⟨n, -, rfl⟩ | rfl := he <;> trivial
  | ask c =>
    unfold Controller.ask
    split
    · exact ⟨[], rfl, by simp⟩
    · exact ⟨[.engine _], rfl, by simp [Entry.IsWork]⟩
  | callHook k =>
    unfold Controller.callHook
    split
    · exact ⟨[], rfl, by simp⟩
    · refine ⟨.hook k _ :: List.map .lent _, rfl, fun e he => ?_⟩
      rcases List.mem_cons.mp he with rfl | he
      · trivial
      · obtain ⟨r, -, rfl⟩ := List.mem_map.mp he
        trivial
  | remark e he => exact ⟨[e], rfl, by cases e <;> first | exact he.elim | simp [Entry.IsWork]⟩
  | point p g n => exact ⟨[], rfl, by simp⟩

theorem Parts.news (h : Parts w v) : ∃ news, v.journal = news ++ w.journal ∧ ∀ e ∈ news, e.IsWork := by
  induction h with
  | refl => exact ⟨[], rfl, by simp⟩
  | tail _ hp ih =>
    obtain ⟨news, hj, hn⟩ := ih
    obtain ⟨more, hj', hm⟩ := hp.news
    exact ⟨more ++ news, by rw [hj', hj, List.append_assoc], fun e he => (List.mem_append.mp he).elim (hm e) (hn e)⟩

theorem Part.config_eq (h : Part w v) : v.config = w.config := by
  cases h with
  | report x => exact apply_config w x
  | ask c => unfold Controller.ask; split <;> rfl
  | callHook k => unfold Controller.callHook; split <;> rfl
  | _ => rfl

theorem Parts.config_eq (h : Parts w v) : v.config = w.config := by
  induction h with
  | refl => rfl
  | tail _ hp ih => exact hp.config_eq.trans ih

section Parts

variable {u w v : Controller A}

theorem Parts.report (h : Parts u w) (x : Event) : Parts u (w.apply x) := h.tail (.report x)

theorem Parts.ask (h : Parts u w) (c : Engine.Call) : Parts u (w.ask c).2 := h.tail (.ask c)

theorem Parts.callHook (h : Parts u w) (k : Domain.Hook) : Parts u (w.callHook k).2 := h.tail (.callHook k)

theorem Parts.advance (h : Parts u w) (m : Mode) : Parts u (w.advance m).2 := by
  unfold Controller.advance
  split
  · exact h.ask .step
  · exact h.ask .run

theorem Parts.remark (h : Parts u w) (e : Entry A.Id) (he : e.IsRemark) : Parts u (w.note e) :=
  h.tail (.remark e he)

theorem Parts.enter (h : Parts u w) (p : Phase) : Parts u (w.enter p) := h.tail (.point p w.gate w.turns)

theorem Parts.gate (h : Parts u w) (g : Gate) : Parts u { w with gate := g } :=
  h.tail (.point w.phase g w.turns)

theorem Parts.fail (h : Parts u w) (f : Failure) : Parts u (w.fail f) :=
  ((h.report _).remark (.ended (some f)) trivial).enter .finished

theorem Parts.beginTurn (h : Parts u w) : Parts u w.beginTurn := (h.report .turnStarted).tail (.point _ _ _)

theorem Labour.parts (h : Labour w v) : Parts w v := by
  have start : Parts w w := .refl
  cases h with
  | resetFails => exact (start.ask .reset).fail _
  | setUpFails => exact ((start.ask .reset).callHook .setup).fail _
  | setUp => exact (((start.ask .reset).callHook .setup).report _).enter _
  | advanceFails => exact (start.beginTurn.advance _).fail _
  | actionFails => exact ((start.beginTurn.advance _).callHook .action).fail _
  | turn => exact (((start.beginTurn.advance _).callHook .action).report _).enter _
  | disposeFails => exact (start.callHook .dispose).fail _
  | dispose => exact (((start.callHook .dispose).report _).remark _ (by trivial)).enter _

end Parts

end Cadence.Controller
