import Cadence.Proofs.Course
import Cadence.Proofs.Unread

/-!
# Cadence.Proofs.Occasion — when a run is stopped

A host stops a run between two moves.  A subscriber stops it while it is notified: in the middle of a step of the
worker, of which the rest of its own reaction is still to come.

* `StopsAt`: where a stop is made, with what is still to come of the step.
* `asIf_of_away`: as long as the worker stays away from the gate, a run goes on as if it had not been stopped.
-/

namespace Cadence.Controller

variable {A : Assembly} {w : Controller A}

/-! ## In the middle of a delivery -/

/-- What is still to come of a move in which a call is made. -/
inductive Sequel (A : Assembly) where
  | nothing
  /-- A subscriber goes on with its reaction. -/
  | reaction (i : A.Id) (n : Notification) (rest : Reaction A.Id A.Dom A.Crowd)

/-- The end of the move. -/
def goOn (w : Controller A) : Sequel A → Controller A
  | .nothing => w
  | .reaction i n rest =>
    let ((panic, crowd), v) := rest.play access w
    { v with crowd, outbox := v.outbox.tail }.note (.told (.observer i) n panic)

/-- A subscriber is being notified, and has the rest of its reaction to come. -/
inductive Reacting (i : A.Id) (n : Notification) : Controller A → Reaction A.Id A.Dom A.Crowd → Prop where
  | notified {w : Controller A} {rest : List (Subscriber A.Id × Notification)} (h : Reachable w)
      (free : w.isHeldUp = false) (due : w.outbox = (.observer i, n) :: rest) :
      Reacting i n w (A.react i n w.crowd)
  | called {w : Controller A} {a : Access A.Id}
      {next : a.Answer A.Dom → Reaction A.Id A.Dom A.Crowd} (h : Reacting i n w (.ask a next)) :
      Reacting i n (w.access a).2 (next (w.access a).1)

section Reacting

variable {i : A.Id} {n : Notification} {rest : Reaction A.Id A.Dom A.Crowd}

theorem Reacting.reachable (h : Reacting i n w rest) : Reachable w := by
  induction h with
  | notified h free due => exact h
  | called h ih => exact ih.move (.access _)

theorem Reacting.due (h : Reacting i n w rest) : ∃ later, w.outbox = (.observer i, n) :: later := by
  induction h with
  | notified h free due => exact ⟨_, due⟩
  | called h ih =>
    obtain ⟨later, hl⟩ := ih
    exact ⟨later, (access_effect _ _).outbox_eq.trans hl⟩

theorem Reacting.goOn (h : Reacting i n w rest) : Reachable (w.goOn (.reaction i n rest)) := by
  induction h with
  | @notified w later h free due =>
    have hout : ((A.react i n w.crowd).play access w).2.outbox = w.outbox :=
      Dialogue.play_induct access (P := fun v => v.outbox = w.outbox)
        (fun a v hv => (access_effect v a).outbox_eq.trans hv) _ w rfl
    have hstep : w.move .work = w.goOn (.reaction i n (A.react i n w.crowd)) := by
      simp only [move, step, free, due, Controller.goOn, hout, List.tail_cons]
      rfl
    rw [← hstep]
    exact h.move .work
  | called h ih => exact ih

end Reacting

/-- A stop is made at `w`, with `k` still to come: by the host, or by a subscriber that is notified. -/
inductive StopsAt : Controller A → Sequel A → Prop where
  | host {w : Controller A} (h : Reachable w) : StopsAt w .nothing
  | subscriber {w : Controller A} {i : A.Id} {n : Notification} {next : Unit → Reaction A.Id A.Dom A.Crowd}
      (h : Reacting i n w (.ask (.call .stop) next)) : StopsAt w (.reaction i n (next ()))

variable {k : Sequel A}

theorem StopsAt.reachable (h : StopsAt w k) : Reachable w := by
  cases h with
  | host h => exact h
  | subscriber h => exact h.reachable

theorem StopsAt.goOn (h : StopsAt w k) : Reachable (w.stop.goOn k) := by
  cases h with
  | host h => exact h.move (.call .stop)
  | subscriber h => exact h.called.goOn

/-- Where nothing is due, it is the host that stops the run. -/
theorem StopsAt.eq_nothing (h : StopsAt w k) (ho : w.outbox = []) : k = .nothing := by
  cases h with
  | host h => rfl
  | subscriber h =>
    obtain ⟨later, hl⟩ := h.due
    rw [ho] at hl
    cases hl

/-- What accesses and the delivery itself keep, the end of the move keeps. -/
theorem goOn_keeps {P : Controller A → Prop} (effect : ∀ w v, P w → Effect w v → P v)
    (told : ∀ (w : Controller A) crowd outbox e, P w → e.act? = none →
      P ({ w with crowd := crowd, outbox := outbox }.note e)) (hw : P w) : P (w.goOn k) := by
  cases k with
  | nothing => exact hw
  | reaction i n rest =>
    have hplay : P (rest.play access w).2 :=
      Dialogue.play_induct access (fun a v hv => effect v _ hv (access_effect v a)) rest w hw
    exact told _ _ _ _ hplay rfl

/-! ## As if it had not been stopped -/

/-- The controller after a stop and the moves that follow. -/
def stopped (w : Controller A) (k : Sequel A) (ms : List (Move A.Id)) : Controller A :=
  (w.stop.goOn k).moves ms

/-- The controller after the same moves, had the stop not been made. -/
def unstopped (w : Controller A) (k : Sequel A) (ms : List (Move A.Id)) : Controller A := (w.goOn k).moves ms

/-- The run goes on as if it had not been stopped: the controller is the same but for the cancellation and the
note that the journal keeps of the stop. -/
def AsIf (w : Controller A) (k : Sequel A) (ms : List (Move A.Id)) : Prop :=
  ∃ news, (w.unstopped k ms).journal = news ++ w.journal ∧
    w.stopped k ms = { w.unstopped k ms with cancelled := true, journal := news ++ .stop :: w.journal }

variable (w k)

theorem goOn_altered (j : List (Entry A.Id)) (b : Bool) :
    (w.altered j b).goOn k = (w.goOn k).altered j b := by
  cases k with
  | nothing => rfl
  | reaction i n rest =>
    unfold goOn
    dsimp only
    rw [play_altered]
    rfl

variable {w k}

/-- **As long as the worker stays away from the gate, a run goes on as if it had not been stopped.** -/
theorem asIf_of_away {ms : List (Move A.Id)}
    (h : ∀ before, before <+: ms → (w.stopped k before).phase.isAtGate = false) : AsIf w k ms := by
  -- both runs come from the same controller without a journal
  let u : Controller A := { w with journal := [] }
  have hwithout : w.unstopped k ms = ((u.goOn k).moves ms).altered w.journal false := by
    rw [← moves_altered (b := false) _ fun _ _ _ => rfl, ← goOn_altered]
    rfl
  have hstart : w.stop.goOn k = (u.goOn k).altered (.stop :: w.journal) true := by
    rw [← goOn_altered]
    rfl
  have hwith : w.stopped k ms = ((u.goOn k).moves ms).altered (.stop :: w.journal) true := by
    rw [stopped, hstart]
    refine moves_altered _ fun before hb hgate => ?_
    rw [← hstart] at hgate
    exact absurd ((h before hb).symm.trans hgate) Bool.false_ne_true
  refine ⟨((u.goOn k).moves ms).journal, ?_, ?_⟩
  · rw [hwithout]
    rfl
  · rw [hwith, hwithout]
    rfl

/-- Nobody is told or does anything else in such a run. -/
theorem AsIf.acts_eq {ms : List (Move A.Id)} (h : AsIf w k ms) :
    (w.stopped k ms).acts = (w.unstopped k ms).acts := by
  obtain ⟨news, hj, hs⟩ := h
  rw [acts, acts, hs, hj]
  simp [Entry.act?]

end Cadence.Controller
