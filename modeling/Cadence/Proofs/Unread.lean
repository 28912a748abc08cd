import Cadence.Proofs.Stride

/-!
# Cadence.Proofs.Unread — what is not read

The journal is bookkeeping, and mode and cancellation are looked at only at the gate.  A change of a controller
is `Unnoticed` if the calls of the worker do the same with it as without it.

* `moves_altered`: nothing reads the journal, and away from the gate nothing reads whether the run is cancelled.
* `moves_onto`: what follows an older journal is what would have followed without.
* `step_under`: while a turn runs, nothing reads the mode.
-/

namespace Cadence.Controller

variable {A : Assembly}

/-- A change that the worker's calls on engine and domain pass by. -/
structure Unnoticed (f : Controller A → Controller A) : Prop where
  enter : ∀ w p, (f w).enter p = f (w.enter p)
  note : ∀ w e, (f w).note e = f (w.note e)
  count : ∀ w, { f w with turns := (f w).turns + 1 } = f { w with turns := w.turns + 1 }
  apply : ∀ w x, (f w).apply x = f (w.apply x)
  ask : ∀ w c, (f w).ask c = ((w.ask c).1, f (w.ask c).2)
  callHook : ∀ w h, (f w).callHook h = ((w.callHook h).1, f (w.callHook h).2)

namespace Unnoticed

variable {f : Controller A → Controller A} (h : Unnoticed f)

/-- What follows an unnoticed change passes it by, if each of its parts does. -/
theorem follow {α β : Type} (r : Outcome Failure α × Controller A)
    {k : α → Controller A → Outcome Failure β × Controller A}
    (hk : ∀ a w, k a (f w) = ((k a w).1, f (k a w).2)) :
    Outcome.follow (r.1, f r.2) k = ((Outcome.follow r k).1, f (Outcome.follow r k).2) := by
  obtain ⟨a | e | p, w⟩ := r
  · exact hk a w
  · rfl
  · rfl

include h

theorem advance (m : Mode) (w : Controller A) :
    (f w).advance m = ((w.advance m).1, f (w.advance m).2) := by
  unfold Controller.advance
  split
  · rw [h.ask]
  · rw [h.ask]

theorem start (w : Controller A) : (f w).start = (w.start.1, f w.start.2) := by
  unfold Controller.start
  rw [h.ask]
  refine follow _ fun _ w => ?_
  rw [h.callHook]
  exact follow _ fun _ w => by rw [h.apply]

theorem turn (m : Mode) (w : Controller A) : (f w).turn m = ((w.turn m).1, f (w.turn m).2) := by
  unfold Controller.turn
  dsimp only
  rw [h.apply, h.count, h.advance]
  refine follow _ fun _ w => ?_
  rw [h.callHook]
  exact follow _ fun _ w => by rw [h.apply]

theorem finish (w : Controller A) : (f w).finish = (w.finish.1, f w.finish.2) := by
  unfold Controller.finish
  rw [h.callHook]
  exact follow _ fun _ w => by rw [h.apply, h.note]

theorem conclude (r : Outcome Failure Phase × Controller A) :
    Controller.conclude (r.1, f r.2) = f (Controller.conclude r) := by
  unfold Controller.conclude
  dsimp only
  split
  · exact h.enter _ _
  · rw [h.apply, h.note]
    exact h.enter _ _
  · next hc => exact absurd hc (contain_ne_panicked _ _)

end Unnoticed

/-! ## The journal, and the cancellation away from the gate -/

/-- The controller with an older journal behind its own, and cancelled if `b`. -/
def altered (j : List (Entry A.Id)) (b : Bool) (w : Controller A) : Controller A :=
  { w with journal := w.journal ++ j, cancelled := b || w.cancelled }

/-- Whether the worker is where cancellation is looked at. -/
def Phase.isAtGate : Phase → Bool
  | approaching | arriving | parked => true
  | _ => false

variable (j : List (Entry A.Id)) (b : Bool) (w : Controller A)

theorem altered_engine : (w.altered j b).engine = w.engine := rfl

theorem altered_launch : (w.altered j b).launch = w.launch := rfl

theorem altered_source : (w.altered j b).source = w.source := rfl

theorem apply_altered (x : Event) : (w.altered j b).apply x = (w.apply x).altered j b := by
  simp only [apply_eq, altered, List.append_assoc, List.cons_append]

theorem altered_unnoticed : Unnoticed (altered (A := A) j b) where
  enter _ _ := rfl
  note _ _ := rfl
  count _ := rfl
  apply := apply_altered j b
  ask w c := by
    rw [ask, ask, altered_engine]
    cases w.engine <;> rfl
  callHook w h := by
    rw [callHook, callHook, altered_engine]
    cases w.engine with
    | none => rfl
    | some g => simp only [altered, List.cons_append, List.append_assoc]

theorem startEngine_altered (script : Engine.Script) :
    (w.altered j b).startEngine script = ((w.startEngine script).1, (w.startEngine script).2.altered j b) := by
  rw [startEngine, startEngine, altered_launch]
  split
  · rfl
  · dsimp only [altered_source]
    split
    · rename_i g _
      exact congrArg (Prod.mk _) (apply_altered j b (({ w with
        source := (A.load script w.source).2
        engine := some g } : Controller A).note (.load script true)) .engineLoaded)
    · rfl
    · rfl

theorem query_altered (c : Engine.Call) :
    (w.altered j b).query c = ((w.query c).1, (w.query c).2.altered j b) := by
  rw [query, query, altered_engine]
  cases w.engine <;> rfl

theorem launchOn_altered (l : Launch) :
    (w.altered j b).launchOn l = ((w.launchOn l).1, (w.launchOn l).2.altered j b) := by
  have hclaim : (w.altered j b).claim l = ((w.claim l).1, (w.claim l).2.altered j b) := by
    rw [claim, claim, altered_launch, altered_engine]
    split
    · rfl
    · split <;> rfl
  have hfind (u : Controller A) :
      (u.altered j b).findThread l = ((u.findThread l).1, (u.findThread l).2.altered j b) := by
    cases l <;> rfl
  rw [launchOn, launchOn, hclaim]
  rcases w.claim l with ⟨_ | _, u⟩
  · rfl
  · dsimp only
    rw [hfind]
    rcases u.findThread l with ⟨_ | _, v⟩ <;> rfl

theorem setModeTag_altered (tag : String) :
    (w.altered j b).setModeTag tag = ((w.setModeTag tag).1, (w.setModeTag tag).2.altered j b) := by
  rw [setModeTag, setModeTag]
  split <;> rfl

theorem stop_altered : (w.altered j b).stop = w.stop.altered j b := by
  simp only [stop, note, altered, Bool.or_true, List.cons_append]

theorem call_altered (c : Call A.Id) :
    (w.altered j b).call c = ((w.call c).1, (w.call c).2.altered j b) := by
  cases c with
  | startEngine script => exact startEngine_altered j b w script
  | execute => exact launchOn_altered j b w .spawned
  | runBlocking thread => exact launchOn_altered j b w (.borrowed thread)
  | setModeTag tag => exact setModeTag_altered j b w tag
  | facts => exact query_altered j b w .facts
  | agenda => exact query_altered j b w .agenda
  | stop => exact congrArg (Prod.mk _) (stop_altered j b w)
  | _ => rfl

/-- Nobody who has access to a controller can tell. -/
theorem access_altered (a : Access A.Id) :
    (w.altered j b).access a = ((w.access a).1, (w.access a).2.altered j b) := by
  cases a with
  | call c => exact call_altered j b w c
  | subscribeChannel =>
    rw [access, access, subscribeChannel, subscribeChannel, show (w.altered j b).config = w.config from rfl]
    split <;> rfl
  | receive k =>
    rw [access, access, receive, receive, show (w.altered j b).channels = w.channels from rfl]
    split <;> rfl
  | dropReceiver k => rfl

theorem play_altered {α : Type} (d : Dialogue (Access A.Id) (Access.Answer A.Dom) α) :
    d.play access (w.altered j b) = ((d.play access w).1, (d.play access w).2.altered j b) := by
  induction d generalizing w with
  | done a => rfl
  | ask a next ih => rw [Dialogue.play_ask, access_altered]; exact ih _ _

theorem tell_altered (s : Subscriber A.Id) (n : Notification) :
    (w.altered j b).tell s n = (w.tell s n).altered j b := by
  cases s with
  | channel k => rfl
  | observer i =>
    unfold tell
    dsimp only
    rw [show (w.altered j b).crowd = w.crowd from rfl, play_altered]
    rfl

theorem check_altered : (w.altered j b).check = (w.check.1, w.check.2.altered j b) := by
  rw [check, check, show (w.altered j b).domain = w.domain from rfl]
  split <;> rfl

theorem leave_altered (exit : Gate.Exit) :
    (w.altered j b).leave exit = ((w.leave exit).1, (w.leave exit).2.altered j b) := by
  cases exit <;> rfl

section AtGate

/-! At the gate it is looked whether the run is cancelled: only the journal may differ. -/

theorem approach_altered : (w.altered j false).approach = (w.approach.1, w.approach.2.altered j false) := by
  rw [approach, approach, show (w.altered j false).cancelled = w.cancelled from rfl,
    show (w.altered j false).mode = w.mode from rfl]
  split
  · rfl
  · split <;> rfl

theorem arrive_altered : (w.altered j false).arrive = (w.arrive.1, w.arrive.2.altered j false) := by
  rw [arrive, arrive, show (w.altered j false).cancelled = w.cancelled from rfl,
    show (w.altered j false).mode = w.mode from rfl, show (w.altered j false).gate = w.gate from rfl]
  dsimp only
  split
  · exact leave_altered j false { w with gate := (w.gate.arrive w.cancelled w.mode.isGated).2 } _
  · exact congrArg (Prod.mk _)
      (apply_altered j false { w with gate := (w.gate.arrive w.cancelled w.mode.isGated).2 } .gateParked)

theorem look?_altered :
    (w.altered j false).look? = w.look?.map fun r => (r.1, r.2.altered j false) := by
  rw [look?, look?, show (w.altered j false).cancelled = w.cancelled from rfl,
    show (w.altered j false).gate = w.gate from rfl]
  dsimp only
  rw [Option.map_map]
  cases (w.gate.look w.cancelled).1 with
  | none => rfl
  | some exit =>
    exact congrArg some (leave_altered j false { w with gate := (w.gate.look w.cancelled).2 } exit)

end AtGate

variable {w b}

theorem proceed?_altered (hw : w.phase.isAtGate = true → b = false) :
    (w.altered j b).proceed? = w.proceed?.map fun r => (r.1, r.2.altered j b) := by
  have h := altered_unnoticed (A := A) j b
  rw [proceed?, proceed?, show (w.altered j b).phase = w.phase from rfl]
  -- at the gate `hw` says that the run is not cancelled on the way
  cases hp : w.phase <;> rw [hp] at hw
  case idle | finished => rfl
  case starting => exact congrArg some (h.start w)
  case checking => exact congrArg some (check_altered j b w)
  case approaching => cases hw rfl; exact congrArg some (approach_altered j w)
  case arriving => cases hw rfl; exact congrArg some (arrive_altered j w)
  case parked => cases hw rfl; exact look?_altered j w
  case advancing m => exact congrArg some (h.turn m w)
  case disposing => exact congrArg some (h.finish w)

theorem step_altered (hw : w.phase.isAtGate = true → b = false) :
    (w.altered j b).step = w.step.map (altered j b) := by
  rw [step, step, show (w.altered j b).isHeldUp = w.isHeldUp from rfl,
    show (w.altered j b).outbox = w.outbox from rfl]
  split
  · rfl
  · split
    · rename_i s n rest _
      rw [tell_altered]
      rfl
    · rw [proceed?_altered j hw, Option.map_map, Option.map_map]
      exact congrArg (Option.map · _) (funext fun r => (altered_unnoticed j b).conclude r)

theorem move_altered (hw : w.phase.isAtGate = true → b = false) (m : Move A.Id) :
    (w.altered j b).move m = (w.move m).altered j b := by
  cases m with
  | work =>
    rw [move, move, step_altered j hw]
    cases w.step <;> rfl
  | access a => rw [move, move, access_altered]

/-- **Nothing reads the journal, and nothing but the gate reads the cancellation.** -/
theorem moves_altered {ms : List (Move A.Id)}
    (h : ∀ before, before <+: ms → ((w.altered j b).moves before).phase.isAtGate = true → b = false) :
    (w.altered j b).moves ms = (w.moves ms).altered j b := by
  induction ms generalizing w with
  | nil => rfl
  | cons m ms ih =>
    have hw : w.phase.isAtGate = true → b = false := h [] List.nil_prefix
    have hm : (w.altered j b).move m = (w.move m).altered j b := move_altered j hw m
    rw [moves_cons, moves_cons, hm]
    refine ih fun before hb => ?_
    rw [← hm]
    exact h (m :: before) (List.cons_prefix_cons.mpr ⟨rfl, hb⟩)

/-! ## The journal alone -/

variable (w)

/-- The controller with an older journal behind its own. -/
def onto (j : List (Entry A.Id)) (w : Controller A) : Controller A :=
  { w with journal := w.journal ++ j }

theorem move_onto (m : Move A.Id) : (w.onto j).move m = (w.move m).onto j :=
  move_altered (b := false) j (fun _ => rfl) m

theorem moves_onto (ms : List (Move A.Id)) : (w.onto j).moves ms = (w.moves ms).onto j :=
  moves_altered (b := false) j fun _ _ _ => rfl

/-- **What only the journal has noted changes nothing**: the same moves lead to the same controller, but for
that one entry of its journal. -/
theorem moves_note (e : Entry A.Id) (ms : List (Move A.Id)) :
    ∃ news, (w.moves ms).journal = news ++ w.journal ∧
      (w.note e).moves ms = { w.moves ms with journal := news ++ e :: w.journal } := by
  have hbare (j : List (Entry A.Id)) : { w with journal := j } = onto j { w with journal := [] } := rfl
  refine ⟨(moves { w with journal := [] } ms).journal, ?_, ?_⟩
  · conv_lhs => rw [show w = onto w.journal { w with journal := [] } from hbare w.journal, moves_onto]
    rfl
  · conv_rhs => rw [show w = onto w.journal { w with journal := [] } from hbare w.journal, moves_onto]
    rw [note, hbare, moves_onto]
    rfl

/-- What was done stays done. -/
theorem acts_grow (w : Controller A) (ms : List (Move A.Id)) : w.acts <+: (w.moves ms).acts := by
  obtain ⟨news, hj, -⟩ := moves_note w .stop ms
  exact ⟨readOff Entry.act? news, by rw [acts, acts, hj, readOff_append]⟩

/-! ## The mode, during a turn -/

def under (m : Mode) (w : Controller A) : Controller A := { w with mode := m }

theorem under_engine (m : Mode) : (w.under m).engine = w.engine := rfl

theorem under_unnoticed (m : Mode) : Unnoticed (under (A := A) m) where
  enter _ _ := rfl
  note _ _ := rfl
  count _ := rfl
  apply w x := by simp only [apply_eq, under]
  ask w c := by
    rw [ask, ask, under_engine]
    cases w.engine <;> rfl
  callHook w h := by
    rw [callHook, callHook, under_engine]
    cases w.engine <;> rfl

variable {w}

/-- **A turn that is past the gate is run as it would have been**, whatever mode is set. -/
theorem step_under {n : Mode} (hp : w.phase = .advancing n) (ho : w.outbox = []) (m : Mode) :
    (w.under m).step = w.step.map (under m) := by
  have h := under_unnoticed (A := A) m
  rw [step, step, show (w.under m).isHeldUp = w.isHeldUp from rfl,
    show (w.under m).outbox = w.outbox from rfl, ho, proceed?, proceed?,
    show (w.under m).phase = w.phase from rfl, hp]
  split
  · rfl
  · rw [Option.map_some, Option.map_some, h.turn, h.conclude]
    rfl

theorem move_under {n : Mode} (hp : w.phase = .advancing n) (ho : w.outbox = []) (m : Mode) :
    (w.under m).move .work = (w.move .work).under m := by
  rw [move, move, step_under hp ho]
  cases w.step <;> rfl

end Cadence.Controller
