import Cadence.Proofs.Gating
import Cadence.Proofs.Unread

/-!
# Cadence.Proofs.Pace — the cadence of a run

The mode is read when a turn comes to the gate and when it leaves; what is set at other times waits for the
next reading.  A resume is for a parked worker only, and is not kept for later.

* `Reachable.stays_parked`: a parked worker stays until it is resumed or the run is cancelled.
* `advancing_blind`: a turn past the gate does not depend on the modes that are set.
* `resume_refused`: a resume that is refused changes nothing.
* `Reachable.keepsPace`: the cadence of any run, under any history of modes.
-/

namespace Cadence.Controller

variable {A : Assembly} {w v : Controller A}

/-! ## At the gate -/

theorem move_work (ho : w.outbox = [] ∧ w.isHeldUp = false)
    {r : Outcome Failure Phase × Controller A} (hr : w.proceed? = some r) :
    w.move .work = conclude r := by
  simp [move, step, ho.1, ho.2, hr]

theorem Sound.approach (h : Sound w) (hp : w.phase = .approaching) (hc : w.cancelled = false) :
    w.move .work =
      if w.mode.isGated = true then w.enter .arriving
      else (w.note (.passed w.mode)).enter (.advancing w.mode) := by
  have hr : w.proceed? = some w.approach := by rw [proceed?, hp]
  rw [move_work (h.nothing_due (by simp [hp]) (by simp [hp])) hr, Controller.approach, hc]
  cases w.mode.isGated <;> rfl

theorem Sound.arrive (h : Sound w) (hp : w.phase = .arriving) (hc : w.cancelled = false)
    (hm : w.mode.isGated = true) :
    w.move .work = ({ w with gate := ⟨true, false⟩ }.apply .gateParked).enter .parked := by
  have hr : w.proceed? = some w.arrive := by rw [proceed?, hp]
  rw [move_work (h.nothing_due (by simp [hp]) (by simp [hp])) hr, Controller.arrive, hc, hm]
  rfl

/-- A turn that comes to the gate under a mode that asks for waiting is parked there. -/
theorem Reachable.parks (h : Reachable w) (hp : w.phase = .approaching) (hc : w.cancelled = false)
    (hm : w.mode.isGated = true) : ((w.move .work).move .work).phase = .parked := by
  have h' := h.move .work
  have hw : w.move .work = w.enter .arriving := by rw [h.sound.approach hp hc, if_pos hm]
  rw [hw] at h' ⊢
  rw [h'.sound.arrive rfl hc hm]
  rfl

/-- And is let through under one that does not. -/
theorem Reachable.passes (h : Reachable w) (hp : w.phase = .approaching) (hc : w.cancelled = false)
    (hm : w.mode.isGated = false) : (w.move .work).phase = .advancing w.mode := by
  rw [h.sound.approach hp hc, hm]
  rfl

/-- A parked worker with a permit leaves under the mode there is then. -/
theorem Reachable.leaves (h : Reachable w) (hp : w.phase = .parked) (hg : w.gate.permit = true) :
    (w.move .work).phase = .advancing w.mode := by
  have hr : w.proceed? = w.look? := by rw [proceed?, hp]
  rw [look?, Gate.look, if_pos hg] at hr
  rw [move_work (h.sound.nothing_due (by simp [hp]) (by simp [hp])) hr]
  rfl

theorem Sound.atRest_of_parked (h : Sound w) (hp : w.phase = .parked) (hg : w.gate.permit = false)
    (hc : w.cancelled = false) : w.AtRest := by
  rw [h.atRest_iff (by simp [hp]) (by simp [hp]), proceed?, hp]
  simp [look?, Gate.look, hg, hc]

/-! ## Staying at the gate -/

theorem startEngine_gate (script : Engine.Script) :
    (w.startEngine script).2.gate = w.gate ∧ (w.startEngine script).2.cancelled = w.cancelled := by
  unfold startEngine
  split
  · exact ⟨rfl, rfl⟩
  · dsimp only
    split
    · exact ⟨apply_gate _ _, apply_cancelled _ _⟩
    · exact ⟨rfl, rfl⟩
    · exact ⟨rfl, rfl⟩

theorem query_gate (c : Engine.Call) :
    (w.query c).2.gate = w.gate ∧ (w.query c).2.cancelled = w.cancelled := by
  unfold query
  split <;> exact ⟨rfl, rfl⟩

theorem launchOn_gate (l : Launch) :
    (w.launchOn l).2.gate = w.gate ∧ (w.launchOn l).2.cancelled = w.cancelled := by
  have h := launchOn_launching w l
  generalize w.launchOn l = r at h ⊢
  cases h <;> exact ⟨rfl, rfl⟩

/-- Only a resume and a stop concern the gate. -/
theorem call_gate {c : Call A.Id} (hr : c ≠ .resume) (hs : c ≠ .stop) :
    (w.call c).2.gate = w.gate ∧ (w.call c).2.cancelled = w.cancelled := by
  cases c with
  | resume => exact absurd rfl hr
  | stop => exact absurd rfl hs
  | startEngine script => exact startEngine_gate script
  | execute => exact launchOn_gate .spawned
  | runBlocking thread => exact launchOn_gate (.borrowed thread)
  | facts => exact query_gate .facts
  | agenda => exact query_gate .agenda
  | setModeTag tag =>
    rw [call, setModeTag]
    split <;> exact ⟨rfl, rfl⟩
  | _ => exact ⟨rfl, rfl⟩

theorem move_gate {m : Move A.Id} (hw : w.AtRest) (hr : m ≠ .call .resume) (hs : m ≠ .call .stop) :
    (w.move m).gate = w.gate ∧ (w.move m).cancelled = w.cancelled := by
  rcases m with _ | (c | _ | k | k)
  case work => rw [move, show w.step = none from hw]; exact ⟨rfl, rfl⟩
  case access.call => exact call_gate (fun h => hr (h ▸ rfl)) (fun h => hs (h ▸ rfl))
  case access.subscribeChannel =>
    rw [move, access, subscribeChannel]
    split <;> exact ⟨rfl, rfl⟩
  case access.receive =>
    rw [move, access, receive]
    split <;> exact ⟨rfl, rfl⟩
  case access.dropReceiver => exact ⟨rfl, rfl⟩

/-- **A parked worker stays** under any moves but a resume or a stop. -/
theorem Reachable.stays_parked (h : Reachable w) (hp : w.phase = .parked)
    (hg : w.gate.permit = false) (hc : w.cancelled = false) {ms : List (Move A.Id)}
    (hms : ∀ m ∈ ms, m ≠ .call .resume ∧ m ≠ .call .stop) :
    (w.moves ms).phase = .parked ∧ (w.moves ms).AtRest ∧ (w.moves ms).acts = w.acts := by
  have hrest := h.sound.atRest_of_parked hp hg hc
  induction ms generalizing w with
  | nil => exact ⟨hp, hrest, rfl⟩
  | cons m ms ih =>
    obtain ⟨⟨hr, hs⟩, hms⟩ := List.forall_mem_cons.mp hms
    have hl : w.launch ≠ none := by rw [ne_eq, h.sound.launched, hp]; simp
    obtain ⟨hphase, hacts⟩ := move_cases (P := fun v => v.phase = w.phase ∧ v.acts = w.acts) w
      (fun v hv => ⟨(hv.of_launched hl).1, (hv.of_launched hl).2.2.1⟩)
      (fun v hv => by rw [show w.step = none from hrest] at hv; cases hv) m
    obtain ⟨hgate, hcan⟩ := move_gate hrest hr hs
    have h' := h.move m
    have hp' := hphase.trans hp
    have hg' : (w.move m).gate.permit = false := by rw [hgate, hg]
    have hc' := hcan.trans hc
    rw [moves_cons, ← hacts]
    exact ih h' hp' hg' hc' hms (h'.sound.atRest_of_parked hp' hg' hc')

/-! ## During a turn -/

/-- **A turn past the gate is run the same way** whatever the mode is by then. -/
theorem advancing_blind {n : Mode} (hp : w.phase = .advancing n) (ho : w.outbox = [])
    (hv : v = { w with mode := v.mode, journal := v.journal }) (ha : v.acts = w.acts) :
    v.move .work =
        { w.move .work with mode := (v.move .work).mode, journal := (v.move .work).journal } ∧
      (v.move .work).acts = (w.move .work).acts := by
  -- both come from the same controller without a journal
  let u : Controller A := { w with journal := [] }
  have hwork : w.move .work = (u.move .work).onto w.journal := move_onto w.journal u .work
  have hvork : v.move .work = ((u.move .work).onto v.journal).under v.mode :=
    calc v.move .work
      _ = ((u.onto v.journal).under v.mode).move .work := congrArg (fun x => move x .work) hv
      _ = ((u.onto v.journal).move .work).under v.mode := move_under (w := u.onto v.journal) hp ho _
      _ = ((u.move .work).onto v.journal).under v.mode := by rw [move_onto]
  have hacts (j : List (Entry A.Id)) : ((u.move .work).onto j).acts =
      readOff Entry.act? j ++ (u.move .work).acts := readOff_append _ _ _
  refine ⟨by rw [hvork, hwork]; rfl, ?_⟩
  rw [hwork, hacts, hvork]
  exact (hacts v.journal).trans (by rw [show readOff Entry.act? v.journal = _ from ha]; rfl)

/-- So it does not matter how often the mode is set before the turn is run. -/
theorem advancing_modes {n : Mode} (hp : w.phase = .advancing n) (ho : w.outbox = []) (ns : List Mode) :
    ∃ m j, ((w.moves (ns.map fun m => .call (.setMode m))).move .work) =
        { w.move .work with mode := m, journal := j } ∧
      ((w.moves (ns.map fun m => .call (.setMode m))).move .work).acts = (w.move .work).acts := by
  have hset (ns : List Mode) (w : Controller A) :
      w.moves (ns.map fun m => .call (.setMode m)) =
        { w with
          mode := (w.moves (ns.map fun m => .call (.setMode m))).mode
          journal := (w.moves (ns.map fun m => .call (.setMode m))).journal } ∧
      (w.moves (ns.map fun m => .call (.setMode m))).acts = w.acts := by
    induction ns generalizing w with
    | nil => exact ⟨rfl, rfl⟩
    | cons m ns ih =>
      obtain ⟨h₁, h₂⟩ := ih (w.move (.call (.setMode m)))
      exact ⟨h₁, h₂.trans (by simp [call, setMode, acts, note, Entry.act?])⟩
  obtain ⟨hv, ha⟩ := hset ns w
  obtain ⟨h₁, h₂⟩ := advancing_blind hp ho hv ha
  exact ⟨_, _, h₁, h₂⟩

/-! ## One advance for each turn -/

/-- The modes in force when turns left the gate, in a history that began under a mode. -/
def departures : Mode → List (Entry A.Id) → List Mode
  | _, [] => []
  | m, .passed _ :: es => m :: departures m es
  | m, e :: es => departures (inForce m [e]) es

theorem departures_eq {m : Mode} {es : List (Entry A.Id)}
    (h : ∀ before n after, es = before ++ .passed n :: after → n = inForce m before) :
    departures m es = passages (es.filterMap Entry.act?) := by
  induction es generalizing m with
  | nil => rfl
  | cons e es ih =>
    have hes := ih (m := inForce m [e]) fun before n after heq =>
      (h (e :: before) n after (by rw [heq]; rfl)).trans (by rw [← inForce_append]; rfl)
    cases e with
    | passed n =>
      have hn : n = m := h [] n es rfl
      subst hn
      exact congrArg (n :: ·) hes
    | hasDone r => cases r <;> exact hes
    | _ => exact hes

/-! ## Resuming -/

/-- A resume is granted iff the worker is parked and was not resumed yet. -/
theorem Sound.resume_iff (h : Sound w) :
    w.resume.1 = true ↔ w.phase = .parked ∧ w.gate.permit = false := by
  rw [resume_eq, ← h.parked]
  split <;> rename_i hg <;> simp [hg]

/-- Where the worker rests, that is iff it is parked. -/
theorem Sound.resume_iff_of_atRest (h : Sound w) (hr : w.AtRest) :
    w.resume.1 = true ↔ w.isSuspended = true := by
  rw [h.resume_iff, isSuspended, h.parked]
  refine ⟨And.left, fun hp => ⟨hp, ?_⟩⟩
  by_contra hg
  rw [Bool.not_eq_false] at hg
  rw [h.atRest_iff (by simp [hp]) (by simp [hp]), proceed?, hp] at hr
  simp [look?, Gate.look, hg] at hr

/-- **A resume that is refused changes nothing:** whatever is done after it leads to where it would have led
without it, but for the note that the journal keeps of it. -/
theorem resume_refused (h : w.resume.1 = false) :
    w.resume.2 = w.note (.resume false) ∧
      ∀ ms, ∃ news, (w.moves ms).journal = news ++ w.journal ∧
        w.resume.2.moves ms = { w.moves ms with journal := news ++ .resume false :: w.journal } := by
  have hw : w.resume.2 = w.note (.resume false) := by
    rw [resume_eq] at h ⊢
    split at h
    · cases h
    · rename_i hg; rw [if_neg hg]
  exact ⟨hw, fun ms => hw ▸ moves_note w (.resume false) ms⟩

/-! ## The cadence -/

theorem isGated_iff (m : Mode) : m.isGated = true ↔ m = .runOne ∨ m = .step := by
  cases m <;> decide

theorem advanceOf_eq : advanceOf = fun m => if m = .runOne then .step else .run := by
  funext m
  cases m <;> rfl

/-- The cadence of a run, under any history of modes. -/
structure KeepsPace (w : Controller A) : Prop where
  /-- A turn that the gate has decided on was parked iff the mode then in force asks for it, -/
  parks : ∀ before approach e after,
    w.history = before ++ .hasDone (.ok false) :: (approach ++ e :: after) → (∀ x ∈ approach, ¬ x.Decides) →
    (e = .event .gateParked true ∨ ∃ m, e = .passed m) →
    (e = .event .gateParked true ↔
      inForce w.config.initialMode (before ++ .hasDone (.ok false) :: approach) ∈ [.runOne, .step])
  /-- and the gate does decide: the worker is parked -/
  gated : w.phase = .approaching → w.cancelled = false → w.mode ∈ [.runOne, .step] →
    ((w.move .work).move .work).phase = .parked
  /-- or goes on at once. -/
  free : w.phase = .approaching → w.cancelled = false → w.mode = .run →
    (w.move .work).phase = .advancing .run
  /-- A parked worker stays, whatever is done but resuming and stopping it, -/
  stays : w.phase = .parked → w.gate.permit = false → w.cancelled = false →
    ∀ ms : List (Move A.Id), (∀ m ∈ ms, m ≠ .call .resume ∧ m ≠ .call .stop) →
      (w.moves ms).phase = .parked ∧ (w.moves ms).AtRest ∧ (w.moves ms).acts = w.acts
  /-- no turn that has parked goes on without a granted resume, -/
  released : ∀ before stay m after,
    w.history = before ++ .event .gateParked true :: (stay ++ .passed m :: after) →
    .hasDone (.ok false) ∉ stay → .resume true ∈ stay
  /-- and with one it goes on under the mode there is when it leaves. -/
  leaves : w.phase = .parked → w.gate.permit = true → (w.move .work).phase = .advancing w.mode
  /-- The engine is advanced once for each turn that has left the gate, but for one that has not begun, and by
  the mode in force when it left. -/
  advances : (departures w.config.initialMode w.history).map (fun m => if m = .runOne then .step else .run) =
    advances w.acts ++ w.pending.map fun m => if m = .runOne then .step else .run
  /-- Modes that are set after that do not change the turn. -/
  blind : ∀ n, w.phase = .advancing n → ∀ ns : List Mode, ∃ m j,
    ((w.moves (ns.map fun m => .call (.setMode m))).move .work) =
        { w.move .work with mode := m, journal := j } ∧
      ((w.moves (ns.map fun m => .call (.setMode m))).move .work).acts = (w.move .work).acts
  /-- A resume is granted iff the worker is parked and has not been resumed yet: being parked, in this sense, ends with
  the resume that is granted.  The gate itself shows the worker as suspended until that has woken up and left, -/
  resumes : w.resume.1 = true ↔ w.phase = .parked ∧ w.gate.permit = false
  /-- so where the worker rests a resume is granted iff it is suspended. -/
  resumesAtRest : w.AtRest → (w.resume.1 = true ↔ w.isSuspended = true)
  /-- A resume that is refused changes nothing of what follows, but for its note in the journal. -/
  refused : w.resume.1 = false → w.resume.2 = w.note (.resume false) ∧
    ∀ ms, ∃ news, (w.moves ms).journal = news ++ w.journal ∧
      w.resume.2.moves ms = { w.moves ms with journal := news ++ .resume false :: w.journal }

/-- **Every run keeps its cadence**, under any history of modes. -/
theorem Reachable.keepsPace (h : Reachable w) : KeepsPace w where
  parks before approach e after hw undecided he := by
    rw [h.followed.parks_iff hw undecided he, isGated_iff]
    simp
  gated hp hc hm := h.parks hp hc ((isGated_iff _).mpr (by simpa using hm))
  free hp hc hm := by
    have := h.passes hp hc (by rw [hm]; rfl)
    rwa [hm] at this
  stays hp hg hc ms hms := h.stays_parked hp hg hc hms
  released before stay m after hw same := h.followed.released hw same
  leaves hp hg := h.leaves hp hg
  advances := by
    rw [departures_eq fun before n after heq => h.followed.passed heq, ← advanceOf_eq]
    exact h.sound.advances_eq
  blind n hp ns := advancing_modes hp (h.sound.nothing_due (by simp [hp]) (by simp [hp])).1 ns
  resumes := h.sound.resume_iff
  resumesAtRest hr := h.sound.resume_iff_of_atRest hr
  refused hr := resume_refused hr

/-- A turn that is parked, gets another mode, is resumed, and is advanced by that mode. -/
theorem keepsPace_of_stepped_run :
    advances ((Bench.trial .step 3 []).moves (Bench.launched 6 ++
        [.call (.setMode .runOne), .call .resume] ++ List.replicate 7 .work)).acts = [.step] ∧
      KeepsPace ((Bench.trial .step 3 []).moves (Bench.launched 6 ++
        [.call (.setMode .runOne), .call .resume] ++ List.replicate 7 .work)) :=
  ⟨by decide, Reachable.keepsPace (Reachable.moves (.create _ _ _ _) _)⟩

end Cadence.Controller
