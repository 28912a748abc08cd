import Cadence.Proofs.Stride

/-!
# Cadence.Proofs.Course — the invariant of a run

`Sound` ties the program point of the worker to everything else: the lifecycle state, the gate, the launch,
the engine, the turns begun and the acts so far.  It holds of every reachable controller, so the worker
follows the turn protocol, every event it reports is accepted, and it never lacks an engine.

* `Stands`: the state and the acts by the phase.
* `Going.enter`, `Going.fail`: the two ways a phase can end, with what each needs.
* `Sound.stride`, `Reachable.sound`: no step of the worker breaks the invariant, so no run does.
* `Sound.run`: the acts of a controller are a run of the turn protocol.
-/

namespace Cadence.Controller

variable {A : Assembly} {w v : Controller A}

/-- The state between two turns that need no release. -/
def betweenTurns (turns : Nat) : State := if turns = 0 then .setupDone else .runningTurn

def endState : Option Failure → State
  | none => .disposed
  | some f => .failed (failureText f.message)

/-- How state and acts go with the worker's phase. -/
def Stands (w : Controller A) : Prop :=
  match w.phase with
  | .idle => Spot.Run .reset w.acts .reset ∧ w.state = if w.engine.isSome then .started else .new
  | .starting => Spot.Run .reset w.acts .reset ∧ w.state = .started
  | .checking => Spot.Run .reset w.acts .ask ∧ w.state = betweenTurns w.turns
  | .approaching => Spot.Run .reset w.acts .gate ∧ w.state = betweenTurns w.turns
  | .arriving => Spot.Run .reset w.acts .gate ∧ w.state = betweenTurns w.turns
  | .parked => Spot.Run .reset w.acts .gate ∧ w.state = .suspended
  | .advancing m =>
    Spot.Run .reset w.acts (.advance m) ∧ (w.state = betweenTurns w.turns ∨ w.state = .suspended)
  | .disposing => Spot.Run .reset w.acts .dispose ∧ w.state = betweenTurns w.turns
  | .finished =>
    ∃ f, Spot.Run .reset w.acts (.finished f) ∧ w.state = endState f ∧ f ≠ some .engineMissing ∧
      (f = some .cancelled → w.cancelled = true)

/-- **The invariant of a run.** -/
structure Sound (w : Controller A) : Prop where
  stands : Stands w
  launched : w.launch = none ↔ w.phase = .idle
  engine : w.phase ≠ .idle → w.engine.isSome
  parked : w.gate.parked = true ↔ w.phase = .parked
  permit : w.gate.permit = true → w.gate.parked = true
  /-- Something is due only after a turn or at the end. -/
  due : w.outbox ≠ [] ∨ w.isHeldUp = true → w.phase = .checking ∨ w.phase = .finished
  turns : w.turns = (advances w.acts).length
  accepted : ∀ e, .event e false ∉ w.journal

/-! ## Accepted events -/

theorem next_gateParked (n : Nat) : (betweenTurns n).next .gateParked = .ok ⟨.suspended, none⟩ := by
  unfold betweenTurns; split <;> rfl

theorem next_turnStarted {s : State} {n : Nat} (h : s = betweenTurns n ∨ s = .suspended) :
    s.next .turnStarted = .ok ⟨.runningTurn, none⟩ := by
  rcases h with rfl | rfl
  · unfold betweenTurns; split <;> rfl
  · rfl

theorem next_disposed (n : Nat) :
    (betweenTurns n).next .disposed = .ok ⟨.disposed, some .disposeDone⟩ := by
  unfold betweenTurns; split <;> rfl

theorem next_faulted {s : State} (h : s.isTerminal = false) (f : Failure) :
    s.next (.faulted f.message) = .ok ⟨endState (some f), some (report f)⟩ := by
  cases s <;> first | rfl | cases h

theorem betweenTurns_isTerminal (n : Nat) : (betweenTurns n).isTerminal = false := by
  unfold betweenTurns; split <;> rfl

theorem betweenTurns_succ (n : Nat) : betweenTurns (n + 1) = .runningTurn := rfl

/-! ## Effects and deliveries -/

theorem Sound.create (config : Config) (source : A.Source) (domain : A.Dom) (crowd : A.Crowd) :
    Sound (Controller.create (A := A) config source domain crowd) where
  stands := ⟨.nil _, rfl⟩
  launched := by simp [Controller.create]
  engine h := absurd rfl h
  parked := by simp [Controller.create]
  permit h := by cases h
  due h := by simp [Controller.create, isHeldUp] at h
  turns := rfl
  accepted e := List.not_mem_nil

/-- What does not touch the run keeps the invariant, whatever is noted of it. -/
theorem Sound.of_frame (h : Sound w) (news : List (Entry A.Id)) (journal : v.journal = news ++ w.journal)
    (silent : ∀ e ∈ news, e.act? = none ∧ ∀ x, e ≠ .event x false) (phase : v.phase = w.phase)
    (state : v.state = w.state) (launch : v.launch = w.launch)
    (engine : v.engine.isSome = w.engine.isSome) (gate : v.gate = w.gate) (turns : v.turns = w.turns)
    (cancelled : w.cancelled = true → v.cancelled = true)
    (due : v.outbox ≠ [] ∨ v.isHeldUp = true → w.outbox ≠ [] ∨ w.isHeldUp = true) : Sound v := by
  have hacts : v.acts = w.acts := by
    rw [acts, journal, readOff_append, readOff_eq_nil _ fun e he => (silent e he).1, List.append_nil, acts]
  exact
    { stands := by
        have hs := h.stands
        unfold Stands at hs ⊢
        rw [phase, state, hacts, engine, turns]
        cases hp : w.phase <;> rw [hp] at hs
        case finished =>
          obtain ⟨f, hr, hf, hn, hc⟩ := hs
          exact ⟨f, hr, hf, hn, fun hf => cancelled (hc hf)⟩
        all_goals exact hs
      launched := by rw [launch, phase]; exact h.launched
      engine := by rw [phase, engine]; exact h.engine
      parked := by rw [gate, phase]; exact h.parked
      permit := by rw [gate]; exact h.permit
      due := fun hd => by rw [phase]; exact h.due (due hd)
      turns := by rw [turns, hacts]; exact h.turns
      accepted := fun x hx => by
        rw [journal] at hx
        exact (List.mem_append.mp hx).elim (fun hx => (silent _ hx).2 x rfl) (h.accepted x) }

theorem Sound.phase_of_launch (h : Sound w) (hl : w.launch = none) : w.phase = .idle :=
  h.launched.mp hl

theorem Sound.idle_stands (h : Sound w) (hp : w.phase = .idle) :
    Spot.Run .reset w.acts .reset ∧ w.state = if w.engine.isSome then .started else .new := by
  have hs := h.stands
  rwa [Stands, hp] at hs

theorem Sound.effect (h : Sound w) (he : Effect w v) : Sound v := by
  cases he with
  | nothing => exact h
  | load script source g hl =>
    have hp := h.phase_of_launch hl
    obtain ⟨hr, hs⟩ := h.idle_stands hp
    have hnext : w.state.next .engineLoaded = .ok ⟨.started, none⟩ := by
      rw [hs]; split <;> rfl
    have happly := apply_of_silent (w := ({ w with source := source, engine := some g }.note
      (.load script true))) hnext
    rw [happly]
    refine ⟨?_, by simp [note, h.launched], fun hne => rfl, h.parked, h.permit, h.due, ?_, ?_⟩
    · rw [Stands]
      simpa [note, hp, acts, Entry.act?] using hr
    · simpa [note, acts, Entry.act?] using h.turns
    · simpa [note] using h.accepted
  | loadFails script source hl =>
    exact h.of_frame [.load script false] rfl (by simp [Entry.act?]) rfl rfl rfl rfl rfl rfl id id
  | launch l hl he =>
    have hp := h.phase_of_launch hl
    obtain ⟨hr, hs⟩ := h.idle_stands hp
    refine ⟨?_, by simp [note], fun hne => he, ?_, h.permit, ?_, ?_, ?_⟩
    · rw [Stands]
      simpa [note, acts, Entry.act?, hs, he] using hr
    · simpa [note, hp] using h.parked
    · intro hd
      have := h.due hd
      simp [hp] at this
    · simpa [note, acts, Entry.act?] using h.turns
    · simpa [note] using h.accepted
  | noThread => exact h.of_frame [] rfl (by simp) rfl rfl rfl rfl rfl rfl id id
  | query r g he =>
    exact h.of_frame [.query r] rfl (by simp [Entry.act?]) rfl rfl rfl he.symm rfl rfl id id
  | release hg hp =>
    have hs := h.of_frame (v := w.note (.resume true)) [.resume true] rfl (by simp [Entry.act?])
      rfl rfl rfl rfl rfl rfl id id
    exact { hs with
      parked := by simpa [note, hg] using h.parked
      permit := fun _ => rfl }
  | releaseNobody _ =>
    exact h.of_frame [.resume false] rfl (by simp [Entry.act?]) rfl rfl rfl rfl rfl rfl id id
  | stop =>
    exact h.of_frame [.stop] rfl (by simp [Entry.act?]) rfl rfl rfl rfl rfl rfl (fun _ => rfl) id
  | setMode m =>
    exact h.of_frame [.setMode m] rfl (by simp [Entry.act?]) rfl rfl rfl rfl rfl rfl id id
  | subscribers r chs hheld =>
    exact h.of_frame [] rfl (by simp) rfl rfl rfl rfl rfl rfl id (Or.imp_right hheld)

theorem Sound.told (h : Sound w) (ht : Told w v) : Sound v := by
  cases ht with
  | @observer i n rest due crowd panic =>
    exact h.of_frame [.told (.observer i) n panic] rfl (by simp [Entry.act?]) rfl rfl rfl rfl rfl
      rfl id fun _ => .inl (by simp [due])
  | @channel k n rest due =>
    exact h.of_frame [.told (.channel k) n none] rfl (by simp [Entry.act?]) rfl rfl rfl rfl rfl
      rfl id fun _ => .inl (by simp [due])

/-! ## Steps of the worker -/

theorem Sound.gate_eq (h : Sound w) (hp : w.phase ≠ .parked) : w.gate = ⟨false, false⟩ := by
  have hg : w.gate.parked = false := by simpa [hp] using h.parked
  have hm : w.gate.permit = false := by
    by_contra hm
    rw [h.permit (by simpa using hm)] at hg
    cases hg
  rcases hw : w.gate with ⟨p, m⟩
  rw [hw] at hg hm
  simpa using And.intro hg hm

/-- A run on its way: launched, with an engine, and away from the gate. -/
structure Going (w : Controller A) : Prop where
  launched : w.launch ≠ none
  engine : w.engine.isSome
  gate : w.gate = ⟨false, false⟩
  free : w.isHeldUp = false
  accepted : ∀ e, .event e false ∉ w.journal

theorem Sound.going (h : Sound w) (hh : w.isHeldUp = false)
    (hi : w.phase ≠ .idle) (hp : w.phase ≠ .parked) : Going w where
  launched := by rw [ne_eq, h.launched]; exact hi
  engine := h.engine hi
  gate := h.gate_eq hp
  free := hh
  accepted := h.accepted

/-- A worker that leaves the gate is on its way. -/
theorem Sound.going_off (h : Sound w) (hh : w.isHeldUp = false)
    (hp : w.phase = .parked) : Going { w with gate := ⟨false, false⟩ } where
  launched := by rw [ne_eq, h.launched, hp]; simp
  engine := h.engine (by simp [hp])
  gate := rfl
  free := hh
  accepted := h.accepted

theorem Going.since {as : List Act} (h : Going w) (hv : Since w as v) : Going v where
  launched := by cases hv; exact h.launched
  engine := hv.engine
  gate := by cases hv; exact h.gate
  free := by cases hv; exact h.free
  accepted := hv.accepted h.accepted

theorem Going.apply (h : Going w) {x : Event} {t : Transition}
    (hx : w.state.next x = .ok t) : Going (w.apply x) where
  launched := by simpa using h.launched
  engine := by simpa using h.engine
  gate := by simpa using h.gate
  free := by simpa [isHeldUp] using h.free
  accepted := by
    obtain ⟨s, _ | n⟩ := t
    · simpa [apply_of_silent hx] using h.accepted
    · simpa [apply_of_notice hx] using h.accepted

theorem Going.note (h : Going w) {e : Entry A.Id} (he : ∀ x, e ≠ .event x false) :
    Going (w.note e) where
  launched := h.launched
  engine := h.engine
  gate := h.gate
  free := h.free
  accepted x := by
    rw [Controller.note, List.mem_cons, not_or]
    exact ⟨(he x).symm, h.accepted x⟩

/-- A run that is on its way soundly enters a phase away from the gate, once that is where it stands. -/
theorem Going.enter (h : Going w) {p : Phase} (hs : Stands (w.enter p))
    (hi : p ≠ .idle) (hp : p ≠ .parked) (ho : w.outbox ≠ [] → p = .checking ∨ p = .finished)
    (ht : w.turns = (advances w.acts).length) : Sound (w.enter p) where
  stands := hs
  launched := by simpa [Controller.enter, hi] using h.launched
  engine _ := h.engine
  parked := by simp [Controller.enter, h.gate, hp]
  permit := by simp [Controller.enter, h.gate]
  due hd := hd.elim ho fun hd => absurd hd (by rw [Bool.not_eq_true]; exact h.free)
  turns := ht
  accepted := h.accepted

/-- A failure is reported, and ends the run. -/
theorem fail_acts (ht : w.state.isTerminal = false) (f : Failure) : (w.fail f).acts = w.acts ++ ending f := by
  have hacts : (w.fail f).acts = ((w.apply (.faulted f.message)).note (.ended (some f))).acts := rfl
  rw [hacts, acts_note, acts_of_notice (next_faulted ht f)]
  simp [ending, Entry.act?]

/-- A failure ends a run soundly, where the protocol has it reported. -/
theorem Going.fail (h : Going w) {s : Spot} {f : Failure}
    (hr : Spot.Run .reset w.acts s) (hs : s.Next (.emitted (report f)) (.abandon f))
    (ht : w.state.isTerminal = false) (hm : f ≠ .engineMissing)
    (hc : f = .cancelled → w.cancelled = true) (hn : w.turns = (advances w.acts).length) :
    Sound (w.fail f) := by
  have hx := next_faulted ht f
  have hgo := (h.apply hx).note (e := .ended (some f)) (by simp)
  have hacts : ((w.apply (.faulted f.message)).note (.ended (some f))).acts = w.acts ++ ending f := fail_acts ht f
  refine hgo.enter ?_ (by simp) (by simp) (fun _ => .inr rfl) ?_
  · refine ⟨some f, ?_, ?_, by simpa using hm, fun hf => ?_⟩
    · exact hacts ▸ hr.append (.cons hs (Spot.Next.abandon f).run)
    · simp [Controller.enter, Controller.note, State.after, hx]
    · simpa [Controller.enter, Controller.note] using hc (by simpa using hf)
  · rw [hacts]
    simpa [Controller.note, advances, ending] using hn

/-- A call that the worker makes ends the run soundly if it fails. -/
theorem Going.fail_since (h : Going w) {as : List Act} (hv : Since w as v)
    {s : Spot} {f : Failure} (hr : Spot.Run .reset w.acts s) (hs : Spot.Run s as (.report f))
    (hf : ∃ a ∈ as, a.failure? = some f) (ht : w.state.isTerminal = false)
    (hn : w.turns = (advances (w.acts ++ as)).length) : Sound (v.fail f) := by
  obtain ⟨a, ha, hf⟩ := hf
  have hfail := hv.failure ha hf
  obtain ⟨hstate, hturns, -, -⟩ := hv.frame
  refine (h.since hv).fail (hv.acts_eq ▸ hr.append hs) (.report f) ?_ hfail.1 (absurd · hfail.2) ?_
  · rw [hstate]; exact ht
  · rw [hv.acts_eq, hturns]; exact hn

/-- A turn begins by being reported; its number goes up before the engine advances. -/
theorem beginTurn_eq {n : Nat} (h : w.state = betweenTurns n ∨ w.state = .suspended) :
    w.beginTurn = { w with
      state := .runningTurn
      turns := w.turns + 1
      journal := .event .turnStarted true :: w.journal } := by
  rw [beginTurn, apply_of_silent (next_turnStarted h)]

theorem Going.beginTurn (h : Going w) {n : Nat}
    (hw : w.state = betweenTurns n ∨ w.state = .suspended) :
    Going w.beginTurn ∧ w.beginTurn.acts = w.acts ∧ w.beginTurn.state = .runningTurn := by
  rw [beginTurn_eq hw]
  exact ⟨⟨h.launched, h.engine, h.gate, h.free, by simpa using h.accepted⟩,
    by simp [acts, Entry.act?], rfl⟩

theorem Sound.starting (h : Sound w) (hh : w.isHeldUp = false)
    (hp : w.phase = .starting) (hv : Since w [.engine .reset none, .hook .setup none] v) :
    Sound ((v.apply .setupCompleted).enter .checking) := by
  have hst := h.stands
  rw [Stands, hp] at hst
  obtain ⟨hs, ht, -, -⟩ := hv.frame
  have hx : v.state.next .setupCompleted = .ok ⟨.setupDone, some .setupDone⟩ := by
    rw [hs, hst.2]; rfl
  have hacts := acts_of_notice hx
  rw [hv.acts_eq] at hacts
  have hn : w.turns = 0 := by
    rw [h.turns, show w.acts = [] from run_reads hst.1]; rfl
  refine (((h.going hh (by simp [hp]) (by simp [hp])).since hv).apply hx).enter ⟨?_, ?_⟩ (by simp)
    (by simp) (fun _ => .inl rfl) ?_
  · exact hacts ▸ (hst.1.append (.cons .reset (Spot.Next.setUp).run)).append Spot.Next.tellSetUp.run
  · simp [Controller.enter, State.after, hx, ht, hn, betweenTurns]
  · rw [hacts, apply_turns, ht, h.turns]; simp [advances]

theorem Sound.turn (h : Sound w) (hh : w.isHeldUp = false)
    {m : Mode} (hp : w.phase = .advancing m)
    (hv : Since w.beginTurn [.engine (advanceOf m) none, .hook .action none] v) :
    Sound ((v.apply .turnCompleted).enter .checking) := by
  have hst := h.stands
  rw [Stands, hp] at hst
  obtain ⟨hgo, hacts', hstate⟩ := (h.going hh (by simp [hp]) (by simp [hp])).beginTurn hst.2
  obtain ⟨hs, ht, -, -⟩ := hv.frame
  have hx : v.state.next .turnCompleted = .ok ⟨.runningTurn, some .actionDone⟩ := by
    rw [hs, hstate]; rfl
  have hacts := acts_of_notice hx
  rw [hv.acts_eq, hacts'] at hacts
  have hn : v.turns = w.turns + 1 := by rw [ht, beginTurn_eq hst.2]
  refine ((hgo.since hv).apply hx).enter ⟨?_, ?_⟩ (by simp) (by simp) (fun _ => .inl rfl) ?_
  · exact hacts ▸ (hst.1.append (.cons (.advance m) (Spot.Next.action).run)).append
      Spot.Next.tellAction.run
  · simp [Controller.enter, State.after, hx, hn, betweenTurns_succ]
  · rw [hacts, apply_turns, hn, h.turns]; simp [advances, advanceOf_ne_reset]

theorem Sound.finish (h : Sound w) (hh : w.isHeldUp = false)
    (hp : w.phase = .disposing) (hv : Since w [.hook .dispose none] v) :
    Sound (((v.apply .disposed).note (.ended none)).enter .finished) := by
  have hst := h.stands
  rw [Stands, hp] at hst
  obtain ⟨hs, ht, -, -⟩ := hv.frame
  have hx : v.state.next .disposed = .ok ⟨.disposed, some .disposeDone⟩ := by
    rw [hs, hst.2]; exact next_disposed _
  have hacts : ((v.apply .disposed).note (.ended none)).acts =
      w.acts ++ [Act.hook .dispose none] ++ [Act.emitted .disposeDone] ++ [Act.ended none] := by
    rw [acts_note, acts_of_notice hx, hv.acts_eq]; rfl
  have hgo := (h.going hh (by simp [hp]) (by simp [hp])).since hv
  refine ((hgo.apply hx).note (by simp)).enter ⟨none, ?_, ?_, by simp, by simp⟩ (by simp) (by simp)
    (fun _ => .inr rfl) ?_
  · exact hacts ▸ ((hst.1.append Spot.Next.dispose.run).append Spot.Next.tellDispose.run).append
      Spot.Next.close.run
  · simp [Controller.enter, Controller.note, State.after, hx, endState]
  · rw [hacts]; simpa [Controller.note, ht, advances] using h.turns

theorem Sound.park (h : Sound w) (ho : w.outbox = []) (hh : w.isHeldUp = false)
    (hp : w.phase = .arriving) :
    Sound (({ w with gate := ⟨true, false⟩ }.apply .gateParked).enter .parked) := by
  have hst := h.stands
  rw [Stands, hp] at hst
  have hl := h.launched
  rw [hp] at hl
  have hx : w.state.next .gateParked = .ok ⟨.suspended, none⟩ := hst.2 ▸ next_gateParked _
  rw [apply_of_silent (w := { w with gate := ⟨true, false⟩ }) hx]
  exact
    { stands := ⟨by simpa [acts, Controller.enter, Entry.act?] using hst.1, rfl⟩
      launched := by simpa [Controller.enter] using hl
      engine := fun _ => h.engine (by simp [hp])
      parked := by simp [Controller.enter]
      permit := by simp [Controller.enter]
      due := by
        rintro (hne | hheld)
        · exact absurd ho hne
        · rw [← Bool.not_eq_true] at hh
          exact absurd hheld hh
      turns := by simpa [Controller.enter, acts, Entry.act?] using h.turns
      accepted := by simpa [Controller.enter] using h.accepted }

theorem Sound.stride (h : Sound w) (ho : w.outbox = []) (hh : w.isHeldUp = false)
    (hs : Stride w v) : Sound v := by
  have hst := h.stands
  have hgo := h.going hh
  have hn := h.turns
  -- one case for each end of a phase; `hst` then says where acts and state were when it began
  cases hs with
  | noEngine he phase =>
    have := h.engine (by rcases phase with hp | hp <;> simp [hp])
    simp [he] at this
  | noEngineInTurn he phase =>
    have := h.engine (by simp [phase])
    simp [he] at this
  | resetFails hp hv =>
    rw [Stands, hp] at hst
    exact (hgo (by simp [hp]) (by simp [hp])).fail_since hv hst.1 (Spot.Next.resetFails _).run
      ⟨_, List.mem_singleton_self _, rfl⟩ (by rw [hst.2]; rfl) (by simpa [advances] using hn)
  | setUpFails hp hv =>
    rw [Stands, hp] at hst
    exact (hgo (by simp [hp]) (by simp [hp])).fail_since hv hst.1
      (.cons .reset (Spot.Next.setUpFails _).run)
      ⟨_, List.mem_cons_of_mem _ (List.mem_singleton_self _), rfl⟩ (by rw [hst.2]; rfl)
      (by simpa [advances] using hn)
  | setUp hp hv => exact h.starting hh hp hv
  | @askFails hp p hd =>
    rw [Stands, hp] at hst
    refine ((hgo (by simp [hp]) (by simp [hp])).note (by simp)).fail
      (acts_note w _ ▸ hst.1.append (Spot.Next.askFails p).run) (.report _) ?_ (by simp) (by simp) ?_
    · rw [note, hst.2]; exact betweenTurns_isTerminal _
    · rw [acts_note, advances_append, List.length_append]; exact hn
  | goOn hp hd =>
    rw [Stands, hp] at hst
    refine ((hgo (by simp [hp]) (by simp [hp])).note (by simp)).enter ⟨?_, hst.2⟩ (by simp) (by simp)
      (absurd ho) ?_
    · exact acts_note w _ ▸ hst.1.append Spot.Next.goOn.run
    · rw [acts_note, advances_append, List.length_append]; exact hn
  | isDone hp hd =>
    rw [Stands, hp] at hst
    refine ((hgo (by simp [hp]) (by simp [hp])).note (by simp)).enter ⟨?_, hst.2⟩ (by simp) (by simp)
      (absurd ho) ?_
    · exact acts_note w _ ▸ hst.1.append Spot.Next.isDone.run
    · rw [acts_note, advances_append, List.length_append]; exact hn
  | cancel phase hc =>
    -- before the gate and inside it, acts and state are the same
    have hr : Spot.Run .reset w.acts .gate ∧ w.state = betweenTurns w.turns := by
      rcases phase with hp | hp <;> rwa [Stands, hp] at hst
    refine (hgo ?_ ?_).fail hr.1 .cancel (hr.2 ▸ betweenTurns_isTerminal _) (by simp) (fun _ => hc) hn <;>
      rcases phase with hp | hp <;> simp [hp]
  | comeUp hp hc hm =>
    rw [Stands, hp] at hst
    exact (hgo (by simp [hp]) (by simp [hp])).enter hst (by simp) (by simp) (absurd ho) hn
  | pass phase hc hm =>
    have hr : Spot.Run .reset w.acts .gate ∧ w.state = betweenTurns w.turns := by
      rcases phase with hp | hp <;> rwa [Stands, hp] at hst
    refine ((hgo ?_ ?_).note (by simp)).enter ⟨?_, .inl hr.2⟩ (by simp) (by simp) (absurd ho) ?_
    · rcases phase with hp | hp <;> simp [hp]
    · rcases phase with hp | hp <;> simp [hp]
    · exact acts_note w _ ▸ hr.1.append (Spot.Next.pass _).run
    · rw [acts_note, advances_append, List.length_append]; exact hn
  | park hp hc hm => exact h.park ho hh hp
  | leave hp hg =>
    -- the state is `suspended` until the turn reports that it has begun
    rw [Stands, hp] at hst
    refine ((h.going_off hh hp).note (by simp)).enter ⟨?_, .inr hst.2⟩ (by simp) (by simp) (absurd ho) ?_
    · exact acts_note w (.passed w.mode) ▸ hst.1.append (Spot.Next.pass _).run
    · rw [acts_note, advances_append, List.length_append]; exact hn
  | cancelParked hp hg hc =>
    rw [Stands, hp] at hst
    exact (h.going_off hh hp).fail hst.1 .cancel (by rw [hst.2]; rfl) (by simp) (fun _ => hc) hn
  | advanceFails hp hv =>
    rw [Stands, hp] at hst
    obtain ⟨hgo, hacts, hs⟩ := (hgo (by simp [hp]) (by simp [hp])).beginTurn hst.2
    refine hgo.fail_since hv (hacts ▸ hst.1) (Spot.Next.advanceFails _ _).run
      ⟨_, List.mem_singleton_self _, rfl⟩ (by rw [hs]; rfl) ?_
    rw [hacts, beginTurn_eq hst.2]
    simpa [advances, advanceOf_ne_reset] using hn
  | actionFails hp hv =>
    rw [Stands, hp] at hst
    obtain ⟨hgo, hacts, hs⟩ := (hgo (by simp [hp]) (by simp [hp])).beginTurn hst.2
    refine hgo.fail_since hv (hacts ▸ hst.1) (.cons (.advance _) (Spot.Next.actionFails _).run)
      ⟨_, List.mem_cons_of_mem _ (List.mem_singleton_self _), rfl⟩ (by rw [hs]; rfl) ?_
    rw [hacts, beginTurn_eq hst.2]
    simpa [advances, advanceOf_ne_reset] using hn
  | turn hp hv => exact h.turn hh hp hv
  | disposeFails hp hv =>
    rw [Stands, hp] at hst
    exact (hgo (by simp [hp]) (by simp [hp])).fail_since hv hst.1 (Spot.Next.disposeFails _).run
      ⟨_, List.mem_singleton_self _, rfl⟩ (hst.2 ▸ betweenTurns_isTerminal _)
      (by simpa [advances] using hn)
  | dispose hp hv => exact h.finish hh hp hv

/-- **Every reachable controller is sound.** -/
theorem Reachable.sound (h : Reachable w) : Sound w :=
  h.keeps (fun _ _ _ _ => .create _ _ _ _) (fun _ _ _ h he => h.effect he) (fun _ _ _ h ht => h.told ht)
    (fun _ _ _ h ho hh hs => h.stride ho hh hs)

/-- Nothing is due while the worker is not between turns. -/
theorem Sound.nothing_due (h : Sound w) (hc : w.phase ≠ .checking) (hf : w.phase ≠ .finished) :
    w.outbox = [] ∧ w.isHeldUp = false := by
  have hd : ¬ (w.outbox ≠ [] ∨ w.isHeldUp = true) := fun hd => (h.due hd).elim hc hf
  obtain ⟨ho, hh⟩ := not_or.mp hd
  exact ⟨not_not.mp ho, by simpa using hh⟩

/-- Nobody but the worker moves on a run that is launched. -/
theorem Sound.access_phase (h : Sound w) (hp : w.phase ≠ .idle) (a : Access A.Id) :
    (w.access a).2.phase = w.phase :=
  ((access_effect w a).of_launched (mt h.launched.mp hp)).1

/-- With nothing due, the worker rests where its phase leaves it nothing to do. -/
theorem Sound.atRest_iff (h : Sound w) (hc : w.phase ≠ .checking) (hf : w.phase ≠ .finished) :
    w.AtRest ↔ w.proceed? = none := by
  obtain ⟨ho, hh⟩ := h.nothing_due hc hf
  simp [AtRest, step, ho, hh]

/-- The spots between two steps of the worker: everything that happened is announced. -/
def Spot.IsSettled : Spot → Prop
  | reset | ask | gate | advance _ | dispose | finished _ => True
  | _ => False

/-- **The worker follows the turn protocol**, to its end if the run is over. -/
theorem Sound.run (h : Sound w) :
    ∃ s, Spot.Run .reset w.acts s ∧ s.IsSettled ∧ ((∃ f, s = .finished f) ↔ w.phase = .finished) := by
  have hs := h.stands
  unfold Stands at hs
  cases hp : w.phase <;> rw [hp] at hs
  case finished =>
    obtain ⟨f, hr, -⟩ := hs
    exact ⟨_, hr, trivial, by simp⟩
  all_goals exact ⟨_, hs.1, trivial, by simp⟩

/-- Only a run that is over is in a terminal state. -/
theorem Sound.finished_of_isTerminal (h : Sound w) (ht : w.state.isTerminal = true) :
    w.phase = .finished := by
  have hs := h.stands
  unfold Stands at hs
  cases hp : w.phase <;> rw [hp] at hs
  case idle =>
    rw [hs.2] at ht
    split at ht <;> cases ht
  case starting | parked =>
    rw [hs.2] at ht
    cases ht
  case advancing =>
    rcases hs.2 with hstate | hstate <;> rw [hstate] at ht
    · rw [betweenTurns_isTerminal] at ht
      cases ht
    · cases ht
  all_goals
    rw [hs.2, betweenTurns_isTerminal] at ht
    cases ht

/-- By the time the worker is between two steps, a failure has been reported and has closed the run. -/
theorem finished_of_failure {s : Spot} {as : List Act} {a : Act} {f : Failure} (h : Spot.Run .reset as s)
    (hs : s.IsSettled) (ha : a ∈ as) (hf : a.failure? = some f) : s = .finished (some f) := by
  obtain ⟨bs, cs, rfl⟩ := List.append_of_mem ha
  obtain ⟨t, t', -, hnext, hrun⟩ := h.cut
  have ht : t' = .report f := by
    cases hnext <;> simp only [Act.failure?, reduceCtorEq, Option.some.injEq] at hf <;> rw [hf]
  subst ht
  -- neither the report nor the closing is left for a later step
  obtain _ | ⟨hreport, hrun⟩ := hrun
  · exact hs.elim
  cases hreport
  obtain _ | ⟨hclose, hrun⟩ := hrun
  · exact hs.elim
  cases hclose
  exact (Spot.run_finished hrun).2

/-- The mode of the turn that has left the gate and not begun. -/
def pending (w : Controller A) : List Mode :=
  match w.phase with
  | .advancing m => [m]
  | _ => []

/-- Every turn that has left the gate is advanced once, but for one that has not begun. -/
theorem Sound.advances_eq (h : Sound w) :
    (passages w.acts).map advanceOf = advances w.acts ++ w.pending.map advanceOf := by
  have hs := h.stands
  unfold Stands at hs
  cases hp : w.phase <;> rw [hp] at hs
  case finished =>
    obtain ⟨f, hr, -⟩ := hs
    rw [Controller.advances_eq hr, pending, hp]; rfl
  all_goals rw [Controller.advances_eq hs.1, pending, hp]; rfl

end Cadence.Controller
