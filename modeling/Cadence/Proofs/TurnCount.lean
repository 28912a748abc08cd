import Cadence.Proofs.Callbacks
import Cadence.Proofs.Position

/-!
# Cadence.Proofs.TurnCount — turns, counted in four places

A turn is counted by the controller, it advances the engine once, it is announced when it is completed, and at the
gate it takes a resume.  These counts differ by no more than the turn that a failure breaks off.

* `count_of_settled`, `breaches_of_broken`: advances and announcements, told from the acts of a run.
* `Station.split_near`, `Stride.letThrough_eq`: a turn that is let through has been resumed or goes straight through.
* `turnsAddUp`: the counts of any run.
-/

namespace Cadence.Controller

variable {A : Assembly} {w v : Controller A}

/-! ## Advances and announcements -/

/-- A call that advances the engine, whether or not it fails. -/
def Act.isAdvance : Act → Bool
  | engine .run _ | engine .step _ => true
  | _ => false

/-- The engine is advanced by these calls alone: the worker never asks it for a text. -/
theorem length_advances {s : Spot} {as : List Act} (h : Spot.Run .reset as s) :
    (advances as).length = as.countP Act.isAdvance := by
  induction as using List.reverseRecOn generalizing s with
  | nil => rfl
  | append_singleton as a ih =>
    obtain ⟨t, t', h₁, ha, -⟩ := h.cut
    rw [advances_append, List.length_append, List.countP_append, ih h₁]
    cases ha with
    | advance m | advanceFails m f => cases m <;> rfl
    | _ => rfl

/-- How many completed turns were announced. -/
def actionsDone (w : Controller A) : Nat := (w.emissions.map Prod.fst).count .actionDone

theorem actionsDone_eq (w : Controller A) : w.actionsDone = (notices w.acts).count .actionDone := by
  rw [actionsDone, notices_acts]

/-- Where a run can fail. -/
inductive Site where
  | reset
  | setUp
  | ask
  /-- It is found cancelled at the gate. -/
  | gate
  | advance
  | action
  | dispose
deriving DecidableEq, Repr

/-- Whether a failure there breaks off a turn. -/
def Site.isInTurn : Site → Bool
  | advance | action => true
  | _ => false

/-- The failure that an act tells of, and where.  That the run was cancelled is told by its end alone. -/
def Act.breach? : Act → Option (Site × Failure)
  | engine .reset (some f) => some (.reset, f)
  | engine _ (some f) => some (.advance, f)
  | hook .setup (some f) => some (.setUp, f)
  | hook .action (some f) => some (.action, f)
  | hook .dispose (some f) => some (.dispose, f)
  | hasDonePanics p => some (.ask, .panicked p)
  | ended (some .cancelled) => some (.gate, .cancelled)
  | _ => none

def breaches (as : List Act) : List (Site × Failure) := as.filterMap Act.breach?

@[simp] theorem breaches_append (as bs : List Act) : breaches (as ++ bs) = breaches as ++ breaches bs :=
  List.filterMap_append

theorem breaches_soFar (ms : List Mode) : breaches (soFar ms) = [] := by
  induction ms using List.reverseRecOn with
  | nil => rfl
  | append_singleton ms m ih =>
    rw [soFar_concat, breaches_append, ih]
    cases m <;> rfl

/-- Between two steps of a run that has not failed, turns are advanced as often as they are announced. -/
theorem count_of_settled {s : Spot} {as : List Act} (h : Spot.Run .reset as s) (hs : s.IsSettled)
    (hf : ∀ f, s ≠ .finished (some f)) : (notices as).count .actionDone = (advances as).length := by
  have hr := run_reads h
  have more (ms : List Mode) (bs : List Act) (hn : (notices bs).count .actionDone = 0) (ha : advances bs = []) :
      (notices (soFar ms ++ bs)).count .actionDone = (advances (soFar ms ++ bs)).length := by
    rw [notices_append, advances_append, List.count_append, hn, ha, count_soFar, List.append_nil]
    rfl
  cases s with
  | reset => rw [show as = [] from hr]; rfl
  | ask => obtain ⟨ms, rfl⟩ := hr; exact count_soFar ms
  | gate | advance | dispose => obtain ⟨ms, rfl⟩ := hr; exact more ms _ rfl rfl
  | finished f =>
    cases f with
    | none => obtain ⟨ms, rfl⟩ := hr; exact more ms _ rfl rfl
    | some f => exact absurd rfl (hf f)
  | _ => exact hs.elim

theorem breaches_ending {f : Failure} (h : f ≠ .cancelled) : breaches (ending f) = [] := by
  cases f <;> first | rfl | exact absurd rfl h

/-- **A run that has failed has failed at one site**; there is a turn that was not announced iff that is in a turn. -/
theorem breaches_of_broken {f : Failure} {as : List Act} (h : Broken f as)
    (hc : ∀ a ∈ as, a.failure? ≠ some .cancelled) :
    ∃ site, breaches (as ++ ending f) = [(site, f)] ∧
      (advances as).length = (notices as).count .actionDone + if site.isInTurn = true then 1 else 0 := by
  -- a failing call is an act, and no call fails the way a cancelled run does
  have fails (a : Act) (ha : a ∈ as) (hf : a.failure? = some f) {t : Site} (ht : breaches as = [(t, f)]) :
      breaches (as ++ ending f) = [(t, f)] := by
    have hf : f ≠ .cancelled := by
      rintro rfl
      exact hc a ha hf
    rw [breaches_append, ht, breaches_ending hf]
    rfl
  have turns (ms : List Mode) (bs : List Act) (hn : (notices bs).count .actionDone = 0) :
      (advances (soFar ms ++ bs)).length =
        (notices (soFar ms ++ bs)).count .actionDone + (advances bs).length := by
    rw [notices_append, advances_append, List.count_append, hn, List.length_append, ← count_soFar, Nat.add_zero]
  cases h with
  | reset => exact ⟨.reset, fails _ (List.mem_singleton_self _) rfl rfl, rfl⟩
  | setUp => exact ⟨.setUp, fails (.hook .setup (some f)) (by simp) rfl rfl, rfl⟩
  | ask ms p =>
    refine ⟨.ask, fails (.hasDonePanics p) (by simp) rfl ?_, turns ms _ rfl⟩
    rw [breaches_append, breaches_soFar]
    rfl
  | gate ms =>
    refine ⟨.gate, ?_, turns ms _ rfl⟩
    rw [breaches_append, breaches_append, breaches_soFar]
    rfl
  | advance ms m =>
    refine ⟨.advance, fails (.engine (advanceOf m) (some f)) (by simp) rfl ?_, (turns ms _ rfl).trans ?_⟩
    · rw [breaches_append, breaches_soFar]
      cases m <;> rfl
    · cases m <;> rfl
  | action ms m =>
    refine ⟨.action, fails (.hook .action (some f)) (by simp) rfl ?_, (turns ms _ rfl).trans ?_⟩
    · rw [breaches_append, breaches_soFar]
      cases m <;> rfl
    · cases m <;> rfl
  | dispose ms =>
    refine ⟨.dispose, fails (.hook .dispose (some f)) (by simp) rfl ?_, turns ms _ rfl⟩
    rw [breaches_append, breaches_soFar]
    rfl

/-- Engine and domain do not cancel a run. -/
theorem failure_ne_cancelled {a : Act} (h : a ∈ w.acts) : a.failure? ≠ some .cancelled := by
  intro hf
  obtain ⟨e, -, he⟩ := (mem_readOff _).mp h
  exact (Act.failure_of_entry he hf).2 rfl

/-- A failed run is over. -/
theorem Sound.finished_of_failed (h : Sound w) {m : String} (hm : w.state = .failed m) : w.phase = .finished := by
  by_contra hp
  have hs := h.stands
  have between (hs : w.state = betweenTurns w.turns) : False := by
    have hn := betweenTurns_isTerminal w.turns
    rw [← hs, hm] at hn
    cases hn
  unfold Stands at hs
  cases hphase : w.phase <;> rw [hphase] at hs
  case finished => exact hp hphase
  case idle =>
    have hidle := hm.symm.trans hs.2
    split at hidle <;> cases hidle
  case starting | parked => cases hm.symm.trans hs.2
  case advancing => exact hs.2.elim between fun hs => by cases hm.symm.trans hs
  all_goals exact between hs.2

theorem Sound.turns_of_failed (h : Sound w) {m : String} (hm : w.state = .failed m) :
    ∃ site f, breaches w.acts = [(site, f)] ∧ m = failureText f.message ∧
      w.turns = w.actionsDone + if site.isInTurn = true then 1 else 0 := by
  have hs := h.stands
  rw [Stands, h.finished_of_failed hm] at hs
  obtain ⟨_ | f, hr, hstate, -⟩ := hs
  · cases hm.symm.trans hstate
  obtain ⟨bs, hb, hacts⟩ := run_reads hr
  obtain ⟨site, hsite, hcount⟩ := breaches_of_broken hb fun a ha =>
    failure_ne_cancelled (w := w) (by rw [hacts]; exact List.mem_append_left _ ha)
  refine ⟨site, f, hacts ▸ hsite, State.failed.inj (hm.symm.trans hstate), ?_⟩
  rw [h.turns, actionsDone_eq, hacts, notices_append, advances_append, List.count_append,
    show advances (ending f) = [] from rfl, show (notices (ending f)).count .actionDone = 0 from rfl,
    List.append_nil, hcount]
  rfl

theorem Sound.turns_of_unfailed (h : Sound w) (hm : ∀ m, w.state ≠ .failed m) : w.turns = w.actionsDone := by
  obtain ⟨s, hr, hs, ho⟩ := h.run
  rw [h.turns, actionsDone_eq, count_of_settled hr hs]
  rintro f rfl
  have hst := h.stands
  rw [Stands, ho.mp ⟨_, rfl⟩] at hst
  obtain ⟨g, hg, hstate, -⟩ := hst
  have hfg : some f = g := Spot.finished.inj ((ended_mem_iff hg _).mp ((ended_mem_iff hr _).mpr rfl)).symm
  rw [← hfg] at hstate
  exact hm _ hstate

/-! ## Resumes -/

section Granting

variable {ι : Type}

/-- A resume that was granted. -/
def Entry.isGrant : Entry ι → Bool
  | resume true => true
  | _ => false

/-- The worker grants nothing. -/
theorem Entry.countP_isGrant {news : List (Entry ι)} (h : ∀ e ∈ news, e.IsWork) : news.countP isGrant = 0 := by
  refine List.countP_eq_zero.mpr fun e he hg => ?_
  have hwork := h e he
  cases e <;> first | exact hwork.elim | cases hg

namespace Station

variable {m : Mode} {s t : Station} {es : List (Entry ι)}

/-- A turn that is on its way to the gate has come to it, and nothing was decided about it since. -/
theorem split_near (h : follow m away es = some near) :
    ∃ before approach, es = before ++ .hasDone (.ok false) :: approach ∧ ∀ x ∈ approach, ¬ x.Decides := by
  induction es using List.reverseRecOn with
  | nil => cases h
  | append_singleton es e ih =>
    rw [follow_append] at h
    obtain ⟨t, ht, h⟩ := Option.bind_eq_some_iff.mp h
    obtain ⟨u, hu, h⟩ := Option.bind_eq_some_iff.mp h
    cases h
    have hcases : e = .hasDone (.ok false) ∨ t = near ∧ ¬ e.Decides := by
      unfold next? at hu
      split at hu <;> grind [Entry.Decides]
    obtain rfl | ⟨rfl, he⟩ := hcases
    · exact ⟨es, [], rfl, by simp⟩
    · obtain ⟨before, approach, rfl, hun⟩ := ih ht
      refine ⟨before, approach ++ [e], by simp, fun x hx => ?_⟩
      exact (List.mem_append.mp hx).elim (hun x) fun hx => List.mem_singleton.mp hx ▸ he

end Station

end Granting

/-- How many resumes were granted. -/
def granted (w : Controller A) : Nat := w.journal.countP Entry.isGrant

theorem granted_note (w : Controller A) (e : Entry A.Id) :
    (w.note e).granted = w.granted + e.isGrant.toNat := by
  rw [granted, note, List.countP_cons]
  cases e.isGrant <;> rfl

theorem granted_apply (w : Controller A) (x : Event) : (w.apply x).granted = w.granted := by
  rw [granted, apply_eq]
  cases w.state.noticeOf x <;> rfl

/-- How many turns were let through: those begun, one that is past the gate, and one that has a permit. -/
def letThrough (w : Controller A) : Nat := w.turns + w.pending.length + w.gate.permit.toNat

/-- Every turn that the gate has decided on came to it under a mode that asks for waiting. -/
def GatesEveryTurn (w : Controller A) : Prop :=
  ∀ before approach e after,
    w.history = before ++ .hasDone (.ok false) :: (approach ++ e :: after) → (∀ x ∈ approach, ¬ x.Decides) →
    (e = .event .gateParked true ∨ ∃ m, e = .passed m) →
    inForce w.config.initialMode (before ++ .hasDone (.ok false) :: approach) ∈ [.runOne, .step]

/-- What held of a run so far held of it earlier. -/
theorem GatesEveryTurn.earlier (h : GatesEveryTurn v) {news : List (Entry A.Id)}
    (hj : v.journal = news ++ w.journal) (hc : v.config = w.config) : GatesEveryTurn w := by
  intro before approach e after heq
  rw [← hc]
  refine h before approach e (after ++ news.reverse) ?_
  rw [history, hj, List.reverse_append]
  rw [history] at heq
  rw [heq]
  simp

theorem isGated_inForce {ι : Type} {m : Mode} {es : List (Entry ι)} (hm : m.isGated = true)
    (hes : ∀ n, .setMode n ∈ es → n.isGated = true) : (inForce m es).isGated = true := by
  induction es generalizing m with
  | nil => exact hm
  | cons e es ih =>
    rw [← List.singleton_append, inForce_append]
    refine ih ?_ fun n hn => hes n (List.mem_cons_of_mem e hn)
    cases e with
    | setMode n => exact hes n List.mem_cons_self
    | _ => exact hm

/-- So it is in a run in which no other mode was ever set. -/
theorem GatesEveryTurn.of_modes (hi : w.config.initialMode.isGated = true)
    (hm : ∀ m, .setMode m ∈ w.journal → m.isGated = true) : GatesEveryTurn w := by
  intro before approach e after heq _ _
  have hset (m : Mode) (hmem : .setMode m ∈ before ++ .hasDone (.ok false) :: approach) : m.isGated = true := by
    refine hm m (List.mem_reverse.mp ?_)
    rw [← history, heq, ← List.cons_append, ← List.append_assoc]
    exact List.mem_append_left _ hmem
  simpa using (isGated_iff _).mp (isGated_inForce hi hset)

/-- Where every turn has to wait, none that is on its way to the gate goes straight through. -/
theorem GatesEveryTurn.not_straight (h : GatesEveryTurn v) (hw : Followed w) (hs : w.station = .near)
    (hmode : inForce w.config.initialMode w.history = w.mode) (hm : w.mode.isGated = false)
    (hj : v.journal = .passed w.mode :: w.journal) (hc : v.config = w.config) : False := by
  rw [Followed, hs] at hw
  obtain ⟨before, approach, heq, hun⟩ := Station.split_near hw
  have hgated := h before approach (.passed w.mode) [] (by
    rw [history, hj, List.reverse_cons, ← history, heq, List.append_assoc, List.cons_append]) hun (.inr ⟨_, rfl⟩)
  rw [hc, ← heq, hmode] at hgated
  cases hmode : w.mode <;> rw [hmode] at hm hgated
  · simp at hgated
  · cases hm
  · cases hm

/-- A turn that was let through was resumed, where every turn has to wait. -/
def Balanced (w : Controller A) : Prop := GatesEveryTurn w → w.granted = w.letThrough

theorem Balanced.on (h : Balanced w) (news : List (Entry A.Id)) (hj : v.journal = news ++ w.journal)
    (hc : v.config = w.config)
    (hn : GatesEveryTurn v → v.letThrough = w.letThrough + news.countP Entry.isGrant) : Balanced v := by
  intro hv
  rw [granted, hj, List.countP_append, ← granted, h (hv.earlier hj hc), hn hv, Nat.add_comm]

theorem Balanced.effect (h : Balanced w) (hw : Sound w) (he : Effect w v) : Balanced v := by
  cases he with
  | nothing => exact h
  | load script source g hl =>
    rw [apply_eq]
    exact h.on [.event .engineLoaded (w.state.next .engineLoaded).isOk, .load script true]
      (by simp only [note, noticeOf_engineLoaded]; rfl) rfl fun _ => rfl
  | loadFails script => exact h.on [.load script false] rfl rfl fun _ => rfl
  | launch l hl =>
    refine h.on [.launch l] rfl rfl fun _ => ?_
    simp [letThrough, pending, note, hw.phase_of_launch hl, Entry.isGrant]
  | noThread => exact h.on [] rfl rfl fun _ => rfl
  | query r => exact h.on [.query r] rfl rfl fun _ => rfl
  | release hg hp =>
    refine h.on [.resume true] rfl rfl fun _ => ?_
    simp [letThrough, note, hp, Entry.isGrant]
    rfl
  | releaseNobody => exact h.on [.resume false] rfl rfl fun _ => rfl
  | stop => exact h.on [.stop] rfl rfl fun _ => rfl
  | setMode m => exact h.on [.setMode m] rfl rfl fun _ => rfl
  | subscribers => exact h.on [] rfl rfl fun _ => rfl

theorem Balanced.told (h : Balanced w) (ht : Told w v) : Balanced v := by
  cases ht with
  | observer due crowd panic => exact h.on [.told _ _ panic] rfl rfl fun _ => rfl
  | channel due => exact h.on [.told _ _ none] rfl rfl fun _ => rfl

@[simp] theorem fail_gate (w : Controller A) (f : Failure) : (w.fail f).gate = w.gate := apply_gate w _
@[simp] theorem enter_gate (w : Controller A) (p : Phase) : (w.enter p).gate = w.gate := rfl
@[simp] theorem beginTurn_gate (w : Controller A) : w.beginTurn.gate = w.gate := apply_gate w _

theorem Since.gate_eq {as : List Act} (h : Since w as v) : v.gate = w.gate := by
  cases h; rfl

/-- Only a turn that goes straight through is let through by the worker. -/
theorem Stride.letThrough_eq (h : Stride w v) (hw : Sound w) :
    v.letThrough = w.letThrough ∨
      w.station = .near ∧ w.mode.isGated = false ∧ v.journal = .passed w.mode :: w.journal := by
  have hpermit (hp : w.phase ≠ .parked) : w.gate.permit = false := by
    by_contra hg
    exact hp (hw.parked.mp (hw.permit (by simpa using hg)))
  -- a turn that is past the gate is begun, so that what is left are permits
  have hturns : v.turns = w.turns + w.pending.length := by
    rw [h.turns_eq, pending]
    cases w.phase <;> rfl
  have same (hv : v.pending.length + v.gate.permit.toNat = w.gate.permit.toNat) : v.letThrough = w.letThrough := by
    simp only [letThrough, hturns]
    omega
  have through (hp : w.phase ≠ .parked) (hg : v.gate = w.gate) (hv : v.pending = []) : v.letThrough = w.letThrough :=
    same (by rw [hv, hg, hpermit hp]; rfl)
  cases h with
  | noEngine _ phase | cancel phase =>
    exact .inl (through (by rcases phase with hp | hp <;> simp [hp]) (by simp) rfl)
  | noEngineInTurn _ hp => exact .inl (through (by simp [hp]) (by simp) rfl)
  | resetFails hp hv | setUpFails hp hv | disposeFails hp hv =>
    exact .inl (through (by simp [hp]) (by simp [hv.gate_eq]) rfl)
  | advanceFails hp hv | actionFails hp hv =>
    exact .inl (through (by simp [hp]) (by simp [hv.gate_eq]) rfl)
  | setUp hp hv | dispose hp hv =>
    exact .inl (through (by simp [hp]) (by simp [note, hv.gate_eq]) rfl)
  | turn hp hv => exact .inl (through (by simp [hp]) (by simp [hv.gate_eq]) rfl)
  | askFails hp => exact .inl (through (by simp [hp]) (by simp [note]) rfl)
  | goOn hp | isDone hp | comeUp hp => exact .inl (through (by simp [hp]) rfl rfl)
  | pass phase _ hm =>
    have hs : w.station = .near := by rcases phase with hp | hp <;> simp [station, hp]
    exact .inr ⟨hs, hm, rfl⟩
  | park hp => exact .inl (same (by simp [pending, hpermit (show w.phase ≠ .parked by simp [hp])]))
  | leave hp hg => exact .inl (same (by simp [pending, note, hg]))
  | cancelParked hp hg => exact .inl (same (by simp [pending, hg]))

theorem Reachable.balanced (h : Reachable w) : Balanced w := by
  refine h.upholds (fun _ _ _ _ _ => rfl) (fun w a h hb => hb.effect h.sound (access_effect w a))
    (fun w v _ hb => hb.told) fun w r h hb ho hh hr => ?_
  obtain ⟨news, hj, hn⟩ := (proceed_parts hr).news
  have hc := (proceed_parts hr).config_eq
  refine hb.on news hj hc fun hv => ?_
  obtain heq | ⟨hs, hm, hpassed⟩ := (proceed_stride hr).letThrough_eq h.sound
  · rw [heq, Entry.countP_isGrant hn]
    rfl
  · exact (hv.not_straight h.followed hs h.recorded.mode hm hpassed hc).elim

/-! ## Calls that were granted -/

/-- A call of `resume` that was granted. -/
def isGranted (u : Controller A × Access A.Id) : Bool :=
  match u.2 with
  | .call .resume => u.1.resume.1
  | _ => false

theorem launchOn_granted (w : Controller A) (l : Launch) : (w.launchOn l).2.granted = w.granted := by
  have h := launchOn_launching w l
  generalize w.launchOn l = r at h ⊢
  cases h <;> rfl

theorem access_granted (w : Controller A) (a : Access A.Id) :
    (w.access a).2.granted = w.granted + (isGranted (w, a)).toNat := by
  rcases a with (c | _ | k | k)
  case call =>
    cases c with
    | resume =>
      simp only [access, call, isGranted, resume_eq]
      split <;> exact granted_note _ _
    | startEngine script =>
      simp only [access, call, startEngine]
      split
      · rfl
      · split
        · exact granted_apply _ _
        · rfl
        · rfl
    | execute => exact launchOn_granted w .spawned
    | runBlocking thread => exact launchOn_granted w (.borrowed thread)
    | facts | agenda =>
      simp only [access, call, query]
      split <;> rfl
    | setModeTag tag =>
      simp only [access, call, setModeTag]
      split <;> rfl
    | _ => rfl
  case subscribeChannel =>
    rw [access, subscribeChannel]
    split <;> rfl
  case receive =>
    rw [access, receive]
    split <;> rfl
  case dropReceiver => rfl

/-- The journal has noted what the calls in a run were answered. -/
theorem Reachable.granted_eq (h : Reachable w) (ms : List (Move A.Id)) :
    (w.moves ms).granted = w.granted + (w.usesOf ms).countP isGranted := by
  have hmoves := h.moves_use (P := fun us v => v.granted = w.granted + us.countP isGranted) (fun us v a _ hv => ?_)
    (fun us v u _ hv ht => ?_) (fun us v r _ hv _ _ hr => ?_) [] rfl ms
  · exact hmoves
  · rw [access_granted, hv, List.countP_append, Nat.add_assoc, List.countP_singleton]
    cases isGranted (v, a) <;> rfl
  · refine Eq.trans ?_ hv
    cases ht <;> exact granted_note _ _
  · obtain ⟨news, hj, hn⟩ := (proceed_parts hr).news
    rw [granted, hj, List.countP_append, Entry.countP_isGrant hn, Nat.zero_add]
    exact hv

/-! ## The counts of a run -/

/-- The counts of the run that moves lead to, from a new controller. -/
structure TurnsAddUp (u : Controller A) (ms : List (Move A.Id)) : Prop where
  /-- A turn is counted as the engine is advanced, whether or not that fails; -/
  advanced : (u.moves ms).turns = (u.moves ms).acts.countP Act.isAdvance
  /-- there is at most one that was not announced, -/
  bounds : (u.moves ms).actionsDone ≤ (u.moves ms).turns ∧ (u.moves ms).turns ≤ (u.moves ms).actionsDone + 1
  /-- and none unless the run has failed. -/
  unfailed : (∀ m, (u.moves ms).state ≠ .failed m) → (u.moves ms).turns = (u.moves ms).actionsDone
  /-- A run that has failed has failed once, at one site, and left a turn unannounced iff that was in a turn. -/
  failed : ∀ m, (u.moves ms).state = .failed m →
    ∃ site f, breaches (u.moves ms).acts = [(site, f)] ∧ m = failureText f.message ∧
      ((u.moves ms).turns = (u.moves ms).actionsDone + 1 ↔ site = .advance ∨ site = .action) ∧
      (site ≠ .advance → site ≠ .action → (u.moves ms).turns = (u.moves ms).actionsDone)
  /-- Where every turn had to wait, one resume was granted for each, when the worker rests. -/
  granted : (u.moves ms).AtRest → GatesEveryTurn (u.moves ms) →
    (u.moves ms).turns = (u.usesOf ms).countP isGranted

theorem Sound.letThrough_of_atRest (h : Sound w) (hr : w.AtRest) : w.letThrough = w.turns := by
  have hpending : w.pending = [] := by
    unfold pending
    cases hp : w.phase with
    | advancing m => exact absurd hp (h.not_advancing (.inl hr) m)
    | _ => rfl
  have hpermit : w.gate.permit = false := by
    by_contra hg
    rw [Bool.not_eq_false] at hg
    have hsus : w.isSuspended = true := h.permit hg
    rw [← h.resume_iff_of_atRest hr, h.resume_iff, hg] at hsus
    cases hsus.2
  rw [letThrough, hpending, hpermit]
  rfl

/-- **The counts of any run add up**, under any history of modes and calls. -/
theorem turnsAddUp (config : Config) (source : A.Source) (domain : A.Dom) (crowd : A.Crowd)
    (ms : List (Move A.Id)) : TurnsAddUp (Controller.create config source domain crowd) ms := by
  have hnew : Reachable (Controller.create config source domain crowd) := .create _ _ _ _
  have h := hnew.moves ms
  generalize hw : (Controller.create config source domain crowd).moves ms = w at h
  obtain ⟨s, hr, -⟩ := h.sound.run
  have hfailed {m : String} (hm : w.state = .failed m) := h.sound.turns_of_failed hm
  have hunfailed := h.sound.turns_of_unfailed
  constructor <;> rw [hw]
  case advanced => exact h.sound.turns.trans (length_advances hr)
  case bounds =>
    by_cases hm : ∃ m, w.state = .failed m
    · obtain ⟨site, f, -, -, hcount⟩ := hfailed hm.choose_spec
      split at hcount <;> omega
    · have := hunfailed fun m hm' => hm ⟨m, hm'⟩
      omega
  case unfailed => exact hunfailed
  case failed =>
    intro m hm
    obtain ⟨site, f, hsite, hf, hcount⟩ := hfailed hm
    refine ⟨site, f, hsite, hf, ?_, fun h₁ h₂ => ?_⟩ <;> rw [hcount]
    · cases site <;> simp [Site.isInTurn]
    · cases site <;> first | rfl | exact absurd rfl h₁ | exact absurd rfl h₂
  case granted =>
    intro hrest hgates
    have hgranted := hnew.granted_eq ms
    rw [hw, h.balanced hgates, h.sound.letThrough_of_atRest hrest] at hgranted
    exact hgranted.trans (Nat.zero_add _)

/-- Two turns, each after a resume, of which the second is advanced in vain. -/
example :
    let u := Bench.trial .step 3 [⟨.run, 2, .failure ⟨.io, "gone"⟩⟩]
    let ms := Bench.launched 6 ++ .call .resume :: List.replicate 9 .work ++ .call .resume :: List.replicate 5 .work
    (u.moves ms).turns = 2 ∧ (u.moves ms).actionsDone = 1 ∧ (u.usesOf ms).countP isGranted = 2 := by
  decide

end Cadence.Controller
