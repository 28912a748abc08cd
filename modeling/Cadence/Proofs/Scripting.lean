import Cadence.Domain.Scripted
import Cadence.Proofs.Draining
import Cadence.Proofs.Fairness
import Cadence.Proofs.Reporting

/-!
# Cadence.Proofs.Scripting — a run goes as it was scripted

A domain whose conduct is fixed in advance fixes the whole run, where the engine does not fail and the run is not
cancelled: it fails over setting up, or in the first turn for which a fault is planned, or it makes all its turns
and is disposed.  `Domain.Scripted.forecast` says what that comes to; the cadence makes no difference.

* `firstFault_eq_some`, `firstFault_eq_none`: the first fault that is planned for a turn that is made.
* `perform_act`: what the action of a turn comes to.
* `Heeds`: how far the script has been followed, by the worker's phase.
* `Reachable.heeds`: it is followed in every run.
* `Reachable.plays_out`: what was foretold comes true, and a run that is not kept waiting comes to its end.
-/

namespace Cadence

/-! ## What a script foretells -/

namespace Domain.Scripted

variable {d : Scripted} {k n : Nat}

/-- Nothing has happened so far. -/
structure IsFresh (d : Scripted) : Prop where
  actions : d.actions = 0
  setups : d.setups = 0
  disposals : d.disposals = 0

/-- A fault is planned for a turn, which is one of those to be made. -/
def Strikes (d : Scripted) (k : Nat) : Prop :=
  (d.failActionAt = some k ∨ d.panicActionAt = some k) ∧ 1 ≤ k ∧ k ≤ d.doneAfter

/-- The first turn for which a fault is planned, of those to be made. -/
def firstFault (d : Scripted) : Option Nat :=
  (List.range' 1 d.doneAfter).find? fun k => d.failActionAt = some k ∨ d.panicActionAt = some k

theorem firstFault_eq_some : d.firstFault = some k ↔ d.Strikes k ∧ ∀ j, d.Strikes j → k ≤ j := by
  rw [firstFault, List.find?_range'_eq_some, List.mem_range'_1, Strikes]
  simp only [decide_eq_true_eq, Bool.not_eq_true', decide_eq_false_iff_not]
  constructor
  · rintro ⟨hk, hrange, hleast⟩
    refine ⟨⟨hk, by omega⟩, fun j ⟨hj, hpos, _⟩ => ?_⟩
    by_contra hlt
    exact hleast j hpos (by omega) hj
  · rintro ⟨⟨hk, hpos, hle⟩, hleast⟩
    refine ⟨hk, by omega, fun j hj hlt hstrikes => ?_⟩
    have := hleast j ⟨hstrikes, hj, by omega⟩
    omega

theorem firstFault_eq_none : d.firstFault = none ↔ ∀ k, ¬ d.Strikes k := by
  rw [firstFault, List.find?_range'_eq_none]
  simp only [Bool.not_eq_true', decide_eq_false_iff_not, Strikes]
  exact ⟨fun h k ⟨hk, hpos, hle⟩ => h k hpos (by omega) hk, fun h k hpos hlt hk => h k ⟨hk, hpos, by omega⟩⟩

/-- The text that the fault planned for a turn is reported with; a panic comes first. -/
def faultText (d : Scripted) (k : Nat) : String :=
  if d.panicActionAt = some k then "panic during execution: " ++ panicText k else failText k

/-- How the disposal of a run is announced. -/
def farewell (d : Scripted) : Notification :=
  match d.failDispose with
  | some m => .error (failureText m)
  | none => .disposeDone

/-- What a run comes to. -/
structure Forecast where
  notices : List Notification
  turns : Nat
  disposals : Nat
deriving DecidableEq, Repr

/-- **What a script foretells.** -/
def forecast (d : Scripted) : Forecast :=
  match d.failSetup, d.firstFault with
  | some m, _ => ⟨[.error (failureText m)], 0, 0⟩
  | none, some k =>
    ⟨.setupDone :: List.replicate (k - 1) .actionDone ++ [.error (d.faultText k)], k, 0⟩
  | none, none => ⟨.setupDone :: List.replicate d.doneAfter .actionDone ++ [d.farewell], d.doneAfter, 1⟩

/-- No script makes more turns than it sets out to. -/
theorem forecast_turns_le (d : Scripted) : d.forecast.turns ≤ d.doneAfter := by
  unfold forecast
  split
  · exact Nat.zero_le _
  · rename_i k _ hk
    exact (firstFault_eq_some.mp hk).1.2.2
  · exact Nat.le_refl _

/-- A fault that is planned for a turn which is never made does not matter. -/
example : ({ doneAfter := 1, failActionAt := some 2 } : Scripted).forecast =
    ⟨[.setupDone, .actionDone, .disposeDone], 1, 1⟩ := by decide

/-- What is announced while turns are made was foretold, if no fault was planned for them. -/
theorem prefix_forecast (hs : d.failSetup = none) (hn : n ≤ d.doneAfter) (hf : ∀ k, d.Strikes k → n < k) :
    .setupDone :: List.replicate n .actionDone <+: d.forecast.notices := by
  have more {m : Nat} (t : Notification) (hm : n ≤ m) : .setupDone :: List.replicate n .actionDone <+:
      .setupDone :: List.replicate m .actionDone ++ [t] := by
    refine List.IsPrefix.trans ?_ (List.prefix_append _ _)
    exact List.cons_prefix_cons.mpr ⟨rfl, List.prefix_replicate_iff.mpr ⟨by simpa using hm, by simp⟩⟩
  unfold forecast
  rw [hs]
  cases hk : d.firstFault with
  | none => exact more _ hn
  | some k =>
    have := hf k (firstFault_eq_some.mp hk).1
    exact more _ (by omega)

theorem failureText_append {s : String} (h : Text.isBlankText s = false) (t : String) :
    failureText (s ++ t) = s ++ t := by
  have hblank : Text.isBlankText (s ++ t) = false := by
    rw [Text.isBlankText, String.toList_append, List.all_append, ← Text.isBlankText, h, Bool.false_and]
  simp [failureText, hblank]

/-- The text of a planned fault is reported as it is. -/
theorem failureText_faultText (d : Scripted) (k : Nat) : failureText (d.faultText k) = d.faultText k := by
  unfold faultText
  split
  · exact failureText_append (by decide) _
  · exact failureText_append (by decide) _

/-! ### The action of a turn -/

/-- **What the action of a turn comes to**, where the engine answers. -/
theorem perform_act {m : Engine.Memory} (h : m.failing .facts = none) (d : Scripted) :
    (Engine.perform (act d) m).1 =
      if d.panicActionAt = some d.actions then (.panicked (.text (panicText d.actions)), d)
      else if d.failActionAt = some d.actions then (.error (.failed (failText d.actions)), d)
      else (.ok (), { d with lastFacts := Text.joined "\n" m.facts }) := by
  unfold act
  split_ifs
  · rfl
  · rfl
  · have hf : Engine.call .facts m = (.ok (Text.joined "\n" m.facts), m.counted .facts) :=
      Engine.Memory.call_of_sound h
    simp only [Engine.perform, query, Dialogue.play_ask, Engine.recorded, hf, Dialogue.play_done]

theorem perform_finish (plan : Option String) (d : Scripted) (m : Engine.Memory) :
    (Engine.perform (finish plan d) m).1 = ((plan.map fun t => Outcome.error (.failed t)).getD (.ok ()), d) := by
  cases plan <;> rfl

end Domain.Scripted

namespace Controller

open Domain (Scripted)
open Engine (Memory)

section Acts

variable {A : Assembly} {w v : Controller A}

/-- While turns are made they have been announced, and nothing has been disposed. -/
theorem Sound.underWay (h : Sound w) (hp : w.phase.isUnderWay = true) :
    notices w.acts = .setupDone :: List.replicate w.turns .actionDone ∧ ∀ f, .hook .dispose f ∉ w.acts := by
  obtain ⟨ms, bs, hacts, hnotices, hadvances, hdispose⟩ : ∃ ms bs, w.acts = soFar ms ++ bs ∧ notices bs = [] ∧
      advances bs = [] ∧ ∀ f, .hook .dispose f ∉ bs := by
    have stood := h.stands
    unfold Stands at stood
    cases hphase : w.phase <;> rw [hphase] at stood hp
    case idle | starting | finished => cases hp
    case checking =>
      obtain ⟨ms, hms⟩ := run_reads stood.1
      exact ⟨ms, [], by rw [hms, List.append_nil], rfl, rfl, by simp⟩
    all_goals
      obtain ⟨ms, hms⟩ := run_reads stood.1
      exact ⟨ms, _, hms, rfl, rfl, by simp⟩
  have hturns : w.turns = ms.length := by
    rw [h.turns, hacts, advances_append, hadvances, List.append_nil, ← count_soFar, notices_soFar]
    simp
  refine ⟨by rw [hacts, notices_append, notices_soFar, hnotices, List.append_nil, hturns], fun f hf => ?_⟩
  rw [hacts] at hf
  exact (List.mem_append.mp hf).elim (dispose_not_mem_soFar ms f) (hdispose f)

theorem Since.fail_acts {as : List Act} (h : Since w as v) (ht : w.state.isTerminal = false) (f : Failure) :
    (v.fail f).acts = w.acts ++ as ++ ending f := by
  rw [Controller.fail_acts (by rw [h.frame.1]; exact ht), h.acts_eq]

end Acts

section Script

variable {S I C : Type} [DecidableEq I] {load : Engine.Script → S → Outcome Engine.Error Memory × S}
  {react : I → Notification → C → Reaction I Scripted C}

/-- Engines in memory, driven by a domain whose conduct is fixed in advance; where the engines come from, who
subscribes and what they do is left open. -/
abbrev scriptedParts (load : Engine.Script → S → Outcome Engine.Error Memory × S)
    (react : I → Notification → C → Reaction I Scripted C) : Assembly where
  Eng := Memory
  Dom := Scripted
  Source := S
  Id := I
  Crowd := C
  load := load
  react := react

variable {d : Scripted} {w v u : Controller (scriptedParts load react)} {g : Memory}

/-! ## Following the script -/

/-- Turns have been made as they were planned, none of them with a fault. -/
structure OnScript (d : Scripted) (w : Controller (scriptedParts load react)) : Prop where
  failSetup : d.failSetup = none
  turns_le : w.turns ≤ d.doneAfter
  unharmed : ∀ k, d.Strikes k → w.turns < k
  domain : ∃ facts, w.domain = { d with setups := 1, actions := w.turns, lastFacts := facts }

theorem OnScript.same (h : OnScript d w) (hd : v.domain = w.domain) (ht : v.turns = w.turns) : OnScript d v where
  failSetup := h.failSetup
  turns_le := ht ▸ h.turns_le
  unharmed := ht ▸ h.unharmed
  domain := hd ▸ ht ▸ h.domain

/-- A run that is over has come to what was foretold. -/
structure Fulfils (d : Scripted) (w : Controller (scriptedParts load react)) : Prop where
  announced : notices w.acts = d.forecast.notices
  turns : w.turns = d.forecast.turns
  /-- The domain has counted as many actions as there were turns, -/
  actions : w.domain.actions = d.forecast.turns
  /-- and was set up once. -/
  setups : w.domain.setups = 1
  disposals : w.domain.disposals = d.forecast.disposals
  /-- It is disposed if that was foretold, and else its disposal is not even begun. -/
  disposed : (∃ f, .hook .dispose f ∈ w.acts) ↔ d.forecast.disposals = 1

/-- How far the script has been followed, by the worker's phase. -/
def Heeds (d : Scripted) (w : Controller (scriptedParts load react)) : Prop :=
  match w.phase with
  | .idle => False
  | .starting => w.domain = d
  | .checking => OnScript d w
  | .approaching | .arriving | .parked | .advancing _ => OnScript d w ∧ w.turns < d.doneAfter
  | .disposing => OnScript d w ∧ w.turns = d.doneAfter
  | .finished => Fulfils d w

/-! ### Calls of the hooks -/

/-- A hook that only ends as planned. -/
theorem callHook_finish {k : Domain.Hook} {plan : Option String} {d' : Scripted} (hg : w.engine = some g)
    (hk : Domain.hook k w.domain = Scripted.finish plan d') :
    Failure.of? (w.callHook k).1 = plan.map (fun m => .domain (.failed m)) ∧ (w.callHook k).2.domain = d' := by
  obtain ⟨hf, hd⟩ := callHook_of_some hg k
  rw [hk, Scripted.perform_finish] at hf hd
  exact ⟨by rw [hf]; cases plan <;> rfl, hd⟩

/-- How the action of a turn fails, if a fault is planned for it. -/
def faultOf (d : Scripted) (k : Nat) : Option Failure :=
  if d.panicActionAt = some k then some (.panicked (.text (Scripted.panicText k)))
  else if d.failActionAt = some k then some (.domain (.failed (Scripted.failText k)))
  else none

theorem faultOf_eq_none {k : Nat} : faultOf d k = none ↔ ¬ (d.failActionAt = some k ∨ d.panicActionAt = some k) := by
  unfold faultOf
  split_ifs with hpanic hfail <;> simp [hpanic]
  all_goals assumption

theorem report_of_faultOf {k : Nat} {f : Failure} (h : faultOf d k = some f) : report f = .error (d.faultText k) := by
  rw [← Scripted.failureText_faultText]
  unfold faultOf at h
  unfold Scripted.faultText
  split_ifs at h with hpanic hfail
  · cases h
    rw [if_pos hpanic]
    rfl
  · cases h
    rw [if_neg hpanic]
    rfl

/-- The action of a turn ends as planned, and is counted. -/
theorem OnScript.action (h : OnScript d w) (hd : v.domain = w.domain) (hg : v.engine = some g)
    (sound : g.failing .facts = none) :
    Failure.of? (v.callHook .action).1 = faultOf d (w.turns + 1) ∧
      ∃ facts, (v.callHook .action).2.domain =
        { d with setups := 1, actions := w.turns + 1, lastFacts := facts } := by
  obtain ⟨facts, heq⟩ := h.domain
  obtain ⟨hf, hdomain⟩ := callHook_of_some hg .action
  have hact : Domain.hook .action v.domain =
      Scripted.act { d with setups := 1, actions := w.turns + 1, lastFacts := facts } := by
    rw [hd, heq]
    rfl
  rw [hact, Scripted.perform_act sound] at hf hdomain
  rw [hf, hdomain, faultOf]
  split_ifs <;> exact ⟨rfl, _, rfl⟩

namespace Heeds

theorem same (h : Heeds d w) (phase : v.phase = w.phase) (acts : v.acts = w.acts) (domain : v.domain = w.domain)
    (turns : v.turns = w.turns) : Heeds d v := by
  unfold Heeds at h ⊢
  rw [phase]
  cases hp : w.phase <;> rw [hp] at h
  case idle => exact h
  case starting => exact domain.trans h
  case checking => exact h.same domain turns
  case finished =>
    exact ⟨acts ▸ h.announced, turns ▸ h.turns, domain ▸ h.actions, domain ▸ h.setups, domain ▸ h.disposals,
      acts ▸ h.disposed⟩
  all_goals exact ⟨h.1.same domain turns, turns ▸ h.2⟩

/-- The phases in which no call is made keep to the script, if the run is not cancelled. -/
theorem stride (h : Heeds d w) (hs : Stride w v) (hl : w.phase.isLabour = false) (hc : w.cancelled = false) :
    Heeds d v := by
  have hdomain := hs.domain_eq hl
  have hturns := hs.turns_of_not_labour hl
  have onward (hon : OnScript d w ∧ w.turns < d.doneAfter) : OnScript d v ∧ v.turns < d.doneAfter :=
    ⟨hon.1.same hdomain hturns, hturns ▸ hon.2⟩
  unfold Heeds at h
  cases hs with
  | noEngine _ phase => rcases phase with hp | hp <;> rw [hp] at hl <;> cases hl
  | noEngineInTurn _ hp | resetFails hp | setUpFails hp | setUp hp | advanceFails hp | actionFails hp
  | turn hp | disposeFails hp | dispose hp => rw [hp] at hl; cases hl
  | askFails _ hd => cases hd
  | cancel _ hcancelled | cancelParked _ _ hcancelled => rw [hc] at hcancelled; cases hcancelled
  -- the domain has counted the turns, and answers by their number
  | goOn hp hd =>
    rw [hp] at h
    obtain ⟨facts, heq⟩ := h.domain
    have hdone := Except.ok.inj hd
    rw [heq] at hdone
    exact ⟨h.same hdomain hturns, hturns ▸ Nat.lt_of_not_le (of_decide_eq_false hdone)⟩
  | isDone hp hd =>
    rw [hp] at h
    obtain ⟨facts, heq⟩ := h.domain
    have hdone := Except.ok.inj hd
    rw [heq] at hdone
    exact ⟨h.same hdomain hturns, hturns ▸ Nat.le_antisymm h.turns_le (of_decide_eq_true hdone)⟩
  | comeUp hp | park hp | leave hp => rw [hp] at h; exact onward h
  | pass phase => rcases phase with hp | hp <;> rw [hp] at h <;> exact onward h

end Heeds

/-! ### Calls on engine and domain -/

theorem Fulfils.of_forecast {ns : List Notification} {n k : Nat} (forecast : d.forecast = ⟨ns, n, k⟩)
    (announced : notices w.acts = ns) (turns : w.turns = n)
    (domain : ∃ facts, w.domain = { d with setups := 1, actions := n, disposals := k, lastFacts := facts })
    (disposed : (∃ f, .hook .dispose f ∈ w.acts) ↔ k = 1) : Fulfils d w := by
  obtain ⟨facts, hd⟩ := domain
  refine ⟨?_, ?_, ?_, by rw [hd], ?_, ?_⟩ <;> rw [forecast]
  · exact announced
  · exact turns
  · rw [hd]
  · rw [hd]
  · exact disposed

/-- A call that fails, as was foretold, is the end of the run. -/
theorem Fulfils.of_fails {ns : List Notification} {n k : Nat} {as : List Act} {f : Failure}
    (forecast : d.forecast = ⟨ns, n, k⟩) (hv : Since w as u) (ht : w.state.isTerminal = false)
    (announced : notices w.acts ++ notices as ++ [report f] = ns) (turns : w.turns = n)
    (domain : ∃ facts, u.domain = { d with setups := 1, actions := n, disposals := k, lastFacts := facts })
    (disposed : (∃ r, .hook .dispose r ∈ w.acts ++ as) ↔ k = 1) : Fulfils d (u.fail f) := by
  have hacts := hv.fail_acts ht f
  have hdomain : (u.fail f).domain = u.domain := apply_domain u _
  refine .of_forecast forecast ?_ ((fail_turns u f).trans (hv.frame.2.1.trans turns)) (hdomain ▸ domain) ?_
  · rw [hacts, notices_append, notices_append]
    exact announced
  · rw [← disposed, hacts]
    simp [ending]

/-- Setting up ends as planned. -/
theorem Heeds.setUpFails (h : Heeds d w) (hd : d.IsFresh) (hr : Reachable w) (hg : w.engine = some g)
    (hp : w.phase = .starting) {f : Failure} (hf : Failure.of? ((w.ask .reset).2.callHook .setup).1 = some f)
    (hs : Since w [.engine .reset none, .hook .setup (some f)] ((w.ask .reset).2.callHook .setup).2) :
    Fulfils d (((w.ask .reset).2.callHook .setup).2.fail f) := by
  have stood := hr.sound.stands
  rw [Stands, hp] at stood
  rw [Heeds, hp] at h
  have hacts : w.acts = [] := run_reads stood.1
  have hturns := hr.sound.turns
  rw [hacts] at hturns
  obtain ⟨-, hg₁, hd₁, -⟩ := ask_of_some hg .reset
  obtain ⟨hplan, hdomain⟩ := callHook_finish (k := .setup) hg₁ rfl
  rw [hd₁, h] at hplan hdomain
  rw [hf] at hplan
  obtain ⟨m, hm, rfl⟩ := Option.map_eq_some_iff.mp hplan.symm
  have hforecast : d.forecast = ⟨[.error (failureText m)], 0, 0⟩ := by rw [Scripted.forecast, hm]
  refine .of_fails hforecast hs (by rw [stood.2]; rfl) ?_ hturns ⟨d.lastFacts, ?_⟩ ?_
  · rw [hacts]; rfl
  · rw [hdomain, hd.setups, hd.actions, hd.disposals]
  · rw [hacts]; simp

theorem Heeds.setUp (h : Heeds d w) (hd : d.IsFresh) (hr : Reachable w) (hg : w.engine = some g)
    (hp : w.phase = .starting) (hf : Failure.of? ((w.ask .reset).2.callHook .setup).1 = none)
    (hs : Since w [.engine .reset none, .hook .setup none] ((w.ask .reset).2.callHook .setup).2) :
    OnScript d ((((w.ask .reset).2.callHook .setup).2.apply .setupCompleted).enter .checking) := by
  have stood := hr.sound.stands
  rw [Stands, hp] at stood
  rw [Heeds, hp] at h
  have hturns := hr.sound.turns
  rw [show w.acts = [] from run_reads stood.1] at hturns
  obtain ⟨-, hg₁, hd₁, -⟩ := ask_of_some hg .reset
  obtain ⟨hplan, hdomain⟩ := callHook_finish (k := .setup) hg₁ rfl
  rw [hd₁, h] at hplan hdomain
  rw [hf] at hplan
  have hset : OnScript d ((w.ask .reset).2.callHook .setup).2 := by
    have hcount := hs.frame.2.1.trans hturns
    refine ⟨by simpa using hplan.symm, hcount ▸ Nat.zero_le _, fun k hk => hcount ▸ hk.2.1, d.lastFacts, ?_⟩
    rw [hdomain, hcount, hd.setups, hd.actions]
    rfl
  exact hset.same (apply_domain _ _) (apply_turns _ _)

/-! ### A turn -/

section Turn

variable {m : Mode}

/-- The engine is advanced, and the action ends as planned. -/
theorem OnScript.advance (h : OnScript d w) (hg : w.engine = some g) (sound : ∀ c, g.failing c = none) (m : Mode) :
    Failure.of? ((w.beginTurn.advance m).2.callHook .action).1 = faultOf d (w.turns + 1) ∧
      ∃ facts, ((w.beginTurn.advance m).2.callHook .action).2.domain =
        { d with setups := 1, actions := w.turns + 1, lastFacts := facts } := by
  obtain ⟨-, hg₁, hd₁, -⟩ := advance_of_some (w := w.beginTurn) ((beginTurn_engine w).trans hg) m
  refine h.action (hd₁.trans (apply_domain w _)) hg₁ ?_
  rw [(Engine.Memory.call_keeps _ g).2]
  exact sound _

theorem Heeds.actionFails (h : Heeds d w) (hd : d.IsFresh) (hr : Reachable w) (hg : w.engine = some g)
    (sound : ∀ c, g.failing c = none) (hp : w.phase = .advancing m) {f : Failure}
    (hf : Failure.of? ((w.beginTurn.advance m).2.callHook .action).1 = some f)
    (hs : Since w.beginTurn [.engine (advanceOf m) none, .hook .action (some f)]
      ((w.beginTurn.advance m).2.callHook .action).2) :
    Fulfils d (((w.beginTurn.advance m).2.callHook .action).2.fail f) := by
  have stood := hr.sound.stands
  rw [Stands, hp] at stood
  rw [Heeds, hp] at h
  obtain ⟨hnotices, hdispose⟩ := hr.sound.underWay (by rw [hp]; rfl)
  obtain ⟨hplan, facts, hafter⟩ := h.1.advance hg sound m
  rw [hf] at hplan
  -- it is the first turn for which a fault is planned
  have hfirst : d.firstFault = some (w.turns + 1) := by
    refine Scripted.firstFault_eq_some.mpr ⟨⟨?_, by omega, h.2⟩, fun j hj => h.1.unharmed j hj⟩
    by_contra hnone
    rw [faultOf_eq_none.mpr hnone] at hplan
    cases hplan
  have hforecast : d.forecast = ⟨.setupDone :: List.replicate w.turns .actionDone ++
      [.error (d.faultText (w.turns + 1))], w.turns + 1, 0⟩ := by
    rw [Scripted.forecast, h.1.failSetup, hfirst]
    rfl
  refine .of_fails hforecast hs (by rw [beginTurn_eq stood.2]; rfl) ?_ (beginTurn_turns w) ⟨facts, ?_⟩ ?_
  · rw [beginTurn_acts, hnotices, report_of_faultOf hplan.symm]
    simp [notices]
  · rw [hafter, hd.disposals]
  · rw [beginTurn_acts]
    simpa using hdispose

theorem Heeds.turn (h : Heeds d w) (hg : w.engine = some g) (sound : ∀ c, g.failing c = none)
    (hp : w.phase = .advancing m) (hf : Failure.of? ((w.beginTurn.advance m).2.callHook .action).1 = none)
    (hs : Since w.beginTurn [.engine (advanceOf m) none, .hook .action none]
      ((w.beginTurn.advance m).2.callHook .action).2) :
    OnScript d ((((w.beginTurn.advance m).2.callHook .action).2.apply .turnCompleted).enter .checking) := by
  rw [Heeds, hp] at h
  obtain ⟨hplan, facts, hafter⟩ := h.1.advance hg sound m
  have hnone := faultOf_eq_none.mp (hplan.symm.trans hf)
  have hmade : OnScript d ((w.beginTurn.advance m).2.callHook .action).2 := by
    have hcount := hs.frame.2.1.trans (beginTurn_turns w)
    refine ⟨h.1.failSetup, hcount ▸ h.2, fun k hk => ?_, facts, hcount ▸ hafter⟩
    have hlt := h.1.unharmed k hk
    have hne : k ≠ w.turns + 1 := fun heq => hnone (heq ▸ hk.1)
    rw [hcount]
    omega
  exact hmade.same (apply_domain _ _) (apply_turns _ _)

end Turn

/-! ### Disposal -/

/-- Where all turns were made, no fault was planned for any of them. -/
theorem OnScript.forecast_eq (h : OnScript d w) (ht : w.turns = d.doneAfter) :
    d.forecast = ⟨.setupDone :: List.replicate w.turns .actionDone ++ [d.farewell], w.turns, 1⟩ := by
  have hnone : d.firstFault = none := by
    refine Scripted.firstFault_eq_none.mpr fun k hk => ?_
    have hlt := h.unharmed k hk
    have hle := hk.2.2
    omega
  rw [Scripted.forecast, h.failSetup, hnone, ht]

/-- Disposing ends as planned. -/
theorem OnScript.dispose (h : OnScript d w) (hd : d.IsFresh) (hg : w.engine = some g) :
    Failure.of? (w.callHook .dispose).1 = d.failDispose.map (fun m => .domain (.failed m)) ∧
      ∃ facts, (w.callHook .dispose).2.domain =
        { d with setups := 1, actions := w.turns, disposals := 1, lastFacts := facts } := by
  obtain ⟨facts, heq⟩ := h.domain
  obtain ⟨hplan, hdomain⟩ := callHook_finish (k := .dispose) hg rfl
  rw [heq] at hplan hdomain
  exact ⟨hplan, facts, by rw [hdomain, hd.disposals]⟩

theorem Heeds.disposeFails (h : Heeds d w) (hd : d.IsFresh) (hr : Reachable w) (hg : w.engine = some g)
    (hp : w.phase = .disposing) {f : Failure} (hf : Failure.of? (w.callHook .dispose).1 = some f)
    (hs : Since w [.hook .dispose (some f)] (w.callHook .dispose).2) :
    Fulfils d ((w.callHook .dispose).2.fail f) := by
  have stood := hr.sound.stands
  rw [Stands, hp] at stood
  rw [Heeds, hp] at h
  obtain ⟨hplan, hdomain⟩ := h.1.dispose hd hg
  rw [hf] at hplan
  obtain ⟨m, hm, rfl⟩ := Option.map_eq_some_iff.mp hplan.symm
  refine .of_fails (h.1.forecast_eq h.2) hs (by rw [stood.2, betweenTurns_isTerminal]) ?_ rfl hdomain ?_
  · rw [(hr.sound.underWay (by rw [hp]; rfl)).1, Scripted.farewell, hm]
    simp [notices]
    rfl
  · simp

theorem Heeds.dispose (h : Heeds d w) (hd : d.IsFresh) (hr : Reachable w) (hg : w.engine = some g)
    (hp : w.phase = .disposing) (hf : Failure.of? (w.callHook .dispose).1 = none)
    (hs : Since w [.hook .dispose none] (w.callHook .dispose).2) :
    Fulfils d ((((w.callHook .dispose).2.apply .disposed).note (.ended none)).enter .finished) := by
  have stood := hr.sound.stands
  rw [Stands, hp] at stood
  rw [Heeds, hp] at h
  obtain ⟨hplan, facts, hafter⟩ := h.1.dispose hd hg
  rw [hf] at hplan
  have hplan : d.failDispose = none := by simpa using hplan.symm
  have hnext : (w.callHook .dispose).2.state.next .disposed = .ok ⟨.disposed, some .disposeDone⟩ := by
    rw [hs.frame.1, stood.2, next_disposed]
  have hacts : ((((w.callHook .dispose).2.apply .disposed).note (.ended none)).enter .finished).acts =
      w.acts ++ [.hook .dispose none, .emitted .disposeDone, .ended none] := by
    have hsame : ((((w.callHook .dispose).2.apply .disposed).note (.ended none)).enter .finished).acts =
        (((w.callHook .dispose).2.apply .disposed).note (.ended none)).acts := rfl
    rw [hsame, acts_note, acts_of_notice hnext, hs.acts_eq]
    simp [Entry.act?]
  have hdomain : ((((w.callHook .dispose).2.apply .disposed).note (.ended none)).enter .finished).domain =
      (w.callHook .dispose).2.domain := apply_domain _ _
  refine .of_forecast (h.1.forecast_eq h.2) ?_ ((apply_turns _ _).trans hs.frame.2.1) ⟨facts, hdomain.trans hafter⟩ ?_
  · rw [hacts, notices_append, (hr.sound.underWay (by rw [hp]; rfl)).1, Scripted.farewell, hplan]
    rfl
  · rw [hacts]
    simp

/-- **Where the worker makes calls, it keeps to the script.** -/
theorem Heeds.labour (h : Heeds d w) (hd : d.IsFresh) (hr : Reachable w) (hg : w.engine = some g)
    (sound : ∀ c, g.failing c = none) (hl : Labour w v) : Heeds d v := by
  have hb : w.beginTurn.engine = some g := (beginTurn_engine w).trans hg
  have hreset := (ask_of_some hg .reset).1.trans (of?_call_of_sound (sound _))
  have hadvance (m : Mode) := (advance_of_some hb m).1.trans (of?_call_of_sound (sound _))
  have hw : w.engine.isSome := by rw [hg]; rfl
  have hwb : w.beginTurn.engine.isSome := by rw [hb]; rfl
  have hsetup := (ask_since hw .reset).trans (callHook_since (ask_since hw .reset).engine .setup)
  have haction (m : Mode) := (advance_since hwb m).trans (callHook_since (advance_since hwb m).engine .action)
  have hdispose := callHook_since hw .dispose
  cases hl with
  | resetFails _ hf => cases hreset.symm.trans hf
  | advanceFails _ hf => cases (hadvance _).symm.trans hf
  | setUpFails hp hf hf' =>
    rw [hf, hf'] at hsetup
    exact h.setUpFails hd hr hg hp hf' hsetup
  | setUp hp hf hf' =>
    rw [hf, hf'] at hsetup
    exact h.setUp hd hr hg hp hf' hsetup
  | @actionFails m hp f hf hf' =>
    have hs := haction m
    rw [hf, hf'] at hs
    exact h.actionFails hd hr hg sound hp hf' hs
  | @turn m hp hf hf' =>
    have hs := haction m
    rw [hf, hf'] at hs
    exact h.turn hg sound hp hf' hs
  | disposeFails hp hf => exact h.disposeFails hd hr hg hp hf (hf ▸ hdispose)
  | dispose hp hf => exact h.dispose hd hr hg hp hf (hf ▸ hdispose)

/-! ## A whole run -/

/-- **The script is followed in every run** that is not cancelled. -/
theorem Reachable.heeds (h : Reachable w) (hp : w.phase = .starting) (hd : w.domain.IsFresh)
    (hg : w.engine = some g) (sound : ∀ c, g.failing c = none) (ms : List (Move I))
    (hc : (w.moves ms).cancelled = false) : Heeds w.domain (w.moves ms) := by
  -- the engine goes on to be the one that does not fail
  have serves {v : Controller (scriptedParts load react)} (hs : Serves g v) :
      ∃ g', v.engine = some g' ∧ ∀ c, g'.failing c = none := by
    obtain ⟨rs, g', hg', hserved⟩ := hs
    exact ⟨g', hg', (keeps_of_served hserved).2 ▸ sound⟩
  refine (h.moves_uphold (P := fun v => v.phase ≠ .idle ∧ Serves g v ∧ (v.cancelled = false → Heeds w.domain v))
    ?_ ?_ ?_ ⟨by simp [hp], ⟨[], g, hg, .nil⟩, fun _ => ?_⟩ ms).2.2 hc
  · intro u a hu ⟨hidle, hs, hf⟩
    have hl : u.launch ≠ none := by rw [ne_eq, hu.sound.launched]; exact hidle
    have he := access_effect u a
    obtain ⟨hphase, -, hacts, -⟩ := he.of_launched hl
    refine ⟨hphase ▸ hidle, ?_, fun hv => ?_⟩
    · rcases access_engine hl a with heng | ⟨c, -, heng⟩
      · obtain ⟨rs, g', hg', hserved⟩ := hs
        exact ⟨rs, g', heng.trans hg', hserved⟩
      · exact hs.call c heng
    · have hu : u.cancelled = false := by
        by_contra hcancelled
        rw [he.stays_cancelled (by simpa using hcancelled)] at hv
        cases hv
      exact (hf hu).same hphase hacts he.domain_eq he.turns_eq
  · intro u v _ ⟨hidle, hs, hf⟩ ht
    obtain ⟨hcancelled, hphase, hacts, hdomain⟩ := ht.frame
    have heng : v.engine = u.engine := by cases ht <;> rfl
    refine ⟨hphase ▸ hidle, ?_, fun hv => (hf (hcancelled ▸ hv)).same hphase hacts hdomain ht.turns_eq⟩
    obtain ⟨rs, g', hg', hserved⟩ := hs
    exact ⟨rs, g', heng.trans hg', hserved⟩
  · intro u r hu ⟨hidle, hs, hf⟩ hproceed hr
    have hst := proceed_stride hproceed
    refine ⟨hst.phase_ne_idle, hs.phase hproceed, fun hv => ?_⟩
    have hheeds := hf (hst.cancelled_eq ▸ hv)
    by_cases hl : u.phase.isLabour = true
    · obtain ⟨g', hg', hsound⟩ := serves hs
      exact hheeds.labour hd hu hg' hsound (proceed_labour hproceed hl)
    · exact hheeds.stride hst (by simpa using hl) (hst.cancelled_eq ▸ hv)
  · rw [Heeds, hp]

/-- There are no more turns than the script sets out to make, and no more announcements than it foretells. -/
theorem Heeds.bounds (h : Heeds d w) (hr : Reachable w) :
    w.turns ≤ d.doneAfter ∧ notices w.acts <+: d.forecast.notices := by
  have underWay (hon : OnScript d w) (hp : w.phase.isUnderWay = true) :
      w.turns ≤ d.doneAfter ∧ notices w.acts <+: d.forecast.notices := by
    rw [(hr.sound.underWay hp).1]
    exact ⟨hon.turns_le, Scripted.prefix_forecast hon.failSetup hon.turns_le hon.unharmed⟩
  have stood := hr.sound.stands
  unfold Heeds at h
  unfold Stands at stood
  cases hp : w.phase <;> rw [hp] at h stood
  case idle => exact h.elim
  case starting =>
    rw [hr.sound.turns, show w.acts = [] from run_reads stood.1]
    exact ⟨Nat.zero_le _, List.nil_prefix⟩
  case checking => exact underWay h (by rw [hp]; rfl)
  case finished => exact ⟨h.turns ▸ d.forecast_turns_le, h.announced ▸ List.prefix_rfl⟩
  all_goals exact underWay h.1 (by rw [hp]; rfl)

/-- A run that is launched with a script does what was foretold, as long as it is not cancelled. -/
structure PlaysOut (w : Controller (scriptedParts load react)) : Prop where
  /-- Nothing else is announced on the way, -/
  announces : ∀ ms, (w.moves ms).cancelled = false → notices (w.moves ms).acts <+: w.domain.forecast.notices
  /-- nothing of it is missing in the end, -/
  fulfils : ∀ ms, (w.moves ms).cancelled = false → (w.moves ms).phase = .finished → Fulfils w.domain (w.moves ms)
  /-- and whoever was always registered has been told just that. -/
  told : ∀ ms, (w.moves ms).cancelled = false → (w.moves ms).isDone = true →
    ∀ s, (∀ e ∈ (w.moves ms).emissions, s ∈ e.2) → (w.moves ms).toldTo s = w.domain.forecast.notices
  /-- The run comes to this end, if the worker is kept waiting for ever neither at the gate nor at a full channel. -/
  ends : ∀ s, IsFair w s → (∀ n, (w.along s n).cancelled = false) →
    ∃ n, ∀ m ≥ n, (w.along s m).isDone = true ∧ Fulfils w.domain (w.along s m)

/-- **A run goes as it was scripted**, whatever the agenda, and whatever modes are set. -/
theorem Reachable.plays_out (h : Reachable w) (hp : w.phase = .starting) (fresh : w.domain.IsFresh)
    (hg : w.engine = some g) (sound : ∀ c, g.failing c = none) : PlaysOut w := by
  have heeds := h.heeds hp fresh hg sound
  have fulfils (ms : List (Move I)) (hc : (w.moves ms).cancelled = false) (hf : (w.moves ms).phase = .finished) :
      Fulfils w.domain (w.moves ms) := by
    have hheeds := heeds ms hc
    rwa [Heeds, hf] at hheeds
  refine ⟨fun ms hc => ((heeds ms hc).bounds (h.moves ms)).2, fulfils, fun ms hc hdone s stays => ?_,
    fun s hs hc => ?_⟩
  · obtain ⟨hf, hout, -⟩ := isDone_iff.mp hdone
    have htold := toldTo_append_of_stays (h.moves ms).recorded stays
    rwa [dueTo, hout, List.filterMap_nil, List.append_nil, (fulfils ms hc hf).announced] at htold
  · have hturns (n : Nat) : (w.along s n).turns ≤ w.domain.doneAfter := by
      have hn := hc n
      rw [along_eq] at hn ⊢
      exact ((heeds _ hn).bounds (h.moves _)).1
    obtain ⟨n, hdone⟩ := hs.ends h (by simp [hp]) hturns
    refine ⟨n, fun m hm => ⟨hdone m hm, ?_⟩⟩
    have hf := (isDone_iff.mp (hdone m hm)).1
    have hm := hc m
    rw [along_eq] at hf hm ⊢
    exact fulfils _ hm hf

end Script

/-! ## A rehearsal -/

/-- Where there are no observers, nobody stops a run while the worker makes a step. -/
theorem step_cancelled {A : Assembly} [IsEmpty A.Id] {w v : Controller A} (h : w.step = some v) :
    v.cancelled = w.cancelled := by
  cases ho : w.outbox with
  | nil => exact (step_stride ho h).cancelled_eq
  | cons due rest =>
    obtain ⟨i | k, n⟩ := due
    · exact isEmptyElim i
    · unfold step at h
      rw [ho] at h
      split at h
      · cases h
      · cases h
        rfl

/-- A controller with a script: the third turn is to fail, and the second to panic. -/
def stage : Controller (scriptedParts Engine.Catalogue.load (I := Empty) (C := Unit) (nomatch ·)) :=
  .create { Config.standard with initialMode := .runOne }
    [("rules", .ok { initial := ["0 lay: *", "0 brood: *"], failing := fun _ => none })]
    { doneAfter := 3, failActionAt := some 3, panicActionAt := some 2 } ()

/-- A run that is launched with it. -/
def rehearsal : Controller (scriptedParts Engine.Catalogue.load (I := Empty) (C := Unit) (nomatch ·)) :=
  stage.moves [.call (.startEngine ⟨"rules"⟩), .call .execute]

/-- To resume and to let the worker go on, by turns. -/
def patience (n : Nat) : Move Empty := if n % 2 = 0 then .call .resume else .work

theorem rehearsal_reachable : Reachable rehearsal := .moves (.create _ _ _ _) _

theorem rehearsal_isFair : IsFair rehearsal patience :=
  .of_done (k := 30) rehearsal_reachable (fun n => ⟨2 * n + 1, by omega, by simp [patience]⟩) (by decide +kernel)

theorem rehearsal_uncancelled (n : Nat) : (rehearsal.along patience n).cancelled = false := by
  induction n with
  | zero => decide +kernel
  | succ n ih =>
    rw [along, patience]
    split
    · rw [move_call, call, resume_eq]
      split <;> exact ih
    · rw [move]
      cases hs : (rehearsal.along patience n).step with
      | none => exact ih
      | some v => exact (step_cancelled (A := scriptedParts _ _) hs).trans ih

theorem rehearsal_engine : rehearsal.engine.isSome = true := by decide +kernel

/-- The panic comes first, and the run comes to it. -/
theorem plays_out_of_rehearsal :
    (rehearsal.domain.forecast =
        ⟨[.setupDone, .actionDone, .error "panic during execution: action exploded on turn 2"], 2, 0⟩ ∧
      IsFair rehearsal patience ∧ ∀ n, (rehearsal.along patience n).cancelled = false) ∧
    PlaysOut rehearsal :=
  ⟨⟨by decide +kernel, rehearsal_isFair, rehearsal_uncancelled⟩,
    Reachable.plays_out rehearsal_reachable (by decide +kernel)
      ⟨by decide +kernel, by decide +kernel, by decide +kernel⟩ (Option.some_get rehearsal_engine).symm
      fun c => by cases c <;> decide +kernel⟩

end Controller

end Cadence
