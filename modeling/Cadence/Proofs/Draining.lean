import Cadence.Engine.Catalogue
import Cadence.Proofs.Firing
import Cadence.Proofs.InUse
import Cadence.Proofs.Position
import Mathlib.Data.List.Basic

/-!
# Cadence.Proofs.Draining — the cadence does not change the result

A run of an engine in memory, with the domain that waits for quiescence, fires the agenda in order, whatever the
cadence: some turns fire one activation each, and the first one that does not fires all the others.  `Synced` ties
engine, domain and turns to the number of activations fired so far; it holds whenever the worker is between two
phases.

* `Fires`: how many activations are fired by the advances of a run.
* `Reachable.drains`: engine and domain are in step in every run.
* `Reachable.drained`: the result of a run that was disposed, and its turns.
-/

namespace Cadence.Controller

open Engine (Memory Served)
open Engine.Memory (Fired factList)

/-! ## Advances -/

/-- Advances that fire `k` of `n` activations: one after another, or the others at once in the end. -/
inductive Fires (n : Nat) : List Engine.Call → Nat → Prop where
  | steps {k : Nat} (h : k ≤ n) : Fires n (List.replicate k .step) k
  | sweep {k : Nat} (h : k < n) : Fires n (List.replicate k .step ++ [.run]) n

namespace Fires

variable {n k : Nat} {as : List Engine.Call}

theorem length_le (h : Fires n as k) : as.length ≤ n := by
  cases h with
  | steps h => simpa using h
  | sweep h => simpa using Nat.succ_le_of_lt h

/-- As long as something is left to fire, every advance has fired one. -/
theorem eq_replicate (h : Fires n as k) (hk : k < n) : as = List.replicate k .step := by
  cases h with
  | steps h => rfl
  | sweep h => exact absurd hk (Nat.lt_irrefl _)

theorem step (h : Fires n as k) (hk : k < n) : Fires n (as ++ [.step]) (k + 1) := by
  rw [h.eq_replicate hk, ← List.replicate_succ']
  exact .steps hk

theorem run (h : Fires n as k) (hk : k < n) : Fires n (as ++ [.run]) n := by
  rw [h.eq_replicate hk]
  exact .sweep hk

end Fires

section Acts

variable {A : Assembly} {w v : Controller A}

theorem advances_apply (w : Controller A) (x : Event) : advances (w.apply x).acts = advances w.acts := by
  rw [acts_apply, advances_append]
  cases w.state.noticeOf x <;> simp [advances]

theorem advances_note {e : Entry A.Id} (he : ∀ r, e ≠ .engine r) (w : Controller A) :
    advances (w.note e).acts = advances w.acts := by
  rw [acts_note, advances_append]
  cases e with
  | engine r => exact absurd rfl (he r)
  | hasDone r => cases r <;> simp [advances, Entry.act?]
  | _ => simp [advances, Entry.act?]

theorem ask_of_some {g : A.Eng} (hg : w.engine = some g) (c : Engine.Call) :
    Failure.of? (w.ask c).1 = Failure.of? ((Engine.call c g).1.mapError fun e => .domain (.engine e)) ∧
      (w.ask c).2.engine = some (Engine.call c g).2 ∧ (w.ask c).2.domain = w.domain ∧
      (w.ask c).2.turns = w.turns := by
  refine ⟨?_, ?_, ?_, ?_⟩ <;> simp only [ask, hg, note]

theorem callHook_of_some {g : A.Eng} (hg : w.engine = some g) (k : Domain.Hook) :
    Failure.of? (w.callHook k).1 =
        Failure.of? ((Engine.perform (Domain.hook k w.domain) g).1.1.mapError .domain) ∧
      (w.callHook k).2.domain = (Engine.perform (Domain.hook k w.domain) g).1.2 := by
  refine ⟨?_, ?_⟩ <;> simp only [callHook, hg]

theorem advance_of_some {g : A.Eng} (hg : w.engine = some g) (m : Mode) :
    Failure.of? (w.advance m).1 =
        Failure.of? ((Engine.call (advanceOf m) g).1.mapError fun e => .domain (.engine e)) ∧
      (w.advance m).2.engine = some (Engine.call (advanceOf m) g).2 ∧ (w.advance m).2.domain = w.domain ∧
      (w.advance m).2.turns = w.turns := by
  unfold advance advanceOf
  cases m.isSingleStep
  · simp only [Bool.false_eq_true, if_false, Failure.of?_map]
    exact ask_of_some hg .run
  · simp only [if_true, Failure.of?_map]
    exact ask_of_some hg .step

end Acts

/-! ## Engine and domain in step -/

section Memory

variable {S I C : Type} [DecidableEq I] {load : Engine.Script → S → Outcome Engine.Error Memory × S}
  {react : I → Notification → C → Reaction I Domain.Quiescence C}

/-- Engines in memory, driven by a domain that waits for quiescence; where the engines come from, who subscribes
and what they do is left open. -/
abbrev memoryParts (load : Engine.Script → S → Outcome Engine.Error Memory × S)
    (react : I → Notification → C → Reaction I Domain.Quiescence C) : Assembly where
  Eng := Memory
  Dom := Domain.Quiescence
  Source := S
  Id := I
  Crowd := C
  load := load
  react := react

variable {w v : Controller (memoryParts load react)} {g : Memory} {k : Nat}

/-- An engine that does not fail and lists its rules as lines. -/
structure IsTame (g : Memory) : Prop where
  sound : ∀ c, g.failing c = none
  lines : ∀ a ∈ g.initial, Domain.IsActivation a

/-- No call changes whether an engine fails or what it was made with. -/
theorem keeps_of_served {rs : List Engine.Record} {g g' : Memory} (h : Served g rs g') :
    g'.initial = g.initial ∧ g'.failing = g.failing := by
  induction h with
  | nil => exact ⟨rfl, rfl⟩
  | @call rs g' _ r _ ih =>
    obtain ⟨hi, hf⟩ := Engine.Memory.call_keeps r.call g'
    exact ⟨hi.trans ih.1, hf.trans ih.2⟩

theorem IsTame.call (h : IsTame g) (c : Engine.Call) : IsTame (Engine.call c g).2 := by
  obtain ⟨hi, hf⟩ := Engine.Memory.call_keeps c g
  exact ⟨hf ▸ h.sound, hi ▸ h.lines⟩

/-- A call that was not told to fail does not fail the run. -/
theorem of?_call_of_sound {c : Engine.Call} (h : g.failing c = none) :
    Failure.of? ((Engine.call c g).1.mapError fun e => Failure.domain (.engine e)) = none := by
  rw [Engine.Memory.call_of_sound h]
  rfl

/-- `k` activations have been fired, and the domain knows. -/
structure Synced (w : Controller (memoryParts load react)) (g : Memory) (k : Nat) : Prop where
  fires : Fires g.initial.length (advances w.acts) k
  fired : Fired g k
  facts : w.domain.facts = Text.joined "\n" g.facts
  turns : w.domain.turns = w.turns
  done : w.domain.done = true ↔ k = g.initial.length

theorem Synced.same (h : Synced w g k) (ha : advances v.acts = advances w.acts) (hd : v.domain = w.domain)
    (ht : v.turns = w.turns) : Synced v g k where
  fires := ha ▸ h.fires
  fired := h.fired
  facts := hd ▸ h.facts
  turns := hd ▸ ht ▸ h.turns
  done := hd ▸ h.done

theorem Synced.query (h : Synced w g k) {c : Engine.Call} (hc : c = .facts ∨ c = .agenda) :
    Synced w (Engine.call c g).2 k := by
  have hi := (Engine.Memory.call_keeps c g).1
  have hf := h.fired.query hc
  refine ⟨hi ▸ h.fires, hf, ?_, h.turns, hi ▸ h.done⟩
  rw [hf.facts, hi, h.facts, h.fired.facts]

/-- A hook has looked at the engine and has left `d` with what it saw. -/
structure Looks (hook : Domain.Hook) (d : Domain.Quiescence) (w : Controller (memoryParts load react))
    (g : Memory) : Prop where
  ok : Failure.of? (w.callHook hook).1 = none
  engine : (w.callHook hook).2.engine = some ((g.counted .facts).counted .agenda)
  domain : (w.callHook hook).2.domain = { d with
    facts := Text.joined "\n" g.facts
    done := Domain.agendaIsEmpty (Text.joined "\n" g.agenda) }
  turns : (w.callHook hook).2.turns = w.turns

theorem callHook_refresh {hook : Domain.Hook} {d : Domain.Quiescence} (hg : w.engine = some g) (ht : IsTame g)
    (hk : Domain.hook hook w.domain = d.refresh) : Looks hook d w g := by
  obtain ⟨log, hlog⟩ := Domain.Quiescence.perform_refresh ht.sound d
  refine ⟨?_, ?_, ?_, ?_⟩ <;> simp only [callHook, hg, hk, hlog]
  rfl

theorem callHook_setup (hg : w.engine = some g) (ht : IsTame g) :
    Looks .setup { w.domain with turns := 0, report := none } w g := callHook_refresh hg ht rfl

theorem callHook_action (hg : w.engine = some g) (ht : IsTame g) :
    Looks .action { w.domain with turns := w.domain.turns + 1 } w g := callHook_refresh hg ht rfl

/-- An engine is looked at after `k` activations have been fired. -/
theorem Synced.of_refresh {d : Domain.Quiescence} (ht : IsTame g) (hf : Fired g k)
    (hd : v.domain = { d with
      facts := Text.joined "\n" g.facts
      done := Domain.agendaIsEmpty (Text.joined "\n" g.agenda) })
    (hn : d.turns = v.turns) (ha : Fires g.initial.length (advances v.acts) k) :
    Synced v ((g.counted .facts).counted .agenda) k where
  fires := ha
  fired := (hf.counted _).counted _
  facts := by rw [hd]; rfl
  turns := by rw [hd]; exact hn
  done := by
    have hlines : ∀ a ∈ g.agenda, Domain.IsActivation a := fun a hm =>
      ht.lines a (List.mem_of_mem_drop (hf.agenda ▸ hm))
    rw [hd]
    change Domain.agendaIsEmpty (Text.joined "\n" g.agenda) = true ↔ k = g.initial.length
    rw [Domain.agendaIsEmpty_joined hlines, List.isEmpty_iff, hf.agenda, List.drop_eq_nil_iff]
    exact ⟨fun h => Nat.le_antisymm hf.le h, fun h => h ▸ Nat.le_refl _⟩

/-- How far the engine is, by the worker's phase. -/
def Drains (w : Controller (memoryParts load react)) (g : Memory) : Prop :=
  match w.phase with
  | .idle => True
  | .starting => True
  | .checking => ∃ k, Synced w g k
  | .approaching | .arriving | .parked | .advancing _ => ∃ k, Synced w g k ∧ k < g.initial.length
  | .disposing => Synced w g g.initial.length
  | .finished => ∃ k, Synced w g k ∧ (w.state = .disposed →
      k = g.initial.length ∧ w.domain.report = some ⟨w.turns, Text.joined "\n" g.facts⟩)

/-- A turn fires one activation or all that are left. -/
theorem fires_advance {as : List Engine.Call} (ht : IsTame g) (hf : Fired g k) (ha : Fires g.initial.length as k)
    (hk : k < g.initial.length) (m : Mode) :
    ∃ k', Fired (Engine.call (advanceOf m) g).2 k' ∧
      Fires (Engine.call (advanceOf m) g).2.initial.length (as ++ [advanceOf m]) k' := by
  rw [(Engine.Memory.call_keeps _ g).1, Engine.Memory.call_of_sound (ht.sound _)]
  unfold advanceOf
  cases m.isSingleStep
  · exact ⟨_, (hf.counted .run).run, ha.run hk⟩
  · exact ⟨_, (hf.counted .step).step hk, ha.step hk⟩

section Phases

variable (hg : w.engine = some g)

include hg

/-- Disposing writes down what the domain knows. -/
theorem Drains.dispose (hp : w.phase = .disposing) (hd : Drains w g) :
    ∃ g', ((((w.callHook .dispose).2.apply .disposed).note (.ended none)).enter .finished).engine = some g' ∧
      Drains ((((w.callHook .dispose).2.apply .disposed).note (.ended none)).enter .finished) g' := by
  have hacts := (callHook_since (w := w) (by rw [hg]; rfl) .dispose).acts_eq
  have hs : Synced w g g.initial.length := by rwa [Drains, hp] at hd
  have hhook : (w.callHook .dispose).2.engine = some g ∧ (w.callHook .dispose).2.domain =
      { w.domain with report := some ⟨w.domain.turns, w.domain.facts⟩ } ∧
      (w.callHook .dispose).2.turns = w.turns := by
    refine ⟨?_, ?_, ?_⟩ <;> simp only [callHook, hg] <;> rfl
  obtain ⟨hg₁, hd₁, hn₁⟩ := hhook
  have hs' : Synced (w.callHook .dispose).2 g g.initial.length := by
    refine ⟨?_, hs.fired, ?_, ?_, ?_⟩
    · rw [hacts, advances_append]
      simpa [advances] using hs.fires
    · rw [hd₁]; exact hs.facts
    · rw [hd₁, hn₁]; exact hs.turns
    · rw [hd₁]; exact hs.done
  refine ⟨g, (apply_engine _ _).trans hg₁, _, hs'.same ?_ (apply_domain _ _) (apply_turns _ _), fun _ => ⟨rfl, ?_⟩⟩
  · exact (advances_note (by simp) _).trans (advances_apply _ _)
  · have hdom : ((((w.callHook .dispose).2.apply .disposed).note (.ended none)).enter .finished).domain =
        (w.callHook .dispose).2.domain := apply_domain _ _
    have hturns : ((((w.callHook .dispose).2.apply .disposed).note (.ended none)).enter .finished).turns =
        (w.callHook .dispose).2.turns := apply_turns _ _
    rw [hdom, hturns, hd₁, hn₁, hs.turns, hs.facts]

variable (ht : IsTame g)

include ht

/-- Setting up resets the engine and looks at it. -/
theorem Drains.setUp (hr : Reachable w) (hp : w.phase = .starting) :
    ∃ g', ((((w.ask .reset).2.callHook .setup).2.apply .setupCompleted).enter .checking).engine = some g' ∧
      Drains ((((w.ask .reset).2.callHook .setup).2.apply .setupCompleted).enter .checking) g' := by
  have ha := ask_since (w := w) (by rw [hg]; rfl) .reset
  have hacts := (ha.trans (callHook_since ha.engine .setup)).acts_eq
  have hst := hr.sound.stands
  rw [Stands, hp] at hst
  have hn := hr.sound.turns
  rw [show w.acts = [] from run_reads hst.1] at hacts hn
  obtain ⟨-, hg₁, -, hn₁⟩ := ask_of_some hg .reset
  obtain ⟨-, hg₂, hd₂, hn₂⟩ := callHook_setup hg₁ (ht.call .reset)
  have hf : Fired (Engine.call .reset g).2 0 := by
    rw [Engine.Memory.call_of_sound (ht.sound .reset)]
    exact .reset _
  have hs : Synced ((w.ask .reset).2.callHook .setup).2 _ 0 :=
    .of_refresh (ht.call .reset) hf hd₂ (by rw [hn₂, hn₁, hn]; rfl) (by
      rw [hacts]
      exact .steps (Nat.zero_le _))
  exact ⟨_, (apply_engine _ _).trans hg₂, 0, hs.same (advances_apply _ _) (apply_domain _ _) (apply_turns _ _)⟩

/-- A turn advances the engine and looks at it. -/
theorem Drains.turn {m : Mode} (hp : w.phase = .advancing m) (hd : Drains w g) :
    ∃ g', ((((w.beginTurn.advance m).2.callHook .action).2.apply .turnCompleted).enter .checking).engine =
        some g' ∧
      Drains ((((w.beginTurn.advance m).2.callHook .action).2.apply .turnCompleted).enter .checking) g' := by
  have hg₀ : w.beginTurn.engine = some g := (beginTurn_engine w).trans hg
  have ha := advance_since (w := w.beginTurn) (by rw [hg₀]; rfl) m
  have hacts := (ha.trans (callHook_since ha.engine .action)).acts_eq
  obtain ⟨k, hs, hk⟩ : ∃ k, Synced w g k ∧ k < g.initial.length := by rwa [Drains, hp] at hd
  obtain ⟨-, hg₁, hd₁, hn₁⟩ := advance_of_some hg₀ m
  obtain ⟨k', hf, hfires⟩ := fires_advance ht hs.fired hs.fires hk m
  obtain ⟨-, hg₂, hd₂, hn₂⟩ := callHook_action hg₁ (ht.call _)
  have hbegin : w.beginTurn.domain = w.domain := apply_domain w _
  have hs' : Synced ((w.beginTurn.advance m).2.callHook .action).2
      (((Engine.call (advanceOf m) g).2.counted .facts).counted .agenda) k' := by
    refine .of_refresh (ht.call _) hf hd₂ ?_ ?_
    · rw [hn₂, hn₁, hd₁, hbegin, beginTurn_turns, ← hs.turns]
    · have hturn : advances w.beginTurn.acts = advances w.acts := advances_apply w .turnStarted
      rw [hacts, advances_append, hturn]
      simpa [advances, advanceOf_ne_reset] using hfires
  exact ⟨_, (apply_engine _ _).trans hg₂, k',
    hs'.same (advances_apply _ _) (apply_domain _ _) (apply_turns _ _)⟩

/-- No phase fails in which the worker makes calls. -/
theorem Drains.labour (hr : Reachable w) (hl : Labour w v) (hd : Drains w g) : ∃ g', v.engine = some g' ∧ Drains v g' := by
  have hb : w.beginTurn.engine = some g := (beginTurn_engine w).trans hg
  have hreset := (ask_of_some hg .reset).1.trans (of?_call_of_sound (ht.sound _))
  have hadvance (m : Mode) := (advance_of_some hb m).1.trans (of?_call_of_sound (ht.sound _))
  cases hl with
  | setUp hp => exact Drains.setUp hg ht hr hp
  | turn hp => exact hd.turn hg ht hp
  | dispose hp => exact hd.dispose hg hp
  | resetFails _ hf => cases hreset.symm.trans hf
  | advanceFails _ hf => cases (hadvance _).symm.trans hf
  | setUpFails _ _ hf =>
    have hok := (callHook_setup (ask_of_some hg .reset).2.1 (ht.call .reset)).1
    cases hok.symm.trans hf
  | @actionFails m _ _ _ hf =>
    have hok := (callHook_action (advance_of_some hb m).2.1 (ht.call _)).1
    cases hok.symm.trans hf
  | disposeFails _ hf =>
    simp only [callHook, hg] at hf
    cases hf

end Phases

theorem fail_state (ht : w.state.isTerminal = false) (f : Failure) : (w.fail f).state = endState (some f) := by
  have hs : (w.fail f).state = w.state.after (.faulted f.message) := apply_state w _
  rw [hs, State.after, next_faulted ht f]

/-- A cancelled run has fired what it has fired. -/
theorem Drains.fail (hd : Synced w g k) (ht : w.state.isTerminal = false) (f : Failure) :
    Drains (w.fail f) g := by
  have hacts : advances (w.fail f).acts = advances w.acts :=
    (advances_note (by simp) _).trans (advances_apply _ _)
  refine ⟨k, hd.same hacts (apply_domain _ _) (apply_turns _ _), fun hs => ?_⟩
  rw [fail_state ht] at hs
  cases hs

/-- In the other phases nothing is fired, and the worker goes on to a turn only if something is left to fire. -/
theorem Drains.stride (hr : Reachable w) (hs : Stride w v) (hl : w.phase.isLabour = false) (hd : Drains w g) :
    v.engine = w.engine ∧ Drains v g := by
  have hst := hr.sound.stands
  cases hs with
  | noEngine _ phase => rcases phase with hp | hp <;> rw [hp] at hl <;> cases hl
  | noEngineInTurn _ hp | resetFails hp | setUpFails hp | setUp hp | advanceFails hp | actionFails hp
  | turn hp | disposeFails hp | dispose hp => rw [hp] at hl; cases hl
  | askFails hp h => cases h
  | goOn hp h =>
    rw [Drains, hp] at hd
    obtain ⟨k, hk⟩ := hd
    refine ⟨rfl, k, hk.same (advances_note (by simp) _) rfl rfl, Nat.lt_of_le_of_ne hk.fired.le fun heq => ?_⟩
    cases (hk.done.mpr heq).symm.trans (Except.ok.inj h)
  | isDone hp h =>
    rw [Drains, hp] at hd
    obtain ⟨k, hk⟩ := hd
    have hkn : k = g.initial.length := hk.done.mp (Except.ok.inj h)
    rw [hkn] at hk
    exact ⟨rfl, hk.same (advances_note (by simp) _) rfl rfl⟩
  | cancel phase hc =>
    obtain ⟨k, hk, ht⟩ : ∃ k, Synced w g k ∧ w.state.isTerminal = false := by
      rcases phase with hp | hp <;> rw [Drains, hp] at hd <;> rw [Stands, hp] at hst <;>
        exact ⟨_, hd.choose_spec.1, hst.2 ▸ betweenTurns_isTerminal _⟩
    exact ⟨apply_engine _ _, Drains.fail hk ht _⟩
  | cancelParked hp hg hc =>
    rw [Drains, hp] at hd
    rw [Stands, hp] at hst
    obtain ⟨k, hk, -⟩ := hd
    have hout : Synced { w with gate := ⟨false, false⟩ } g k := hk.same rfl rfl rfl
    exact ⟨apply_engine _ _, Drains.fail hout (by rw [hst.2]; rfl) _⟩
  | comeUp hp =>
    rw [Drains, hp] at hd
    obtain ⟨k, hk, hlt⟩ := hd
    exact ⟨rfl, k, hk.same rfl rfl rfl, hlt⟩
  | pass phase =>
    obtain ⟨k, hk, hlt⟩ : ∃ k, Synced w g k ∧ k < g.initial.length := by
      rcases phase with hp | hp <;> rwa [Drains, hp] at hd
    exact ⟨rfl, k, hk.same (advances_note (by simp) _) rfl rfl, hlt⟩
  | park hp =>
    rw [Drains, hp] at hd
    obtain ⟨k, hk, hlt⟩ := hd
    exact ⟨apply_engine _ _, k, hk.same (advances_apply _ _) (apply_domain _ _) (apply_turns _ _), hlt⟩
  | leave hp =>
    rw [Drains, hp] at hd
    obtain ⟨k, hk, hlt⟩ := hd
    exact ⟨rfl, k, hk.same (advances_note (by simp) _) rfl rfl, hlt⟩

/-! ### A whole run -/

/-- What leaves the run alone keeps engine and domain in step. -/
theorem Drains.same {g' : Memory} (h : Drains w g) (phase : v.phase = w.phase) (state : v.state = w.state)
    (acts : v.acts = w.acts) (domain : v.domain = w.domain) (turns : v.turns = w.turns)
    (initial : g'.initial = g.initial) (facts : g'.facts = g.facts)
    (synced : ∀ k, Synced w g k → Synced w g' k) : Drains v g' := by
  have hsync {k : Nat} (hk : Synced w g k) : Synced v g' k :=
    (synced k hk).same (congrArg _ acts) domain turns
  unfold Drains at h ⊢
  rw [phase]
  cases hp : w.phase <;> rw [hp] at h
  case idle | starting => trivial
  case checking => exact h.imp fun k hk => hsync hk
  case disposing => exact initial ▸ hsync h
  case finished =>
    obtain ⟨k, hk, hend⟩ := h
    refine ⟨k, hsync hk, ?_⟩
    rw [state, domain, turns, initial, facts]
    exact hend
  all_goals
    obtain ⟨k, hk, hlt⟩ := h
    exact ⟨k, hsync hk, initial ▸ hlt⟩

theorem IsTame.of_served {rs : List Engine.Record} {g' : Memory} (ht : IsTame g') (h : Served g rs g') :
    IsTame g := by
  obtain ⟨hi, hf⟩ := keeps_of_served h
  exact ⟨hf ▸ ht.sound, hi ▸ ht.lines⟩

/-- **Engine and domain are in step in every run** of a tame engine. -/
theorem Reachable.drains (h : Reachable w) (hg : w.engine = some g) (ht : IsTame g) : Drains w g := by
  refine h.upholds (P := fun w => ∀ g, w.engine = some g → IsTame g → Drains w g) ?_ ?_ ?_ ?_ g hg ht
  · intro config source domain crowd g hg
    cases hg
  · intro w a hr hw g' hg' ht'
    have he := access_effect w a
    by_cases hl : w.launch = none
    · have hp : (w.access a).2.phase = .idle ∨ (w.access a).2.phase = .starting :=
        he.phase_cases.imp_left fun h => h.trans (hr.sound.phase_of_launch hl)
      rcases hp with hp | hp <;> rw [Drains, hp] <;> trivial
    obtain ⟨hphase, hstate, hacts, -⟩ := he.of_launched hl
    rcases access_engine hl a with heng | ⟨c, hc, heng⟩ <;> rw [heng] at hg'
    · exact (hw g' hg' ht').same hphase hstate hacts he.domain_eq he.turns_eq rfl rfl fun _ hk => hk
    · obtain ⟨g, hg, rfl⟩ := Option.map_eq_some_iff.mp hg'
      have hserved : Served g [⟨c, (Engine.call c g).1⟩] (Engine.call c g).2 := Served.nil.call _ rfl
      exact (hw g hg (ht'.of_served hserved)).same hphase hstate hacts he.domain_eq he.turns_eq
        (Engine.Memory.call_keeps c g).1 (Engine.Memory.query_facts hc g) fun _ hk => hk.query hc
  · intro w v _ hw hv g hg ht
    obtain ⟨-, hphase, hacts, hdom⟩ := hv.frame
    have hold : v.engine = w.engine ∧ v.state = w.state := by cases hv <;> exact ⟨rfl, rfl⟩
    exact (hw g (hold.1 ▸ hg) ht).same hphase hold.2 hacts hdom hv.turns_eq rfl rfl fun _ hk => hk
  · intro w r hr hw _ _ hproceed g' hg' ht'
    have hidle : w.phase ≠ .idle := by
      intro hp
      rw [proceed?, hp] at hproceed
      cases hproceed
    obtain ⟨g, hg⟩ := Option.isSome_iff_exists.mp (hr.sound.engine hidle)
    obtain ⟨rs, g₁, hg₁, hserved⟩ := Serves.phase ⟨[], g, hg, .nil⟩ hproceed
    rw [hg₁] at hg'
    cases hg'
    have ht := ht'.of_served hserved
    by_cases hl : w.phase.isLabour = true
    · obtain ⟨g₂, hg₂, hd⟩ := (hw g hg ht).labour hg ht hr (proceed_labour hproceed hl)
      cases hg₁.symm.trans hg₂
      exact hd
    · obtain ⟨heng, hd⟩ := (hw g hg ht).stride hr (proceed_stride hproceed) (by simpa using hl)
      cases hg₁.symm.trans (heng.trans hg)
      exact hd

/-! ## The result -/

/-- The result of a run on an agenda. -/
structure Drained (w : Controller (memoryParts load react)) (g : Memory) : Prop where
  /-- No run begins more turns than there are activations. -/
  turns_le : w.turns ≤ g.initial.length
  /-- A run that was disposed has fired all of them in order, -/
  agenda : w.state = .disposed → g.agenda = []
  facts : w.state = .disposed → (w.call .facts).1 = .ok (Text.joined "\n" (factList g.initial))
  report : w.state = .disposed →
    w.domain.report = some ⟨w.turns, Text.joined "\n" (factList g.initial)⟩
  /-- and its last turn was the first one that does not fire a single rule, -/
  turns_of_sweep : w.state = .disposed → ∀ before m after, passages w.acts = before ++ m :: after →
    (∀ x ∈ before, x = .runOne) → m ≠ .runOne → w.turns = before.length + 1
  /-- or else there was one turn for each activation. -/
  turns_of_steps : w.state = .disposed → (∀ m ∈ passages w.acts, m = .runOne) → w.turns = g.initial.length

theorem Drains.turns_le (hd : Drains w g) (hw : Sound w) : w.turns ≤ g.initial.length := by
  have key {k : Nat} (hk : Synced w g k) : w.turns ≤ g.initial.length := hw.turns ▸ hk.fires.length_le
  have hs := hw.stands
  unfold Drains at hd
  unfold Stands at hs
  cases hp : w.phase <;> rw [hp] at hd hs
  case idle | starting =>
    rw [hw.turns, show w.acts = [] from run_reads hs.1]
    exact Nat.zero_le _
  case checking => exact key hd.choose_spec
  case disposing => exact key hd
  all_goals exact key hd.choose_spec.1

/-- The first turn that sweeps the agenda is the last one. -/
theorem Fires.length_of_sweep {n : Nat} {before after : List Mode} {m : Mode}
    (h : Fires n ((before ++ m :: after).map advanceOf) n) (hb : ∀ x ∈ before, x = .runOne) (hm : m ≠ .runOne) :
    (before ++ m :: after).length = before.length + 1 := by
  have hrun : advanceOf m = .run := by cases m <;> first | rfl | exact absurd rfl hm
  have hsteps : before.map advanceOf = List.replicate before.length .step := by
    rw [List.eq_replicate_of_mem hb]
    simp [advanceOf, Mode.isSingleStep]
  rw [List.map_append, List.map_cons, hsteps, hrun] at h
  generalize hl : List.replicate before.length Engine.Call.step ++ .run :: after.map advanceOf = as at h
  cases h with
  | steps =>
    have hmem : Engine.Call.run ∈ List.replicate n Engine.Call.step := by rw [← hl]; simp
    cases List.eq_of_mem_replicate hmem
  | @sweep k hk =>
    -- the first sweep stands at the same place on both sides
    have hidx := congrArg (List.idxOf Engine.Call.run) hl
    rw [List.idxOf_append_of_notMem (by simp), List.idxOf_append_of_notMem (by simp)] at hidx
    have hlen := congrArg List.length hl
    simp only [List.length_append, List.length_replicate, List.length_cons, List.length_nil, List.length_map,
      List.idxOf_cons_self] at hidx hlen ⊢
    omega

/-- **The cadence does not change the result.** -/
theorem Reachable.drained (h : Reachable w) (hg : w.engine = some g) (sound : ∀ c, g.failing c = none)
    (lines : ∀ a ∈ g.initial, Domain.IsActivation a) : Drained w g := by
  have hd := h.drains hg ⟨sound, lines⟩
  have hend (hs : w.state = .disposed) : Synced w g g.initial.length ∧
      w.domain.report = some ⟨w.turns, Text.joined "\n" g.facts⟩ ∧
      (passages w.acts).map advanceOf = advances w.acts := by
    have hp := h.sound.finished_of_isTerminal (by rw [hs]; rfl)
    have hadv := h.sound.advances_eq
    rw [Drains, hp] at hd
    rw [pending, hp, List.map_nil, List.append_nil] at hadv
    obtain ⟨k, hk, hend⟩ := hd
    obtain ⟨rfl, hr⟩ := hend hs
    exact ⟨hk, hr, hadv⟩
  have hfacts (hs : w.state = .disposed) : g.facts = factList g.initial := by
    rw [(hend hs).1.fired.facts, List.take_length]
  exact
    { turns_le := hd.turns_le h.sound
      agenda := fun hs => by rw [(hend hs).1.fired.agenda, List.drop_length]
      facts := fun hs => by
        rw [call, query, hg]
        simp only [Engine.Memory.call_of_sound (sound .facts), ← hfacts hs]
        rfl
      report := fun hs => by rw [← hfacts hs]; exact (hend hs).2.1
      turns_of_sweep := fun hs before m after heq hb hm => by
        obtain ⟨hk, -, hadv⟩ := hend hs
        have hf := hk.fires
        rw [← hadv, heq] at hf
        rw [h.sound.turns, ← hadv, List.length_map, heq]
        exact hf.length_of_sweep hb hm
      turns_of_steps := fun hs hall => by
        obtain ⟨hk, -, hadv⟩ := hend hs
        have hf := hk.fires
        have hsteps : advances w.acts = List.replicate (passages w.acts).length .step := by
          rw [← hadv, List.eq_replicate_of_mem hall]
          simp [advanceOf, Mode.isSingleStep]
        rw [h.sound.turns]
        generalize advances w.acts = as at hf hsteps
        cases hf with
        | steps => simp
        | sweep hlt =>
          have hmem : Engine.Call.run ∈ List.replicate (passages w.acts).length Engine.Call.step := by
            rw [← hsteps]; simp
          cases List.eq_of_mem_replicate hmem }

end Memory

/-- A controller to try out, with three rules to fire and nobody who watches. -/
def hatchery : Controller (memoryParts Engine.Catalogue.load (I := Empty) (C := Unit) (nomatch ·)) :=
  .create { Config.standard with initialMode := .runOne }
    [("rules", .ok { initial := ["0 lay: *", "0 brood: *", "0 hatch: *"], failing := fun _ => none })] {} ()

/-- One turn fires one rule, and the next one the others. -/
def hatched : Controller (memoryParts Engine.Catalogue.load (I := Empty) (C := Unit) (nomatch ·)) :=
  hatchery.moves ([Move.call (.startEngine ⟨"rules"⟩), Move.call .execute] ++ List.replicate 4 Move.work ++
    [Move.call .resume, Move.work, Move.call (.setMode .run)] ++ List.replicate 6 Move.work)

theorem hatched_engine : hatched.engine.isSome = true := by decide +kernel

theorem hatched_initial :
    (hatched.engine.get hatched_engine).initial = ["0 lay: *", "0 brood: *", "0 hatch: *"] := by decide +kernel

theorem drained_of_mixed_run :
    hatched.state = .disposed ∧ hatched.turns = 2 ∧ Drained hatched (hatched.engine.get hatched_engine) :=
  ⟨by decide +kernel, by decide +kernel,
    Reachable.drained (Reachable.moves (.create _ _ _ _) _) (Option.some_get _).symm
      (fun c => by cases c <;> decide +kernel) (by
        rw [hatched_initial]
        intro a ha
        simp only [List.mem_cons, List.not_mem_nil, or_false] at ha
        rcases ha with rfl | rfl | rfl <;> exact ⟨by decide +kernel, by decide +kernel, by decide +kernel⟩)⟩

end Cadence.Controller
