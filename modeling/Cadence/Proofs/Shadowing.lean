import Cadence.Proofs.Company

/-!
# Cadence.Proofs.Shadowing — the worker in company

What the worker does in a phase depends on nothing that company changes, and a guest that is told something is told
it in a step of its own.

* `Shadows.proceed`, `Both.conclude`: a phase comes to the same with company and without.
* `Shadows.told`, `Shadows.told_guest`: deliveries.
-/

namespace Cadence.Controller

variable {A : Assembly} {E : Company A} {w : Controller A} {v : Controller E.assembly}

/-! ## The worker -/

/-- What is done with and without company comes to the same. -/
def Both {α : Type} (E : Company A) (r : Outcome Failure α × Controller A)
    (r' : Outcome Failure α × Controller E.assembly) : Prop := r.1 = r'.1 ∧ Shadows E r.2 r'.2

theorem Both.follow {α β : Type} {r : Outcome Failure α × Controller A} {r' : Outcome Failure α × Controller E.assembly}
    {f : α → Controller A → Outcome Failure β × Controller A}
    {f' : α → Controller E.assembly → Outcome Failure β × Controller E.assembly} (h : Both E r r')
    (hf : ∀ a w v, Shadows E w v → Both E (f a w) (f' a v)) : Both E (Outcome.follow r f) (Outcome.follow r' f') := by
  obtain ⟨o, w⟩ := r
  obtain ⟨o', v⟩ := r'
  obtain ⟨rfl, h⟩ := h
  cases o with
  | ok a => exact hf a w v h
  | error e => exact ⟨rfl, h⟩
  | panicked p => exact ⟨rfl, h⟩

namespace Shadows

theorem ask (h : Shadows E w v) (c : Engine.Call) : Both E (w.ask c) (v.ask c) := by
  unfold Controller.ask
  cases hw : w.engine with
  | none =>
    rw [h.engine_of_none hw]
    exact ⟨rfl, h⟩
  | some g =>
    obtain ⟨g', hv, halike, hinert⟩ := h.engine_of_some hw
    rw [hv]
    refine ⟨congrArg (Outcome.mapError _) (halike.reply c), Shadows.note ?_ _ _ rfl rfl⟩
    exact { h with engine := .some ⟨halike.call c, hinert.call c⟩ }

theorem advance (h : Shadows E w v) (m : Mode) : Both E (w.advance m) (v.advance m) := by
  unfold Controller.advance
  split
  · obtain ⟨hreply, hafter⟩ := h.ask .step
    exact ⟨congrArg (Outcome.map _) hreply, hafter⟩
  · obtain ⟨hreply, hafter⟩ := h.ask .run
    exact ⟨congrArg (Outcome.map _) hreply, hafter⟩

theorem callHook (h : Shadows E w v) (k : Domain.Hook) : Both E (w.callHook k) (v.callHook k) := by
  have silent (r : Outcome Domain.Error Unit) (log : List Engine.Record) (j : List (Entry A.Id)) :
      readOff Entry.telling? (.hook k r :: (log.reverse.map .lent ++ j)) = readOff Entry.telling? j := by
    rw [readOff_cons, readOff_append, readOff_eq_nil _ (j := log.reverse.map .lent) (by simp [Entry.telling?])]
    exact (List.append_nil _).trans (List.append_nil _)
  unfold Controller.callHook
  cases hw : w.engine with
  | none =>
    rw [h.engine_of_none hw]
    exact ⟨rfl, h⟩
  | some g =>
    obtain ⟨g', hv, halike, hinert⟩ := h.engine_of_some hw
    obtain ⟨hresult, hafter⟩ := halike.perform (Domain.hook k w.domain)
    have hhook : Engine.perform (Domain.hook k w.domain) g' = Engine.perform (Domain.hook k v.domain) g' :=
      congrArg (fun d => Engine.perform (Domain.hook k d) g') h.domain
    rw [hhook] at hresult hafter
    rw [hv]
    refine ⟨congrArg (fun r => Outcome.mapError Failure.domain r.1) hresult, ?_⟩
    exact
      { h with
        engine := .some ⟨hafter, hinert.perform _⟩
        domain := congrArg Prod.snd hresult
        tellings := (silent _ _ _).trans (h.tellings.trans (congrArg (List.filter _) (silent _ _ _).symm)) }

theorem beginTurn (h : Shadows E w v) : Shadows E w.beginTurn v.beginTurn :=
  { h.apply .turnStarted with turns := by rw [beginTurn_turns, beginTurn_turns, h.turns] }

theorem start (h : Shadows E w v) : Both E w.start v.start :=
  (h.ask .reset).follow fun _ _ _ h => (h.callHook .setup).follow fun _ _ _ h => ⟨rfl, h.apply _⟩

theorem check (h : Shadows E w v) : Both E w.check v.check := by
  have hdone : Domain.hasDone w.domain = Domain.hasDone v.domain := congrArg Domain.hasDone h.domain
  unfold Controller.check
  rw [hdone]
  dsimp only
  split <;> exact ⟨rfl, h.note _ _ rfl rfl⟩

theorem pass (h : Shadows E w v) : Both E w.pass v.pass := ⟨by simp only [Controller.pass, h.mode], h.note _ _ rfl rfl⟩

theorem approach (h : Shadows E w v) : Both E w.approach v.approach := by
  unfold Controller.approach
  rw [h.cancelled, h.mode]
  split
  · exact ⟨rfl, h⟩
  · split
    · exact ⟨rfl, h⟩
    · exact h.pass

theorem leave (h : Shadows E w v) (exit : Gate.Exit) : Both E (w.leave exit) (v.leave exit) := by
  cases exit with
  | resumed => exact h.pass
  | ungated => exact h.pass
  | cancelled => exact ⟨rfl, h⟩

theorem atGate (h : Shadows E w v) (g : Gate) : Shadows E { w with gate := g } { v with gate := g } :=
  { h with gate := rfl }

theorem arrive (h : Shadows E w v) : Both E w.arrive v.arrive := by
  have hexit : w.gate.arrive w.cancelled w.mode.isGated = v.gate.arrive v.cancelled v.mode.isGated := by
    rw [h.gate, h.cancelled, h.mode]
  unfold Controller.arrive
  rw [hexit]
  dsimp only
  split
  · exact (h.atGate _).leave _
  · refine ⟨rfl, ?_⟩
    exact (h.atGate _).apply _

theorem look (h : Shadows E w v) : Option.Rel (Both E) w.look? v.look? := by
  have hexit : w.gate.look w.cancelled = v.gate.look v.cancelled := by rw [h.gate, h.cancelled]
  unfold Controller.look?
  rw [hexit]
  dsimp only
  cases (v.gate.look v.cancelled).1 with
  | none => exact .none
  | some exit =>
    refine .some ?_
    exact (h.atGate _).leave exit

theorem turn (h : Shadows E w v) (m : Mode) : Both E (w.turn m) (v.turn m) :=
  (h.beginTurn.advance m).follow fun _ _ _ h => (h.callHook .action).follow fun _ _ _ h => ⟨rfl, h.apply _⟩

theorem finish (h : Shadows E w v) : Both E w.finish v.finish :=
  (h.callHook .dispose).follow fun _ _ _ h => ⟨rfl, (h.apply _).note _ _ rfl rfl⟩

theorem proceed (h : Shadows E w v) : Option.Rel (Both E) w.proceed? v.proceed? := by
  unfold Controller.proceed?
  rw [h.phase]
  cases v.phase with
  | idle => exact .none
  | starting => exact .some h.start
  | checking => exact .some h.check
  | approaching => exact .some h.approach
  | arriving => exact .some h.arrive
  | parked => exact h.look
  | advancing m => exact .some (h.turn m)
  | disposing => exact .some h.finish
  | finished => exact .none

end Shadows

theorem Both.conclude {r : Outcome Failure Phase × Controller A} {r' : Outcome Failure Phase × Controller E.assembly}
    (h : Both E r r') : Shadows E (conclude r) (conclude r') := by
  obtain ⟨o, w⟩ := r
  obtain ⟨o', v⟩ := r'
  obtain ⟨rfl, h⟩ := h
  unfold Controller.conclude
  cases hc : contain o with
  | panicked p => exact absurd hc (contain_ne_panicked o p)
  | ok p => exact { h with phase := rfl }
  | error f => exact { (h.apply (.faulted f.message)).note (.ended (some f)) (.ended (some f)) rfl rfl with phase := rfl }

/-! ## Steps -/

section Steps

variable {i : A.Id} {k : Nat} {n : Notification} {rest : List (Subscriber A.Id × Notification)}

theorem work_heldUp (hh : w.isHeldUp = true) : w.move .work = w ∧ w.uses .work = [] := by
  simp [move, step, uses, hh]

theorem work_phase (hh : w.isHeldUp = false) (hd : w.outbox = []) :
    w.move .work = (w.proceed?.map conclude).getD w ∧ w.uses .work = [] := by
  simp [move, step, uses, hh, hd]

theorem work_observer (hh : w.isHeldUp = false) (hd : w.outbox = (.observer i, n) :: rest) :
    w.move .work = { ({ ((A.react i n w.crowd).play access w).2 with
      crowd := ((A.react i n w.crowd).play access w).1.2 } : Controller A).note
        (.told (.observer i) n ((A.react i n w.crowd).play access w).1.1) with outbox := rest } ∧
      w.uses .work = (A.react i n w.crowd).asked access w := by
  simp [move, step, uses, hh, hd, tell]

/-- What an observer does neither adds to what is due nor holds the worker up. -/
theorem work_observer_frame (hh : w.isHeldUp = false) (hd : w.outbox = (.observer i, n) :: rest) :
    (w.move .work).outbox = rest ∧ (w.move .work).isHeldUp = false := by
  have hfree : ((A.react i n w.crowd).play access w).2.isHeldUp = false :=
    Dialogue.play_induct access (P := fun u : Controller A => u.isHeldUp = false)
      (fun a u hu => (access_effect u a).stays_free hu) _ _ hh
  rw [(work_observer hh hd).1]
  exact ⟨rfl, hfree⟩

theorem work_channel (hh : w.isHeldUp = false) (hd : w.outbox = (.channel k, n) :: rest) :
    w.move .work = { ({ w with channels := w.channels.modify k fun ch => (ch.send n).2 } : Controller A).note
        (.told (.channel k) n none) with outbox := rest } ∧ w.uses .work = [] := by
  simp [move, step, uses, hh, hd, tell]

theorem atRest_of_free (hh : w.isHeldUp = false) : w.AtRest ↔ w.outbox = [] ∧ w.proceed? = none := by
  cases hd : w.outbox <;> simp [AtRest, step, hh, hd]

end Steps

namespace Shadows

theorem isHeldUp (h : Shadows E w v) : w.isHeldUp = v.isHeldUp := by
  rw [Controller.isHeldUp, Controller.isHeldUp, h.channels]

/-- Somebody who was there originally has been told. -/
theorem told (h : Shadows E w v) {s : Subscriber A.Id} (hs : E.isOwn s = true) (n : Notification) (p : Option Payload)
    {c : A.Crowd} {c' : E.Crowd} (hc : E.alike c c') (rest : List (Subscriber A.Id × Notification)) :
    Shadows E { ({ w with crowd := c } : Controller A).note (.told s n p) with
        outbox := rest.filter fun d => E.isOwn d.1 }
      { ({ v with crowd := c' } : Controller E.assembly).note (.told s n p) with outbox := rest } :=
  { h with
    crowd := hc
    outbox := rfl
    tellings := by
      have ht := h.tellings
      simpa [Controller.tellings, Controller.note, Entry.telling?, hs] using ht }

/-- A guest has been told. -/
theorem told_guest (h : Shadows E w v) {s : Subscriber A.Id} (hs : E.isOwn s = false) (n : Notification)
    (p : Option Payload) {c' : E.Crowd} (hc : E.alike w.crowd c') {rest : List (Subscriber A.Id × Notification)}
    (hrest : w.outbox = rest.filter fun d => E.isOwn d.1) :
    Shadows E w { ({ v with crowd := c' } : Controller E.assembly).note (.told s n p) with outbox := rest } :=
  { h with
    crowd := hc
    outbox := hrest
    tellings := by
      have ht := h.tellings
      simpa [Controller.tellings, Controller.note, Entry.telling?, hs] using ht }

end Shadows

end Cadence.Controller
