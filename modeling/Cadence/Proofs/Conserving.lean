import Cadence.Proofs.Diagnosing
import Cadence.Proofs.Draining
import Mathlib.Algebra.GroupWithZero.Nat

/-!
# Cadence.Proofs.Conserving — what an engine in memory has fired is what it says it has fired

Whoever makes the calls and whichever of them were told to fail, the numbers that the engine returns since it was
last reset add up to the facts that it has won and to the activations that it has lost.  One lemma says what a
single call does to a `Fired` engine, and a session follows call after call.

* `Fired.call`: one call fires as many activations as it returns.
* `Served.fired`: a session since its last reset.
* `StepsOut.run`: firing everything at once is stepping until nothing fires.
* `askAll_conserves`: the account of every session.
-/

namespace Cadence.Engine

/-- How many rules a call on record says it has fired. -/
def Record.fired : Record → Nat
  | ⟨.run, .ok n⟩ => n
  | ⟨.step, .ok n⟩ => n
  | _ => 0

/-- A reset that has succeeded. -/
abbrev Record.fresh : Record := ⟨.reset, .ok ()⟩

theorem askAll_served {σ : Type} [Engine σ] (cs : List Call) (g : σ) :
    Served g (askAll cs g).1 (askAll cs g).2 := by
  induction cs generalizing g with
  | nil => exact .nil
  | cons c cs ih =>
    have hcall : Served g [⟨c, (Engine.call c g).1⟩] (Engine.call c g).2 := .call .nil ⟨c, _⟩ rfl
    exact hcall.trans (ih _)

namespace Memory

variable {m g : Memory} {k : Nat}

/-! ## One call -/

theorem call_of_failing {c : Call} {message : String} (h : m.failing c = some message) :
    Engine.call c m = (.error ⟨.command, message⟩, m.counted c) := by
  simp only [Engine.call, h]
  rfl

/-- **A call that fails is counted, and changes nothing else.** -/
theorem call_of_not_ok {c : Call} (h : ∀ value, (Engine.call c m).1 ≠ .ok value) :
    (Engine.call c m).2 = m.counted c := by
  cases hf : m.failing c with
  | some message => rw [call_of_failing hf]
  | none => exact absurd (congrArg Prod.fst (call_of_sound hf)) (h _)

theorem failing_of_ok {c : Call} {value : c.Value} (h : (Engine.call c m).1 = .ok value) : m.failing c = none := by
  cases hf : m.failing c with
  | none => rfl
  | some message =>
    rw [call_of_failing hf] at h
    cases h

/-- A reset that succeeds forgets everything that has happened. -/
theorem call_reset_of_ok (h : (Engine.call .reset m).1 = .ok ()) :
    (Engine.call .reset m).2 =
      { m with agenda := m.initial, facts := [initialFact], counters := m.counters.count .reset } := by
  rw [call_of_sound (failing_of_ok h)]
  rfl

theorem step_of_cons {a : String} {rest : List String} (h : m.agenda = a :: rest) :
    m.answer .step = ((1 : Nat), { m with agenda := rest, facts := m.facts ++ [firedFact m.facts.length a] }) := by
  simp only [answer, fire, h]

theorem step_of_nil (h : m.agenda = []) : m.answer .step = ((0 : Nat), m) := by
  simp only [answer, fire, h]

theorem Fired.agenda_length (h : Fired m k) : k + m.agenda.length = m.initial.length := by
  rw [h.agenda, List.length_drop, Nat.add_sub_cancel' h.le]

/-- **One call, other than a reset, fires as many activations as it returns.** -/
theorem Fired.call (h : Fired m k) {c : Call} (hc : (⟨c, (Engine.call c m).1⟩ : Record) ≠ .fresh) :
    Fired (Engine.call c m).2 (k + Record.fired ⟨c, (Engine.call c m).1⟩) := by
  cases hf : m.failing c with
  | some message =>
    rw [call_of_failing hf]
    cases c <;> exact h.counted _
  | none =>
    rw [call_of_sound hf] at hc ⊢
    cases c with
    | reset => exact absurd rfl hc
    | run =>
      have hall := (h.counted .run).run
      rwa [show (m.counted .run).initial.length = k + m.agenda.length from h.agenda_length.symm] at hall
    | step =>
      cases ha : m.agenda with
      | nil =>
        rw [step_of_nil (m := m.counted .step) ha]
        exact h.counted _
      | cons a rest =>
        have hk : k < m.initial.length := by
          have hlen := h.agenda_length
          rw [ha, List.length_cons] at hlen
          omega
        have hstep := (h.counted .step).step hk
        rw [step_of_cons (m := m.counted .step) ha] at hstep ⊢
        exact hstep
    | facts => exact h.counted _
    | agenda => exact h.counted _

/-! ## A session -/

/-- **What a session has fired since the last reset that succeeded.** -/
theorem Served.fired {rs : List Record} (h : Served m rs g) {earlier later : List Record}
    (hrs : rs = earlier ++ .fresh :: later) (hlast : .fresh ∉ later) :
    Fired g (later.map Record.fired).sum := by
  induction h generalizing later with
  | nil => simp at hrs
  | @call rs g hs r hr ih =>
    induction later using List.reverseRecOn with
    | nil =>
      -- the last call is the reset itself
      obtain ⟨-, rfl⟩ := List.append_inj' hrs rfl |>.imp id List.singleton_inj.mp
      have hreset := failing_of_ok hr
      rw [call_of_sound hreset]
      exact .reset _
    | append_singleton later x _ =>
      rw [← List.cons_append, ← List.append_assoc] at hrs
      obtain ⟨hbefore, hx⟩ := List.append_inj' hrs rfl
      obtain rfl := List.singleton_inj.mp hx
      have hr' : r = ⟨r.call, (Engine.call r.call g).1⟩ := by rw [hr]
      have hfired := ih hbefore fun hm => hlast (List.mem_append_left _ hm)
      have hne : r ≠ .fresh := fun he => hlast (by simp [he])
      rw [hr'] at hne
      simpa [← hr'] using hfired.call hne

/-- The account of the calls `later`, made since the engine was reset with the activations `initial`. -/
structure Accounts (initial : List String) (later : List Record) (g : Memory) : Prop where
  /-- What the calls say they have fired are the facts that have come up, -/
  won : (later.map Record.fired).sum + 1 = g.facts.length
  /-- and the activations that are gone. -/
  lost : (later.map Record.fired).sum + g.agenda.length = initial.length
  /-- Those that are left are the last ones, in order. -/
  agenda : g.agenda = initial.drop (later.map Record.fired).sum
  first : g.facts[0]? = some initialFact
  /-- Each activation that is gone has left the fact with its number. -/
  fact : ∀ i a, i < (later.map Record.fired).sum → initial[i]? = some a →
    g.facts[i + 1]? = some ("f-" ++ Text.decimal (i + 1) ++ "     (fired " ++ ruleOf a ++ ")")

theorem Fired.accounts {later : List Record} (h : Fired g (later.map Record.fired).sum) :
    Accounts g.initial later g where
  won := by rw [h.facts, length_factList, List.length_take, Nat.min_eq_left h.le]
  lost := h.agenda_length
  agenda := h.agenda
  first := by rw [h.facts]; rfl
  fact := by
    intro i a hi ha
    have htake : (g.initial.take (later.map Record.fired).sum)[i]? = some a := by
      rw [List.getElem?_take_of_lt hi, ha]
    rw [h.facts, factList, List.getElem?_cons_succ, List.getElem?_mapIdx, htake]
    rfl

/-! ## Stepping and running -/

/-- An engine is stepped until a step fires nothing: how many rules have fired in all, and the engine then. -/
inductive StepsOut : Memory → Nat → Memory → Prop where
  | done {m : Memory} (h : (Engine.call .step m).1 = .ok (0 : Nat)) : StepsOut m 0 (Engine.call .step m).2
  | more {m g : Memory} {n k : Nat} (h : (Engine.call .step m).1 = .ok (n + 1 : Nat))
      (hs : StepsOut (Engine.call .step m).2 k g) : StepsOut m (n + 1 + k) g

theorem exists_stepsOut (h : m.failing .step = none) : ∃ n g, StepsOut m n g := by
  generalize ha : m.agenda = as
  have hcall := call_of_sound h
  induction as generalizing m with
  | nil =>
    rw [step_of_nil (m := m.counted .step) ha] at hcall
    exact ⟨0, _, .done (by rw [hcall])⟩
  | cons a rest ih =>
    rw [step_of_cons (m := m.counted .step) ha] at hcall
    obtain ⟨n, g, hs⟩ := ih (m := (Engine.call .step m).2) (by rw [hcall]; exact h) (by rw [hcall])
      (call_of_sound (by rw [hcall]; exact h))
    exact ⟨0 + 1 + n, g, .more (by rw [hcall]) hs⟩

/-- **Stepping until nothing fires** fires the whole agenda. -/
theorem StepsOut.fireAll (h : StepsOut m k g) :
    k = m.agenda.length ∧ g = { m with
      agenda := [], facts := factsAfter m.facts m.agenda, counters := g.counters } := by
  induction h with
  | @done m h =>
    have hcall := call_of_sound (failing_of_ok h)
    cases ha : m.agenda with
    | nil =>
      rw [step_of_nil (m := m.counted .step) ha] at hcall
      have hsame : m.counted .step = { m with agenda := [], counters := m.counters.count .step } := by
        rw [← ha]
        rfl
      rw [hcall]
      exact ⟨rfl, hsame⟩
    | cons a rest =>
      rw [step_of_cons (m := m.counted .step) ha] at hcall
      rw [hcall] at h
      cases h
  | @more m g n k h hs ih =>
    have hcall := call_of_sound (failing_of_ok h)
    cases ha : m.agenda with
    | nil =>
      rw [step_of_nil (m := m.counted .step) ha] at hcall
      rw [hcall] at h
      cases h
    | cons a rest =>
      rw [step_of_cons (m := m.counted .step) ha] at hcall
      rw [hcall] at h ih
      obtain ⟨rfl, hg⟩ := ih
      cases h
      exact ⟨by simp [Nat.add_comm], hg⟩

/-- **Running is stepping until nothing fires**, on the same engine with whichever calls told to fail: the same
state, the counters aside, and the sum of what the steps have returned. -/
theorem StepsOut.run {failing : Call → Option String} (h : StepsOut { m with failing } k g)
    (hrun : m.failing .run = none) :
    Engine.call .run m = (.ok k, { g with failing := m.failing, counters := m.counters.count .run }) := by
  obtain ⟨hk, hg⟩ := h.fireAll
  rw [call_of_sound hrun, hk, hg]
  rfl

/-- What is true of every session with an engine in memory: of the calls `rs` on record, which have made `g` out
of `m`. -/
structure Conserves (m : Memory) (rs : List Record) (g : Memory) : Prop where
  /-- Since the last reset that has succeeded, nothing is fired that is not accounted for. -/
  accounts : ∀ earlier later, rs = earlier ++ .fresh :: later → .fresh ∉ later → Accounts m.initial later g
  /-- The next reset that succeeds restores the same state, whatever has happened. -/
  restores : (Engine.call .reset g).1 = .ok () → (Engine.call .reset g).2 =
    { m with agenda := m.initial, facts := [initialFact], counters := g.counters.count .reset }
  /-- The next call, if it fails, is counted, and changes nothing else. -/
  spares : ∀ c, (∀ value, (Engine.call c g).1 ≠ .ok value) →
    (Engine.call c g).2 = { g with counters := g.counters.count c }
  /-- If the engine runs now, it could be stepped until nothing fires, were no step told to fail, -/
  steps : ∀ failing : Call → Option String, failing .step = none → ∃ n g', StepsOut { g with failing } n g'
  /-- and that is what running it does and returns. -/
  runs : ∀ failing n g', StepsOut { g with failing } n g' → g.failing .run = none →
    Engine.call .run g = (.ok n, { g' with failing := g.failing, counters := g.counters.count .run })

/-- **Firing is conserved**, and running is stepping, in every session with every engine in memory. -/
theorem askAll_conserves (m : Memory) (cs : List Call) : Conserves m (askAll cs m).1 (askAll cs m).2 := by
  have hserved := askAll_served cs m
  obtain ⟨hinitial, hfailing⟩ := Controller.keeps_of_served hserved
  refine ⟨?_, ?_, fun c hc => call_of_not_ok hc, fun failing h => exists_stepsOut h, fun failing n g' h hr => h.run hr⟩
  · intro earlier later hrs hlast
    have haccounts := (Served.fired hserved hrs hlast).accounts
    rwa [hinitial] at haccounts
  · intro hok
    rw [call_reset_of_ok hok, hinitial, hfailing]

/-- Three activations, in an engine that does not say what its agenda is. -/
def forge : Memory where
  initial := ["0      heat: f-0", "0      beat: f-0", "0      quench"]
  failing c := if c = .agenda then some "no agenda" else none

/-- A reset, one activation fired after a query that fails, the other two at once, and a step that finds none. -/
theorem forge_conserves :
    (askAll [.step, .reset, .agenda, .step, .run, .step] forge).1 =
        [⟨.step, .ok (0 : Nat)⟩] ++ .fresh :: [⟨.agenda, .error ⟨.command, "no agenda"⟩⟩, ⟨.step, .ok (1 : Nat)⟩,
          ⟨.run, .ok (2 : Nat)⟩, ⟨.step, .ok (0 : Nat)⟩] ∧
      Accounts forge.initial [⟨.agenda, .error ⟨.command, "no agenda"⟩⟩, ⟨.step, .ok (1 : Nat)⟩,
          ⟨.run, .ok (2 : Nat)⟩, ⟨.step, .ok (0 : Nat)⟩]
        (askAll [.step, .reset, .agenda, .step, .run, .step] forge).2 :=
  ⟨rfl, (askAll_conserves forge _).accounts [⟨.step, .ok (0 : Nat)⟩] _ rfl (by simp)⟩

end Memory

end Cadence.Engine
