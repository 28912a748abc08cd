import Cadence.Engine.Catalogue
import Cadence.Engine.Faulty
import Cadence.Engine.Memory

/-!
# Cadence.Proofs.Alike — engines that nobody can tell apart

Two engines are alike if they reply the same to any calls, one after another.  An engine may count its queries, or
keep what it was asked, and still be alike to what it was before; that is all that can be meant by a query that
changes nothing.

* `Alike.perform`: what is done with alike engines comes to the same.
* `Inert`: whatever is asked of an engine, its queries change nothing; `Memory.inert`, `Faulty.inert` say so of the
  engine in memory, unless faults or texts are planned.
-/

namespace Cadence

/-- Services that answer alike as long as they are related answer a dialogue alike. -/
theorem Dialogue.play_alike {Q : Type} {R : Q → Type} {α σ τ : Type} {serve : (q : Q) → σ → R q × σ}
    {serve' : (q : Q) → τ → R q × τ} {P : σ → τ → Prop}
    (keeps : ∀ q s t, P s t → (serve q s).1 = (serve' q t).1 ∧ P (serve q s).2 (serve' q t).2)
    (d : Dialogue Q R α) {s : σ} {t : τ} (h : P s t) :
    (d.play serve s).1 = (d.play serve' t).1 ∧ P (d.play serve s).2 (d.play serve' t).2 := by
  induction d generalizing s t with
  | done a => exact ⟨rfl, h⟩
  | ask q next ih =>
    obtain ⟨hanswer, hafter⟩ := keeps q s t h
    rw [play_ask, play_ask, ← hanswer]
    exact ih _ hafter

namespace Engine

variable {σ : Type} [Engine σ] {g h k : σ}

/-! ## Replies -/

/-- What an engine replies to calls, one after another. -/
def replies : List Call → σ → List Record
  | [], _ => []
  | c :: cs, g => ⟨c, (Engine.call c g).1⟩ :: replies cs (Engine.call c g).2

/-- The engine after calls. -/
def after (cs : List Call) (g : σ) : σ := cs.foldl (fun g c => (Engine.call c g).2) g

/-- No calls tell two engines apart. -/
def Alike (g h : σ) : Prop := ∀ cs, replies cs g = replies cs h

namespace Alike

theorem refl (g : σ) : Alike g g := fun _ => rfl

theorem symm (h₁ : Alike g h) : Alike h g := fun cs => (h₁ cs).symm

theorem trans (h₁ : Alike g h) (h₂ : Alike h k) : Alike g k := fun cs => (h₁ cs).trans (h₂ cs)

theorem reply (h₁ : Alike g h) (c : Call) : (Engine.call c g).1 = (Engine.call c h).1 := by
  have hc := h₁ [c]
  simpa [replies] using hc

theorem call (h₁ : Alike g h) (c : Call) : Alike (Engine.call c g).2 (Engine.call c h).2 := fun cs => by
  have hc := h₁ (c :: cs)
  rw [replies, replies] at hc
  exact (List.cons.inj hc).2

/-- Engines are alike if they are related in a way that calls keep, and reply the same while they are. -/
theorem of_related {P : σ → σ → Prop}
    (keeps : ∀ g h c, P g h → (Engine.call c g).1 = (Engine.call c h).1 ∧ P (Engine.call c g).2 (Engine.call c h).2)
    (h₁ : P g h) : Alike g h := fun cs => by
  induction cs generalizing g h with
  | nil => rfl
  | cons c cs ih =>
    obtain ⟨hreply, hafter⟩ := keeps g h c h₁
    rw [replies, replies, hreply, ih hafter]

/-- **An errand on alike engines** has the same result, and leaves them alike. -/
theorem perform {α : Type} (h₁ : Alike g h) (e : Errand α) :
    (perform e g).1 = (perform e h).1 ∧ Alike (perform e g).2.1 (perform e h).2.1 := by
  let P (s t : σ × List Record) : Prop := Alike s.1 t.1
  have keeps (c : Call) (s t : σ × List Record) (hst : P s t) :
      (recorded c s).1 = (recorded c t).1 ∧ P (recorded c s).2 (recorded c t).2 := ⟨hst.reply c, hst.call c⟩
  exact Dialogue.play_alike keeps e (s := (g, [])) (t := (h, [])) h₁

end Alike

/-! ## Queries that change nothing -/

/-- Whether a call asks for a text only. -/
def Call.isQuery : Call → Bool
  | facts => true
  | agenda => true
  | _ => false

/-- Whatever is asked of an engine, its queries change nothing in what it replies from then on; they panic, if they
do, with payloads that one is `prepared` for. -/
structure Inert (prepared : Payload → Prop) (g : σ) : Prop where
  alike : ∀ cs q, Call.isQuery q = true → Alike (Engine.call q (after cs g)).2 (after cs g)
  panics : ∀ cs q p, Call.isQuery q = true → (Engine.call q (after cs g)).1 = .panicked p → prepared p

namespace Inert

variable {prepared : Payload → Prop}

theorem call (h : Inert prepared g) (c : Call) : Inert prepared (Engine.call c g).2 :=
  ⟨fun cs => h.alike (c :: cs), fun cs => h.panics (c :: cs)⟩

theorem perform {α : Type} (h : Inert prepared g) (e : Errand α) : Inert prepared (perform e g).2.1 :=
  Dialogue.play_induct recorded (P := fun s => Inert prepared s.1) (fun c _ h => h.call c) e (g, []) h

/-- An engine is inert if it has a property that calls keep and that makes its queries change nothing. -/
theorem of_kept {P : σ → Prop} (keeps : ∀ g c, P g → P (Engine.call c g).2)
    (alike : ∀ g q, P g → Call.isQuery q = true → Alike (Engine.call q g).2 g)
    (panics : ∀ g q p, P g → Call.isQuery q = true → (Engine.call q g).1 = .panicked p → prepared p) (h : P g) :
    Inert prepared g := by
  have hafter (cs : List Call) : P (after cs g) := by
    induction cs generalizing g with
    | nil => exact h
    | cons c cs ih => exact ih (keeps g c h)
  exact ⟨fun cs q => alike _ q (hafter cs), fun cs q p => panics _ q p (hafter cs)⟩

end Inert

/-! ## The engine in memory -/

namespace Memory

/-- The engine without its counters. -/
def uncounted (m : Memory) : Memory := { m with counters := {} }

theorem call_uncounted {m n : Memory} (h : m.uncounted = n.uncounted) (c : Call) :
    (Engine.call c m).1 = (Engine.call c n).1 ∧ (Engine.call c m).2.uncounted = (Engine.call c n).2.uncounted := by
  obtain ⟨initial, failing, agenda, facts, counters⟩ := m
  obtain ⟨initial', failing', agenda', facts', counters'⟩ := n
  obtain ⟨rfl, rfl, rfl, rfl⟩ : initial = initial' ∧ failing = failing' ∧ agenda = agenda' ∧ facts = facts' := by
    simpa [uncounted] using h
  simp only [Engine.call]
  cases failing c with
  | some message => exact ⟨rfl, rfl⟩
  | none =>
    cases c with
    | step => cases agenda <;> exact ⟨rfl, rfl⟩
    | _ => exact ⟨rfl, rfl⟩

theorem alike_of_uncounted {m n : Memory} (h : m.uncounted = n.uncounted) : Alike m n :=
  Alike.of_related (P := fun m n : Memory => m.uncounted = n.uncounted) (fun _ _ c h => call_uncounted h c) h

/-- **A query of the engine in memory** is counted, and changes nothing else. -/
theorem inert (m : Memory) : Inert (fun _ => False) m := by
  refine Inert.of_kept (P := fun _ => True) (fun _ _ _ => trivial) (fun m q _ hq => ?_) (fun m q p _ hq hp => ?_) trivial
  · refine alike_of_uncounted ?_
    cases q <;> cases hq
    all_goals
      simp only [Engine.call]
      split <;> rfl
  · cases q <;> cases hq
    all_goals
      simp only [Engine.call] at hp
      split at hp <;> cases hp

end Memory

namespace Faulty

/-- No faults and no texts are planned. -/
def Unplanned (f : Faulty σ) : Prop := f.faults = [] ∧ ∀ c, f.planned c = []

theorem call_of_unplanned {f : Faulty σ} (h : f.Unplanned) (c : Call) : Engine.call c f =
    ((Engine.call c f.inside).1,
      { f with made := f.made.count c, inside := (Engine.call c f.inside).2 }) := by
  have hoverlay (r : Reply c) : overlay none c r = r := by cases c <;> cases r <;> rfl
  simp [Engine.call, mishap?, plannedText?, h.1, h.2, hoverlay]

theorem Unplanned.call {f : Faulty σ} (h : f.Unplanned) (c : Call) : (Engine.call c f).2.Unplanned := by
  rw [call_of_unplanned h]
  exact h

theorem alike_of_inside {f f' : Faulty σ} (h : f.Unplanned) (h' : f'.Unplanned) (hi : Alike f.inside f'.inside) :
    Alike f f' := by
  refine Alike.of_related (P := fun f f' => f.Unplanned ∧ f'.Unplanned ∧ Alike f.inside f'.inside) ?_ ⟨h, h', hi⟩
  rintro f f' c ⟨h, h', hi⟩
  refine ⟨?_, h.call c, h'.call c, ?_⟩
  · rw [call_of_unplanned h, call_of_unplanned h']
    exact hi.reply c
  · rw [call_of_unplanned h, call_of_unplanned h']
    exact hi.call c

/-- Without plans, queries change nothing if they change nothing inside. -/
theorem inert {prepared : Payload → Prop} {f : Faulty σ} (h : f.Unplanned) (hi : Inert prepared f.inside) :
    Inert prepared f := by
  refine Inert.of_kept (P := fun f => f.Unplanned ∧ Inert prepared f.inside) ?_ ?_ ?_ ⟨h, hi⟩
  · rintro f c ⟨h, hi⟩
    refine ⟨h.call c, ?_⟩
    rw [call_of_unplanned h]
    exact hi.call c
  · rintro f q ⟨h, hi⟩ hq
    refine alike_of_inside (h.call q) h ?_
    rw [call_of_unplanned h]
    exact hi.alike [] q hq
  · rintro f q p ⟨h, hi⟩ hq hp
    rw [call_of_unplanned h] at hp
    exact hi.panics [] q p hq hp

end Faulty

/-! ## Where engines come from -/

namespace Catalogue

omit [Engine σ] in
theorem load_snd (script : Script) (c : Catalogue σ) : (load script c).2 = c := by
  unfold load
  split <;> rfl

omit [Engine σ] in
/-- Whatever a catalogue gives is listed in it. -/
theorem mem_of_load {script : Script} {c : Catalogue σ} (h : (load script c).1 = .ok g) : (script.path, .ok g) ∈ c := by
  unfold load at h
  split at h
  · rename_i found hfound
    cases h
    obtain ⟨before, after, rfl, -⟩ := List.lookup_eq_some_iff.mp hfound
    simp
  · cases h
  · cases h

end Catalogue

end Engine

end Cadence
