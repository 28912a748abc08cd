import Cadence.Proofs.Record

/-!
# Cadence.Proofs.InUse — the engine in use

A controller keeps one engine, the one that was loaded last, and every call goes to it.  Which engine that is and
what it was asked can be told from the journal alone: `InUse` reads a journal entry by entry and says what is in
use after it.

* `Engine.Served`: calls that one engine has answered, one after another.
* `InUse.split`, `InUse.cut`: the engine in use is the one loaded last, and each call was answered by the one that
  was in use when it was made.
* `InUse.access`, `InUse.phase`: accesses and phases keep to it.
-/

namespace Cadence

namespace Engine

variable {σ : Type} [Engine σ] {g₀ g : σ}

/-- `g` is what `g₀` has become by answering the calls on record, in order. -/
inductive Served (g₀ : σ) : List Record → σ → Prop where
  | nil : Served g₀ [] g₀
  | call {rs : List Record} {g : σ} (h : Served g₀ rs g) (r : Record)
      (hr : (Engine.call r.call g).1 = r.reply) : Served g₀ (rs ++ [r]) (Engine.call r.call g).2

theorem Served.trans {rs rs' : List Record} {g g' : σ} (h : Served g₀ rs g) (h' : Served g rs' g') :
    Served g₀ (rs ++ rs') g' := by
  induction h' with
  | nil => simpa using h
  | call h' r hr ih =>
    rw [← List.append_assoc]
    exact ih.call r hr

theorem perform_served {α : Type} (e : Errand α) (g : σ) :
    Served g (perform e g).2.2 (perform e g).2.1 :=
  Dialogue.play_induct recorded (P := fun s => Served g s.2 s.1)
    (fun c _ h => h.call ⟨c, _⟩ rfl) e (g, []) .nil

end Engine

namespace Controller

open Engine (Served)

variable {A : Assembly} {w v : Controller A}

/-- The call on the engine that an entry tells of, whoever made it. -/
def Entry.record? {ι : Type} : Entry ι → Option Engine.Record
  | engine r => some r
  | lent r => some r
  | query r => some r
  | _ => none

/-- Whether an entry tells that an engine was loaded. -/
def Entry.IsLoad {ι : Type} : Entry ι → Prop
  | load _ true => True
  | _ => False

theorem Entry.not_isLoad {ι : Type} {e : Entry ι} {r : Engine.Record} (h : e.record? = some r) : ¬ e.IsLoad := by
  rintro hl
  cases e <;> first | exact hl | cases h

/-- Entries that are no news to the engine. -/
def Entry.PassesBy {ι : Type} (e : Entry ι) : Prop := e.record? = none ∧ ¬ e.IsLoad

/-- The engine in use after a journal, if there is one.  `loads j script g` is to say that loading `script` after
`j` has given `g`. -/
inductive InUse (loads : List (Entry A.Id) → Engine.Script → A.Eng → Prop) :
    List (Entry A.Id) → Option A.Eng → Prop where
  | nil : InUse loads [] none
  | load {j : List (Entry A.Id)} {o : Option A.Eng} {g : A.Eng} (h : InUse loads j o)
      (script : Engine.Script) (hl : loads j script g) : InUse loads (.load script true :: j) (some g)
  | call {j : List (Entry A.Id)} {g : A.Eng} {e : Entry A.Id} {r : Engine.Record} (h : InUse loads j (some g))
      (he : e.record? = some r) (hr : (Engine.call r.call g).1 = r.reply) :
      InUse loads (e :: j) (some (Engine.call r.call g).2)
  | pass {j : List (Entry A.Id)} {o : Option A.Eng} {e : Entry A.Id} (h : InUse loads j o) (he : e.PassesBy) :
      InUse loads (e :: j) o

namespace InUse

variable {loads loads' : List (Entry A.Id) → Engine.Script → A.Eng → Prop} {j : List (Entry A.Id)}
  {o : Option A.Eng} {g : A.Eng}

theorem pass_all (h : InUse loads j o) {news : List (Entry A.Id)} (hn : ∀ e ∈ news, e.PassesBy) :
    InUse loads (news ++ j) o := by
  induction news with
  | nil => exact h
  | cons e news ih =>
    obtain ⟨he, hn⟩ := List.forall_mem_cons.mp hn
    exact .pass (ih hn) he

/-- What the engine answers while it is lent out. -/
theorem lent (h : InUse loads j (some g)) {log : List Engine.Record} {g' : A.Eng} (hs : Served g log g') :
    InUse loads (log.reverse.map .lent ++ j) (some g') := by
  induction hs with
  | nil => exact h
  | call hs r hr ih =>
    rw [List.reverse_append, List.reverse_singleton, List.singleton_append, List.map_cons, List.cons_append]
    exact .call ih rfl hr

/-- **The engine in use is the one that was loaded last**, after the calls made since. -/
theorem split (h : InUse loads j (some g)) : ∃ since script earlier g₀,
    j = since ++ .load script true :: earlier ∧ (∀ e ∈ since, ¬ e.IsLoad) ∧ loads earlier script g₀ ∧
      Served g₀ (readOff Entry.record? since) g := by
  generalize ho : some g = o at h
  induction h generalizing g with
  | nil => cases ho
  | @load j o g' _ script hl =>
    cases ho
    exact ⟨[], script, j, g', rfl, by simp, hl, .nil⟩
  | @call j g' e r _ he hr ih =>
    cases ho
    obtain ⟨since, script, earlier, g₀, rfl, hn, hl, hs⟩ := ih rfl
    refine ⟨e :: since, script, earlier, g₀, rfl, List.forall_mem_cons.mpr ⟨Entry.not_isLoad he, hn⟩, hl, ?_⟩
    rw [readOff_cons, he]
    exact hs.call r hr
  | @pass j o e _ he ih =>
    subst ho
    obtain ⟨since, script, earlier, g₀, rfl, hn, hl, hs⟩ := ih rfl
    refine ⟨e :: since, script, earlier, g₀, rfl, List.forall_mem_cons.mpr ⟨he.2, hn⟩, hl, ?_⟩
    rw [readOff_cons, he.1]
    simpa using hs

theorem of_append {later : List (Entry A.Id)} (h : InUse loads (later ++ j) o) :
    ∃ o', InUse loads j o' := by
  induction later generalizing o with
  | nil => exact ⟨o, h⟩
  | cons e later ih => cases h <;> exact ih ‹_›

/-- As long as none is loaded, it is the same engine that answers. -/
theorem since {later : List (Entry A.Id)} (h : InUse loads (later ++ j) (some g))
    (hn : ∀ e ∈ later, ¬ e.IsLoad) :
    ∃ g₁, InUse loads j (some g₁) ∧ Served g₁ (readOff Entry.record? later) g := by
  induction later generalizing g with
  | nil => exact ⟨g, h, .nil⟩
  | cons e later ih =>
    obtain ⟨he, hn⟩ := List.forall_mem_cons.mp hn
    rw [readOff_cons]
    cases h with
    | load => exact absurd trivial he
    | call h hr ha =>
      obtain ⟨g₁, hj, hs⟩ := ih h hn
      rw [hr]
      exact ⟨g₁, hj, hs.call _ ha⟩
    | pass h hp =>
      obtain ⟨g₁, hj, hs⟩ := ih h hn
      rw [hp.1]
      exact ⟨g₁, hj, by simpa using hs⟩

/-- **Every call was answered by the engine that was in use when it was made.** -/
theorem cut {later : List (Entry A.Id)} {e : Entry A.Id} {r : Engine.Record}
    (h : InUse loads (later ++ e :: j) o) (he : e.record? = some r) :
    ∃ g, InUse loads j (some g) ∧ (Engine.call r.call g).1 = r.reply := by
  obtain ⟨o', h⟩ := h.of_append
  cases h with
  | load => cases he
  | call h he' hr =>
    cases he.symm.trans he'
    exact ⟨_, h, hr⟩
  | pass _ he' => cases he.symm.trans he'.1

/-! ## Accesses and phases -/

theorem apply (h : InUse loads w.journal w.engine) (x : Event) :
    InUse loads (w.apply x).journal (w.apply x).engine := by
  rw [apply_eq]
  refine InUse.pass_all (InUse.pass h ⟨rfl, id⟩) fun e he => ?_
  obtain ⟨n, -, rfl⟩ := List.mem_map.mp he
  exact ⟨rfl, id⟩

theorem ask (h : InUse loads w.journal w.engine) (c : Engine.Call) :
    InUse loads (w.ask c).2.journal (w.ask c).2.engine := by
  cases hg : w.engine with
  | none => rw [ask_of_none hg]; exact h
  | some g =>
    simp only [Controller.ask, hg]
    rw [hg] at h
    exact .call (r := ⟨c, _⟩) h rfl rfl

theorem callHook (h : InUse loads w.journal w.engine) (k : Domain.Hook) :
    InUse loads (w.callHook k).2.journal (w.callHook k).2.engine := by
  cases hg : w.engine with
  | none => rw [callHook_of_none hg]; exact h
  | some g =>
    simp only [Controller.callHook, hg]
    rw [hg] at h
    exact .pass (h.lent (Engine.perform_served _ g)) ⟨rfl, id⟩

theorem part (h : InUse loads w.journal w.engine) (hp : Part w v) : InUse loads v.journal v.engine := by
  cases hp with
  | report x => exact h.apply x
  | ask c => exact h.ask c
  | callHook k => exact h.callHook k
  | remark e he => exact .pass h (by cases e <;> first | exact ⟨rfl, id⟩ | exact he.elim)
  | point p g n => exact h

theorem phase (h : InUse loads w.journal w.engine) {r : Outcome Failure Phase × Controller A}
    (hr : w.proceed? = some r) : InUse loads (conclude r).journal (conclude r).engine :=
  (proceed_parts hr).rec h fun _ hp h => h.part hp

theorem startEngine (h : InUse loads w.journal w.engine) (script : Engine.Script)
    (hl : ∀ g, (A.load script w.source).1 = .ok g → loads w.journal script g) :
    InUse loads (w.startEngine script).2.journal (w.startEngine script).2.engine := by
  unfold Controller.startEngine
  split
  · exact h
  dsimp only
  split
  · rename_i g hg
    exact InUse.apply (w := ({ w with
      source := (A.load script w.source).2, engine := some g } : Controller A).note (.load script true))
      (.load h script (hl g hg)) .engineLoaded
  · exact .pass h ⟨rfl, id⟩
  · exact .pass h ⟨rfl, id⟩

theorem query (h : InUse loads w.journal w.engine) (c : Engine.Call) :
    InUse loads (w.query c).2.journal (w.query c).2.engine := by
  unfold Controller.query
  cases hg : w.engine with
  | none => rw [hg] at h; rw [hg]; exact h
  | some g => rw [hg] at h; exact .call (r := ⟨c, _⟩) h rfl rfl

theorem launchOn (h : InUse loads w.journal w.engine) (l : Launch) :
    InUse loads (w.launchOn l).2.journal (w.launchOn l).2.engine := by
  have hl := launchOn_launching w l
  generalize w.launchOn l = r at hl ⊢
  cases hl with
  | again | noEngine | noThread => exact h
  | launched => exact .pass h ⟨rfl, id⟩

theorem access (h : InUse loads w.journal w.engine) (a : Access A.Id)
    (hl : ∀ script g, a = .call (.startEngine script) → (A.load script w.source).1 = .ok g →
      loads w.journal script g) :
    InUse loads (w.access a).2.journal (w.access a).2.engine := by
  cases a with
  | subscribeChannel =>
    rw [Controller.access, subscribeChannel]
    split <;> exact h
  | receive k =>
    rw [Controller.access, receive]
    split <;> exact h
  | dropReceiver k => exact h
  | call c =>
    rw [Controller.access]
    cases c with
    | startEngine script => exact h.startEngine script fun g hg => hl script g rfl hg
    | execute => exact h.launchOn .spawned
    | runBlocking thread => exact h.launchOn (.borrowed thread)
    | facts => exact h.query .facts
    | agenda => exact h.query .agenda
    | resume | stop | setMode => exact .pass h ⟨rfl, id⟩
    | setModeTag tag =>
      rw [Controller.call, setModeTag]
      split
      · exact .pass h ⟨rfl, id⟩
      · exact h
    | _ => exact h

theorem told (h : InUse loads w.journal w.engine) (ht : Told w v) : InUse loads v.journal v.engine := by
  cases ht with
  | observer | channel => exact .pass h ⟨rfl, id⟩

end InUse

/-! ## While one engine is in use -/

section Serves

variable {g : A.Eng}

/-- Whatever is done, it is the same engine that goes on answering. -/
def Serves (g : A.Eng) (w : Controller A) : Prop := ∃ rs g', w.engine = some g' ∧ Served g rs g'

theorem Serves.call (h : Serves g w) {v : Controller A} (c : Engine.Call)
    (hv : v.engine = w.engine.map fun g => (Engine.call c g).2) : Serves g v := by
  obtain ⟨rs, g', hg, hs⟩ := h
  exact ⟨_, _, by rw [hv, hg]; rfl, hs.call ⟨c, (Engine.call c g').1⟩ rfl⟩

theorem Serves.part (h : Serves g w) (hp : Part w v) : Serves g v := by
  obtain ⟨rs, g', hg, hs⟩ := h
  cases hp with
  | report x => exact ⟨rs, g', (apply_engine w x).trans hg, hs⟩
  | ask c => exact Serves.call ⟨rs, g', hg, hs⟩ c (by simp only [Controller.ask, hg, note, Option.map_some])
  | callHook k =>
    simp only [Serves, Controller.callHook, hg]
    exact ⟨_, _, rfl, hs.trans (Engine.perform_served _ _)⟩
  | remark e he => exact ⟨rs, g', hg, hs⟩
  | point p t n => exact ⟨rs, g', hg, hs⟩

theorem Serves.phase (h : Serves g w) {r : Outcome Failure Phase × Controller A} (hr : w.proceed? = some r) :
    Serves g (conclude r) :=
  (proceed_parts hr).rec h fun _ hp h => h.part hp

/-- Once the worker is launched, an access can ask the engine for a text and nothing else. -/
theorem access_engine (hl : w.launch ≠ none) (a : Access A.Id) :
    (w.access a).2.engine = w.engine ∨ ∃ c, (c = .facts ∨ c = .agenda) ∧
      (w.access a).2.engine = w.engine.map fun g => (Engine.call c g).2 := by
  have hs : w.launch.isSome := Option.isSome_iff_ne_none.mpr hl
  have query (c : Engine.Call) : (w.query c).2.engine = w.engine.map fun g => (Engine.call c g).2 := by
    unfold Controller.query
    cases hg : w.engine <;> simp [hg, note]
  cases a with
  | subscribeChannel => left; rw [access, subscribeChannel]; split <;> rfl
  | receive k => left; rw [access, receive]; split <;> rfl
  | dropReceiver k => exact .inl rfl
  | call c =>
    rw [access]
    cases c with
    | startEngine script => left; rw [call, startEngine, if_pos hs]
    | execute => left; rw [call, launchOn, claim, if_pos hs]
    | runBlocking thread => left; rw [call, launchOn, claim, if_pos hs]
    | facts => exact .inr ⟨.facts, .inl rfl, query .facts⟩
    | agenda => exact .inr ⟨.agenda, .inr rfl, query .agenda⟩
    | setModeTag tag => left; rw [call, setModeTag]; split <;> rfl
    | _ => exact .inl rfl

end Serves

end Controller

end Cadence
