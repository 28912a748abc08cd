import Cadence.Controller.Basic
import Mathlib.Data.List.Induction

/-!
# Cadence.Proofs.Protocol — the order of a run

`Act` is what the worker does in a run, as far as it can be told from outside: its own calls on engine and
domain, each with the failure it ended in, its ways past the gate, its notifications, and the end.

* `Spot.Next`: the rules of the turn protocol, one act at a time.  A `Spot` says what has to come next.
* `Spot.Run`: any number of acts by these rules.
* `run_reads`: the acts that lead from the beginning to a spot, written out.  Up to the first failure they are
  `opening`, then some `turnActs`, then `closing`; a failure (`Broken`) is followed by its report only.
* `before_hook`, `before_engine`, `after_failure`: what comes before a call, and that a failure is the end.
-/

namespace Cadence.Controller

/-- What the worker does; a call is told with the failure it ended in, if it did. -/
inductive Act where
  | engine (c : Engine.Call) (failure : Option Failure)
  | hook (h : Domain.Hook) (failure : Option Failure)
  | hasDone (done : Bool)
  | hasDonePanics (p : Payload)
  | passed (m : Mode)
  | emitted (n : Notification)
  | ended (failure : Option Failure)
deriving DecidableEq

def Act.failure? : Act → Option Failure
  | engine _ f => f
  | hook _ f => f
  | hasDonePanics p => some (.panicked p)
  | _ => none

/-- The engine call that advances a turn under a mode. -/
def advanceOf (m : Mode) : Engine.Call := if m.isSingleStep then .step else .run

def report (f : Failure) : Notification := .error (failureText f.message)

/-! ## The rules -/

/-- What a run has to do next. -/
inductive Spot where
  | reset
  | setUp
  | tellSetUp
  | ask
  | gate
  | advance (m : Mode)
  | action
  | tellAction
  | dispose
  | tellDispose
  | close
  | report (f : Failure)
  | abandon (f : Failure)
  | finished (failure : Option Failure)
deriving DecidableEq

namespace Spot

inductive Next : Spot → Act → Spot → Prop where
  | reset : Next .reset (.engine .reset none) .setUp
  | resetFails (f : Failure) : Next .reset (.engine .reset (some f)) (.report f)
  | setUp : Next .setUp (.hook .setup none) .tellSetUp
  | setUpFails (f : Failure) : Next .setUp (.hook .setup (some f)) (.report f)
  | tellSetUp : Next .tellSetUp (.emitted .setupDone) .ask
  | goOn : Next .ask (.hasDone false) .gate
  | isDone : Next .ask (.hasDone true) .dispose
  | askFails (p : Payload) : Next .ask (.hasDonePanics p) (.report (.panicked p))
  | pass (m : Mode) : Next .gate (.passed m) (.advance m)
  | cancel : Next .gate (.emitted (Controller.report .cancelled)) (.abandon .cancelled)
  | advance (m : Mode) : Next (.advance m) (.engine (advanceOf m) none) .action
  | advanceFails (m : Mode) (f : Failure) : Next (.advance m) (.engine (advanceOf m) (some f)) (.report f)
  | action : Next .action (.hook .action none) .tellAction
  | actionFails (f : Failure) : Next .action (.hook .action (some f)) (.report f)
  | tellAction : Next .tellAction (.emitted .actionDone) .ask
  | dispose : Next .dispose (.hook .dispose none) .tellDispose
  | disposeFails (f : Failure) : Next .dispose (.hook .dispose (some f)) (.report f)
  | tellDispose : Next .tellDispose (.emitted .disposeDone) .close
  | close : Next .close (.ended none) (.finished none)
  | report (f : Failure) : Next (.report f) (.emitted (Controller.report f)) (.abandon f)
  | abandon (f : Failure) : Next (.abandon f) (.ended (some f)) (.finished (some f))

/-- Acts by the rules, from one spot to another. -/
inductive Run : Spot → List Act → Spot → Prop where
  | nil (s : Spot) : Run s [] s
  | cons {s t u : Spot} {a : Act} {as : List Act} : Next s a t → Run t as u → Run s (a :: as) u

theorem Next.run {s t : Spot} {a : Act} (h : Next s a t) : Run s [a] t := .cons h (.nil t)

theorem run_append {s u : Spot} {as bs : List Act} :
    Run s (as ++ bs) u ↔ ∃ t, Run s as t ∧ Run t bs u := by
  induction as generalizing s with
  | nil =>
    refine ⟨fun h => ⟨s, .nil s, h⟩, ?_⟩
    rintro ⟨t, ht, h⟩
    cases ht
    exact h
  | cons a as ih =>
    constructor
    · rintro (_ | ⟨ha, h⟩)
      obtain ⟨t, h₁, h₂⟩ := ih.mp h
      exact ⟨t, .cons ha h₁, h₂⟩
    · rintro ⟨t, _ | ⟨ha, h₁⟩, h₂⟩
      exact .cons ha (ih.mpr ⟨t, h₁, h₂⟩)

theorem Run.append {s t u : Spot} {as bs : List Act} (h : Run s as t) (h' : Run t bs u) :
    Run s (as ++ bs) u := run_append.mpr ⟨t, h, h'⟩

/-- Acts by the rules can be cut before any of them. -/
theorem Run.cut {s u : Spot} {as bs : List Act} {a : Act} (h : Run s (as ++ a :: bs) u) :
    ∃ t t', Run s as t ∧ Next t a t' ∧ Run t' bs u := by
  obtain ⟨t, h₁, h₂⟩ := run_append.mp h
  obtain _ | ⟨ha, h₂⟩ := h₂
  exact ⟨t, _, h₁, ha, h₂⟩

end Spot

/-! ## The acts of a run, written out -/

def opening : List Act := [.engine .reset none, .hook .setup none, .emitted .setupDone]

/-- The acts of a turn under a mode. -/
def turnActs (m : Mode) : List Act :=
  [.hasDone false, .passed m, .engine (advanceOf m) none, .hook .action none, .emitted .actionDone]

/-- The acts of a run that has completed turns under the given modes. -/
def soFar (ms : List Mode) : List Act := opening ++ ms.flatMap turnActs

/-- The acts of finishing well. -/
def closing : List Act :=
  [.hasDone true, .hook .dispose none, .emitted .disposeDone, .ended none]

theorem soFar_concat (ms : List Mode) (m : Mode) : soFar (ms ++ [m]) = soFar ms ++ turnActs m := by
  simp [soFar]

/-- The acts of a run up to its failure, which is the last of them; a cancellation is no act. -/
inductive Broken : Failure → List Act → Prop where
  | reset (f : Failure) : Broken f [.engine .reset (some f)]
  | setUp (f : Failure) : Broken f [.engine .reset none, .hook .setup (some f)]
  | ask (ms : List Mode) (p : Payload) : Broken (.panicked p) (soFar ms ++ [.hasDonePanics p])
  | gate (ms : List Mode) : Broken .cancelled (soFar ms ++ [.hasDone false])
  | advance (ms : List Mode) (m : Mode) (f : Failure) :
      Broken f (soFar ms ++ [.hasDone false, .passed m, .engine (advanceOf m) (some f)])
  | action (ms : List Mode) (m : Mode) (f : Failure) :
      Broken f (soFar ms ++
        [.hasDone false, .passed m, .engine (advanceOf m) none, .hook .action (some f)])
  | dispose (ms : List Mode) (f : Failure) :
      Broken f (soFar ms ++ [.hasDone true, .hook .dispose (some f)])

def ending (f : Failure) : List Act := [.emitted (report f), .ended (some f)]

/-- The acts that lead to a spot. -/
def Reads : Spot → List Act → Prop
  | .reset, as => as = []
  | .setUp, as => as = [.engine .reset none]
  | .tellSetUp, as => as = [.engine .reset none, .hook .setup none]
  | .ask, as => ∃ ms, as = soFar ms
  | .gate, as => ∃ ms, as = soFar ms ++ [.hasDone false]
  | .advance m, as => ∃ ms, as = soFar ms ++ [.hasDone false, .passed m]
  | .action, as => ∃ ms m, as = soFar ms ++ [.hasDone false, .passed m, .engine (advanceOf m) none]
  | .tellAction, as =>
    ∃ ms m, as = soFar ms ++
      [.hasDone false, .passed m, .engine (advanceOf m) none, .hook .action none]
  | .dispose, as => ∃ ms, as = soFar ms ++ [.hasDone true]
  | .tellDispose, as => ∃ ms, as = soFar ms ++ [.hasDone true, .hook .dispose none]
  | .close, as =>
    ∃ ms, as = soFar ms ++ [.hasDone true, .hook .dispose none, .emitted .disposeDone]
  | .report f, as => Broken f as
  | .abandon f, as => ∃ bs, Broken f bs ∧ as = bs ++ [.emitted (report f)]
  | .finished none, as => ∃ ms, as = soFar ms ++ closing
  | .finished (some f), as => ∃ bs, Broken f bs ∧ as = bs ++ ending f

/-- One act by the rules leads from the acts of a spot to those of the next. -/
theorem reads_next {s t : Spot} {a : Act} {as : List Act} (h : Reads s as) (ha : s.Next a t) :
    Reads t (as ++ [a]) := by
  cases ha with
  | reset | setUp => subst h; rfl
  | resetFails f => subst h; exact .reset f
  | setUpFails f => subst h; exact .setUp f
  | tellSetUp => subst h; exact ⟨[], rfl⟩
  | goOn | isDone => obtain ⟨ms, rfl⟩ := h; exact ⟨ms, rfl⟩
  | askFails p => obtain ⟨ms, rfl⟩ := h; exact .ask ms p
  | pass m => obtain ⟨ms, rfl⟩ := h; exact ⟨ms, by simp⟩
  | cancel => obtain ⟨ms, rfl⟩ := h; exact ⟨_, .gate ms, rfl⟩
  | advance m => obtain ⟨ms, rfl⟩ := h; exact ⟨ms, m, by simp⟩
  | advanceFails m f => obtain ⟨ms, rfl⟩ := h; simpa [Reads] using Broken.advance ms m f
  | action => obtain ⟨ms, m, rfl⟩ := h; exact ⟨ms, m, by simp⟩
  | actionFails f => obtain ⟨ms, m, rfl⟩ := h; simpa [Reads] using Broken.action ms m f
  | tellAction => obtain ⟨ms, m, rfl⟩ := h; exact ⟨ms ++ [m], by simp [soFar_concat, turnActs]⟩
  | dispose | tellDispose => obtain ⟨ms, rfl⟩ := h; exact ⟨ms, by simp⟩
  | disposeFails f => obtain ⟨ms, rfl⟩ := h; simpa [Reads] using Broken.dispose ms f
  | close => obtain ⟨ms, rfl⟩ := h; exact ⟨ms, by simp [closing]⟩
  | report f => exact ⟨as, h, rfl⟩
  | abandon f => obtain ⟨bs, hb, rfl⟩ := h; exact ⟨bs, hb, by simp [ending]⟩

/-- **The acts that lead from the beginning to a spot.** -/
theorem run_reads {s : Spot} {as : List Act} (h : Spot.Run .reset as s) : Reads s as := by
  induction as using List.reverseRecOn generalizing s with
  | nil => cases h; rfl
  | append_singleton as a ih =>
    obtain ⟨t, t', h₁, ha, h₂⟩ := h.cut
    cases h₂
    exact reads_next (ih h₁) ha

/-! ## What comes before and after an act -/

theorem dispose_not_mem_soFar (ms : List Mode) (f : Option Failure) :
    .hook .dispose f ∉ soFar ms := by
  simp [soFar, opening, turnActs]

/-- Where a run stands when it is a hook's turn. -/
def Spot.before : Domain.Hook → Spot
  | .setup => setUp
  | .action => action
  | .dispose => dispose

/-- A hook is called only where its turn has come. -/
theorem before_hook {s : Spot} {as bs : List Act} {k : Domain.Hook} {f : Option Failure}
    (h : Spot.Run .reset (as ++ .hook k f :: bs) s) : Reads (Spot.before k) as := by
  obtain ⟨t, t', h₁, ha, -⟩ := h.cut
  have hr := run_reads h₁
  cases ha <;> exact hr

/-- A call on the engine is the first act, a reset, or the advance of the turn that has just begun. -/
theorem before_engine {s : Spot} {as bs : List Act} {c : Engine.Call} {f : Option Failure}
    (h : Spot.Run .reset (as ++ .engine c f :: bs) s) :
    (as = [] ∧ c = .reset) ∨
      ∃ ms m, as = soFar ms ++ [.hasDone false, .passed m] ∧ c = advanceOf m := by
  obtain ⟨t, t', h₁, ha, -⟩ := h.cut
  have hr := run_reads h₁
  cases ha with
  | reset => exact .inl ⟨hr, rfl⟩
  | resetFails f => exact .inl ⟨hr, rfl⟩
  | advance m => obtain ⟨ms, hms⟩ := hr; exact .inr ⟨ms, m, hms, rfl⟩
  | advanceFails m f => obtain ⟨ms, hms⟩ := hr; exact .inr ⟨ms, m, hms, rfl⟩

/-- Once a disposal was made, there is no other one. -/
theorem after_dispose {s : Spot} {as bs : List Act} {f : Option Failure}
    (h : Spot.Run .reset (as ++ .hook .dispose f :: bs) s) (g : Option Failure) :
    .hook .dispose g ∉ bs := by
  intro hg
  obtain ⟨b₁, b₂, rfl⟩ := List.append_of_mem hg
  rw [← List.cons_append, ← List.append_assoc] at h
  obtain ⟨ms, hms⟩ := before_hook h
  have hmem : .hook .dispose f ∈ soFar ms ++ [Act.hasDone true] := by rw [← hms]; simp
  exact dispose_not_mem_soFar ms f (by simpa using hmem)

theorem Spot.run_finished {f : Option Failure} {s : Spot} {as : List Act} (h : Spot.Run (.finished f) as s) :
    as = [] ∧ s = .finished f := by
  obtain _ | ⟨ha, h⟩ := h
  · exact ⟨rfl, rfl⟩
  · cases ha

theorem Spot.run_abandon {f : Failure} {s : Spot} {as : List Act}
    (h : Spot.Run (.abandon f) as s) : as <+: [.ended (some f)] := by
  obtain _ | ⟨ha, h⟩ := h
  · exact List.nil_prefix
  · cases ha
    obtain ⟨rfl, -⟩ := Spot.run_finished h
    exact List.prefix_rfl

theorem Spot.run_report {f : Failure} {s : Spot} {as : List Act} (h : Spot.Run (.report f) as s) :
    as <+: ending f := by
  obtain _ | ⟨ha, h⟩ := h
  · exact List.nil_prefix
  · cases ha
    exact List.cons_prefix_cons.mpr ⟨rfl, Spot.run_abandon h⟩

/-- **The first failure is the end:** it is reported, and nothing else is done. -/
theorem after_failure {s : Spot} {as bs : List Act} {a : Act} {f : Failure}
    (h : Spot.Run .reset (as ++ a :: bs) s) (hf : a.failure? = some f) : bs <+: ending f := by
  obtain ⟨t, t', -, ha, h₂⟩ := h.cut
  cases ha <;> simp only [Act.failure?, reduceCtorEq, Option.some.injEq] at hf <;> subst hf <;>
    exact Spot.run_report h₂

/-- After the report of a failure, of a cancellation too, nothing is done. -/
theorem after_report {s : Spot} {as bs : List Act} {m : String}
    (h : Spot.Run .reset (as ++ .emitted (.error m) :: bs) s) : ∃ f, bs <+: [.ended (some f)] := by
  obtain ⟨t, t', -, ha, h₂⟩ := h.cut
  generalize hn : Notification.error m = n at ha
  cases ha with
  | cancel => exact ⟨_, Spot.run_abandon h₂⟩
  | report f => exact ⟨f, Spot.run_abandon h₂⟩
  | tellSetUp | tellAction | tellDispose => cases hn

/-- The end is noted iff the run is over. -/
theorem ended_mem_iff {s : Spot} {as : List Act} (h : Spot.Run .reset as s) (f : Option Failure) :
    .ended f ∈ as ↔ s = .finished f := by
  constructor
  · intro hf
    obtain ⟨bs, cs, rfl⟩ := List.append_of_mem hf
    obtain ⟨t, t', -, ha, h₂⟩ := h.cut
    cases ha <;> exact (Spot.run_finished h₂).2
  · rintro rfl
    have hr := run_reads h
    cases f with
    | none => obtain ⟨ms, rfl⟩ := hr; simp [closing]
    | some f => obtain ⟨bs, -, rfl⟩ := hr; simp [ending]

/-- From any spot a run can be brought to an end by the rules. -/
theorem Spot.run_to_end (s : Spot) : ∃ as f, Spot.Run s as (.finished f) := by
  have report (f : Failure) : Spot.Run (.report f) (ending f) (.finished (some f)) :=
    .cons (.report f) (.cons (.abandon f) (.nil _))
  have ask := Spot.Run.cons (.askFails .other) (report (.panicked .other))
  cases s with
  | reset => exact ⟨_, _, .cons (.resetFails .cancelled) (report _)⟩
  | setUp => exact ⟨_, _, .cons (.setUpFails .cancelled) (report _)⟩
  | tellSetUp => exact ⟨_, _, .cons .tellSetUp ask⟩
  | ask => exact ⟨_, _, ask⟩
  | gate => exact ⟨_, _, .cons .cancel (.cons (.abandon _) (.nil _))⟩
  | advance m => exact ⟨_, _, .cons (.advanceFails m .cancelled) (report _)⟩
  | action => exact ⟨_, _, .cons (.actionFails .cancelled) (report _)⟩
  | tellAction => exact ⟨_, _, .cons .tellAction ask⟩
  | dispose => exact ⟨_, _, .cons (.disposeFails .cancelled) (report _)⟩
  | tellDispose => exact ⟨_, _, .cons .tellDispose (.cons .close (.nil _))⟩
  | close => exact ⟨_, _, .cons .close (.nil _)⟩
  | report f => exact ⟨_, _, report f⟩
  | abandon f => exact ⟨_, _, .cons (.abandon f) (.nil _)⟩
  | finished f => exact ⟨_, _, .nil _⟩

/-! ## What the acts amount to -/

def notices (as : List Act) : List Notification :=
  as.filterMap fun | .emitted n => some n | _ => none

def advances (as : List Act) : List Engine.Call :=
  as.filterMap fun | .engine c _ => if c = .reset then none else some c | _ => none

/-- The modes of the ways past the gate among acts. -/
def passages (as : List Act) : List Mode :=
  as.filterMap fun | .passed m => some m | _ => none

@[simp] theorem notices_append (as bs : List Act) : notices (as ++ bs) = notices as ++ notices bs :=
  List.filterMap_append

@[simp] theorem advances_append (as bs : List Act) :
    advances (as ++ bs) = advances as ++ advances bs := List.filterMap_append

@[simp] theorem passages_append (as bs : List Act) : passages (as ++ bs) = passages as ++ passages bs :=
  List.filterMap_append

theorem mem_passages {m : Mode} {as : List Act} : m ∈ passages as ↔ .passed m ∈ as := by
  simp only [passages, List.mem_filterMap]
  refine ⟨?_, fun hm => ⟨_, hm, rfl⟩⟩
  rintro ⟨a, ha, hm⟩
  cases a <;> cases hm
  exact ha

theorem advanceOf_ne_reset (m : Mode) : advanceOf m ≠ .reset := by
  cases m <;> decide

theorem notices_soFar (ms : List Mode) :
    notices (soFar ms) = .setupDone :: List.replicate ms.length .actionDone := by
  induction ms using List.reverseRecOn with
  | nil => rfl
  | append_singleton ms m ih =>
    rw [soFar_concat, notices_append, ih, List.length_append]
    simp [notices, turnActs, List.replicate_succ']

/-- The mode of the turn that has passed the gate and not begun. -/
def Spot.pending : Spot → List Mode
  | advance m => [m]
  | _ => []

/-- **Every way past the gate is followed by one advance of its own kind.** -/
theorem advances_eq {s : Spot} {as : List Act} (h : Spot.Run .reset as s) :
    (passages as).map advanceOf = advances as ++ s.pending.map advanceOf := by
  induction as using List.reverseRecOn generalizing s with
  | nil => cases h; rfl
  | append_singleton as a ih =>
    obtain ⟨t, t', h₁, ha, h₂⟩ := h.cut
    cases h₂
    rw [passages_append, advances_append, List.map_append, ih h₁]
    cases ha with
    | pass m => simp [passages, advances, Spot.pending]
    | advance m | advanceFails m f => simp [passages, advances, Spot.pending, advanceOf_ne_reset]
    | _ => rfl

end Cadence.Controller
