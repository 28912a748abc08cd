import Cadence.Proofs.Notices

/-!
# Cadence.Proofs.TurnOrder — the calls of the worker are in turn order

The worker resets the engine and sets the domain up; then each turn asks whether the work is done, passes the
gate, advances the engine once and lets the domain act; then the domain is disposed.  The first failure is the
end.  The acts of every reachable controller are a beginning of such a run, and its notifications keep pace
with the calls that succeeded.

* `announced_eq`: what is announced is what succeeded.
* `Reachable.inTurnOrder`: the order of the calls of any run.
-/

namespace Cadence.Controller

variable {A : Assembly} {w : Controller A}

/-! ## Announcements keep pace with successes -/

/-- What a hook that succeeded is announced as. -/
def feat : Domain.Hook → Notification
  | .setup => .setupDone
  | .action => .actionDone
  | .dispose => .disposeDone

def Act.feat? : Act → Option Notification
  | hook h none => some (feat h)
  | _ => none

def feats (as : List Act) : List Notification := as.filterMap Act.feat?

/-- The announcement that has to be made next. -/
def Spot.owed : Spot → List Notification
  | tellSetUp => [.setupDone]
  | tellAction => [.actionDone]
  | tellDispose => [.disposeDone]
  | _ => []

def isReport : Notification → Bool
  | .error _ => true
  | _ => false

/-- **What is announced is what succeeded**, reports of failures aside. -/
theorem announced_eq {s : Spot} {as : List Act} (h : Spot.Run .reset as s) :
    (notices as).filter (!isReport ·) ++ s.owed = feats as := by
  induction as using List.reverseRecOn generalizing s with
  | nil => cases h; rfl
  | append_singleton as a ih =>
    obtain ⟨t, t', h₁, ha, h₂⟩ := h.cut
    cases h₂
    have ih := ih h₁
    rw [feats, List.filterMap_append, ← feats, ← ih]
    cases ha <;> first | rfl | simp [notices, Spot.owed, Act.feat?, feat, isReport, report]

theorem owed_of_settled {s : Spot} (h : s.IsSettled) : s.owed = [] := by
  cases s <;> first | rfl | exact h.elim

theorem count_feats {h : Domain.Hook} (as : List Act) :
    (feats as).count (feat h) = as.count (.hook h none) := by
  rw [feats, List.count_filterMap, List.count_eq_countP]
  refine List.countP_congr fun a _ => ?_
  rcases a with _ | ⟨k, _ | f⟩ | _ | _ | _ | _ | _ <;> simp [Act.feat?]
  cases h <;> cases k <;> simp [feat]

theorem count_notices {n : Notification} (as : List Act) :
    (notices as).count n = as.count (.emitted n) := by
  rw [notices, List.count_filterMap, List.count_eq_countP]
  refine List.countP_congr fun a _ => ?_
  cases a <;> simp

/-- Between two steps, a hook that succeeded has been announced, and nothing else but failures has. -/
theorem count_emitted {s : Spot} {as : List Act} (h : Spot.Run .reset as s) (hs : s.IsSettled)
    (k : Domain.Hook) : as.count (.emitted (feat k)) = as.count (.hook k none) := by
  have heq := announced_eq h
  rw [owed_of_settled hs, List.append_nil] at heq
  rw [← count_feats, ← heq, ← count_notices, List.count_filter]
  cases k <;> rfl

theorem mem_emitted_iff {s : Spot} {as : List Act} (h : Spot.Run .reset as s) (hs : s.IsSettled)
    (k : Domain.Hook) : .emitted (feat k) ∈ as ↔ .hook k none ∈ as := by
  rw [← List.count_pos_iff, ← List.count_pos_iff, count_emitted h hs k]

/-! ## The order of calls -/

/-- The acts so far are a beginning of a run that goes well, or of one that is broken off by a failure. -/
theorem acts_order {s : Spot} {as : List Act} (h : Spot.Run .reset as s) :
    (∃ ms, as <+: soFar ms ++ closing) ∨ ∃ f bs, Broken f bs ∧ as <+: bs ++ ending f := by
  obtain ⟨bs, f, hb⟩ := s.run_to_end
  have hr := run_reads (h.append hb)
  cases f with
  | none =>
    obtain ⟨ms, hms⟩ := hr
    exact .inl ⟨ms, hms ▸ List.prefix_append _ _⟩
  | some f =>
    obtain ⟨cs, hc, hcs⟩ := hr
    exact .inr ⟨f, cs, hc, hcs ▸ List.prefix_append _ _⟩

/-- The order of what the worker does in a run. -/
structure InTurnOrder (as : List Act) : Prop where
  /-- Reset, set up, turns, disposal; or this up to a failure and its report. -/
  order : (∃ ms, as <+: soFar ms ++ closing) ∨ ∃ f bs, Broken f bs ∧ as <+: bs ++ ending f
  /-- The first call that fails is the last. -/
  failure : ∀ before a after f, as = before ++ a :: after → a.failure? = some f → after <+: ending f
  /-- After the report of a failure, so after a cancellation at the gate, only the end is noted. -/
  reported : ∀ before m after, as = before ++ .emitted (.error m) :: after →
    ∃ f, after <+: [.ended (some f)]
  /-- The domain is set up once the engine is reset, -/
  setUp : ∀ before f after, as = before ++ .hook .setup f :: after → before = [.engine .reset none]
  /-- the engine is reset first, and else advanced once in a turn that the gate let through, -/
  engine : ∀ before c f after, as = before ++ .engine c f :: after → (before = [] ∧ c = .reset) ∨
    ∃ ms m, before = soFar ms ++ [.hasDone false, .passed m] ∧ c = advanceOf m
  /-- the domain acts once the turn's advance has succeeded, -/
  action : ∀ before f after, as = before ++ .hook .action f :: after →
    ∃ ms m, before = soFar ms ++ [.hasDone false, .passed m, .engine (advanceOf m) none]
  /-- and is disposed once, after the first answer that the work is done and no failure. -/
  dispose : ∀ before f after, as = before ++ .hook .dispose f :: after →
    (∃ ms, before = soFar ms ++ [.hasDone true]) ∧ ∀ g, .hook .dispose g ∉ after
  /-- Set-up is announced iff reset and set-up succeeded, -/
  setUpTold : .emitted .setupDone ∈ as ↔ .engine .reset none ∈ as ∧ .hook .setup none ∈ as
  /-- an action as often as one succeeded, -/
  actionsTold : as.count (.emitted .actionDone) = as.count (.hook .action none)
  /-- and disposal iff it succeeded. -/
  disposeTold : .emitted .disposeDone ∈ as ↔ .hook .dispose none ∈ as

/-- **The worker keeps to the order of turns** in every run, and announces what succeeded. -/
theorem Reachable.inTurnOrder (h : Reachable w) : InTurnOrder w.acts := by
  obtain ⟨s, hr, hs, -⟩ := h.sound.run
  refine
    { order := acts_order hr
      failure := fun before a after f heq hf => after_failure (heq ▸ hr) hf
      reported := fun before m after heq => after_report (heq ▸ hr)
      setUp := fun before f after heq => before_hook (k := .setup) (heq ▸ hr)
      engine := fun before c f after heq => before_engine (heq ▸ hr)
      action := fun before f after heq => before_hook (k := .action) (heq ▸ hr)
      dispose := fun before f after heq =>
        ⟨before_hook (k := .dispose) (heq ▸ hr), after_dispose (heq ▸ hr)⟩
      setUpTold := ?_
      actionsTold := count_emitted hr hs .action
      disposeTold := mem_emitted_iff hr hs .dispose }
  rw [show Notification.setupDone = feat .setup from rfl, mem_emitted_iff hr hs .setup]
  refine ⟨fun hsetup => ⟨?_, hsetup⟩, And.right⟩
  obtain ⟨before, after, heq⟩ := List.append_of_mem hsetup
  have hbefore : before = [.engine .reset none] := before_hook (k := .setup) (heq ▸ hr)
  rw [heq, hbefore]
  exact List.mem_cons_self

/-- One turn, and then an advance that fails. -/
theorem inTurnOrder_of_failing_run :
    ((Bench.trial .run 3 [⟨.run, 2, .failure ⟨.io, "gone"⟩⟩]).moves (Bench.launched 13)).acts =
        soFar [.run] ++ [.hasDone false, .passed .run,
          .engine .run (some (.domain (.engine ⟨.io, "gone"⟩)))] ++
          ending (.domain (.engine ⟨.io, "gone"⟩)) ∧
      InTurnOrder
        ((Bench.trial .run 3 [⟨.run, 2, .failure ⟨.io, "gone"⟩⟩]).moves (Bench.launched 13)).acts :=
  ⟨by decide, Reachable.inTurnOrder (Reachable.moves (.create _ _ _ _) _)⟩

end Cadence.Controller
