import Cadence.Engine.Catalogue
import Cadence.Engine.Memory
import Cadence.Proofs.Attending
import Cadence.Proofs.Fairness
import Cadence.Proofs.Freeing

/-!
# Cadence.Proofs.RunningOut — what becomes of a run when the input ends

Where its input ends, a console sets its run free.  Nothing is asked of it any more, so the run stays free, and it
never waits for the console either, which takes whatever is in the channel.  What is left is to begin turns, or to
come to the end.

* `GoesOn.paced`: a console that goes on makes at most seven moves for a turn, beyond those that lie ahead.
* `Freed.can_go_on`: there is always a move to be made before a terminal notification.
* `set_free`: a run that is set free at any time, by anybody, and so by a console whose input ends.
-/

namespace Cadence

namespace Console

open Controller (Reachable Later SetFree)

variable {E S : Type} [Engine E] {load : Engine.Script → S → Outcome Engine.Error E × S}
  {k l m : Console load} {w v : Controller (parts load)} {n : Nat}

/-! ## Going on -/

/-- A console goes on by itself: the worker makes a step, or a notification arrives, so many times. -/
inductive GoesOn : Nat → Console load → Console load → Prop where
  | here (k : Console load) : GoesOn 0 k k
  | work {n : Nat} {k l m : Console load} (h : k.work? = some l) (later : GoesOn n l m) : GoesOn (n + 1) k m
  | notice {n : Nat} {k l m : Console load} (h : k.notice? = some l) (later : GoesOn n l m) : GoesOn (n + 1) k m

/-- How much lies ahead of a console before the next turn, or before the end. -/
def ahead (k : Console load) : Nat :=
  k.controller.phase.ahead + 2 * k.controller.outbox.length +
    (k.controller.channels.flatMap Channel.content).length

theorem Attends.work (h : Attends k) (hl : k.work? = some l) :
    Attends l ∧ l.ahead + 7 * k.controller.turns < k.ahead + 7 * l.controller.turns := by
  obtain ⟨w, hs, rfl⟩ := Option.map_eq_some_iff.mp hl
  refine ⟨h.happens (.work hs), ?_⟩
  obtain ⟨ch, hw⟩ := h.wired
  obtain ⟨ch', hw', hstep⟩ := hw.step h.reachable hs
  simp only [ahead, hw.channels, hw'.channels, List.flatMap_singleton]
  rcases hstep with ⟨x, hx, hc, ht⟩ | ⟨ho, rfl, hst⟩
  · obtain ⟨-, hp, -, -⟩ := ht.frame
    have hlen : k.controller.outbox.length = w.outbox.length + 1 := by rw [hx, List.length_cons]
    rw [hp, ht.turns_eq]
    omega
  · obtain ⟨k, hk, hst⟩ := hst.ahead ho
    rw [hw.members, List.length_singleton, Nat.mul_one] at hk
    rw [ho, List.length_nil]
    omega

theorem Attends.notice (h : Attends k) (hl : k.notice? = some l) :
    Attends l ∧ l.ahead + 7 * k.controller.turns < k.ahead + 7 * l.controller.turns := by
  obtain ⟨n, w, hwait, hr, rfl⟩ := notice_happens hl
  refine ⟨h.happens (.notice hwait hr), ?_⟩
  obtain ⟨ch, hw⟩ := h.wired
  rw [h.events] at hr
  obtain ⟨ch', hw', hc⟩ := hw.receive hr
  have hkeep : w.phase = k.controller.phase ∧ w.outbox = k.controller.outbox ∧ w.turns = k.controller.turns := by
    have hrec : w = (k.controller.receive 0).2 := by rw [hr]
    rw [hrec, Controller.receive]
    split <;> exact ⟨rfl, rfl, rfl⟩
  have hlen := congrArg List.length hc
  rw [List.length_cons] at hlen
  simp only [ahead, (receive_frame _ n).1, hw.channels, hw'.channels, hkeep, List.flatMap_singleton]
  omega

/-- **A console that goes on makes at most seven moves for a turn**, beyond those that lie ahead. -/
theorem GoesOn.paced (h : GoesOn n k l) (hk : Attends k) :
    n + l.ahead + 7 * k.controller.turns ≤ k.ahead + 7 * l.controller.turns := by
  induction h with
  | here => omega
  | work h later ih =>
    obtain ⟨hl, hlt⟩ := hk.work h
    have := ih hl
    omega
  | notice h later ih =>
    obtain ⟨hl, hlt⟩ := hk.notice h
    have := ih hl
    omega

/-- A console that is left to itself goes on until there is nothing to be done. -/
theorem rest_goesOn (limit : Nat) (k : Console load) : ∃ n ≤ limit, GoesOn n k (rest limit k) ∧
    (n = limit ∨ (rest limit k).work? = none ∧ (rest limit k).notice? = none) := by
  induction limit generalizing k with
  | zero => exact ⟨0, Nat.le_refl _, .here k, .inl rfl⟩
  | succ limit ih =>
    unfold rest
    split
    · rename_i l hl
      obtain ⟨n, hn, hgo, hend⟩ := ih l
      exact ⟨n + 1, by omega, .notice hl hgo, hend.imp_left fun h => by omega⟩
    · rename_i hnotice
      split
      · rename_i l hl
        obtain ⟨n, hn, hgo, hend⟩ := ih l
        exact ⟨n + 1, by omega, .work hl hgo, hend.imp_left fun h => by omega⟩
      · rename_i hwork
        exact ⟨0, by omega, .here k, .inr ⟨hwork, hnotice⟩⟩

/-- Where nothing arrives, the channel is empty. -/
theorem Attends.content_eq_nil (h : Attends k) (hw : k.isWaiting = true) (hnotice : k.notice? = none) :
    k.controller.channels.flatMap Channel.content = [] := by
  obtain ⟨ch, hwired⟩ := h.wired
  rw [hwired.channels, List.flatMap_singleton]
  refine hwired.receive_none ?_
  unfold notice? at hnotice
  rw [if_pos hw, h.events] at hnotice
  split at hnotice
  · rename_i hr
    rw [hr]
  · cases hnotice

/-- A console that has taken all there is holds nobody up. -/
theorem Attends.not_heldUp (h : Attends k) (hw : k.isWaiting = true) (hnotice : k.notice? = none) :
    k.controller.isHeldUp = false := by
  have hempty := h.content_eq_nil hw hnotice
  obtain ⟨ch, hwired⟩ := h.wired
  rw [hwired.channels, List.flatMap_singleton] at hempty
  have hwaiting : ch.waiting = none := by simpa using (List.append_eq_nil_iff.mp hempty).2
  simp [Controller.isHeldUp, hwired.channels, Channel.isHeldUp, hwaiting]

/-- When the run is over and everything was printed, the last notification was too. -/
theorem Attends.not_done (h : Attends k) (hw : k.isWaiting = true) (hnotice : k.notice? = none) :
    k.controller.isDone ≠ true := by
  intro hd
  have hempty := h.content_eq_nil hw hnotice
  obtain ⟨ch, hwired⟩ := h.wired
  rw [hwired.channels, List.flatMap_singleton] at hempty
  obtain ⟨hp, ho, -⟩ := Controller.isDone_iff.mp hd
  obtain ⟨ns, t, hns, -, ht, -⟩ := h.reachable.sound.closed hp
  have htold := Controller.toldTo_append_of_stays h.reachable.recorded (s := .channel 0) fun e he => by
    rw [hwired.announced e he]
    exact List.mem_singleton_self _
  rw [← hwired.delivered, hempty, hns, Controller.dueTo, ho] at htold
  have hall : k.notices = ns ++ [t] := by simpa using htold
  have hmem : t ∈ k.notices := by simp [hall]
  rw [h.waits hw t hmem] at ht
  cases ht

/-! ## After the input -/

theorem step_unasked (h : w.step = some v) :
    ∃ news, v.journal = news ++ w.journal ∧ ∀ e ∈ news, e.asksToWait = false := by
  unfold Controller.step at h
  split at h
  · cases h
  split at h
  · rename_i s n rest ho
    cases h
    cases s with
    | observer i => cases i
    | channel k => exact ⟨[.told _ _ _], rfl, by simp [Controller.Entry.asksToWait]⟩
  · obtain ⟨r, hr, rfl⟩ := Option.map_eq_some_iff.mp h
    obtain ⟨news, hj, hn⟩ := (Controller.proceed_parts hr).news
    refine ⟨news, hj, fun e he => ?_⟩
    have hwork := hn e he
    cases e <;> first | rfl | exact hwork.elim

/-- `l` has come from `k`, where the input ended. -/
structure Freed (k l : Console load) : Prop where
  attends : Attends l
  inputClosed : l.inputOpen = false
  later : ∃ after, Later (k.controller.setMode .run).resume.2 after l.controller ∧
    ∀ e ∈ after, e.asksToWait = false
  ended : l.isWaiting = false → ∃ before n, l.stdout = before ++ [.notification n] ∧ n.isTerminal = true

theorem Freed.of_endInput (h : InSession k) (hw : k.isWaiting = true) (ho : k.inputOpen = true) :
    Freed k k.endInput := by
  have hend : k.endInput = { k with controller := (k.controller.setMode .run).resume.2, inputOpen := false } := by
    rw [endInput, hw, ho]
    rfl
  have hk := (h.move .endInput).attends
  rw [move, hend] at hk
  rw [hend]
  exact ⟨hk, rfl, ⟨[], .refl hk.reachable, by simp⟩, fun hf => absurd (hw.symm.trans hf) (by simp)⟩

theorem Freed.happens (h : Freed k l) (hm : Happens l m) : Freed k m := by
  have hattends := h.attends.happens hm
  obtain ⟨after, hl, hafter⟩ := h.later
  cases hm with
  | nothing => exact h
  | work hs =>
    obtain ⟨news, hj, hn⟩ := step_unasked hs
    refine ⟨hattends, h.inputClosed, ⟨after ++ news.reverse, hl.trans (.of_journal hattends.reachable hj), ?_⟩, h.ended⟩
    intro e he
    rw [List.mem_append, List.mem_reverse] at he
    exact he.elim (hafter e) (hn e)
  | @notice n w hw hr =>
    obtain ⟨hc, -, hout, hin, hwait⟩ := receive_frame { l with controller := w } n
    have hj : w.journal = l.controller.journal := by
      have hrec : w = (l.controller.receive l.events).2 := by rw [hr]
      rw [hrec, Controller.receive]
      split <;> rfl
    refine ⟨hattends, hin.trans h.inputClosed, ⟨after, ⟨hattends.reachable, ?_⟩, hafter⟩, fun hf => ?_⟩
    · rw [hc, Controller.history, hj]
      exact hl.history
    · rw [hwait] at hf
      exact ⟨_, n, hout, by simpa [hw] using hf⟩
  | line c _ ho => exact absurd (ho.symm.trans h.inputClosed) (by simp)
  | misread _ _ ho => exact absurd (ho.symm.trans h.inputClosed) (by simp)
  | endInput _ ho => exact absurd (ho.symm.trans h.inputClosed) (by simp)

theorem Freed.moves (h : Freed k l) (ms : List Move) : Freed k (l.moves ms) := by
  induction ms generalizing l with
  | nil => exact h
  | cons m ms ih => exact ih (h.happens (move_happens l m))

theorem Freed.goesOn (h : Freed k l) (hgo : GoesOn n l m) : Freed k m := by
  induction hgo with
  | here => exact h
  | @work n l m _ hwork _ ih =>
    obtain ⟨w, hs, rfl⟩ := Option.map_eq_some_iff.mp hwork
    exact ih (h.happens (.work hs))
  | notice hnotice _ ih =>
    obtain ⟨n, w, hw, hr, rfl⟩ := notice_happens hnotice
    exact ih (h.happens (.notice hw hr))

theorem Freed.setFree (h : Freed k l) (hk : Reachable k.controller) :
    ∃ after, Later (k.controller.setMode .run).resume.2 after l.controller ∧
      SetFree (k.controller.setMode .run) after l.controller := by
  obtain ⟨after, hl, hafter⟩ := h.later
  exact ⟨after, hl, Reachable.setFree (.refl (hk.move (.call (.setMode .run)))) hl (by simp) hafter⟩

/-- **While a terminal notification is waited for, there is a move to be made.** -/
theorem Freed.can_go_on (h : Freed k l) (hk : Reachable k.controller) (hw : l.isWaiting = true) :
    ¬ (l.work? = none ∧ l.notice? = none) := by
  rintro ⟨hwork, hnotice⟩
  have hrest : l.controller.AtRest := Option.map_eq_none_iff.mp hwork
  obtain ⟨after, -, hfree⟩ := h.setFree hk
  rcases hfree.rests hrest with hp | hh | hd
  · exact h.attends.launched hp
  · rw [h.attends.not_heldUp hw hnotice] at hh
    cases hh
  · exact h.attends.not_done hw hnotice hd

/-- What is to be expected of a console whose input ends at `k`. -/
structure RunsOut (k : Console load) : Prop where
  /-- Whatever happens then, the run stays free, -/
  free : ∀ ms, ∃ after, Later (k.controller.setMode .run).resume.2 after (k.endInput.moves ms).controller ∧
    SetFree (k.controller.setMode .run) after (k.endInput.moves ms).controller
  /-- the console waits for a terminal notification and for nothing else, -/
  ends : ∀ ms, (k.endInput.moves ms).isWaiting = false →
    ∃ before n, (k.endInput.moves ms).stdout = before ++ [.notification n] ∧ n.isTerminal = true
  /-- it can go on until there is one, -/
  goesOn : ∀ ms, (k.endInput.moves ms).isWaiting = true → ∃ l, GoesOn 1 (k.endInput.moves ms) l
  /-- and however it goes on, it makes at most seven moves for a turn, beyond those that lie ahead: -/
  paced : ∀ ms n l, GoesOn n (k.endInput.moves ms) l →
    n + 7 * (k.endInput.moves ms).controller.turns ≤ (k.endInput.moves ms).ahead + 7 * l.controller.turns
  /-- left to itself it comes to the terminal notification, unless there are turns without end. -/
  reaches : ∀ ms turns, ∃ n, (rest n (k.endInput.moves ms)).isWaiting = false ∨
    turns ≤ (rest n (k.endInput.moves ms)).controller.turns

theorem InSession.runsOut (h : InSession k) (hw : k.isWaiting = true) (ho : k.inputOpen = true) : RunsOut k := by
  have hr := h.attends.reachable
  have hfreed (ms : List Move) : Freed k (k.endInput.moves ms) := (Freed.of_endInput h hw ho).moves ms
  have hpaced (ms : List Move) {n : Nat} {l : Console load} (hgo : GoesOn n (k.endInput.moves ms) l) :
      n + 7 * (k.endInput.moves ms).controller.turns ≤ (k.endInput.moves ms).ahead + 7 * l.controller.turns := by
    have := hgo.paced (hfreed ms).attends
    omega
  exact
    { free := fun ms => (hfreed ms).setFree hr
      ends := fun ms => (hfreed ms).ended
      goesOn := by
        intro ms hwait
        have hcan := (hfreed ms).can_go_on hr hwait
        cases hwork : (k.endInput.moves ms).work? with
        | some l => exact ⟨l, .work hwork (.here l)⟩
        | none =>
          cases hnotice : (k.endInput.moves ms).notice? with
          | some l => exact ⟨l, .notice hnotice (.here l)⟩
          | none => exact absurd ⟨hwork, hnotice⟩ hcan
      paced := fun ms n l hgo => hpaced ms hgo
      reaches := by
        intro ms turns
        refine ⟨(k.endInput.moves ms).ahead + 7 * turns, ?_⟩
        generalize hlimit : (k.endInput.moves ms).ahead + 7 * turns = limit
        obtain ⟨n, -, hgo, hend⟩ := rest_goesOn limit (k.endInput.moves ms)
        cases hwait : (Console.rest limit (k.endInput.moves ms)).isWaiting with
        | false => exact .inl rfl
        | true =>
          right
          have hn : n = limit := hend.resolve_right (((hfreed ms).goesOn hgo).can_go_on hr hwait)
          have hle := hpaced ms hgo
          omega }

/-- **A run that is set free runs to its end.**  By whomever and whenever the mode was set to `run` and the run was
resumed after that, it stays free until somebody asks it to wait again; so a console whose input ends needs no other
input for its run to come to the end. -/
theorem set_free :
    (∀ (A : Controller.Assembly) (u t w : Controller A) (between after : List (Controller.Entry A.Id)),
      Later (u.setMode .run) between t → Later t.resume.2 after w →
      (∀ e ∈ between ++ after, e.asksToWait = false) → SetFree t after w) ∧
    ∀ (E S : Type) [Engine E] (load : Engine.Script → S → Outcome Engine.Error E × S) (k : Console load),
      InSession k → k.isWaiting = true → k.inputOpen = true → RunsOut k := by
  refine ⟨fun A u t w between after ht hw hquiet => ?_, fun E S _ load k h hw ho => h.runsOut hw ho⟩
  refine Reachable.setFree ht hw (fun e he => hquiet e ?_) fun e he => hquiet e ?_
  · exact List.mem_append_left _ he
  · exact List.mem_append_right _ he

/-- A console of an engine with two rules to fire. -/
def opened : Console (Engine.Catalogue.load (σ := Engine.Memory)) where
  controller :=
    let w : Controller (parts (Engine.Catalogue.load (σ := Engine.Memory))) := .create Config.standard
      [("rules", .ok { initial := ["0 lay: *", "0 hatch: *"], failing := fun _ => none })] {} ()
    ((w.subscribeChannel.2.startEngine ⟨"rules"⟩).2.launchOn .spawned).2
  events := 0

theorem opens_opened : Opens opened := .mk (Prod.ext rfl rfl) (Prod.ext rfl rfl) (Prod.ext rfl rfl)

theorem opened_inSession : InSession opened := .opens opens_opened

/-- A worker that waits at the gate is let go, and so is the one of a console whose input ends there. -/
theorem set_free_at_gate :
    (let u := (Controller.Bench.trial .step 3 []).moves (Controller.Bench.launched 6)
      let v := (u.setMode .run).resume.2
      let w := v.moves (List.replicate 24 .work)
      u.isSuspended = true ∧ w.isDone = true ∧
        SetFree (u.setMode .run) (w.history.drop v.history.length) w) ∧
      (rest 8 opened).controller.isSuspended = true ∧ (rest 16 (rest 8 opened).endInput).isWaiting = false ∧
      RunsOut (rest 8 opened) := by
  have hu : Reachable ((Controller.Bench.trial .step 3 []).moves (Controller.Bench.launched 6)) :=
    Reachable.moves (.create _ _ _ _) _
  have ht := hu.move (.call (.setMode .run))
  refine ⟨⟨by decide, by decide, ?_⟩, by decide +kernel, by decide +kernel, ?_⟩
  · refine set_free.1 _ _ _ _ [] _ (.refl ht) (.moves (ht.move (.call .resume)) _) ?_
    decide
  · refine set_free.2 _ _ _ _ (opened_inSession.rest 8) ?_ ?_
    · decide +kernel
    · decide +kernel

end Console

end Cadence
