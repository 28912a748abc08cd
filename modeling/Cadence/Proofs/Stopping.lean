import Cadence.Proofs.Endings
import Cadence.Proofs.Occasion

/-!
# Cadence.Proofs.Stopping — what becomes of a run that is stopped

A run that is stopped before launch is reset and set up.  From then on, and after a stop while SETUP_DONE or an
ACTION_DONE is delivered, the domain is asked once more whether it is done: if it is, the run goes on as if it had
not been stopped, and if not, it is given up at the gate.  A stop wakes a worker that is parked there, and it gives
the run up, unless it is resumed before it has looked up: a permit counts more than a cancellation.

* `Sound.checking_of_announcing`, `Sound.finished_of_terminal`: where the worker is while it delivers.
* `StopsAt.setsUp`, `StopsAt.disposes_first`: a stop before launch.
* `StopsAt.heeded`: a stop, wherever it is made but in a turn.
-/

namespace Cadence.Controller

variable {A : Assembly} {w : Controller A}

/-! ## Where a run is -/

/-- SETUP_DONE or an ACTION_DONE was announced last: it is being delivered, or has just been. -/
def Announcing (w : Controller A) : Prop :=
  ∃ before n, w.acts = before ++ [.emitted n] ∧ (n = .setupDone ∨ n = .actionDone)

theorem Spot.run_announced {s : Spot} {as : List Act} {n : Notification}
    (h : Spot.Run .reset (as ++ [.emitted n]) s) (hn : n = .setupDone ∨ n = .actionDone) : s = .ask := by
  obtain ⟨t, t', -, ha, hr⟩ := h.cut
  cases hr
  cases ha with
  | tellSetUp | tellAction => rfl
  | cancel | report | tellDispose => simp [Controller.report] at hn

theorem Sound.checking_of_announcing (h : Sound w) (ha : w.Announcing) : w.phase = .checking := by
  obtain ⟨before, n, has, hn⟩ := ha
  have hs := h.stands
  unfold Stands at hs
  rw [has] at hs
  cases hp : w.phase <;> rw [hp] at hs
  case finished =>
    obtain ⟨f, hr, -⟩ := hs
    cases Spot.run_announced hr hn
  all_goals cases Spot.run_announced hs.1 hn

theorem Sound.finished_of_terminal (h : Sound w) {n : Notification} (hn : .emitted n ∈ w.acts)
    (ht : n.isTerminal = true) : w.phase = .finished := by
  by_contra hp
  obtain ⟨s, hr, hs, ho⟩ := h.run
  have hmem : n ∈ notices w.acts := List.mem_filterMap.mpr ⟨_, hn, rfl⟩
  rw [notices_of_settled hr hs (mt ho.mp hp) n hmem] at ht
  cases ht

/-- A turn comes to the gate only after the domain has said that it is not done. -/
theorem Sound.asked_of_atGate (h : Sound w) (hp : w.phase.isAtGate = true) : .hasDone false ∈ w.acts := by
  have hr : Spot.Run .reset w.acts .gate := by
    have hs := h.stands
    unfold Stands at hs
    cases hphase : w.phase <;> rw [hphase] at hs hp <;> first | exact hs.1 | cases hp
  obtain ⟨ms, hms⟩ := run_reads hr
  rw [hms]
  simp

theorem Sound.undisposed (h : Sound w) (hp : w.phase = .checking ∨ w.phase = .parked) (f : Option Failure) :
    .hook .dispose f ∉ w.acts := by
  have hs := h.stands
  unfold Stands at hs
  rcases hp with hp | hp <;> rw [hp] at hs <;> obtain ⟨ms, hms⟩ := run_reads hs.1 <;> rw [hms]
  · exact dispose_not_mem_soFar ms f
  · simpa using dispose_not_mem_soFar ms f

theorem Reachable.undone (h : Reachable w) (hp : w.phase.isAtGate = true) :
    Domain.hasDone w.domain = .ok false := by
  refine h.keeps (P := fun v => v.phase.isAtGate = true → Domain.hasDone v.domain = .ok false) ?_ ?_ ?_ ?_ hp
  · intro config source domain crowd hp
    cases hp
  · rintro u v - hu he hp
    rw [he.domain_eq]
    rcases he.phase_cases with h | h <;> rw [h] at hp
    · exact hu hp
    · cases hp
  · rintro u v - hu ht hp
    obtain ⟨-, hphase, -, hd⟩ := ht.frame
    rw [hd]
    exact hu (hphase ▸ hp)
  · rintro u v - hu - - hs hp
    cases hs with
    | goOn phase hd => exact hd
    | comeUp phase => exact hu (by rw [phase]; rfl)
    | park phase =>
      have hd := hu (by rw [phase]; rfl)
      rw [apply_eq]
      exact hd
    | _ => cases hp

/-! ## As if it had not been stopped -/

/-- Where the domain is done, the worker does not come to the gate any more. -/
theorem Reachable.away_of_done (h : Reachable w) (hp : w.phase = .checking)
    (hd : Domain.hasDone w.domain = .ok true) (ms : List (Move A.Id)) :
    (w.moves ms).phase.isAtGate = false := by
  have hends : (w.moves ms).phase = .checking ∧ Domain.hasDone (w.moves ms).domain = .ok true ∨
      (w.moves ms).phase = .disposing ∨ (w.moves ms).phase = .finished := by
    refine h.moves_keep (P := fun v => v.phase = .checking ∧ Domain.hasDone v.domain = .ok true ∨
      v.phase = .disposing ∨ v.phase = .finished) ?_ ?_ ?_ (.inl ⟨hp, hd⟩) ms
    · intro u v hr hu he
      have hl : u.launch ≠ none := by
        rw [ne_eq, hr.sound.launched]
        rcases hu with ⟨hp, -⟩ | hp | hp <;> simp [hp]
      rwa [(he.of_launched hl).1, he.domain_eq]
    · intro u v _ hu ht
      rwa [ht.frame.2.1, ht.frame.2.2.2]
    · intro u v _ hu _ _ hs
      rcases hu with ⟨hp, hd⟩ | hp | hp
      · cases hs <;> simp_all
      · cases hs <;> simp_all
      · cases hs <;> simp_all
  rcases hends with ⟨hp, -⟩ | hp | hp <;> rw [hp] <;> rfl

variable {k : Sequel A}

/-- What is still to come of the move leaves the run where it was stopped. -/
theorem goOn_stop (hl : w.launch ≠ none) :
    (w.stop.goOn k).phase = w.phase ∧ (w.stop.goOn k).acts = w.acts ∧
      (w.stop.goOn k).domain = w.domain ∧ (w.stop.goOn k).cancelled = true := by
  refine (goOn_keeps (P := fun v => v.launch ≠ none ∧ v.phase = w.phase ∧ v.acts = w.acts ∧
    v.domain = w.domain ∧ v.cancelled = true) ?_ ?_ ?_).2
  · rintro u v ⟨hul, hp, ha, hd, hc⟩ he
    exact ⟨he.stays_launched hul, (he.of_launched hul).1.trans hp, he.acts_eq.trans ha,
      he.domain_eq.trans hd, he.stays_cancelled hc⟩
  · rintro u crowd outbox e ⟨hul, hp, ha, hd, hc⟩ he
    refine ⟨hul, hp, ?_, hd, hc⟩
    rw [acts_note, he, ← ha]
    exact List.append_nil _
  · exact ⟨hl, rfl, by rw [stop, acts_note]; exact List.append_nil _, rfl, rfl⟩

theorem goOn_last_turn : (w.stop.goOn k).cancelled = true ∧
    (w.stop.goOn k).turns + (w.stop.goOn k).phase.toBegin ≤ w.turns + w.phase.toBegin := by
  refine goOn_keeps (P := fun v => v.cancelled = true ∧
    v.turns + v.phase.toBegin ≤ w.turns + w.phase.toBegin) ?_ ?_ ⟨rfl, Nat.le_refl _⟩
  · rintro u v ⟨hc, hn⟩ he
    exact ⟨he.stays_cancelled hc, Nat.le_trans he.last_turn hn⟩
  · exact fun u crowd outbox e hu _ => hu

/-- What is to be expected of a stop that is made at `w`, with `k` still to come. -/
structure Heeded (w : Controller A) (k : Sequel A) : Prop where
  /-- After a stop before launch, or while SETUP_DONE or an ACTION_DONE is delivered, there is no turn any more, -/
  noTurn : w.launch = none ∨ w.Announcing → ∀ ms, WithoutTurn w (w.stopped k ms)
  /-- nor after a stop at the gate, where the worker looks up before anybody resumes it. -/
  noTurnParked : w.phase = .parked → w.gate.permit = false → ∀ ms, LooksFirst ms →
    WithoutTurn w (w.stopped k ms)
  /-- The worker does look up first if everybody waits for it to rest before resuming the run. -/
  looksFirst : w.phase = .parked → w.gate.permit = false → ∀ ms,
    (∀ before after, ms = before ++ .call .resume :: after → (w.stopped k before).AtRest) → LooksFirst ms
  /-- Wherever it is made and whatever follows, no more than one turn is begun: one that is past the gate already,
  or parked there and handed a permit before the worker looks up. -/
  lastTurn : ∀ ms, (w.stopped k ms).turns ≤ w.turns + w.phase.toBegin
  /-- If the domain is not done while a notification is delivered, the run is given up, -/
  givesUp : w.Announcing → Domain.hasDone w.domain = .ok false →
    EndsIn (fun _ => True) (w.stopped k []) (· = w.acts ++ .hasDone false :: givingUp)
  /-- and if it is done, the run is disposed as if it had not been stopped. -/
  disposes : w.Announcing → Domain.hasDone w.domain = .ok true →
    EndsIn (fun _ => True) (w.stopped k []) (DisposedAfter w.acts) ∧ ∀ ms, AsIf w k ms
  /-- At the gate it is not done, and the run is given up. -/
  givesUpParked : w.phase = .parked → w.gate.permit = false → Domain.hasDone w.domain = .ok false ∧
    EndsIn LooksFirst (w.stopped k []) (· = w.acts ++ givingUp)
  /-- But a resume that comes before the worker looks up is granted.  It lets one more turn past the gate, which is the
  last: it fails, or the domain is asked after it, and the run is given up or disposed. -/
  resumedFirst : w.phase = .parked → w.gate.permit = false → ∀ before,
    (∀ m ∈ before, m ≠ .work ∧ m ≠ .call .resume) →
      (w.stopped k before).resume.1 = true ∧ EndsIn (fun _ => True) (w.stopped k (before ++ [.call .resume]))
        fun as => ∃ last, LastTurn last ∧ as = w.acts ++ last
  /-- There was no disposal before that. -/
  undisposed : w.Announcing ∨ w.phase = .parked → ∀ f, .hook .dispose f ∉ w.acts
  /-- A run that was stopped before launch goes on as if it had not been, unless the domain says that it is not
  done, -/
  starts : w.launch = none → ∀ ms, .hasDone false ∉ (w.stopped k ms).acts → AsIf w k ms
  /-- so it is reset and set up, and SETUP_DONE is announced, if it would have been. -/
  setsUp : w.launch = none → ∀ ms, opening <+: (w.unstopped k ms).acts → opening <+: (w.stopped k ms).acts
  /-- If the domain is not done then, the run is given up, -/
  givesUpFirst : w.launch = none → ∀ ms, (w.stopped k ms).acts = opening →
    Domain.hasDone (w.stopped k ms).domain = .ok false →
      EndsIn (fun _ => True) (w.stopped k ms) (· = opening ++ .hasDone false :: givingUp)
  /-- and if it is, disposed. -/
  disposesFirst : w.launch = none → ∀ ms, (w.stopped k ms).acts = opening →
    Domain.hasDone (w.stopped k ms).domain = .ok true →
      EndsIn (fun _ => True) (w.stopped k ms) (DisposedAfter opening) ∧ ∀ ns, AsIf w k (ms ++ ns)
  /-- From its terminal notification on, a run goes on as if it had not been stopped. -/
  late : (∃ n, .emitted n ∈ w.acts ∧ n.isTerminal = true) → ∀ ms, AsIf w k ms

theorem acts_stop (w : Controller A) : w.stop.acts = w.acts := by
  rw [stop, acts_note]
  exact List.append_nil _

section BeforeLaunch

variable (h : StopsAt w k) (hl : w.launch = none)

include h hl

/-- Before launch, it is the host that stops the run. -/
theorem StopsAt.before_launch (ms : List (Move A.Id)) :
    Reachable (w.stopped k ms) ∧ Barred (w.stopped k ms) ∧ WithoutTurn w (w.stopped k ms) := by
  have hp := h.reachable.sound.phase_of_launch hl
  have hk := h.eq_nothing (h.reachable.sound.nothing_due (by simp [hp]) (by simp [hp])).1
  have hr : Reachable w.stop := h.reachable.move (.call .stop)
  have hb : Barred w.stop := ⟨rfl, by simp [stop, note, hp], by simp [stop, note, hp]⟩
  obtain ⟨hb', later, ha, hturn⟩ := hr.stays_barred hb ms
  rw [acts_stop] at ha
  rw [stopped, hk]
  exact ⟨hr.moves ms, hb', later, ha, hturn⟩

theorem StopsAt.starts {ms : List (Move A.Id)} (hms : .hasDone false ∉ (w.stopped k ms).acts) :
    AsIf w k ms := by
  refine asIf_of_away fun before hbefore => ?_
  obtain ⟨rest, rfl⟩ := hbefore
  by_contra hgate
  rw [Bool.not_eq_false] at hgate
  have hasked := (h.before_launch hl before).1.sound.asked_of_atGate hgate
  refine hms ?_
  rw [stopped, moves_append]
  exact (acts_grow _ rest).subset hasked

theorem StopsAt.setsUp {ms : List (Move A.Id)} (ho : opening <+: (w.unstopped k ms).acts) :
    opening <+: (w.stopped k ms).acts := by
  -- a run that has asked already was set up before
  by_cases hasked : .hasDone false ∈ (w.stopped k ms).acts
  · obtain ⟨s, hrun, -⟩ := (h.before_launch hl ms).1.sound.run
    obtain ⟨before, later, heq⟩ := List.append_of_mem hasked
    rw [heq] at hrun ⊢
    obtain ⟨t, t', ht, hn, -⟩ := hrun.cut
    cases hn
    obtain ⟨ns, rfl⟩ := run_reads ht
    rw [soFar, List.append_assoc]
    exact List.prefix_append _ _
  · rwa [(h.starts hl hasked).acts_eq]

/-- Once the domain is set up, it is asked whether it is done. -/
theorem StopsAt.set_up {ms : List (Move A.Id)} (ho : (w.stopped k ms).acts = opening) :
    (w.stopped k ms).phase = .checking :=
  (h.before_launch hl ms).1.sound.checking_of_announcing
    ⟨[.engine .reset none, .hook .setup none], .setupDone, ho, .inl rfl⟩

theorem StopsAt.disposes_first {ms : List (Move A.Id)} (ho : (w.stopped k ms).acts = opening)
    (hd : Domain.hasDone (w.stopped k ms).domain = .ok true) (ns : List (Move A.Id)) : AsIf w k (ms ++ ns) := by
  refine asIf_of_away fun before hbefore => ?_
  obtain ⟨rest, hrest⟩ := hbefore
  -- before the domain is set up nothing was asked yet, and afterwards it is done
  rcases List.append_eq_append_iff.mp hrest with ⟨rest, rfl, -⟩ | ⟨more, rfl, -⟩
  · by_contra hgate
    rw [Bool.not_eq_false] at hgate
    have hasked := (h.before_launch hl before).1.sound.asked_of_atGate hgate
    rw [stopped, moves_append] at ho
    have hmem := (acts_grow _ rest).subset hasked
    rw [stopped, ho] at hmem
    simp [opening] at hmem
  · rw [stopped, moves_append]
    exact (h.before_launch hl ms).1.away_of_done (h.set_up hl ho) hd more

end BeforeLaunch

/-- **A stop is heeded**, wherever it is made but in a turn. -/
theorem StopsAt.heeded (h : StopsAt w k) : Heeded w k := by
  have hsound := h.reachable.sound
  have hlaunched (hp : w.phase ≠ .idle) : w.launch ≠ none := by rwa [ne_eq, hsound.launched]
  -- while a notification is delivered
  have hdelivers (ha : w.Announcing) : Barred (w.stop.goOn k) ∧ (w.stop.goOn k).phase = .checking ∧
      (w.stop.goOn k).acts = w.acts ∧ (w.stop.goOn k).domain = w.domain := by
    have hp := hsound.checking_of_announcing ha
    obtain ⟨hphase, hacts, hdom, hc⟩ := goOn_stop (k := k) (hlaunched (by simp [hp]))
    rw [hp] at hphase
    exact ⟨⟨hc, by simp [hphase], by simp [hphase]⟩, hphase, hacts, hdom⟩
  -- at the gate
  have hparked (hp : w.phase = .parked) (hg : w.gate.permit = false) :
      Reachable w.stop ∧ k = .nothing ∧ w.stop.phase = .parked ∧ w.stop.gate.permit = false :=
    ⟨h.reachable.move (.call .stop),
      h.eq_nothing (hsound.nothing_due (by simp [hp]) (by simp [hp])).1, hp, hg⟩
  exact
    { noTurn := by
        rintro (hl | ha) ms
        · exact (h.before_launch hl ms).2.2
        · obtain ⟨hb, -, hacts, -⟩ := hdelivers ha
          obtain ⟨-, later, hm, hturn⟩ := h.goOn.stays_barred hb ms
          exact ⟨later, by rw [stopped, hm, hacts], hturn⟩
      noTurnParked := by
        intro hp hg ms hms
        obtain ⟨hr, rfl, hp', hg'⟩ := hparked hp hg
        rcases hr.gives_up hp' hg' rfl hms with ⟨-, -, -, hacts⟩ | ⟨-, -, hacts⟩ <;> rw [acts_stop] at hacts
        · exact ⟨[], by rw [stopped, Controller.goOn, hacts, List.append_nil], by simp⟩
        · exact ⟨givingUp, hacts, by decide⟩
      looksFirst := by
        intro hp hg ms hwait
        obtain ⟨hr, rfl, hp', hg'⟩ := hparked hp hg
        exact hr.looksFirst hp' hg' rfl hwait
      lastTurn := by
        intro ms
        obtain ⟨hc, hn⟩ := goOn_last_turn (w := w) (k := k)
        exact Nat.le_trans (Nat.le_add_right _ _) (Nat.le_trans (h.goOn.last_turn hc ms).2 hn)
      givesUp := by
        intro ha hd
        obtain ⟨hb, hp, hacts, hdom⟩ := hdelivers ha
        rw [← hacts]
        exact h.goOn.endsIn_givingUp hb hp (hdom ▸ hd)
      disposes := by
        intro ha hd
        obtain ⟨hb, hp, hacts, hdom⟩ := hdelivers ha
        refine ⟨hacts ▸ h.goOn.endsIn_disposal hb hp (hdom ▸ hd), fun ms => asIf_of_away fun before _ => ?_⟩
        exact h.goOn.away_of_done hp (hdom ▸ hd) before
      givesUpParked := by
        intro hp hg
        obtain ⟨hr, rfl, hp', hg'⟩ := hparked hp hg
        refine ⟨h.reachable.undone (by rw [hp]; rfl), ?_⟩
        rw [← acts_stop]
        exact hr.endsIn_gives_up hp' hg' rfl
      resumedFirst := by
        intro hp hg before hbefore
        obtain ⟨hr, rfl, hp', hg'⟩ := hparked hp hg
        obtain ⟨hphase, hgate, hacts⟩ := hr.stays_asleep hp' hg' hbefore
        obtain ⟨hgranted, hphase', hgate', hacts'⟩ := (hr.moves before).sound.resume_granted hphase hgate
        refine ⟨hgranted, ?_⟩
        have hmoves : w.stopped .nothing (before ++ [.call .resume]) = (w.stop.moves before).resume.2 := by
          rw [stopped, moves_append]
          rfl
        rw [hmoves, ← acts_stop w, ← hacts, ← hacts']
        refine ((hr.moves before).move (.call .resume)).endsIn_lastTurn hphase' hgate' ?_
        exact (access_effect _ (.call .resume)).stays_cancelled (hr.last_turn rfl before).1
      undisposed := fun hp f => hsound.undisposed (hp.imp_left hsound.checking_of_announcing) f
      starts := fun hl ms => h.starts hl
      setsUp := fun hl ms => h.setsUp hl
      givesUpFirst := by
        intro hl ms ho hd
        obtain ⟨hr, hb, -⟩ := h.before_launch hl ms
        rw [← ho]
        exact hr.endsIn_givingUp hb (h.set_up hl ho) hd
      disposesFirst := by
        intro hl ms ho hd
        obtain ⟨hr, hb, -⟩ := h.before_launch hl ms
        refine ⟨?_, h.disposes_first hl ho hd⟩
        rw [← ho]
        exact hr.endsIn_disposal hb (h.set_up hl ho) hd
      late := by
        rintro ⟨n, hn, ht⟩ ms
        have hp := hsound.finished_of_terminal hn ht
        obtain ⟨hphase, -⟩ := goOn_stop (k := k) (hlaunched (by simp [hp]))
        refine asIf_of_away fun before _ => ?_
        rw [stopped, (h.goOn.stays_finished (hphase.trans hp) before).1]
        rfl }

/-- A worker is parked before its first turn and stopped there; a resume that comes after it has looked up is of
no use. -/
theorem heeded_of_parked_run :
    (stopped ((Bench.trial .step 3 []).moves (Bench.launched 6)) .nothing
        [.work, .call .resume, .work, .work]).acts = opening ++ .hasDone false :: givingUp ∧
      Heeded ((Bench.trial .step 3 []).moves (Bench.launched 6)) .nothing :=
  ⟨by decide, (StopsAt.host (Reachable.moves (.create _ _ _ _) _)).heeded⟩

/-- A resume that comes before it has looked up is granted, so the stop does not keep the worker from a turn. -/
theorem resumed_before_looking_up :
    ((Bench.trial .step 3 []).moves (Bench.launched 6)).phase = .parked ∧
      ((Bench.trial .step 3 []).moves (Bench.launched 6)).gate.permit = false ∧
      (stopped ((Bench.trial .step 3 []).moves (Bench.launched 6)) .nothing
          ([.call .resume] ++ List.replicate 6 .work)).acts =
        opening ++ [.hasDone false, .passed .step, .engine .run none, .hook .action none, .emitted .actionDone] ++
          .hasDone false :: givingUp ∧
      ¬ ∀ ms, WithoutTurn ((Bench.trial .step 3 []).moves (Bench.launched 6))
        (stopped ((Bench.trial .step 3 []).moves (Bench.launched 6)) .nothing ms) := by
  refine ⟨by decide, by decide, by decide, fun hall => ?_⟩
  obtain ⟨later, hacts, hturn⟩ := hall ([.call .resume] ++ [.work])
  have hpassed : ((stopped ((Bench.trial .step 3 []).moves (Bench.launched 6)) .nothing
      ([.call .resume] ++ [.work])).acts) =
        ((Bench.trial .step 3 []).moves (Bench.launched 6)).acts ++ [.passed .step] := by decide
  rw [hpassed, List.append_cancel_left_eq] at hacts
  exact nomatch hturn (.passed .step) (hacts ▸ List.mem_singleton_self _)

end Cadence.Controller
