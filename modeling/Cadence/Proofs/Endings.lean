import Cadence.Proofs.Halting
import Cadence.Proofs.Pace
import Cadence.Proofs.Position

/-!
# Cadence.Proofs.Endings — how a cancelled run ends

Between two turns the domain is asked whether it is done.  If it is, the run is disposed, cancelled or not; if it
is not, a cancelled run is given up at the gate.  A worker that is parked there already gives the run up when it
looks up, unless it has a permit.

* `Reachable.goes_on`: nothing is done until the worker goes on.
* `Reachable.answered`: between two turns nothing is done before the domain is asked.
* `EndsIn`: which ends a run can come to, whatever else is done, and that it comes to one.
* `Reachable.endsIn_of_answer`: the answer of the domain decides how a barred run ends.
* `Reachable.endsIn_gives_up`: so does the lack of a permit.
* `Reachable.endsIn_lastTurn`: with a permit, one more turn is the last.
-/

namespace Cadence.Controller

variable {A : Assembly} {u v w : Controller A}

/-! ## Asking the domain -/

theorem Stride.of_checking {b : Bool} (hs : Stride w v) (hp : w.phase = .checking)
    (hd : Domain.hasDone w.domain = .ok b) : v.acts = w.acts ++ [.hasDone b] := by
  cases hs with
  | goOn _ h | isDone _ h =>
    cases hd.symm.trans h
    exact acts_note w _
  | askFails _ h => cases hd.symm.trans h
  | _ => simp_all

/-- Nothing is done until the worker goes on, and then what it goes on with comes first. -/
theorem Reachable.goes_on (h : Reachable w) {P : Controller A → Prop} (first : Act → Prop)
    (access : ∀ u a, Reachable u → P u → P (u.access a).2) (told : ∀ u v, Reachable u → P u → Told u v → P v)
    (goes : ∀ u r, P u → u.proceed? = some r → ∃ a, first a ∧ (conclude r).acts = u.acts ++ [a]) (hw : P w)
    (ms : List (Move A.Id)) :
    P (w.moves ms) ∧ (w.moves ms).acts = w.acts ∨
      ∃ a later, first a ∧ (w.moves ms).acts = w.acts ++ a :: later := by
  refine h.moves_uphold (P := fun v => P v ∧ v.acts = w.acts ∨
    ∃ a later, first a ∧ v.acts = w.acts ++ a :: later) ?_ ?_ ?_ (.inl ⟨hw, rfl⟩) ms
  · intro u a hu hv
    rw [(access_effect u a).acts_eq]
    exact hv.imp_left fun ⟨hP, ha⟩ => ⟨access u a hu hP, ha⟩
  · intro u v hu hv ht
    rw [ht.frame.2.2.1]
    exact hv.imp_left fun ⟨hP, ha⟩ => ⟨told u v hu hP ht, ha⟩
  · intro u r _ hv hproceed _
    right
    rcases hv with ⟨hP, ha⟩ | ⟨a, later, hfirst, ha⟩
    · obtain ⟨a, hfirst, hacts⟩ := goes u r hP hproceed
      exact ⟨a, [], hfirst, by rw [hacts, ha]⟩
    · obtain ⟨news, hj, -⟩ := (proceed_parts hproceed).news
      exact ⟨a, later ++ readOff Entry.act? news, hfirst, by rw [acts, hj, readOff_append, ← acts, ha]; simp⟩

/-- **Between two turns nothing is done before the domain is asked**, whatever else happens. -/
theorem Reachable.answered (h : Reachable w) (hp : w.phase = .checking) {b : Bool}
    (hd : Domain.hasDone w.domain = .ok b) (ms : List (Move A.Id)) :
    ((w.moves ms).phase = .checking ∧ (w.moves ms).domain = w.domain) ∧ (w.moves ms).acts = w.acts ∨
      ∃ later, (w.moves ms).acts = w.acts ++ .hasDone b :: later := by
  refine (h.goes_on (P := fun v => v.phase = .checking ∧ v.domain = w.domain) (· = .hasDone b) ?_ ?_ ?_
    ⟨hp, rfl⟩ ms).imp_right ?_
  · rintro u a hu ⟨hphase, hdom⟩
    exact ⟨(hu.sound.access_phase (by simp [hphase]) a).trans hphase, (access_effect u a).domain_eq.trans hdom⟩
  · rintro u v - ⟨hphase, hdom⟩ ht
    obtain ⟨-, hsame, -, hdom'⟩ := ht.frame
    exact ⟨hsame.trans hphase, hdom'.trans hdom⟩
  · rintro u r ⟨hphase, hdom⟩ hproceed
    exact ⟨_, rfl, (proceed_stride hproceed).of_checking hphase (hdom ▸ hd)⟩
  · rintro ⟨_, later, rfl, ha⟩
    exact ⟨later, ha⟩

theorem Reachable.run_of_answer (h : Reachable w) {before later : List Act} {b : Bool}
    (ha : w.acts = before ++ .hasDone b :: later) :
    ∃ s, Spot.Run (if b then .dispose else .gate) later s := by
  obtain ⟨s, hr, -⟩ := h.sound.run
  rw [ha] at hr
  obtain ⟨t, t', -, hn, hrun⟩ := hr.cut
  cases hn <;> exact ⟨s, hrun⟩

/-- A run that is over by then has noted its end after the answer. -/
theorem Reachable.ended_of_answer (h : Reachable w) (hp : w.phase = .finished) {before later : List Act} {b : Bool}
    (ha : w.acts = before ++ .hasDone b :: later) : ∃ f, .ended f ∈ later := by
  obtain ⟨s, hrun, -, hover⟩ := h.sound.run
  obtain ⟨f, rfl⟩ := hover.mpr hp
  have hmem : .ended f ∈ w.acts := (ended_mem_iff hrun f).mpr rfl
  rw [ha] at hmem hrun
  rcases List.mem_append.mp hmem with hm | hm
  · -- a run that has ended does not ask
    obtain ⟨t, t', ht, hn, -⟩ := hrun.cut
    have hend : t = .finished f := (ended_mem_iff ht f).mp hm
    rw [hend] at hn
    cases hn
  · exact ⟨f, by simpa using hm⟩

/-! ## How a run ends -/

/-- A run with a failure at the gate, where it is found cancelled. -/
def givingUp : List Act := [.emitted (.error "execution cancelled"), .ended (some .cancelled)]

/-- The run is disposed after `before`, well or not. -/
def DisposedAfter (before as : List Act) : Prop :=
  as = before ++ closing ∨ ∃ f, as = before ++ .hasDone true :: .hook .dispose (some f) :: ending f

/-- After moves of a kind, whichever they are, the run has done no more than one of the given ends; left to itself
the worker comes to rest, and where it rests it is held up by a full channel or done, at one of these ends. -/
structure EndsIn (allowed : List (Move A.Id) → Prop) (w : Controller A) (ends : List Act → Prop) : Prop where
  within : ∀ ms, allowed ms → ∃ as, ends as ∧ (w.moves ms).acts <+: as
  atRest : ∀ ms, allowed ms → (w.moves ms).AtRest →
    (w.moves ms).isHeldUp = true ∨ (w.moves ms).isDone = true ∧ ends (w.moves ms).acts
  rests : ∀ ms, allowed ms → ∃ n, ((w.moves ms).moves (List.replicate n .work)).AtRest

theorem givingUp_eq : givingUp = ending .cancelled := by decide

/-- A run at the gate that does not get past it is given up. -/
theorem Spot.run_gate {s : Spot} {as : List Act} (h : Spot.Run .gate as s)
    (hw : ∀ m, .passed m ∉ as) : as <+: givingUp := by
  rw [givingUp_eq]
  obtain _ | ⟨ha, h⟩ := h
  · exact List.nil_prefix
  cases ha with
  | pass m => exact absurd List.mem_cons_self (hw m)
  | cancel => exact List.cons_prefix_cons.mpr ⟨rfl, Spot.run_abandon h⟩

theorem Spot.run_dispose {s : Spot} {as : List Act} (h : Spot.Run .dispose as s) :
    as <+: [.hook .dispose none, .emitted .disposeDone, .ended none] ∨
      ∃ f, as <+: .hook .dispose (some f) :: ending f := by
  obtain _ | ⟨ha, h⟩ := h
  · exact .inl List.nil_prefix
  cases ha with
  | disposeFails f => exact .inr ⟨f, List.cons_prefix_cons.mpr ⟨rfl, Spot.run_report h⟩⟩
  | dispose =>
    left
    obtain _ | ⟨ha, h⟩ := h
    · simp
    cases ha
    obtain _ | ⟨ha, h⟩ := h
    · simp
    cases ha
    obtain ⟨rfl, -⟩ := Spot.run_finished h
    exact List.prefix_rfl

/-- Acts that are no more than a whole run, and end the run, are the whole of it. -/
theorem eq_of_ended (b : List Act) {as : List Act} {f g : Option Failure} (h : as <+: b ++ [.ended f])
    (hg : .ended g ∈ as) (hb : ∀ g, .ended g ∉ b) : as = b ++ [.ended f] := by
  rcases List.prefix_concat_iff.mp h with h | h
  · exact h
  · exact absurd (h.subset hg) (hb g)

/-- **The answer of the domain decides** how a barred run ends. -/
theorem Reachable.endsIn_of_answer (h : Reachable w) (hb : Barred w) (hp : w.phase = .checking) {b : Bool}
    (hd : Domain.hasDone w.domain = .ok b) {ends : List Act → Prop}
    (hends : ∀ later s, Spot.Run (if b then .dispose else .gate) later s →
      (∀ a ∈ later, a.isOfTurn = false) → ∃ whole, ends (w.acts ++ .hasDone b :: whole) ∧ later <+: whole ∧
        ∀ f, .ended f ∈ later → later = whole) : EndsIn (fun _ => True) w ends := by
  have hlater (ms : List (Move A.Id)) {later : List Act}
      (hl : (w.moves ms).acts = w.acts ++ .hasDone b :: later) :
      ∃ whole, ends (w.acts ++ .hasDone b :: whole) ∧ later <+: whole ∧
        ∀ f, .ended f ∈ later → later = whole := by
    obtain ⟨s, hrun⟩ := (h.moves ms).run_of_answer hl
    obtain ⟨-, more, hm, hturn⟩ := h.stays_barred hb ms
    rw [hl, List.append_cancel_left_eq] at hm
    exact hends later s hrun fun a ha => hturn a (hm ▸ List.mem_cons_of_mem _ ha)
  refine ⟨fun ms _ => ?_, fun ms _ hr => ?_, fun ms _ => ?_⟩
  · rcases h.answered hp hd ms with ⟨-, ha⟩ | ⟨later, hl⟩
    · obtain ⟨whole, hw, -⟩ := hends [] _ (.nil _) (by simp)
      exact ⟨_, hw, ha ▸ List.prefix_append _ _⟩
    · obtain ⟨whole, hw, hpre, -⟩ := hlater ms hl
      refine ⟨_, hw, ?_⟩
      rw [hl]
      exact (List.prefix_append_right_inj _).mpr (List.cons_prefix_cons.mpr ⟨rfl, hpre⟩)
  · have hidle := h.stays_launched (by simp [hp]) ms
    refine ((h.stays_barred hb ms).1.of_atRest hidle hr).imp_right fun hdone => ⟨hdone, ?_⟩
    have hfin := (isDone_iff.mp hdone).1
    rcases h.answered hp hd ms with ⟨⟨hphase, -⟩, -⟩ | ⟨later, hl⟩
    · rw [hfin] at hphase
      cases hphase
    · obtain ⟨whole, hw, -, heq⟩ := hlater ms hl
      obtain ⟨f, hf⟩ := (h.moves ms).ended_of_answer hfin hl
      rw [hl, heq f hf]
      exact hw
  · exact (h.moves ms).comes_to_rest (h.stays_barred hb ms).1

theorem Reachable.endsIn_givingUp (h : Reachable w) (hb : Barred w) (hp : w.phase = .checking)
    (hd : Domain.hasDone w.domain = .ok false) :
    EndsIn (fun _ => True) w (· = w.acts ++ .hasDone false :: givingUp) := by
  refine h.endsIn_of_answer hb hp hd fun later s hrun hturn => ?_
  have hpre : later <+: givingUp := Spot.run_gate hrun fun m hm => nomatch hturn _ hm
  exact ⟨givingUp, rfl, hpre, fun f hf => eq_of_ended [_] hpre hf (by simp)⟩

theorem Reachable.endsIn_disposal (h : Reachable w) (hb : Barred w) (hp : w.phase = .checking)
    (hd : Domain.hasDone w.domain = .ok true) : EndsIn (fun _ => True) w (DisposedAfter w.acts) := by
  refine h.endsIn_of_answer hb hp hd fun later s hrun _ => ?_
  rcases Spot.run_dispose hrun with hpre | ⟨f, hpre⟩
  · exact ⟨_, .inl rfl, hpre, fun g hg => eq_of_ended [_, _] hpre hg (by simp)⟩
  · exact ⟨_, .inr ⟨f, rfl⟩, hpre, fun g hg => eq_of_ended [_, _] hpre hg (by simp)⟩

/-! ## Parked -/

/-- No resume comes before the worker has made a step. -/
def LooksFirst {ι : Type} (ms : List (Move ι)) : Prop :=
  ∀ before after, ms = before ++ .call .resume :: after → .work ∈ before

theorem LooksFirst.tail {ι : Type} {a : Access ι} {ms : List (Move ι)} (h : LooksFirst (.access a :: ms)) :
    a ≠ .call .resume ∧ LooksFirst ms := by
  refine ⟨?_, fun before after hms => ?_⟩
  · rintro rfl
    exact absurd (h [] ms rfl) (by simp)
  · simpa using h (.access a :: before) after (by rw [hms]; rfl)

/-- Only a resume hands over a permit. -/
theorem access_gate {a : Access A.Id} (ha : a ≠ .call .resume) : (w.access a).2.gate = w.gate := by
  cases a with
  | call c =>
    by_cases hs : c = .stop
    · rw [hs]
      rfl
    · exact (call_gate (fun hc => ha (hc ▸ rfl)) hs).1
  | subscribeChannel =>
    rw [access, subscribeChannel]
    split <;> rfl
  | receive k =>
    rw [access, receive]
    split <;> rfl
  | dropReceiver k => rfl

/-- **A parked worker that finds the run cancelled ends it**, if it has no permit. -/
theorem Reachable.looks_up (h : Reachable w) (hp : w.phase = .parked) (hg : w.gate.permit = false)
    (hc : w.cancelled = true) :
    Barred (w.move .work) ∧ (w.move .work).phase = .finished ∧ (w.move .work).acts = w.acts ++ givingUp := by
  have hst := h.sound.stands
  rw [Stands, hp] at hst
  have hlook : w.look? = some (.error .cancelled, { w with gate := ⟨false, false⟩ }) := by
    simp [look?, Gate.look, hg, hc, Controller.leave]
  have hr : w.proceed? = w.look? := by rw [proceed?, hp]
  rw [hlook] at hr
  have hmove : w.move .work = Controller.fail { w with gate := ⟨false, false⟩ } .cancelled :=
    move_work (h.sound.nothing_due (by simp [hp]) (by simp [hp])) hr
  have hx : w.state.next (.faulted (Failure.message .cancelled)) =
      .ok ⟨endState (some .cancelled), some (report .cancelled)⟩ := next_faulted (by rw [hst.2]; rfl) _
  rw [hmove]
  refine ⟨.of_cancelled (w := { w with gate := ⟨false, false⟩ }) hc _, rfl, ?_⟩
  rw [givingUp_eq, Controller.fail, apply_of_notice (w := { w with gate := ⟨false, false⟩ }) hx]
  simp [acts, note, Entry.act?, ending]

theorem Reachable.stays_finished (h : Reachable w) (hp : w.phase = .finished) (ms : List (Move A.Id)) :
    (w.moves ms).phase = .finished ∧ (w.moves ms).acts = w.acts := by
  refine h.moves_keep (P := fun v => v.phase = .finished ∧ v.acts = w.acts) ?_ ?_ ?_ ⟨hp, rfl⟩ ms
  · rintro u v hu ⟨hphase, ha⟩ he
    have hl : u.launch ≠ none := mt hu.sound.launched.mp (by simp [hphase])
    exact ⟨(he.of_launched hl).1.trans hphase, he.acts_eq.trans ha⟩
  · rintro u v - ⟨hphase, ha⟩ ht
    obtain ⟨-, hp, hacts, -⟩ := ht.frame
    exact ⟨hp.trans hphase, hacts.trans ha⟩
  · rintro u v - ⟨hphase, -⟩ - - hs
    cases hs <;> simp_all

/-- A parked worker without a permit stays so, whatever is done to it but resuming it. -/
theorem Reachable.parked_access (h : Reachable w) (hp : w.phase = .parked) (hg : w.gate.permit = false)
    {a : Access A.Id} (ha : a ≠ .call .resume) :
    (w.move (.access a)).phase = .parked ∧ (w.move (.access a)).gate.permit = false := by
  refine ⟨(h.sound.access_phase (by simp [hp]) a).trans hp, ?_⟩
  rw [Controller.move, access_gate ha, hg]

theorem Sound.not_atRest (h : Sound w) (hp : w.phase = .parked) (hg : w.gate.permit = false)
    (hc : w.cancelled = true) : ¬ w.AtRest := by
  rw [h.atRest_iff (by simp [hp]) (by simp [hp]), proceed?, hp]
  simp [look?, Gate.look, hg, hc]

theorem Reachable.gives_up (h : Reachable w) (hp : w.phase = .parked) (hg : w.gate.permit = false)
    (hc : w.cancelled = true) {ms : List (Move A.Id)} (hms : LooksFirst ms) :
    (w.moves ms).phase = .parked ∧ (w.moves ms).gate.permit = false ∧ (w.moves ms).cancelled = true ∧
        (w.moves ms).acts = w.acts ∨
      Barred (w.moves ms) ∧ (w.moves ms).phase = .finished ∧ (w.moves ms).acts = w.acts ++ givingUp := by
  -- until the first step of the worker it stays parked without a permit; that step ends the run
  induction ms generalizing w with
  | nil => exact .inl ⟨hp, hg, hc, rfl⟩
  | cons m ms ih =>
    rw [moves_cons]
    cases m with
    | work =>
      obtain ⟨hb, hphase, ha⟩ := h.looks_up hp hg hc
      obtain ⟨hphase', ha'⟩ := (h.move .work).stays_finished hphase ms
      exact .inr ⟨((h.move .work).stays_barred hb ms).1, hphase', ha'.trans ha⟩
    | access a =>
      obtain ⟨hr, hms⟩ := hms.tail
      have he := access_effect w a
      obtain ⟨hp', hg'⟩ := h.parked_access hp hg hr
      have ha : (w.move (.access a)).acts = w.acts := he.acts_eq
      rw [← ha]
      exact ih (h.move _) hp' hg' (he.stays_cancelled hc) hms

/-- A host that waits for the worker to rest before it resumes a cancelled run has let it look up. -/
theorem Reachable.looksFirst (h : Reachable w) (hp : w.phase = .parked) (hg : w.gate.permit = false)
    (hc : w.cancelled = true) {ms : List (Move A.Id)}
    (waits : ∀ before after, ms = before ++ .call .resume :: after → (w.moves before).AtRest) :
    LooksFirst ms := by
  induction ms generalizing w with
  | nil =>
    intro before after hms
    simp at hms
  | cons m ms ih =>
    intro before after hms
    cases before with
    | nil => exact absurd (waits [] after hms) (h.sound.not_atRest hp hg hc)
    | cons x before =>
      obtain ⟨rfl, htail⟩ := List.cons.inj hms
      cases m with
      | work => exact List.mem_cons_self
      | access a =>
        have ha : a ≠ .call .resume := by
          rintro rfl
          exact h.sound.not_atRest hp hg hc (waits [] ms rfl)
        obtain ⟨hp', hg'⟩ := h.parked_access hp hg ha
        have hc' := (access_effect w a).stays_cancelled hc
        refine List.mem_cons_of_mem _ (ih (h.move _) hp' hg' hc' ?_ before after htail)
        intro before after hms
        exact waits (.access a :: before) after (by rw [hms]; rfl)

theorem Reachable.endsIn_gives_up (h : Reachable w) (hp : w.phase = .parked) (hg : w.gate.permit = false)
    (hc : w.cancelled = true) : EndsIn LooksFirst w (· = w.acts ++ givingUp) := by
  refine ⟨fun ms hms => ?_, fun ms hms hr => ?_, fun ms hms => ?_⟩
  · refine ⟨_, rfl, ?_⟩
    rcases h.gives_up hp hg hc hms with ⟨-, -, -, ha⟩ | ⟨-, -, ha⟩
    · exact ⟨givingUp, by rw [ha]⟩
    · exact ⟨[], by rw [ha, List.append_nil]⟩
  · rcases h.gives_up hp hg hc hms with ⟨hp', hg', hc', -⟩ | ⟨hb, hp', ha⟩
    · exact absurd hr ((h.moves ms).sound.not_atRest hp' hg' hc')
    · exact (hb.of_atRest (by simp [hp']) hr).imp_right fun hdone => ⟨hdone, ha⟩
  · exact (h.moves ms).rests_of_cancelled (h.last_turn hc ms).1

/-! ## With a permit -/

/-- How a cancelled run ends once the domain is asked after a turn. -/
inductive Concluded : List Act → Prop where
  | givenUp : Concluded (.hasDone false :: givingUp)
  | disposed : Concluded closing
  | disposeFails (f : Failure) : Concluded (.hasDone true :: .hook .dispose (some f) :: ending f)
  | askFails (p : Payload) : Concluded (.hasDonePanics p :: ending (.panicked p))

/-- The last turn of a cancelled run, with the end that comes after it. -/
inductive LastTurn : List Act → Prop where
  | advanceFails (m : Mode) (f : Failure) : LastTurn (.passed m :: .engine (advanceOf m) (some f) :: ending f)
  | actionFails (m : Mode) (f : Failure) :
      LastTurn (.passed m :: .engine (advanceOf m) none :: .hook .action (some f) :: ending f)
  | turn (m : Mode) {as : List Act} (h : Concluded as) :
      LastTurn (.passed m :: .engine (advanceOf m) none :: .hook .action none :: .emitted .actionDone :: as)

theorem Concluded.ends {as : List Act} (h : Concluded as) :
    ∃ before f, as = before ++ [.ended f] ∧ ∀ g, .ended g ∉ before := by
  cases h with
  | givenUp => exact ⟨[_, _], _, rfl, by simp⟩
  | disposed => exact ⟨[_, _, _], _, rfl, by simp⟩
  | disposeFails f => exact ⟨[_, _, _], _, rfl, by simp⟩
  | askFails p => exact ⟨[_, _], _, rfl, by simp⟩

theorem LastTurn.ends {as : List Act} (h : LastTurn as) :
    ∃ before f, as = before ++ [.ended f] ∧ ∀ g, .ended g ∉ before := by
  cases h with
  | advanceFails m f => exact ⟨[_, _, _], _, rfl, by simp⟩
  | actionFails m f => exact ⟨[_, _, _, _], _, rfl, by simp⟩
  | turn m h =>
    obtain ⟨before, f, rfl, hb⟩ := h.ends
    exact ⟨_ :: _ :: _ :: _ :: before, f, rfl, by simpa using hb⟩

theorem Spot.run_ask {s : Spot} {as : List Act} (h : Spot.Run .ask as s) (hw : ∀ m, .passed m ∉ as) :
    ∃ last, Concluded last ∧ as <+: last := by
  obtain _ | ⟨ha, h⟩ := h
  · exact ⟨_, .givenUp, List.nil_prefix⟩
  cases ha with
  | goOn =>
    have hpre := Spot.run_gate h fun m hm => hw m (.tail _ hm)
    exact ⟨_, .givenUp, List.cons_prefix_cons.mpr ⟨rfl, hpre⟩⟩
  | askFails p => exact ⟨_, .askFails p, List.cons_prefix_cons.mpr ⟨rfl, Spot.run_report h⟩⟩
  | isDone =>
    rcases Spot.run_dispose h with hpre | ⟨f, hpre⟩
    · exact ⟨_, .disposed, List.cons_prefix_cons.mpr ⟨rfl, hpre⟩⟩
    · exact ⟨_, .disposeFails f, List.cons_prefix_cons.mpr ⟨rfl, hpre⟩⟩

/-- A run past the gate that does not get past it again has its last turn. -/
theorem Spot.run_advance {s : Spot} {m : Mode} {as : List Act} (h : Spot.Run (.advance m) as s)
    (hw : ∀ m, .passed m ∉ as) : ∃ last, LastTurn (.passed m :: last) ∧ as <+: last := by
  obtain _ | ⟨ha, h⟩ := h
  · exact ⟨_, .turn m .givenUp, List.nil_prefix⟩
  cases ha with
  | advanceFails f => exact ⟨_, .advanceFails m _, List.cons_prefix_cons.mpr ⟨rfl, Spot.run_report h⟩⟩
  | advance =>
    obtain _ | ⟨ha, h⟩ := h
    · exact ⟨_, .turn m .givenUp, by simp⟩
    cases ha with
    | actionFails f =>
      refine ⟨_, .actionFails m f, ?_⟩
      simpa using Spot.run_report h
    | action =>
      obtain _ | ⟨ha, h⟩ := h
      · exact ⟨_, .turn m .givenUp, by simp⟩
      cases ha
      obtain ⟨last, hl, hpre⟩ := Spot.run_ask h fun n hn => hw n (by simp [hn])
      exact ⟨_, .turn m hl, by simpa using hpre⟩

/-- A parked worker keeps its permit until it leaves. -/
theorem Effect.keeps_permit (he : Effect w v) (hg : w.gate.permit = true) : v.gate.permit = true := by
  cases he with
  | load => simpa [note] using hg
  | release => rfl
  | _ => exact hg

theorem Sound.length_passages (h : Sound w) : (passages w.acts).length = w.turns + w.pending.length := by
  have heq := congrArg List.length h.advances_eq
  rw [List.length_map, List.length_append, List.length_map] at heq
  rw [heq, h.turns]

/-- Until it is resumed or looks up, a parked worker stays where it is. -/
theorem Reachable.stays_asleep (h : Reachable w) (hp : w.phase = .parked) (hg : w.gate.permit = false)
    {ms : List (Move A.Id)} (hms : ∀ m ∈ ms, m ≠ .work ∧ m ≠ .call .resume) :
    (w.moves ms).phase = .parked ∧ (w.moves ms).gate.permit = false ∧ (w.moves ms).acts = w.acts := by
  induction ms generalizing w with
  | nil => exact ⟨hp, hg, rfl⟩
  | cons m ms ih =>
    obtain ⟨hm, hlater⟩ := List.forall_mem_cons.mp hms
    cases m with
    | work => exact absurd rfl hm.1
    | access a =>
      have ha : a ≠ .call .resume := fun heq => hm.2 (by rw [heq])
      obtain ⟨hp', hg'⟩ := h.parked_access hp hg ha
      have hacts : (w.move (.access a)).acts = w.acts := (access_effect w a).acts_eq
      rw [moves_cons, ← hacts]
      exact ih (h.move _) hp' hg' hlater

/-- A worker that is parked without a permit is handed one. -/
theorem Sound.resume_granted (h : Sound w) (hp : w.phase = .parked) (hg : w.gate.permit = false) :
    w.resume.1 = true ∧ w.resume.2.phase = .parked ∧ w.resume.2.gate.permit = true ∧ w.resume.2.acts = w.acts := by
  rw [resume_eq, if_pos ⟨h.parked.mpr hp, hg⟩]
  exact ⟨rfl, hp, rfl, by rw [acts_note]; exact List.append_nil _⟩

/-- **A permit counts**, cancelled or not: the worker has it until it gets past the gate. -/
theorem Reachable.spends_permit (h : Reachable w) (hp : w.phase = .parked) (hg : w.gate.permit = true)
    (ms : List (Move A.Id)) :
    ((w.moves ms).phase = .parked ∧ (w.moves ms).gate.permit = true) ∧ (w.moves ms).acts = w.acts ∨
      ∃ m later, (w.moves ms).acts = w.acts ++ .passed m :: later := by
  refine (h.goes_on (P := fun v => v.phase = .parked ∧ v.gate.permit = true) (fun a => ∃ m, a = .passed m) ?_ ?_ ?_
    ⟨hp, hg⟩ ms).imp_right ?_
  · rintro u a hu ⟨hphase, hgate⟩
    exact ⟨(hu.sound.access_phase (by simp [hphase]) a).trans hphase, (access_effect u a).keeps_permit hgate⟩
  · rintro u v hu ⟨hphase, -⟩ ht
    have hdue := (hu.sound.nothing_due (by simp [hphase]) (by simp [hphase])).1
    cases ht with
    | observer due | channel due => rw [hdue] at due; cases due
  · rintro u r ⟨hphase, hgate⟩ hproceed
    exact ⟨_, ⟨u.mode, rfl⟩, ((proceed_stride hproceed).of_permit hphase hgate).2⟩
  · rintro ⟨_, later, ⟨m, rfl⟩, ha⟩
    exact ⟨m, later, ha⟩

/-- In a cancelled run it gets past the gate no more than once. -/
theorem Reachable.passes_once (h : Reachable w) (hp : w.phase = .parked) (hc : w.cancelled = true)
    {ms : List (Move A.Id)} {m : Mode} {later : List Act}
    (ha : (w.moves ms).acts = w.acts ++ .passed m :: later) :
    (∀ n, .passed n ∉ later) ∧ (w.moves ms).phase ≠ .parked := by
  have hlast := (h.last_turn hc ms).2
  have hbefore := h.sound.length_passages
  have hafter := (h.moves ms).sound.length_passages
  have hone : passages [.passed m] = [m] := rfl
  rw [ha, ← List.singleton_append, passages_append, passages_append, hone] at hafter
  simp only [List.length_append, List.length_singleton, pending, hp, List.length_nil, Phase.toBegin]
    at hbefore hafter hlast
  refine ⟨fun n hn => ?_, fun hparked => ?_⟩
  · have hpos := List.length_pos_of_mem (mem_passages.mpr hn)
    cases hphase : (w.moves ms).phase <;> simp only [hphase, List.length_nil, List.length_singleton] at hafter hlast <;>
      omega
  · simp only [hparked, List.length_nil] at hafter hlast
    omega

/-- **A parked worker with a permit has one more turn**, cancelled or not, and a cancelled one no other. -/
theorem Reachable.endsIn_lastTurn (h : Reachable w) (hp : w.phase = .parked) (hg : w.gate.permit = true)
    (hc : w.cancelled = true) : EndsIn (fun _ => True) w (fun as => ∃ last, LastTurn last ∧ as = w.acts ++ last) := by
  have hstill (ms : List (Move A.Id)) : (w.moves ms).cancelled = true := (h.last_turn hc ms).1
  have hlast {ms : List (Move A.Id)} {m : Mode} {later : List Act}
      (ha : (w.moves ms).acts = w.acts ++ .passed m :: later) : ∃ last, LastTurn last ∧ .passed m :: later <+: last := by
    obtain ⟨s, hrun, -⟩ := (h.moves ms).sound.run
    rw [ha] at hrun
    obtain ⟨t, t', -, hn, hlater⟩ := hrun.cut
    cases hn
    obtain ⟨last, hl, hpre⟩ := Spot.run_advance hlater (h.passes_once hp hc ha).1
    exact ⟨_, hl, List.cons_prefix_cons.mpr ⟨rfl, hpre⟩⟩
  refine ⟨fun ms _ => ?_, fun ms _ hr => ?_, fun ms _ => (h.moves ms).rests_of_cancelled (hstill ms)⟩
  · rcases h.spends_permit hp hg ms with ⟨-, ha⟩ | ⟨m, later, ha⟩
    · exact ⟨_, ⟨_, .turn .run .givenUp, rfl⟩, ha ▸ List.prefix_append _ _⟩
    · obtain ⟨last, hl, hpre⟩ := hlast ha
      exact ⟨_, ⟨last, hl, rfl⟩, ha ▸ (List.prefix_append_right_inj _).mpr hpre⟩
  · have hsound := (h.moves ms).sound
    rcases h.spends_permit hp hg ms with ⟨⟨hphase, hgate⟩, -⟩ | ⟨m, later, ha⟩
    · rw [hsound.atRest_iff (by simp [hphase]) (by simp [hphase]), proceed?, hphase] at hr
      simp [look?, Gate.look, hgate] at hr
    have hbarred : Barred (w.moves ms) := by
      refine ⟨hstill ms, (h.passes_once hp hc ha).2, fun n hadv => ?_⟩
      rw [hsound.atRest_iff (by simp [hadv]) (by simp [hadv]), proceed?, hadv] at hr
      cases hr
    have hidle := h.stays_launched (by simp [hp]) ms
    refine (hbarred.of_atRest hidle hr).imp_right fun hdone => ⟨hdone, ?_⟩
    obtain ⟨last, hl, hpre⟩ := hlast ha
    obtain ⟨f, hf⟩ := hsound.isOver_iff.mpr (isDone_iff.mp hdone).1
    -- the end was noted after the permit, for a run at the gate has not ended
    have hnone : .ended f ∉ w.acts := fun hmem => by
      have hfin := h.sound.isOver_iff.mp ⟨f, hmem⟩
      rw [hp] at hfin
      cases hfin
    rw [ha, List.mem_append] at hf
    obtain ⟨before, g, rfl, hb⟩ := hl.ends
    exact ⟨_, hl, ha.trans (congrArg _ (eq_of_ended before hpre (hf.resolve_left hnone) hb))⟩

end Cadence.Controller
