import Cadence.Gate.Post
import Mathlib.Data.List.Count

/-!
# Cadence.Proofs.Permits — permits are neither lost, doubled nor kept for later

A post goes through acts in any order: workers that arrive, releases, wake-ups, a cancellation, and the parked
worker looking up at any time, early or late.

* `Event`: what an act can come to, case by case; nothing later unfolds an act.
* `grants_eq`, `parked_eq`: permits that were handed over are used up by the workers that left with one.
* `run_of_stay`: what a parked worker finds when it looks up was done while it was parked.
* `run_lawful`: the law of the gate, for all acts from a new post on.
-/

namespace Cadence.Gate.Post

/-! ### One act -/

/-- What an act can come to. -/
inductive Event (p : Post) : Act → Sight → Post → Prop where
  | busy (gated : Bool) (h : p.gate.parked = true) : Event p (.park gated) .busy p
  | tooLate (gated : Bool) (h : p.gate.parked = false) (hc : p.cancelled = true) :
      Event p (.park gated) (.left .cancelled) p
  | free (h : p.gate.parked = false) (hc : p.cancelled = false) :
      Event p (.park false) (.left .ungated) p
  | parks (h : p.gate.parked = false) (hc : p.cancelled = false) :
      Event p (.park true) .none { p with gate := ⟨true, false⟩, parkings := p.parkings + 1 }
  | grants (h : p.gate = ⟨true, false⟩) :
      Event p .release (.released true) { p with gate := ⟨true, true⟩ }
  | refuses (h : p.gate ≠ ⟨true, false⟩) : Event p .release (.released false) p
  | wakes : Event p .wake .none p
  | cancels : Event p .cancel .none { p with cancelled := true }
  | nobody (h : p.gate.parked = false) : Event p .look .none p
  | stays (h : p.gate = ⟨true, false⟩) (hc : p.cancelled = false) : Event p .look .none p
  | resumes (h : p.gate = ⟨true, true⟩) :
      Event p .look (.left .resumed) { p with gate := ⟨false, false⟩ }
  | givesUp (h : p.gate = ⟨true, false⟩) (hc : p.cancelled = true) :
      Event p .look (.left .cancelled) { p with gate := ⟨false, false⟩ }

variable {p q : Post} {a : Act} {as : List Act} {sight : Sight}

theorem event (p : Post) (a : Act) : Event p a (p.act a).1 (p.act a).2 := by
  obtain ⟨⟨parked, permit⟩, cancelled, n⟩ := p
  cases a with
  | park gated =>
    cases parked
    · cases cancelled
      · cases gated
        · exact .free rfl rfl
        · exact .parks rfl rfl
      · exact .tooLate gated rfl rfl
    · exact .busy gated rfl
  | release =>
    cases parked
    · exact .refuses (by simp)
    · cases permit
      · exact .grants rfl
      · exact .refuses (by simp)
  | wake => exact .wakes
  | cancel => exact .cancels
  | look =>
    cases parked
    · exact .nobody rfl
    · cases permit
      · cases cancelled
        · exact .stays rfl rfl
        · exact .givesUp rfl rfl
      · exact .resumes rfl

/-! ### Histories -/

/-- The acts with what was seen of each. -/
def log (p : Post) (as : List Act) : List (Act × Sight) := as.zip (p.run as).1

theorem run_cons (p : Post) (a : Act) (as : List Act) :
    p.run (a :: as) = ((p.act a).1 :: ((p.act a).2.run as).1, ((p.act a).2.run as).2) := rfl

theorem post_run_cons (p : Post) (a : Act) (as : List Act) :
    (p.run (a :: as)).2 = ((p.act a).2.run as).2 := rfl

@[simp] theorem log_nil (p : Post) : p.log [] = [] := rfl

theorem log_cons (p : Post) (a : Act) (as : List Act) :
    p.log (a :: as) = (a, (p.act a).1) :: (p.act a).2.log as := rfl

/-- Where a history is cut, the acts are cut. -/
theorem log_cut {before after : List (Act × Sight)} (h : p.log as = before ++ after) :
    ∃ bs cs, as = bs ++ cs ∧ before = p.log bs ∧ after = (p.run bs).2.log cs := by
  induction before generalizing p as with
  | nil => exact ⟨[], as, rfl, rfl, h.symm⟩
  | cons x before ih =>
    cases as with
    | nil => cases h
    | cons a as =>
      rw [log_cons, List.cons_append, List.cons.injEq] at h
      obtain ⟨hx, h⟩ := h
      obtain ⟨bs, cs, rfl, hb, hc⟩ := ih h
      exact ⟨a :: bs, cs, rfl, by rw [log_cons, hx, hb], hc⟩

/-- A worker was parked: it arrived and did not leave at once. -/
def isParking : Act × Sight → Bool
  | (.park _, .none) => true
  | _ => false

/-- The parked worker left. -/
def isDeparture : Act × Sight → Bool
  | (.look, .left _) => true
  | _ => false

/-! ### The flags -/

/-- A permit is pending for a parked worker only. -/
def Sound (p : Post) : Prop := p.gate.permit = true → p.gate.parked = true

theorem Event.sound (he : Event p a sight q) (h : Sound p) : Sound q := by
  cases he with
  | busy | tooLate | free | refuses | wakes | cancels | nobody | stays => exact h
  | parks | grants | resumes | givesUp => simp [Sound]

theorem Sound.run (h : Sound p) (as : List Act) : Sound (p.run as).2 := by
  induction as generalizing p with
  | nil => exact h
  | cons a as ih => exact ih ((event p a).sound h)

theorem Event.parked_eq (he : Event p a sight q) :
    (if isParking (a, sight) = true then 1 else 0) + p.gate.parked.toNat =
      (if isDeparture (a, sight) = true then 1 else 0) + q.gate.parked.toNat := by
  cases he with
  | busy | tooLate | free | refuses | wakes | cancels | nobody | stays => simp [isParking, isDeparture]
  | parks h | grants h | resumes h | givesUp h => simp [isParking, isDeparture, h]

/-- **Every parking is ended by a departure**, but for the one that lasts. -/
theorem parked_eq (p : Post) (as : List Act) :
    (p.log as).countP isParking + p.gate.parked.toNat =
      (p.log as).countP isDeparture + (p.run as).2.gate.parked.toNat := by
  induction as generalizing p with
  | nil => rfl
  | cons a as ih =>
    have hstep := (event p a).parked_eq
    have hrest := ih (p.act a).2
    rw [log_cons, List.countP_cons, List.countP_cons, post_run_cons]
    omega

theorem Event.grants_eq (he : Event p a sight q) (h : Sound p) :
    (if ((a, sight) == (.release, .released true)) = true then 1 else 0) + p.gate.permit.toNat =
      (if ((a, sight) == (.look, .left .resumed)) = true then 1 else 0) + q.gate.permit.toNat := by
  cases he with
  | busy | tooLate | free | refuses | wakes | cancels | nobody | stays => simp
  | parks hp =>
    -- nobody was parked, so no permit was pending that could get lost
    have hn : p.gate.permit = false := by
      by_contra hn
      rw [h (by simpa using hn)] at hp
      cases hp
    simp [hn]
  | grants h | resumes h | givesUp h => simp [h]

/-- **Every permit is used up by a worker that is resumed**, but for the one that is pending. -/
theorem grants_eq (h : Sound p) (as : List Act) :
    (p.log as).count (.release, .released true) + p.gate.permit.toNat =
      (p.log as).count (.look, .left .resumed) + (p.run as).2.gate.permit.toNat := by
  induction as generalizing p with
  | nil => rfl
  | cons a as ih =>
    have hstep := (event p a).grants_eq h
    have hrest := ih ((event p a).sound h)
    rw [log_cons, List.count_cons, List.count_cons, post_run_cons]
    omega

theorem Event.parkings_eq (he : Event p a sight q) :
    q.parkings = p.parkings + if isParking (a, sight) = true then 1 else 0 := by
  cases he <;> rfl

theorem parkings_eq (p : Post) (as : List Act) :
    (p.run as).2.parkings = p.parkings + (p.log as).countP isParking := by
  induction as generalizing p with
  | nil => rfl
  | cons a as ih =>
    have hstep := (event p a).parkings_eq
    have hrest := ih (p.act a).2
    rw [log_cons, List.countP_cons, post_run_cons]
    omega

theorem Event.cancelled_iff (he : Event p a sight q) :
    q.cancelled = true ↔ p.cancelled = true ∨ a = .cancel := by
  cases he <;> simp

theorem cancelled_iff (p : Post) (as : List Act) :
    (p.run as).2.cancelled = true ↔ p.cancelled = true ∨ .cancel ∈ as := by
  induction as generalizing p with
  | nil => simp [run]
  | cons a as ih =>
    rw [post_run_cons, ih, (event p a).cancelled_iff, List.mem_cons, or_assoc, eq_comm (a := a)]

/-! ### A stay at the gate -/

theorem Event.of_stay (he : Event p a sight q) (h : p.gate.parked = true)
    (hs : isDeparture (a, sight) = false) :
    q.gate.parked = true ∧
      (q.gate.permit = true ↔ p.gate.permit = true ∨ (a, sight) = (.release, .released true)) ∧
      (q.cancelled = true ↔ p.cancelled = true ∨ (a, sight) = (.cancel, .none)) := by
  cases he with
  | busy | refuses | wakes | stays | cancels => simp [h]
  | grants hg => simp
  | tooLate _ hp | free hp | parks hp | nobody hp =>
    rw [hp] at h
    cases h
  | resumes | givesUp => cases hs

theorem Event.of_parking (he : Event p a sight q) (h : isParking (a, sight) = true) :
    q.gate = ⟨true, false⟩ ∧ q.cancelled = false := by
  cases he with
  | parks hp hc => exact ⟨rfl, hc⟩
  | _ => cases h

theorem run_of_stay (h : p.gate.parked = true) (hs : ∀ x ∈ p.log as, isDeparture x = false) :
    (p.run as).2.gate.parked = true ∧
      ((p.run as).2.gate.permit = true ↔
        p.gate.permit = true ∨ (.release, .released true) ∈ p.log as) ∧
      ((p.run as).2.cancelled = true ↔ p.cancelled = true ∨ (.cancel, .none) ∈ p.log as) := by
  induction as generalizing p with
  | nil => simp [run, h]
  | cons a as ih =>
    rw [log_cons] at hs ⊢
    obtain ⟨ha, has⟩ := List.forall_mem_cons.mp hs
    obtain ⟨hpark, hpermit, hcancel⟩ := (event p a).of_stay h ha
    obtain ⟨ihpark, ihpermit, ihcancel⟩ := ih hpark has
    rw [post_run_cons]
    refine ⟨ihpark, ?_, ?_⟩
    · rw [ihpermit, hpermit, List.mem_cons, or_assoc, eq_comm (a := (a, (p.act a).1))]
    · rw [ihcancel, hcancel, List.mem_cons, or_assoc, eq_comm (a := (a, (p.act a).1))]

/-- A parked worker that looks up goes by its permit first, and by the cancellation only without one. -/
theorem act_look (h : p.gate.parked = true) : (p.act .look).1 =
    if p.gate.permit = true then .left .resumed
    else if p.cancelled = true then .left .cancelled
    else .none := by
  obtain ⟨⟨parked, permit⟩, cancelled, n⟩ := p
  cases h
  cases permit <;> cases cancelled <;> rfl

/-- **A stay ends by the permit if there was one, by the cancellation else.** -/
theorem exit_of_stay {before stay after : List (Act × Sight)} {gated : Bool} {exit : Exit}
    (h : p.log as = before ++ (.park gated, .none) :: (stay ++ (.look, .left exit) :: after))
    (hs : ∀ x ∈ stay, isDeparture x = false) :
    (exit = .resumed ↔ (.release, .released true) ∈ stay) ∧
      (exit = .cancelled ↔ (.cancel, .none) ∈ stay ∧ (.release, .released true) ∉ stay) := by
  obtain ⟨bs, cs, -, -, hcs⟩ := log_cut h
  obtain _ | ⟨c, cs⟩ := cs
  · cases hcs
  rw [log_cons, List.cons.injEq] at hcs
  obtain ⟨hpark, hcs⟩ := hcs
  obtain ⟨ds, es, -, rfl, hes⟩ := log_cut hcs.symm
  obtain _ | ⟨e, es⟩ := es
  · cases hes
  rw [log_cons, List.cons.injEq, Prod.mk.injEq] at hes
  obtain ⟨⟨rfl, hexit⟩, -⟩ := hes
  -- the worker is parked, without a permit and not cancelled
  obtain ⟨hgate, hcan⟩ := (event (p.run bs).2 c).of_parking (by rw [← hpark]; rfl)
  obtain ⟨hparked, hpermit, hcancel⟩ := run_of_stay (by rw [hgate]) hs
  rw [act_look hparked] at hexit
  simp only [hgate, Bool.false_eq_true, false_or] at hpermit
  simp only [hcan, Bool.false_eq_true, false_or] at hcancel
  rw [← hpermit, ← hcancel]
  split_ifs at hexit with hg hc
  · cases hexit
    simp [hg]
  · cases hexit
    simp [hg, hc]

theorem Event.of_idle (he : Event p a sight q) (h : p.gate = ⟨true, false⟩) (hc : p.cancelled = false)
    (ha : a ≠ .release ∧ a ≠ .cancel) : q = p ∧ isDeparture (a, sight) = false := by
  cases he with
  | busy | wakes | stays => exact ⟨rfl, rfl⟩
  | grants | refuses => exact absurd rfl ha.1
  | cancels => exact absurd rfl ha.2
  | tooLate _ hp | free hp | parks hp | nobody hp =>
    rw [h] at hp
    cases hp
  | resumes hg =>
    rw [h] at hg
    cases hg
  | givesUp _ hx =>
    rw [hc] at hx
    cases hx

theorem run_of_idle (h : p.gate = ⟨true, false⟩) (hc : p.cancelled = false)
    (has : ∀ a ∈ as, a ≠ .release ∧ a ≠ .cancel) :
    (p.run as).2 = p ∧ ∀ x ∈ p.log as, isDeparture x = false := by
  induction as with
  | nil => exact ⟨rfl, by simp⟩
  | cons a as ih =>
    obtain ⟨ha, has⟩ := List.forall_mem_cons.mp has
    obtain ⟨hp, hd⟩ := (event p a).of_idle h hc ha
    obtain ⟨ih₁, ih₂⟩ := ih has
    rw [post_run_cons, log_cons, hp]
    exact ⟨ih₁, List.forall_mem_cons.mpr ⟨hd, ih₂⟩⟩

/-! ### The law of the gate -/

/-- The law of the gate, after the acts `as` on a new post `p` and with the history `h` they have left. -/
structure Lawful (as : List Act) (p : Post) (h : List (Act × Sight)) : Prop where
  /-- A permit is pending for a parked worker only. -/
  permit : p.gate.permit = true → p.gate.parked = true
  /-- The gate says whether a worker is inside: one was parked and has not left. -/
  inside : h.countP isParking = h.countP isDeparture + p.gate.parked.toNat
  /-- A release is granted iff the worker is parked and has no permit yet, -/
  releases : (p.act .release).1 = .released (p.gate.parked && !p.gate.permit)
  /-- so once at most while it stays, -/
  once : ∀ before stay after, h = before ++ stay ++ after → (∀ x ∈ stay, isDeparture x = false) →
    stay.count (.release, .released true) ≤ 1
  /-- and every grant is used up by a worker that is resumed, but for the one that is pending. -/
  grants : h.count (.release, .released true) =
    h.count (.look, .left .resumed) + p.gate.permit.toNat
  /-- A release that is refused changes nothing of what follows. -/
  refused : (p.act .release).1 = .released false → ∀ later,
    p.run (.release :: later) = (.released false :: (p.run later).1, (p.run later).2)
  /-- Without a permit or a cancellation nothing lets the parked worker out, waking it as little as others
  that come to the gate. -/
  waking : p.gate.parked = true → p.gate.permit = false → p.cancelled = false →
    ∀ later : List Act, (∀ a ∈ later, a ≠ .release ∧ a ≠ .cancel) →
      (p.run later).2 = p ∧ ∀ x ∈ p.log later, isDeparture x = false
  /-- A parked worker that looks up leaves by its permit, cancelled or not, by a cancellation without one, and
  stays else. -/
  looking : p.gate.parked = true → (p.act .look).1 =
    if p.gate.permit = true then .left .resumed
    else if p.cancelled = true then .left .cancelled
    else .none
  /-- So it leaves resumed iff a release was granted while it was parked, and cancelled iff it was cancelled
  meanwhile and no release was. -/
  leaving : ∀ before gated stay exit after,
    h = before ++ (.park gated, .none) :: (stay ++ (.look, .left exit) :: after) →
    (∀ x ∈ stay, isDeparture x = false) →
    (exit = .resumed ↔ (.release, .released true) ∈ stay) ∧
      (exit = .cancelled ↔ (.cancel, .none) ∈ stay ∧ (.release, .released true) ∉ stay)
  /-- A worker that arrives leaves at once, without being parked, if the run is cancelled or else the cadence
  does not gate; and is parked without a permit if neither. -/
  arriving : p.gate.parked = false → ∀ gated, p.act (.park gated) =
    if p.cancelled = true then (.left .cancelled, p)
    else if gated = false then (.left .ungated, p)
    else (.none, { p with gate := ⟨true, false⟩, parkings := p.parkings + 1 })
  /-- The callback has run once for each worker that was parked. -/
  callback : p.parkings = h.countP isParking
  /-- A cancellation is never taken back. -/
  cancelled : p.cancelled = true ↔ .cancel ∈ as
  /-- Whoever leaves leaves an empty gate behind. -/
  leftEmpty : ∀ a exit, (p.act a).1 = .left exit → (p.act a).2.gate = ⟨false, false⟩

/-- **The law of the gate**, for acts in any order. -/
theorem run_lawful (as : List Act) : Lawful as (({} : Post).run as).2 (({} : Post).log as) := by
  have hnew : Sound ({} : Post) := fun h => by cases h
  have hsound := hnew.run as
  exact
    { permit := hsound
      inside := by simpa using parked_eq {} as
      releases := by
        generalize (({} : Post).run as).2 = p
        obtain ⟨⟨_ | _, _ | _⟩, c, n⟩ := p <;> rfl
      once := by
        intro before stay after heq hs
        obtain ⟨bs, cs, -, hb, -⟩ := log_cut heq
        obtain ⟨ds, es, rfl, rfl, rfl⟩ := log_cut hb.symm
        -- nobody leaves meanwhile, so what is granted is pending at the end
        have hcount := grants_eq (hnew.run ds) es
        have hnone : (((({} : Post).run ds).2).log es).count (.look, .left .resumed) = 0 := by
          refine List.count_eq_zero.mpr fun hmem => ?_
          have := hs _ hmem
          cases this
        have hle := Bool.toNat_le ((({} : Post).run ds).2.run es).2.gate.permit
        omega
      grants := by simpa using grants_eq hnew as
      refused := by
        intro hr later
        generalize (({} : Post).run as).2 = p at hr
        have he := event p .release
        rw [hr] at he
        rw [run_cons, hr]
        generalize (p.act .release).2 = q at he
        cases he with
        | refuses => rfl
      waking := by
        intro hp hg hc later hl
        refine run_of_idle ?_ hc hl
        generalize (({} : Post).run as).2.gate = g at hp hg
        obtain ⟨parked, permit⟩ := g
        cases hp
        cases hg
        rfl
      looking := act_look
      leaving := fun before gated stay exit after heq hs => exit_of_stay heq hs
      arriving := by
        intro hp gated
        generalize (({} : Post).run as).2 = p at hp
        obtain ⟨⟨parked, permit⟩, c, n⟩ := p
        cases hp
        cases c <;> cases gated <;> rfl
      callback := by simpa using parkings_eq {} as
      cancelled := by simpa using cancelled_iff {} as
      leftEmpty := by
        intro a exit ha
        generalize (({} : Post).run as).2 = p at hsound ha
        have he := event p a
        rw [ha] at he
        generalize (p.act a).2 = q at he
        cases he with
        | tooLate _ hp | free hp =>
          -- nobody was parked, and so no permit was pending
          obtain ⟨⟨parked, permit⟩, c, n⟩ := p
          cases hp
          cases permit
          · rfl
          · cases hsound rfl
        | resumes | givesUp => rfl }

/-- A release before anybody is parked, two while one is, and a cancellation before it looks up. -/
example : (({} : Post).run [.release, .park true, .wake, .look, .release, .release, .cancel, .wake, .look,
      .park true]).1 =
    [.released false, .none, .none, .none, .released true, .released false, .none, .none, .left .resumed,
      .left .cancelled] := by decide

end Cadence.Gate.Post
