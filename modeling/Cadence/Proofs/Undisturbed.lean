import Cadence.Proofs.Freeing
import Cadence.Proofs.Shadowing

/-!
# Cadence.Proofs.Undisturbed — passive parties do not disturb a run

A run in company is a list of stages: steps of the worker and accesses of the host, which are original ones or in
between.  Without company there remain the original accesses and the steps in which no guest is notified
(`Company.bareAll`).

* `Shadows.work`, `Shadows.access`, `Shadows.run`: step by step, one run goes along with the other.
* `Company.bareAll_paced`: every original run, with any accesses in between, can be had in company.
* `Company.undisturbed`: nobody who was there originally can tell the two runs apart.
-/

namespace Cadence.Controller

variable {A : Assembly} {E : Company A} {w : Controller A} {v : Controller E.assembly}

/-! ## Runs in company -/

/-- A move in company: a step of the worker, or an access of the host, which may be one in between. -/
inductive Stage (ι : Type) where
  | work
  | access (m : Marked ι)

def Stage.move {ι : Type} : Stage ι → Move ι
  | work => .work
  | access m => .access m.access

/-- A run in company. -/
def stages (v : Controller E.assembly) (ss : List (Stage A.Id)) : Controller E.assembly := v.moves (ss.map Stage.move)

/-- The accesses in a run, with their answers. -/
def answers (w : Controller A) (ms : List (Move A.Id)) : List ((a : Access A.Id) × a.Answer A.Dom) :=
  (w.usesOf ms).map fun u => ⟨u.2, (access u.2 u.1).1⟩

namespace Company

variable (E) (v : Controller E.assembly)

/-- Whether the worker is about to notify a guest. -/
def servesGuest : Bool := !v.isHeldUp && v.outbox.head?.any fun d => !E.isOwn d.1

/-- What a move in company comes to without. -/
def bare : Stage A.Id → List (Move A.Id)
  | .work => if E.servesGuest v then [] else [.work]
  | .access m => if m.extra then [] else [.access m.access]

/-- What a run in company comes to without. -/
def bareAll (v : Controller E.assembly) : List (Stage A.Id) → List (Move A.Id)
  | [] => []
  | s :: ss => E.bare v s ++ bareAll (v.move s.move) ss

/-- The original accesses in a move, with their answers. -/
def answersIn : Stage A.Id → List ((a : Access A.Id) × a.Answer A.Dom)
  | .access m => original [⟨m, (grant m v).1⟩]
  | .work =>
    if v.isHeldUp then []
    else
      match v.outbox with
      | (.observer i, n) :: _ => original ((E.react i n v.crowd).answered grant v)
      | _ => []

/-- The original accesses in a run, with their answers. -/
def answersInAll (v : Controller E.assembly) : List (Stage A.Id) → List ((a : Access A.Id) × a.Answer A.Dom)
  | [] => []
  | s :: ss => E.answersIn v s ++ answersInAll (v.move s.move) ss

/-- What the host may do: originally, anything but with guests, and in between what is passive, where it does not
resume a worker that is parked; in a run that has always been under `run`, none is. -/
def Allows : Stage A.Id → Prop
  | .work => True
  | .access ⟨false, a⟩ => a.Spares E.guest
  | .access ⟨true, a⟩ => a.IsPassive E.guest ∧ (a = .call .resume → v.gate.parked = false ∨
      v.config.initialMode = .run ∧ ∀ m, .setMode m ∈ v.journal → m = .run)

/-- What the host may do in a run. -/
def AllowsAll (v : Controller E.assembly) : List (Stage A.Id) → Prop
  | [] => True
  | s :: ss => E.Allows v s ∧ AllowsAll (v.move s.move) ss

end Company

theorem Company.serve_guest (hh : v.isHeldUp = false) {d : Subscriber A.Id × Notification}
    {rest : List (Subscriber A.Id × Notification)} (hd : v.outbox = d :: rest) (hown : E.isOwn d.1 = false) :
    E.bare v .work = [] ∧ (v.move .work).outbox = rest ∧ (v.move .work).isHeldUp = false := by
  have hbare : E.bare v .work = [] := by simp [Company.bare, Company.servesGuest, hh, hd, hown]
  obtain ⟨i | k, n⟩ := d
  · exact ⟨hbare, work_observer_frame hh hd⟩
  · cases hown

/-- A run that has always been under `run` waits for nobody. -/
theorem Reachable.not_waiting (h : Reachable w) (hm : w.config.initialMode = .run)
    (hset : ∀ m, .setMode m ∈ w.journal → m = .run) : ¬ (w.gate.parked = true ∧ w.gate.permit = false) := by
  rintro ⟨hg, hp⟩
  have hasks : ∀ e ∈ w.history, e.asksToWait = false := by
    intro e he
    cases e with
    | setMode m => rw [hset m (List.mem_reverse.mp he)]; rfl
    | _ => rfl
  have hfollow := h.followed
  rw [Followed, hm] at hfollow
  exact (Station.follow_free (by simp) hasks hfollow).1 (station_eq_waiting.mpr ⟨h.sound.parked.mp hg, hp⟩)

namespace Shadows

/-- A guest is notified. -/
theorem work_guest (h : Shadows E w v) (hv : Reachable v) (hh : v.isHeldUp = false) {i : A.Id} {n : Notification}
    {rest : List (Subscriber A.Id × Notification)} (hd : v.outbox = (.observer i, n) :: rest) (hi : E.guest i = true) :
    Shadows E w (v.move .work) ∧ E.answersIn v .work = [] := by
  have hown : E.isOwn (.observer i) = false := by rw [Company.isOwn, hi]; rfl
  obtain ⟨hcrowd, hafter, hanswers⟩ :=
    h.reaction_guest ⟨hv, by simp [hd]⟩ (E.watches i n w.crowd v.crowd hi h.crowd)
  rw [(work_observer hh hd).1, Company.play_react]
  have hrest : w.outbox = rest.filter fun d => E.isOwn d.1 := by
    rw [h.outbox, hd]
    exact List.filter_cons_of_neg (by simp [hown])
  refine ⟨hafter.told_guest hown n _ hcrowd hrest, ?_⟩
  simp only [Company.answersIn, hh, hd]
  exact hanswers

/-- Somebody is notified who was there originally. -/
theorem work_observer (h : Shadows E w v) (hv : Reachable v) (hh : v.isHeldUp = false) {i : A.Id} {n : Notification}
    {rest : List (Subscriber A.Id × Notification)} (hd : v.outbox = (.observer i, n) :: rest) (hi : E.guest i = false) :
    Shadows E (w.move .work) (v.move .work) ∧ List.Forall₂ Concur (w.answers [.work]) (E.answersIn v .work) := by
  have hown : E.isOwn (.observer i) = true := by rw [Company.isOwn, hi]; rfl
  have hw : w.outbox = (.observer i, n) :: rest.filter fun d => E.isOwn d.1 := by
    rw [h.outbox, hd]
    exact List.filter_cons_of_pos hown
  obtain ⟨hpanic, hcrowd, hafter, hanswers⟩ :=
    h.reaction_own ⟨hv, by simp [hd]⟩ (E.follows i n w.crowd v.crowd hi h.crowd)
  obtain ⟨hmove, huses⟩ := Controller.work_observer (h.isHeldUp.trans hh) hw
  rw [hmove, (Controller.work_observer hh hd).1, Company.play_react, hpanic]
  refine ⟨hafter.told hown n _ hcrowd rest, ?_⟩
  simp only [answers, usesOf, huses, List.append_nil, Company.answersIn, hh, hd]
  exact hanswers

theorem work_channel (h : Shadows E w v) (hh : v.isHeldUp = false) {k : Nat} {n : Notification}
    {rest : List (Subscriber A.Id × Notification)} (hd : v.outbox = (.channel k, n) :: rest) :
    Shadows E (w.move .work) (v.move .work) ∧ List.Forall₂ Concur (w.answers [.work]) (E.answersIn v .work) := by
  have hw : w.outbox = (.channel k, n) :: rest.filter fun d => E.isOwn d.1 := by
    rw [h.outbox, hd]
    exact List.filter_cons_of_pos rfl
  obtain ⟨hmove, huses⟩ := Controller.work_channel (h.isHeldUp.trans hh) hw
  rw [hmove, (Controller.work_channel hh hd).1]
  simp only [answers, usesOf, huses, List.append_nil, Company.answersIn, hh, hd]
  refine ⟨?_, .nil⟩
  have hsent := h.told (s := .channel k) rfl n none h.crowd rest
  exact { hsent with channels := congrArg (fun chs => chs.modify k fun ch => (ch.send n).2) h.channels }

/-- Nobody is notified. -/
theorem work_phase (h : Shadows E w v) (hh : v.isHeldUp = false) (hd : v.outbox = []) :
    Shadows E (w.move .work) (v.move .work) ∧ List.Forall₂ Concur (w.answers [.work]) (E.answersIn v .work) := by
  have hw : w.outbox = [] := by rw [h.outbox, hd]; rfl
  obtain ⟨hmove, huses⟩ := Controller.work_phase (h.isHeldUp.trans hh) hw
  rw [hmove, (Controller.work_phase hh hd).1]
  simp only [answers, usesOf, huses, List.append_nil, Company.answersIn, hh, hd]
  refine ⟨?_, .nil⟩
  have hproceed := h.proceed
  generalize w.proceed? = r at hproceed ⊢
  generalize v.proceed? = r' at hproceed ⊢
  cases hproceed with
  | none => exact h
  | some hr => exact hr.conclude

/-- **A step of the worker.** -/
theorem work (h : Shadows E w v) (hv : Reachable v) :
    Shadows E (w.moves (E.bare v .work)) (v.move .work) ∧
      List.Forall₂ Concur (w.answers (E.bare v .work)) (E.answersIn v .work) := by
  cases hh : v.isHeldUp with
  | true =>
    obtain ⟨hmove, huses⟩ := work_heldUp (h.isHeldUp.trans hh)
    have hbare : E.bare v .work = [.work] := by simp [Company.bare, Company.servesGuest, hh]
    rw [hbare, moves_cons, moves_nil, hmove, (work_heldUp hh).1]
    simp only [answers, usesOf, huses, List.append_nil, Company.answersIn, hh]
    exact ⟨h, .nil⟩
  | false =>
    rcases hd : v.outbox with _ | ⟨⟨i | k, n⟩, rest⟩
    · have hbare : E.bare v .work = [.work] := by simp [Company.bare, Company.servesGuest, hd]
      rw [hbare]
      exact h.work_phase hh hd
    · cases hi : E.guest i with
      | true =>
        have hbare : E.bare v .work = [] := by simp [Company.bare, Company.servesGuest, hh, hd, Company.isOwn, hi]
        obtain ⟨hafter, hanswers⟩ := h.work_guest hv hh hd hi
        rw [hbare, hanswers]
        exact ⟨hafter, .nil⟩
      | false =>
        have hbare : E.bare v .work = [.work] := by simp [Company.bare, Company.servesGuest, hd, Company.isOwn, hi]
        rw [hbare]
        exact h.work_observer hv hh hd hi
    · have hbare : E.bare v .work = [.work] := by simp [Company.bare, Company.servesGuest, hd, Company.isOwn]
      rw [hbare]
      exact h.work_channel hh hd

theorem access (h : Shadows E w v) (hv : Reachable v) (m : Marked A.Id) (hm : E.Allows v (.access m)) :
    Shadows E (w.moves (E.bare v (.access m))) (v.move (.access m.access)) ∧
      List.Forall₂ Concur (w.answers (E.bare v (.access m))) (E.answersIn v (.access m)) := by
  obtain ⟨extra, a⟩ := m
  cases extra with
  | false =>
    obtain ⟨hagrees, hafter⟩ := h.own a hm
    exact ⟨hafter, .cons (.mk a hagrees) .nil⟩
  | true =>
    have hwait : a = .call .resume → ¬ (v.gate.parked = true ∧ v.gate.permit = false) := by
      intro ha
      rcases hm.2 ha with hg | ⟨hmode, hset⟩
      · simp [hg]
      · exact hv.not_waiting hmode hset
    exact ⟨(h.extra a hm.1 hwait).2, .nil⟩

/-- **A run in company** comes to the same as what remains of it without. -/
theorem run (h : Shadows E w v) (hv : Reachable v) {ss : List (Stage A.Id)} (hss : E.AllowsAll v ss) :
    Shadows E (w.moves (E.bareAll v ss)) (v.stages ss) ∧
      List.Forall₂ Concur (w.answers (E.bareAll v ss)) (E.answersInAll v ss) := by
  induction ss generalizing w v with
  | nil => exact ⟨h, .nil⟩
  | cons s ss ih =>
    obtain ⟨hs, hss⟩ := hss
    have hone : Shadows E (w.moves (E.bare v s)) (v.move s.move) ∧
        List.Forall₂ Concur (w.answers (E.bare v s)) (E.answersIn v s) := by
      cases s with
      | work => exact h.work hv
      | access m => exact h.access hv m hs
    obtain ⟨hafter, hanswers⟩ := ih hone.1 (hv.move s.move) hss
    refine ⟨?_, ?_⟩
    · rw [Company.bareAll, moves_append]
      exact hafter
    · have happend : w.answers (E.bareAll v (s :: ss)) = w.answers (E.bare v s) ++
          (w.moves (E.bare v s)).answers (E.bareAll (v.move s.move) ss) := by
        rw [Company.bareAll, answers, usesOf_append, List.map_append, answers, answers]
      rw [happend]
      exact List.rel_append hone.2 hanswers

theorem proceed_none (h : Shadows E w v) : w.proceed? = none ↔ v.proceed? = none := by
  have hproceed := h.proceed
  generalize w.proceed? = r at hproceed ⊢
  generalize v.proceed? = r' at hproceed ⊢
  cases hproceed <;> simp

/-- The run without company rests where the one in company does. -/
theorem rests (h : Shadows E w v) (hv : v.AtRest) : w.AtRest := by
  cases hh : v.isHeldUp with
  | true => simp [AtRest, step, h.isHeldUp.trans hh]
  | false =>
    obtain ⟨hd, hp⟩ := (atRest_of_free hh).mp hv
    refine (atRest_of_free (h.isHeldUp.trans hh)).mpr ⟨?_, h.proceed_none.mpr hp⟩
    rw [h.outbox, hd]
    rfl

/-- Where the run without company rests, the other one has but guests left to notify. -/
theorem guests_left (h : Shadows E w v) (hv : Reachable v) (hw : w.AtRest) :
    ∃ n, E.bareAll v (List.replicate n .work) = [] ∧ (v.stages (List.replicate n .work)).AtRest := by
  cases hh : v.isHeldUp with
  | true => exact ⟨0, rfl, show v.step = none by simp [step, hh]⟩
  | false =>
    obtain ⟨hwd, hp⟩ := (atRest_of_free (h.isHeldUp.trans hh)).mp hw
    -- one after another they are notified
    generalize hd : v.outbox = due
    induction due generalizing v with
    | nil => exact ⟨0, rfl, (atRest_of_free hh).mpr ⟨hd, h.proceed_none.mp hp⟩⟩
    | cons d rest ih =>
      have hguest : E.isOwn d.1 = false := by
        have hnone := h.outbox.symm.trans hwd
        rw [hd] at hnone
        simpa using List.filter_eq_nil_iff.mp hnone d List.mem_cons_self
      obtain ⟨hbare, hrest, hfree⟩ := Company.serve_guest hh hd hguest
      have hone := (h.work hv).1
      rw [hbare] at hone
      obtain ⟨n, hn, hrests⟩ := ih hone (hv.move .work) hfree hrest
      exact ⟨n + 1, by rw [List.replicate_succ, Company.bareAll, hbare]; exact hn, hrests⟩

end Shadows

/-! ## Any run, with accesses in between -/

/-- What a move is originally, if it is an original one. -/
def Stage.original {ι : Type} : Stage ι → List (Move ι)
  | work => [.work]
  | access m => if m.extra then [] else [.access m.access]

namespace Company

variable (E)

/-- How many guests are notified before anything else. -/
def guestsFirst (v : Controller E.assembly) : Nat :=
  if v.isHeldUp then 0 else (v.outbox.takeWhile fun d => !E.isOwn d.1).length

/-- A run that is planned without guests, with guests: the worker notifies those who are first in the line before it
does what is planned. -/
def paced (v : Controller E.assembly) : List (Stage A.Id) → List (Stage A.Id)
  | [] => []
  | .access m :: ss => .access m :: paced (v.move (.access m.access)) ss
  | .work :: ss =>
    let worked := List.replicate (E.guestsFirst v) .work ++ [.work]
    worked ++ paced (v.stages worked) ss

variable {E}

theorem bareAll_append (v : Controller E.assembly) (ss ts : List (Stage A.Id)) :
    E.bareAll v (ss ++ ts) = E.bareAll v ss ++ E.bareAll (v.stages ss) ts := by
  induction ss generalizing v with
  | nil => rfl
  | cons s ss ih => simp only [List.cons_append, bareAll, ih, List.append_assoc]; rfl

/-- Notifying guests first comes to nothing without company. -/
theorem bareAll_worked (v : Controller E.assembly) :
    E.bareAll v (List.replicate (E.guestsFirst v) .work ++ [.work]) = [.work] := by
  cases hh : v.isHeldUp with
  | true => simp [guestsFirst, hh, bareAll, bare, servesGuest]
  | false =>
    generalize hd : v.outbox = due
    induction due generalizing v with
    | nil => simp [guestsFirst, hh, hd, bareAll, bare, servesGuest]
    | cons d rest ih =>
      cases hown : E.isOwn d.1 with
      | true => simp [guestsFirst, hh, hd, bareAll, bare, servesGuest, hown]
      | false =>
        obtain ⟨hbare, hrest, hfree⟩ := serve_guest hh hd hown
        have hfirst : E.guestsFirst v = E.guestsFirst (v.move .work) + 1 := by
          simp [guestsFirst, hh, hfree, hd, hrest, hown]
        rw [hfirst, List.replicate_succ, List.cons_append, bareAll, hbare]
        exact ih _ hfree hrest

/-- **Every original run**, with any accesses in between, can be had in company. -/
theorem bareAll_paced (v : Controller E.assembly) (plan : List (Stage A.Id)) :
    E.bareAll v (E.paced v plan) = plan.flatMap Stage.original := by
  induction plan generalizing v with
  | nil => rfl
  | cons s plan ih =>
    cases s with
    | access m =>
      rw [paced, bareAll, List.flatMap_cons]
      exact congrArg _ (ih _)
    | work => rw [paced, bareAll_append, bareAll_worked, ih, List.flatMap_cons]; rfl

end Company

/-! ## Passive parties -/

/-- What is found after a run in company `ss` of `v`, and after what it comes to without, of `w`. -/
structure Undisturbed (E : Company A) (w : Controller A) (v : Controller E.assembly) (ss : List (Stage A.Id)) : Prop where
  /-- Everybody who was there originally is told the same, in the same order, -/
  told : ∀ s, E.isOwn s = true → (v.stages ss).toldTo s = (w.moves (E.bareAll v ss)).toldTo s
  /-- all of it goes through channels as before, -/
  channels : (v.stages ss).channels = (w.moves (E.bareAll v ss)).channels
  /-- every original access, of the host or of a subscriber, is answered the same, the number of subscribers apart, -/
  answers : List.Forall₂ Concur (w.answers (E.bareAll v ss)) (E.answersInAll v ss)
  /-- and the subscribers remember the same. -/
  crowd : E.alike (w.moves (E.bareAll v ss)).crowd (v.stages ss).crowd
  domain : (v.stages ss).domain = (w.moves (E.bareAll v ss)).domain
  facts : ((v.stages ss).query .facts).1 = ((w.moves (E.bareAll v ss)).query .facts).1
  agenda : ((v.stages ss).query .agenda).1 = ((w.moves (E.bareAll v ss)).query .agenda).1
  turns : (v.stages ss).turns = (w.moves (E.bareAll v ss)).turns
  state : (v.stages ss).state = (w.moves (E.bareAll v ss)).state
  /-- If the run has come to rest, so has the one without company, -/
  rests : (v.stages ss).AtRest → (w.moves (E.bareAll v ss)).AtRest
  /-- and if that has, only guests are left to be notified. -/
  catchesUp : (w.moves (E.bareAll v ss)).AtRest → ∃ n, E.bareAll (v.stages ss) (List.replicate n .work) = [] ∧
    ((v.stages ss).stages (List.replicate n .work)).AtRest

theorem Shadows.toldTo (h : Shadows E w v) {s : Subscriber A.Id} (hs : E.isOwn s = true) : v.toldTo s = w.toldTo s := by
  rw [Controller.toldTo, Controller.toldTo, h.tellings, List.filterMap_filter]
  congr 1
  funext p
  by_cases hp : p.1 = s <;> simp [hp, hs]

/-- New controllers, with company and without. -/
theorem Shadows.create (config : Config) {source : A.Source} (domain : A.Dom) {crowd : A.Crowd} {crowd' : E.Crowd}
    (hsource : E.Supplies source) (hcrowd : E.alike crowd crowd') :
    Shadows E (.create config source domain crowd) (.create config source domain crowd') where
  config := rfl
  source := rfl
  engine := .none
  domain := rfl
  mode := rfl
  state := rfl
  gate := rfl
  cancelled := rfl
  launch := rfl
  attempts := rfl
  died := rfl
  turns := rfl
  members := rfl
  crowd := hcrowd
  channels := rfl
  phase := rfl
  outbox := rfl
  tellings := rfl
  supplies := hsource

/-- **Passive parties do not disturb a run**, on engines whose queries change nothing.  Whatever is asked in between,
by the host or by subscribers that are notified, and whoever watches or panics, the run is the one that it would be
without; and any run, with anything asked in between, can be had in company. -/
theorem Company.undisturbed (E : Company A) (config : Config) {source : A.Source} (domain : A.Dom) {crowd : A.Crowd}
    {crowd' : E.Crowd} (hsource : E.Supplies source) (hcrowd : E.alike crowd crowd') :
    (∀ ss, E.AllowsAll (.create config source domain crowd') ss →
      Undisturbed E (.create config source domain crowd) (.create config source domain crowd') ss) ∧
    ∀ plan, E.bareAll (.create config source domain crowd') (E.paced (.create config source domain crowd') plan) =
      plan.flatMap Stage.original := by
  refine ⟨fun ss hss => ?_, fun plan => bareAll_paced _ plan⟩
  have hreach : Reachable (.create config source domain crowd' : Controller E.assembly) := .create _ _ _ _
  obtain ⟨h, hanswers⟩ := (Shadows.create config domain hsource hcrowd).run hreach hss
  exact
    { told := fun s hs => h.toldTo hs
      channels := h.channels.symm
      answers := hanswers
      crowd := h.crowd
      domain := h.domain.symm
      facts := (h.query .facts).1.symm
      agenda := (h.query .agenda).1.symm
      turns := h.turns.symm
      state := h.state.symm
      rests := h.rests
      catchesUp := h.guests_left (hreach.moves _) }

namespace Bench

/-- Subscribers that write down what they are told, and how many turns have begun by then. -/
abbrev diaryParts : Assembly where
  Eng := BenchEngine
  Dom := Domain.Scripted
  Source := Engine.Catalogue BenchEngine
  Id := String
  Crowd := List (String × Notification × Nat)
  load := Engine.Catalogue.load
  react := fun i n c => .ask (.call .turns) fun turns => .done (none, c ++ [(i, n, turns)])

/-- The same with a guest, who reads the facts and panics; the others resume the run whenever they are told something. -/
def visited : Company diaryParts where
  guest i := i = "guest"
  Crowd := List (String × Notification × Nat)
  alike c c' := c = c'
  prepared _ := False
  react i n c :=
    if i = "guest" then .ask ⟨true, .call .facts⟩ fun _ => .done (some .other, c)
    else .ask ⟨true, .call .resume⟩ fun _ =>
      .ask ⟨false, .call .turns⟩ fun turns => .done (none, c ++ [(i, n, turns)])
  follows := by
    rintro i n c c' hi rfl
    rw [if_neg (by simpa using hi)]
    refine .extra (.call .resume) trivial fun _ _ => .own (.call .turns) trivial fun turns turns' hturns => ?_
    obtain rfl : turns = turns' := hturns
    exact .done none rfl
  watches := by
    rintro i n c c' hi rfl
    rw [if_pos (by simpa using hi)]
    exact .extra (.call .facts) trivial fun _ _ => .done _ rfl

/-- What the bench has to offer in a visit. -/
def shelf : Engine.Catalogue BenchEngine :=
  [("rules", .ok { inside := { initial := [], failing := fun _ => none }, faults := [], planned := fun _ => [] })]

/-- A visit: the host registers the guest first, reads the facts, and resumes the run once more while a turn is told. -/
def visit : List (Stage String) :=
  [.access ⟨true, .call (.addSubscriber "guest")⟩, .access ⟨false, .call (.addSubscriber "diarist")⟩,
    .access ⟨false, .call (.startEngine ⟨"rules"⟩)⟩, .access ⟨true, .call .facts⟩, .access ⟨false, .call .execute⟩] ++
  List.replicate 6 .work ++ [.access ⟨false, .call .resume⟩] ++ List.replicate 2 .work ++
  [.access ⟨true, .call .resume⟩] ++ List.replicate 6 .work

end Bench

theorem Bench.shelf_supplies : Bench.visited.Supplies Bench.shelf := by
  intro scripts script g hg
  have hsame : scripts.foldl (fun s x => (Engine.Catalogue.load x s).2) Bench.shelf = Bench.shelf :=
    List.foldl_fixed' (fun x => Engine.Catalogue.load_snd x _) scripts
  rw [hsame] at hg
  have hmem := Engine.Catalogue.mem_of_load hg
  obtain ⟨-, rfl⟩ : _ ∧ g = _ := by simpa [Bench.shelf] using hmem
  exact Engine.Faulty.inert ⟨rfl, fun _ => rfl⟩ (Engine.Memory.inert _)

/-- The guest panics at every notification; the other subscriber and the host find the run as it would be. -/
theorem Company.undisturbed_of_visit :
    let v : Controller Bench.visited.assembly := .create Config.standard Bench.shelf { doneAfter := 1 } []
    Bench.visited.Supplies Bench.shelf ∧ Bench.visited.AllowsAll v Bench.visit ∧ (v.stages Bench.visit).isDone = true ∧
      (v.stages Bench.visit).toldTo (.observer "diarist") = [.setupDone, .actionDone, .disposeDone] ∧
      Undisturbed Bench.visited (.create Config.standard Bench.shelf { doneAfter := 1 } []) v Bench.visit := by
  have hallows : Bench.visited.AllowsAll (.create Config.standard Bench.shelf { doneAfter := 1 } []) Bench.visit := by
    refine ⟨⟨rfl, nofun⟩, rfl, trivial, ⟨trivial, nofun⟩, trivial, ?_⟩
    refine ⟨trivial, trivial, trivial, trivial, trivial, trivial, trivial, trivial, trivial, ⟨trivial, fun _ => .inl ?_⟩, ?_⟩
    · rfl
    · exact ⟨trivial, trivial, trivial, trivial, trivial, trivial, trivial⟩
  exact ⟨Bench.shelf_supplies, hallows, by decide, by decide,
    (Company.undisturbed Bench.visited _ _ Bench.shelf_supplies rfl).1 _ hallows⟩

end Cadence.Controller
