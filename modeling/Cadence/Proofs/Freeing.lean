import Cadence.Proofs.Halting
import Cadence.Proofs.Occasion
import Cadence.Proofs.Pace

/-!
# Cadence.Proofs.Freeing — a run that is set free

Under the mode `run` a turn that comes to the gate goes through, and a worker that is parked already needs one
resume.  Mode and resume are two calls: between them, and after them, anything may happen but that somebody sets a
mode that asks for waiting.

* `Later`: a controller later in the same run, with what has happened meanwhile.
* `Station.follow_free`: what a history under `run` leaves of the gate.
* `Reachable.setFree`: a run that is set free is never parked again.
-/

namespace Cadence.Controller

variable {A : Assembly} {t u v w : Controller A}

/-! ## Later in a run -/

/-- `w` comes later than `v` in a run, and `after` is what has happened meanwhile. -/
structure Later (v : Controller A) (after : List (Entry A.Id)) (w : Controller A) : Prop where
  reachable : Reachable w
  history : w.history = v.history ++ after

theorem Later.refl (h : Reachable v) : Later v [] v := ⟨h, by simp⟩

theorem Later.trans {after after' : List (Entry A.Id)} (h : Later u after v) (h' : Later v after' w) :
    Later u (after ++ after') w := ⟨h'.reachable, by rw [h'.history, h.history, List.append_assoc]⟩

theorem Later.of_journal {news : List (Entry A.Id)} (h : Reachable w) (hj : w.journal = news ++ v.journal) :
    Later v news.reverse w := ⟨h, by rw [Controller.history, hj, List.reverse_append, Controller.history]⟩

theorem Later.moves (h : Reachable v) (ms : List (Move A.Id)) :
    Later v ((v.moves ms).history.drop v.history.length) (v.moves ms) := by
  obtain ⟨news, hj, -⟩ := moves_note v .stop ms
  have hl := Later.of_journal (h.moves ms) hj
  rw [hl.history, List.drop_left]
  exact hl

/-- A subscriber that is notified goes on with its reaction. -/
theorem Later.goOn {i : A.Id} {n : Notification} {rest : Reaction A.Id A.Dom A.Crowd} (h : Reacting i n v rest) :
    ∃ after, Later v after (v.goOn (.reaction i n rest)) := by
  let bare : Controller A := { v with journal := [] }
  have hgo : v.goOn (.reaction i n rest) = (bare.goOn (.reaction i n rest)).altered v.journal false := by
    rw [← goOn_altered]
    rfl
  exact ⟨_, .of_journal h.goOn (by rw [hgo]; rfl)⟩

/-! ## Histories under `run` -/

/-- Somebody sets a mode that asks for waiting at the gate. -/
def Entry.asksToWait {ι : Type} : Entry ι → Bool
  | setMode m => m.isGated
  | _ => false

theorem inForce_run {ι : Type} {es : List (Entry ι)} (h : ∀ e ∈ es, e.asksToWait = false) :
    inForce .run es = .run := by
  induction es with
  | nil => rfl
  | cons e es ih =>
    obtain ⟨he, hes⟩ := List.forall_mem_cons.mp h
    have hm : inForce .run [e] = .run := by
      cases e with
      | setMode m => cases m <;> first | rfl | cases he
      | _ => rfl
    rw [← List.singleton_append, inForce_append, hm, ih hes]

namespace Station

variable {ι : Type} {s s' t t' : Station} {m m' : Mode} {e : Entry ι} {es : List (Entry ι)}

/-- The modes decide whether a history is accepted, not where it leads. -/
theorem next?_unique (h : s.next? m e = some t) (h' : s.next? m' e = some t') : t = t' := by
  unfold next? at h h'
  split at h <;> simp_all

theorem follow_unique (h : follow m s es = some t) (h' : follow m' s es = some t') : t = t' := by
  induction es generalizing m m' s with
  | nil => exact Option.some.inj (h.symm.trans h')
  | cons e es ih =>
    obtain ⟨a, ha, h⟩ := Option.bind_eq_some_iff.mp h
    obtain ⟨b, hb, h'⟩ := Option.bind_eq_some_iff.mp h'
    cases next?_unique ha hb
    exact ih h h'

/-- An entry under `run`, where nobody waits. -/
theorem next?_free (hs : s ≠ waiting) (h : s.next? .run e = some t) :
    t ≠ waiting ∧ e ≠ .event .gateParked true ∧ ∀ n, e = .passed n → n = .run := by
  unfold next? at h
  split at h <;> grind [Mode.isGated]

/-- **Under `run`, nobody who does not wait is ever parked**, and every turn passes the gate under `run`. -/
theorem follow_free (hs : s ≠ waiting) (hes : ∀ e ∈ es, e.asksToWait = false) (h : follow .run s es = some t) :
    t ≠ waiting ∧ .event .gateParked true ∉ es ∧ ∀ n, .passed n ∈ es → n = .run := by
  induction es generalizing s with
  | nil => cases h; exact ⟨hs, by simp, by simp⟩
  | cons e es ih =>
    obtain ⟨a, ha, h⟩ := Option.bind_eq_some_iff.mp h
    obtain ⟨haw, hpark, hpass⟩ := next?_free hs ha
    have hm : inForce .run [e] = .run := inForce_run (by simpa using hes e (by simp))
    rw [hm] at h
    obtain ⟨htw, hparks, hpasses⟩ := ih haw (fun x hx => hes x (by simp [hx])) h
    refine ⟨htw, ?_, fun n hn => ?_⟩
    · simp [hparks, hpark.symm]
    · exact (List.mem_cons.mp hn).elim (fun hn => hpass n hn.symm) (hpasses n)

end Station

/-! ## Setting a run free -/

/-- Whoever has been resumed does not wait. -/
theorem Sound.resume_station (h : Sound t) : t.resume.2.station ≠ .waiting := by
  rw [ne_eq, station_eq_waiting, resume_eq]
  split
  · rintro ⟨-, hp⟩
    cases hp
  · rename_i hg
    exact fun ⟨hp, hm⟩ => hg ⟨h.parked.mpr hp, hm⟩

theorem Entry.eq_passed {ι : Type} {e : Entry ι} {m : Mode} (h : e.act? = some (.passed m)) : e = .passed m := by
  cases e with
  | hasDone r => cases r <;> cases h
  | _ => cases h <;> rfl

/-- What is to be expected of a run that was resumed at `t`, the mode being `run`, and has come to `w` since. -/
structure SetFree (t : Controller A) (after : List (Entry A.Id)) (w : Controller A) : Prop where
  /-- It is not parked, -/
  unparked : ∀ accepted, .event .gateParked accepted ∉ after
  /-- so it is not suspended where it rests, -/
  unsuspended : w.AtRest → w.isSuspended = false
  /-- and rests only before the launch, at a full channel, or at its end. -/
  rests : w.AtRest → w.phase = .idle ∨ w.isHeldUp = true ∨ w.isDone = true
  /-- Each turn that comes to the gate goes through as a turn to quiescence, -/
  passes : ∀ m, .passed m ∈ after → m = .run
  /-- and the engine is advanced by these alone, but for a turn that was past the gate before. -/
  advances : ∃ later, w.acts = t.acts ++ later ∧ advances later ++ w.pending.map advanceOf =
    t.pending.map advanceOf ++ List.replicate (passages later).length .run

/-- **A run that is set free stays free**, as long as nobody asks it to wait again. -/
theorem Reachable.setFree {between after : List (Entry A.Id)} (ht : Later (u.setMode .run) between t)
    (hw : Later t.resume.2 after w) (hbetween : ∀ e ∈ between, e.asksToWait = false)
    (hafter : ∀ e ∈ after, e.asksToWait = false) : SetFree t after w := by
  have hv : Reachable t.resume.2 := ht.reachable.move (.call .resume)
  -- the mode is still `run` where the run is resumed
  have hmode : inForce w.config.initialMode t.resume.2.history = .run := by
    have ht' : t.resume.2.history = u.history ++ [.setMode .run] ++ between ++ [.resume t.resume.1] := by
      have hset : (u.setMode .run).history = u.history ++ [.setMode .run] := List.reverse_cons
      rw [← hset, ← ht.history]
      exact List.reverse_cons
    rw [ht', inForce_append, inForce_append, inForce_append]
    exact inForce_run hbetween
  have hfollow : Station.follow .run t.resume.2.station after = some w.station := by
    have hf := hw.reachable.followed
    rw [Followed, hw.history, Station.follow_append] at hf
    obtain ⟨s, hs, hf⟩ := Option.bind_eq_some_iff.mp hf
    rwa [Station.follow_unique hs hv.followed, hmode] at hf
  obtain ⟨hstation, hpark, hpass⟩ := Station.follow_free ht.reachable.sound.resume_station hafter hfollow
  have hacts : w.acts = t.acts ++ after.filterMap Entry.act? := by
    have hresume : t.resume.2.acts = t.acts ++ [] := acts_note _ (.resume _)
    rw [← t.acts.append_nil, ← hresume]
    exact (congrArg (List.filterMap Entry.act?) hw.history).trans List.filterMap_append
  exact
    { unparked := by
        rintro (_ | _) hmem
        · have hin : .event .gateParked false ∈ w.history := by
            rw [hw.history]
            exact List.mem_append_right _ hmem
          exact hw.reachable.sound.accepted .gateParked (List.mem_reverse.mp hin)
        · exact hpark hmem
      unsuspended := fun hr => by
        by_contra hsus
        rw [Bool.not_eq_false] at hsus
        have hgranted := (hw.reachable.sound.resume_iff_of_atRest hr).mpr hsus
        exact hstation (station_eq_waiting.mpr (hw.reachable.sound.resume_iff.mp hgranted))
      rests := fun hr => hr.cases (mt station_eq_waiting.mpr hstation)
      passes := hpass
      advances := by
        generalize hlater : after.filterMap Entry.act? = later at hacts
        have hruns : (passages later).map advanceOf = List.replicate (passages later).length .run := by
          have hall : ∀ m ∈ passages later, m = .run := by
            intro m hm
            obtain ⟨e, he, hact⟩ := List.mem_filterMap.mp (hlater ▸ mem_passages.mp hm)
            exact hpass m (Entry.eq_passed hact ▸ he)
          conv_lhs => rw [List.eq_replicate_of_mem hall, List.map_replicate]
          rfl
        refine ⟨later, hacts, ?_⟩
        have hat := ht.reachable.sound.advances_eq
        have hnow := hw.reachable.sound.advances_eq
        rw [hacts, passages_append, List.map_append, hat, advances_append, hruns, List.append_assoc,
          List.append_assoc] at hnow
        exact (List.append_cancel_left hnow).symm }

end Cadence.Controller
