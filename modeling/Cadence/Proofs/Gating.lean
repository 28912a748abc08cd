import Cadence.Proofs.Record

/-!
# Cadence.Proofs.Gating — the gate, told from the history

Whether a turn waits at the gate is decided by the mode in force when it gets there, and how it is advanced
by the mode in force when it leaves.  A `Station` says where a history leaves the worker with respect to the
gate; `Station.next?` accepts only what the cadence allows there.

* `Reachable.followed`: every history is accepted, and leads to the station where the worker is.
* `Followed.parks_iff`, `Followed.passed`, `Followed.released`: what that means for a turn.
-/

namespace Cadence.Controller

variable {A : Assembly} {ι : Type}

/-- Where the worker is with respect to the gate. -/
inductive Station where
  | away
  /-- On its way to the gate, which has not decided yet. -/
  | near
  | waiting
  /-- Parked, with a permit to leave. -/
  | released
deriving DecidableEq, Repr

/-- Entries that have nothing to do with the gate. -/
def Entry.IsAside : Entry ι → Prop
  | hasDone (.ok false) | event .gateParked true | passed _ | resume _ | ended _ => False
  | _ => True

/-- Entries that decide about a turn on its way to the gate: it is parked, goes through, or the run ends. -/
def Entry.Decides : Entry ι → Prop
  | event .gateParked true | passed _ | ended _ => True
  | _ => False

/-- The station after an entry, under the mode in force before it; `none` if the cadence forbids it. -/
def Station.next? (m : Mode) (s : Station) : Entry ι → Option Station
  | .hasDone (.ok false) => if s = away then some near else none
  | .event .gateParked true => if s = near ∧ m.isGated = true then some waiting else none
  | .passed n =>
    if n = m ∧ (s = released ∨ s = near ∧ m.isGated = false) then some away else none
  | .resume true => if s = waiting then some released else none
  | .resume false => if s = waiting then none else some s
  | .ended _ => some away
  | _ => some s

/-- The station after a history that began under `m`. -/
def Station.follow : Mode → Station → List (Entry ι) → Option Station
  | _, s, [] => some s
  | m, s, e :: es => (s.next? m e).bind fun t => follow (inForce m [e]) t es

namespace Station

theorem follow_append (m : Mode) (s : Station) (es fs : List (Entry ι)) :
    follow m s (es ++ fs) = (follow m s es).bind fun t => follow (inForce m es) t fs := by
  induction es generalizing m s with
  | nil => rfl
  | cons e es ih =>
    rw [List.cons_append, follow, follow, Option.bind_assoc]
    congr 1
    funext t
    rw [ih]
    rfl

theorem next?_of_aside {e : Entry ι} (h : e.IsAside) (m : Mode) (s : Station) :
    s.next? m e = some s := by
  unfold next?
  split <;> first | rfl | exact h.elim

theorem follow_of_aside {es : List (Entry ι)} (h : ∀ e ∈ es, e.IsAside) (m : Mode) (s : Station) :
    follow m s es = some s := by
  induction es generalizing m with
  | nil => rfl
  | cons e es ih =>
    obtain ⟨he, hes⟩ := List.forall_mem_cons.mp h
    rw [follow, next?_of_aside he]
    exact ih hes _

/-- A turn on its way to the gate stays there until something is decided about it. -/
theorem follow_near {m : Mode} {t : Station} {es : List (Entry ι)} (hes : ∀ e ∈ es, ¬ e.Decides)
    (h : follow m near es = some t) : t = near := by
  induction es generalizing m with
  | nil => cases h; rfl
  | cons e es ih =>
    obtain ⟨he, hes⟩ := List.forall_mem_cons.mp hes
    obtain ⟨u, hu, h⟩ := Option.bind_eq_some_iff.mp h
    have hnear : u = near := by
      unfold next? at hu
      split at hu
      · cases hu
      · exact absurd trivial he
      · exact absurd trivial he
      · cases hu
      · cases hu; rfl
      · exact absurd trivial he
      · cases hu; rfl
    exact ih hes (hnear ▸ h)

/-- Without a granted resume, a parked worker does not come to have a permit. -/
theorem follow_unreleased {m : Mode} {s t : Station} {es : List (Entry ι)}
    (hs : s = waiting ∨ s = away) (hes : ∀ e ∈ es, e ≠ .resume true ∧ e ≠ .hasDone (.ok false))
    (h : follow m s es = some t) : t = waiting ∨ t = away := by
  induction es generalizing m s with
  | nil => cases h; exact hs
  | cons e es ih =>
    obtain ⟨⟨hr, hd⟩, hes⟩ := List.forall_mem_cons.mp hes
    obtain ⟨u, hu, h⟩ := Option.bind_eq_some_iff.mp h
    refine ih ?_ hes h
    unfold next? at hu
    split at hu
    · exact absurd rfl hd
    · split at hu <;> cases hu
      exact .inl rfl
    · split at hu <;> cases hu
      exact .inr rfl
    · exact absurd rfl hr
    · split at hu <;> cases hu
      exact hs
    · cases hu; exact .inr rfl
    · cases hu; exact hs

end Station

/-! ## The station of a controller -/

def station (w : Controller A) : Station :=
  match w.phase with
  | .approaching | .arriving => .near
  | .parked => if w.gate.permit then .released else .waiting
  | _ => .away

theorem station_eq_waiting {w : Controller A} :
    w.station = .waiting ↔ w.phase = .parked ∧ w.gate.permit = false := by
  unfold station
  cases w.phase <;> simp

/-- The history is accepted, and leads to the station of the worker. -/
def Followed (w : Controller A) : Prop :=
  Station.follow w.config.initialMode .away w.history = some w.station

/-- `v` has come from `w` without anything to do with the gate. -/
structure Quiet (w v : Controller A) : Prop where
  config : v.config = w.config
  news : ∃ news, v.journal = news ++ w.journal ∧ ∀ e ∈ news, e.IsAside

namespace Quiet

variable {u v w : Controller A}

theorem refl (w : Controller A) : Quiet w w := ⟨rfl, [], rfl, by simp⟩

theorem trans (h : Quiet u w) (h' : Quiet w v) : Quiet u v := by
  obtain ⟨hc, news, hj, hn⟩ := h
  obtain ⟨hc', news', hj', hn'⟩ := h'
  refine ⟨hc'.trans hc, news' ++ news, by rw [hj', hj, List.append_assoc], fun e he => ?_⟩
  exact (List.mem_append.mp he).elim (hn' e) (hn e)

theorem same (h : Quiet u w) (hc : v.config = w.config) (hj : v.journal = w.journal) : Quiet u v :=
  ⟨hc.trans h.config, hj ▸ h.news⟩

theorem report (h : Quiet u w) {x : Event} (hx : x ≠ .gateParked) : Quiet u (w.apply x) := by
  refine h.trans ⟨apply_config w x, ?_⟩
  rw [apply_eq]
  refine ⟨(w.state.noticeOf x).toList.map (.emitted · w.registry.members) ++
    [.event x (w.state.next x).isOk], by simp, fun e he => ?_⟩
  rcases List.mem_append.mp he with he | he
  · obtain ⟨n, -, rfl⟩ := List.mem_map.mp he
    trivial
  · rw [List.mem_singleton.mp he]
    cases x <;> trivial

theorem calls (h : Quiet u w) {as : List Act} (hv : Since w as v) : Quiet u v := by
  obtain ⟨-, g, d, news, own, -⟩ := hv
  refine h.trans ⟨rfl, news, rfl, fun e he => ?_⟩
  have := own e he
  cases e <;> trivial

theorem noted {e : Entry A.Id} (hc : v.config = w.config) (hj : v.journal = e :: w.journal)
    (he : e.IsAside) : Quiet w v := ⟨hc, [e], hj, by simpa using he⟩

theorem note (h : Quiet u w) {e : Entry A.Id} (he : e.IsAside) : Quiet u (w.note e) :=
  h.trans (.noted rfl rfl he)

end Quiet

namespace Followed

variable {u v w : Controller A}

/-- What has nothing to do with the gate does not move the station. -/
theorem follow_quiet (h : Followed w) (hq : Quiet w u) :
    Station.follow u.config.initialMode .away u.history = some w.station := by
  obtain ⟨hc, news, hj, hn⟩ := hq
  rw [hc, history, hj, List.reverse_append, Station.follow_append]
  rw [Followed, history] at h
  rw [h, Option.bind_some]
  exact Station.follow_of_aside (fun e he => hn e (List.mem_reverse.mp he)) _ _

theorem of_quiet (h : Followed w) (hq : Quiet w v) (hs : v.station = w.station) : Followed v := by
  rw [Followed, hs]
  exact h.follow_quiet hq

/-- One entry that the cadence allows leads on. -/
theorem entry (h : Followed w) (hq : Quiet w u) {e : Entry A.Id} (hj : v.journal = e :: u.journal)
    (hc : v.config = u.config)
    (hs : w.station.next? (inForce u.config.initialMode u.history) e = some v.station) :
    Followed v := by
  have hu := h.follow_quiet hq
  rw [Followed, hc, history, hj, List.reverse_cons, Station.follow_append]
  rw [history] at hu hs
  rw [hu, Option.bind_some, Station.follow, hs]
  rfl

theorem effect (h : Followed w) (hw : Sound w) (he : Effect w v) : Followed v := by
  cases he with
  | nothing => exact h
  | load script source g hl =>
    have hq : Quiet w ({ w with source := source, engine := some g }.note (.load script true)) :=
      .noted rfl rfl trivial
    exact h.of_quiet (hq.report (by simp)) (by simp [station, note])
  | loadFails script source hl =>
    exact h.of_quiet (.noted rfl rfl trivial) rfl
  | launch l hl he =>
    refine h.of_quiet (.noted rfl rfl trivial) ?_
    simp [station, note, hw.phase_of_launch hl]
  | noThread => exact h.of_quiet ⟨rfl, [], rfl, by simp⟩ rfl
  | query r g he => exact h.of_quiet (.noted rfl rfl trivial) rfl
  | release hg hp =>
    refine h.entry (.refl w) rfl rfl ?_
    rw [station_eq_waiting.mpr ⟨hw.parked.mp hg, hp⟩]
    simp [Station.next?, station, note, hw.parked.mp hg]
  | releaseNobody hg =>
    have hs : w.station ≠ .waiting := by
      rw [ne_eq, station_eq_waiting, ← hw.parked]
      exact hg
    refine h.entry (.refl w) rfl rfl ?_
    rw [Station.next?, if_neg hs]
    rfl
  | stop => exact h.of_quiet (.noted rfl rfl trivial) rfl
  | setMode m => exact h.of_quiet (.noted rfl rfl trivial) rfl
  | subscribers r chs hheld => exact h.of_quiet ((Quiet.refl w).same rfl rfl) rfl

theorem told (h : Followed w) (ht : Told w v) : Followed v := by
  cases ht with
  | observer due crowd panic =>
    exact h.of_quiet (.noted rfl rfl trivial) rfl
  | channel due =>
    exact h.of_quiet (.noted rfl rfl trivial) rfl

/-- A failure takes the worker away from the gate. -/
theorem fail (h : Followed w) (hq : Quiet w u) (f : Failure) : Followed (u.fail f) :=
  h.entry (hq.report (x := .faulted f.message) (by simp)) rfl rfl rfl

theorem stride (h : Followed w) (hw : Sound w)
    (hmode : inForce w.config.initialMode w.history = w.mode) (hs : Stride w v) : Followed v := by
  have here := Quiet.refl w
  have turn : Quiet w w.beginTurn := (here.report (x := .turnStarted) (by simp)).same rfl rfl
  cases hs with
  | noEngine he phase => exact h.fail here _
  | noEngineInTurn he phase => exact h.fail turn _
  | resetFails hp hv | setUpFails hp hv | disposeFails hp hv => exact h.fail (here.calls hv) _
  | setUp hp hv =>
    refine h.of_quiet (((here.calls hv).report (x := .setupCompleted) (by simp)).same rfl rfl) ?_
    simp [station, enter, hp]
  | @askFails hp p hd => exact h.fail (here.note (e := .hasDone (.error p)) trivial) _
  | goOn hp hd => exact h.entry here rfl rfl (by simp [Station.next?, station, enter, hp])
  | isDone hp hd =>
    refine h.of_quiet ((here.note (e := .hasDone (.ok true)) trivial).same rfl rfl) ?_
    simp [station, enter, hp]
  | cancel phase hc => exact h.fail here _
  | comeUp hp hc hm => exact h.of_quiet (here.same rfl rfl) (by simp [station, enter, hp])
  | pass phase hc hm =>
    have hs : w.station = .near := by rcases phase with hp | hp <;> simp [station, hp]
    refine h.entry here rfl rfl ?_
    rw [hmode, hs]
    simp [Station.next?, station, enter, hm]
  | park hp hc hm =>
    have hst := hw.stands
    rw [Stands, hp] at hst
    have hx : w.state.next .gateParked = .ok ⟨.suspended, none⟩ := hst.2 ▸ next_gateParked _
    have hj : (({ w with gate := ⟨true, false⟩ }.apply .gateParked).enter .parked).journal =
        .event .gateParked true :: w.journal := by
      rw [apply_of_silent (w := { w with gate := ⟨true, false⟩ }) hx]; rfl
    refine h.entry here hj (by simp [enter]) ?_
    rw [hmode]
    simp [Station.next?, station, enter, hp, hm]
  | leave hp hg =>
    refine h.entry here rfl rfl ?_
    rw [hmode]
    simp [Station.next?, station, enter, hp, hg]
  | cancelParked hp hg hc => exact h.fail (u := { w with gate := ⟨false, false⟩ }) (here.same rfl rfl) _
  | advanceFails hp hv | actionFails hp hv => exact h.fail (turn.calls hv) _
  | turn hp hv =>
    refine h.of_quiet (((turn.calls hv).report (x := .turnCompleted) (by simp)).same rfl rfl) ?_
    simp [station, enter, hp]
  | dispose hp hv =>
    exact h.entry ((here.calls hv).report (x := .disposed) (by simp)) rfl rfl rfl

end Followed

/-! ## What a history tells of a turn -/

section History

variable {w : Controller A} {before after : List (Entry A.Id)} {e : Entry A.Id}

/-- An entry of an accepted history is one that the cadence allows. -/
theorem Followed.split (h : Followed w) (hw : w.history = before ++ e :: after) :
    ∃ s t, Station.follow w.config.initialMode .away before = some s ∧
      s.next? (inForce w.config.initialMode before) e = some t ∧
      Station.follow (inForce w.config.initialMode (before ++ [e])) t after = some w.station := by
  rw [Followed, hw, Station.follow_append] at h
  obtain ⟨s, hs, h⟩ := Option.bind_eq_some_iff.mp h
  rw [Station.follow] at h
  obtain ⟨t, ht, h⟩ := Option.bind_eq_some_iff.mp h
  refine ⟨s, t, hs, ht, ?_⟩
  rw [inForce_append]
  exact h

/-- A turn goes through the gate under the mode in force when it does. -/
theorem Followed.passed (h : Followed w) {m : Mode} (hw : w.history = before ++ .passed m :: after) :
    m = inForce w.config.initialMode before := by
  obtain ⟨s, t, -, hs, -⟩ := h.split hw
  rw [Station.next?] at hs
  split at hs
  · rename_i hm; exact hm.1
  · cases hs

/-- **A turn that has come to the gate parks there iff the mode in force asks for it.** -/
theorem Followed.parks_iff (h : Followed w) {approach : List (Entry A.Id)}
    (hw : w.history = before ++ .hasDone (.ok false) :: (approach ++ e :: after))
    (undecided : ∀ x ∈ approach, ¬ x.Decides) (he : e = .event .gateParked true ∨ ∃ m, e = .passed m) :
    e = .event .gateParked true ↔
      (inForce w.config.initialMode (before ++ .hasDone (.ok false) :: approach)).isGated = true := by
  obtain ⟨s, t, -, hs, hfollow⟩ := h.split hw
  have ht : t = .near := by
    rw [Station.next?] at hs
    split at hs <;> cases hs
    rfl
  rw [ht, Station.follow_append] at hfollow
  obtain ⟨x, hx, hfollow⟩ := Option.bind_eq_some_iff.mp hfollow
  rw [Station.follow_near undecided hx, Station.follow, ← inForce_append, List.append_assoc] at hfollow
  obtain ⟨u, hu, -⟩ := Option.bind_eq_some_iff.mp hfollow
  rw [List.singleton_append] at hu
  rcases he with rfl | ⟨m, rfl⟩ <;> rw [Station.next?] at hu <;> split at hu
  · rename_i hg; simp [hg.2]
  · cases hu
  · rename_i hg; simpa using hg.2
  · cases hu

/-- A turn that has parked goes on after a granted resume only. -/
theorem Followed.released (h : Followed w) {stay : List (Entry A.Id)} {m : Mode}
    (hw : w.history = before ++ .event .gateParked true :: (stay ++ .passed m :: after))
    (same : .hasDone (.ok false) ∉ stay) : .resume true ∈ stay := by
  by_contra hr
  obtain ⟨s, t, -, hs, hfollow⟩ := h.split hw
  have ht : t = .waiting := by
    rw [Station.next?] at hs
    split at hs <;> cases hs
    rfl
  rw [Station.follow_append] at hfollow
  obtain ⟨u, hu, hfollow⟩ := Option.bind_eq_some_iff.mp hfollow
  obtain ⟨x, hx, -⟩ := Option.bind_eq_some_iff.mp hfollow
  have hcases := Station.follow_unreleased (.inl ht)
    (fun e he => ⟨fun heq => hr (heq ▸ he), fun heq => same (heq ▸ he)⟩) hu
  rcases hcases with rfl | rfl <;> simp [Station.next?] at hx

end History

/-- **Every history keeps to the cadence.** -/
theorem Reachable.followed {w : Controller A} (h : Reachable w) : Followed w :=
  h.keeps (fun _ _ _ _ => rfl) (fun _ _ hr h he => h.effect hr.sound he) (fun _ _ _ h ht => h.told ht)
    (fun _ _ hr h _ _ hs => h.stride hr.sound hr.recorded.mode hs)

end Cadence.Controller
