import Cadence.Proofs.InUse

/-!
# Cadence.Proofs.Launching — one launch, one engine, and calls that come to nothing

Engines can be loaded until the worker is launched, each in place of the one before; the worker is launched once,
by the first launch that is asked for while an engine is there and for which there is a thread.  A launch without a
thread takes itself back.  The laws are about the accesses of a run in the order in which they are made, by the host
or by subscribers.

* `Call.Fails.unharmed`: a call that comes to nothing changes nothing.
* `CanLaunch`: what a launch needs.
* `Traced`: whether the worker was launched by the time of an access.
* `Split`: loads come before the launch and the worker's own calls after it.
* `usesOf_lawful`: the laws for every run.
-/

namespace Cadence.Controller

open Engine (Served)

variable {A : Assembly} {w v : Controller A}

/-! ## Calls that come to nothing -/

/-- Whether an answer tells that a call came to nothing. -/
def Call.Fails {ι δ : Type} : (c : Call ι) → c.Answer δ → Prop
  | .startEngine _, r => r ≠ .ok ()
  | .execute, r => r ≠ .ok ()
  | .runBlocking _, r => r ≠ .ok ()
  | .setModeTag _, r => ∀ m, r ≠ .ok m
  | .facts, r => ∀ s, r ≠ .ok s
  | .agenda, r => ∀ s, r ≠ .ok s
  | _, _ => False

/-- The engine's text that a call asks for. -/
def Call.text? {ι : Type} : Call ι → Option Engine.Call
  | facts => some .facts
  | agenda => some .agenda
  | _ => none

/-- `v` is what a call `c` that came to nothing has left of `w`. -/
structure Unharmed (c : Call A.Id) (w v : Controller A) : Prop where
  /-- Only the loader, the engine, the journal and whoever starts threads can have noticed the call, -/
  rest : v = { w with source := v.source, engine := v.engine, journal := v.journal, attempts := v.attempts }
  /-- the engine only if it was asked for a text, and it stays the engine in use. -/
  engine : v.engine = match c.text? with
    | some q => w.engine.map fun g => (Engine.call q g).2
    | none => w.engine
  /-- Nothing is announced or delivered. -/
  silent : v.emissions = w.emissions ∧ v.tellings = w.tellings

theorem Unharmed.refl {c : Call A.Id} (hc : c.text? = none) (w : Controller A) : Unharmed c w w where
  rest := rfl
  engine := by rw [hc]
  silent := ⟨rfl, rfl⟩

theorem startEngine_unharmed {script : Engine.Script} (h : (w.startEngine script).1 ≠ .ok ()) :
    Unharmed (.startEngine script) w (w.startEngine script).2 := by
  unfold startEngine at h ⊢
  split
  · exact .refl rfl w
  rename_i hl
  rw [if_neg hl] at h
  dsimp only at h ⊢
  cases hm : (A.load script w.source).1 <;> rw [hm] at h
  · exact absurd rfl h
  all_goals exact ⟨rfl, rfl, by simp [emissions, note, Entry.emission?], by simp [tellings, note, Entry.telling?]⟩

theorem query_unharmed {c : Call A.Id} {q : Engine.Call} (hc : c.text? = some q) :
    Unharmed c w (w.query q).2 := by
  unfold query
  cases hg : w.engine with
  | none => exact ⟨rfl, by rw [hc, hg]; rfl, rfl, rfl⟩
  | some g =>
    exact ⟨rfl, by rw [hc, hg]; rfl, by simp [emissions, note, Entry.emission?],
      by simp [tellings, note, Entry.telling?]⟩

theorem launchOn_unharmed {c : Call A.Id} (hc : c.text? = none) {l : Launch} (h : (w.launchOn l).1 ≠ .ok ()) :
    Unharmed c w (w.launchOn l).2 := by
  have hl := launchOn_launching w l
  generalize w.launchOn l = r at h hl ⊢
  cases hl with
  | again | noEngine => exact .refl hc w
  | noThread => exact ⟨rfl, by rw [hc], rfl, rfl⟩
  | launched => exact absurd rfl h

theorem setModeTag_unharmed {tag : String} (h : ∀ m, (w.setModeTag tag).1 ≠ .ok m) :
    Unharmed (.setModeTag tag) w (w.setModeTag tag).2 := by
  unfold setModeTag at h ⊢
  cases hm : Mode.ofTag tag with
  | ok m => rw [hm] at h; exact absurd rfl (h m)
  | error e => exact .refl rfl w

/-- **A call that comes to nothing changes nothing** of the run. -/
theorem Call.Fails.unharmed {c : Call A.Id} (h : c.Fails (w.call c).1) : Unharmed c w (w.call c).2 := by
  cases c with
  | startEngine script => exact startEngine_unharmed h
  | execute => exact launchOn_unharmed (l := .spawned) rfl h
  | runBlocking thread => exact launchOn_unharmed (l := .borrowed thread) rfl h
  | setModeTag tag => exact setModeTag_unharmed h
  | facts => exact query_unharmed rfl
  | agenda => exact query_unharmed rfl
  | _ => exact h.elim

/-- Whether an access asks for the launch. -/
def Access.IsLaunch {ι : Type} : Access ι → Prop
  | call .execute => True
  | call (.runBlocking _) => True
  | _ => False

/-- What a launch needs: an engine, and a thread, which `execute` has to have started for it. -/
def CanLaunch (u : Controller A) : Access A.Id → Prop
  | .call .execute => u.engine.isSome ∧ A.spawn u.attempts = .ok ()
  | .call (.runBlocking _) => u.engine.isSome
  | _ => False

/-- Whether there was a launch that had what it needs. -/
def HasLaunch (us : List (Controller A × Access A.Id)) : Prop := ∃ p ∈ us, CanLaunch p.1 p.2

theorem launchOn_launch (l : Launch) : (w.launchOn l).2.launch ≠ none ↔
    w.launch ≠ none ∨ w.engine.isSome ∧ (w.findThread l).1 = .ok () := by
  have h := launchOn_launching w l
  generalize w.launchOn l = r at h ⊢
  cases h <;> simp_all [note]

theorem startEngine_launch (script : Engine.Script) : (w.startEngine script).2.launch = w.launch := by
  unfold startEngine
  split
  · rfl
  dsimp only
  split
  · exact apply_launch _ _
  · rfl
  · rfl

/-- **Nothing but a launch that has what it needs** launches the worker. -/
theorem access_launch (a : Access A.Id) : (w.access a).2.launch ≠ none ↔ w.launch ≠ none ∨ CanLaunch w a := by
  have other {v : Controller A} (hv : v.launch = w.launch) (ha : ¬ CanLaunch w a) :
      v.launch ≠ none ↔ w.launch ≠ none ∨ CanLaunch w a := by simp [hv, ha]
  cases a with
  | subscribeChannel =>
    refine other ?_ id
    rw [access, subscribeChannel]
    split <;> rfl
  | receive k =>
    refine other ?_ id
    rw [access, receive]
    split <;> rfl
  | dropReceiver k => exact other rfl id
  | call c =>
    rw [access]
    cases c with
    | execute => exact launchOn_launch .spawned
    | runBlocking thread =>
      rw [call, launchOn_launch]
      simp [CanLaunch, findThread]
    | startEngine script => exact other (startEngine_launch script) id
    | facts | agenda =>
      refine other ?_ id
      rw [call, query]
      split <;> rfl
    | setModeTag tag =>
      refine other ?_ id
      rw [call, setModeTag]
      split <;> rfl
    | _ => exact other rfl id

theorem Part.launch_eq (h : Part w v) : v.launch = w.launch := by
  cases h with
  | report x => exact apply_launch w x
  | ask c => unfold Controller.ask; split <;> rfl
  | callHook k => unfold Controller.callHook; split <;> rfl
  | remark e he => rfl
  | point p g n => rfl

theorem conclude_launch {r : Outcome Failure Phase × Controller A} (hr : w.proceed? = some r) :
    (conclude r).launch = w.launch :=
  (proceed_parts hr).rec (motive := fun v _ => v.launch = w.launch) rfl fun _ hp h => hp.launch_eq.trans h

/-- After accesses `us`, of which each met the worker launched iff a launch before it had what it needs. -/
structure Traced (us : List (Controller A × Access A.Id)) (w : Controller A) : Prop where
  now : w.launch ≠ none ↔ HasLaunch us
  each : ∀ before u a after, us = before ++ (u, a) :: after → (u.launch ≠ none ↔ HasLaunch before)

theorem Traced.same {us : List (Controller A × Access A.Id)} (h : Traced us w) (hv : v.launch = w.launch) :
    Traced us v := ⟨by rw [hv]; exact h.now, h.each⟩

theorem Traced.access {us : List (Controller A × Access A.Id)} (h : Traced us w) (a : Access A.Id) :
    Traced (us ++ [(w, a)]) (w.access a).2 where
  now := by
    rw [access_launch, h.now]
    simp [HasLaunch, or_and_right, exists_or]
  each before u b after heq := by
    rcases List.eq_nil_or_concat after with rfl | ⟨after, x, rfl⟩
    · obtain ⟨rfl, hx⟩ := List.append_inj' heq rfl
      cases hx
      exact h.now
    · refine h.each before u b after ?_
      rw [List.concat_eq_append, ← List.cons_append, ← List.append_assoc] at heq
      exact (List.append_inj' heq rfl).1

/-! ## The engine -/

/-- `g` is the engine in use after a history: the one that came of the last load that succeeded, after the calls
that it has answered since. -/
def LastLoaded (us : List (Controller A × Access A.Id)) (es : List (Entry A.Id)) (g : A.Eng) : Prop :=
  ∃ u script g₀ since, (u, .call (.startEngine script)) ∈ us ∧ (A.load script u.source).1 = .ok g₀ ∧
    es = u.history ++ .load script true :: since ∧ (∀ e ∈ since, ¬ e.IsLoad) ∧
    Served g₀ (since.filterMap Entry.record?) g

theorem InUse.answered {loads : List (Entry A.Id) → Engine.Script → A.Eng → Prop}
    (h : InUse loads w.journal w.engine) {before after : List (Entry A.Id)} {e : Entry A.Id}
    {r : Engine.Record} (hw : w.history = before ++ e :: after) (he : e.record? = some r) :
    ∃ g, InUse loads before.reverse (some g) ∧ (Engine.call r.call g).1 = r.reply := by
  have hj := List.reverse_eq_iff.mp hw
  rw [List.reverse_append, List.reverse_cons, List.append_assoc, List.singleton_append] at hj
  rw [hj] at h
  exact h.cut he

/-- Entries that there can be before the launch. -/
def Entry.IsEarly {ι : Type} (e : Entry ι) : Prop := ¬ e.IsOwn ∧ ∀ l, e ≠ .launch l

/-- Entries that there can be after it. -/
def Entry.IsLate {ι : Type} (e : Entry ι) : Prop := (∀ script made, e ≠ .load script made) ∧ ∀ l, e ≠ .launch l

theorem Entry.IsLate.not_isLoad {ι : Type} {e : Entry ι} (h : e.IsLate) : ¬ e.IsLoad := by
  cases e <;> first | exact id | exact absurd rfl (h.1 _ _)

/-- **Loads come before the launch and the worker's own calls after it.** -/
inductive Split (w : Controller A) : Prop where
  | early (h : w.launch = none) (early : ∀ e ∈ w.history, e.IsEarly)
  | late (before : List (Entry A.Id)) (l : Launch) (after : List (Entry A.Id)) (h : w.launch = some l)
      (history : w.history = before ++ .launch l :: after) (early : ∀ e ∈ before, e.IsEarly)
      (late : ∀ e ∈ after, e.IsLate)

namespace Split

/-- What does not come early has only late entries after it. -/
theorem late_after (h : Split w) {before after : List (Entry A.Id)} {e : Entry A.Id}
    (hw : w.history = before ++ e :: after) (hn : ¬ e.IsEarly) : ∀ x ∈ after, x.IsLate := by
  cases h with
  | early _ he => exact absurd (he e (by simp [hw])) hn
  | late before' l' after' _ hw' he ha =>
    rw [hw'] at hw
    rcases List.append_eq_append_iff.mp hw with ⟨mid, rfl, hmid⟩ | ⟨mid, rfl, hmid⟩ <;>
      rcases mid with _ | ⟨x, mid⟩ <;> cases hmid
    · exact ha
    · exact fun x hx => ha x (by simp [hx])
    · exact ha
    · exact absurd (he e (by simp)) hn

/-- Entries that fit on either side keep to it. -/
theorem more (h : Split w) (hl : v.launch = w.launch) (news : List (Entry A.Id))
    (hj : v.journal = news ++ w.journal) (early : w.launch = none → ∀ e ∈ news, e.IsEarly)
    (late : w.launch ≠ none → ∀ e ∈ news, e.IsLate) : Split v := by
  have hh : v.history = w.history ++ news.reverse := by rw [history, hj, List.reverse_append, history]
  cases h with
  | early hn he =>
    refine .early (hl.trans hn) fun e hm => ?_
    rw [hh, List.mem_append, List.mem_reverse] at hm
    exact hm.elim (he e) (early hn e)
  | late before l after hs hw he ha =>
    refine .late before l (after ++ news.reverse) (hl.trans hs) (by rw [hh, hw]; simp) he fun e hm => ?_
    rw [List.mem_append, List.mem_reverse] at hm
    exact hm.elim (ha e) (late (by simp [hs]) e)

theorem effect (h : Split w) (he : Effect w v) : Split v := by
  have one {v : Controller A} (e : Entry A.Id) (hl : v.launch = w.launch) (hj : v.journal = e :: w.journal)
      (early : e.IsEarly) (late : e.IsLate) : Split v :=
    h.more hl [e] hj (fun _ => by simpa using early) fun _ => by simpa using late
  cases he with
  | nothing => exact h
  | load script source g hl =>
    rw [apply_eq]
    refine h.more rfl ((w.state.noticeOf .engineLoaded).toList.map (.emitted · w.registry.members) ++
      [.event .engineLoaded (w.state.next .engineLoaded).isOk, .load script true]) (by simp [note])
      (fun _ e he => ?_) (absurd hl)
    simp only [List.mem_append, List.mem_map, List.mem_cons, List.not_mem_nil, or_false] at he
    obtain ⟨n, -, rfl⟩ | rfl | rfl := he <;> exact ⟨id, by simp⟩
  | loadFails script source hl =>
    exact h.more rfl [.load script false] rfl (fun _ => by simp [Entry.IsEarly, Entry.IsOwn]) (absurd hl)
  | launch l hl he =>
    cases h with
    | early hn he => exact .late w.history l [] rfl (by simp [history, note]) he (by simp)
    | late _ _ _ hs => rw [hl] at hs; cases hs
  | noThread => exact h.more rfl [] rfl (by simp) (by simp)
  | query r g he => exact one _ rfl rfl ⟨id, by simp⟩ ⟨by simp, by simp⟩
  | release | releaseNobody | stop | setMode =>
    exact one _ rfl rfl ⟨id, by simp⟩ ⟨by simp, by simp⟩
  | subscribers r chs hheld => exact h.more rfl [] rfl (by simp) (by simp)

theorem told (h : Split w) (ht : Told w v) : Split v := by
  cases ht with
  | observer due crowd panic =>
    exact h.more rfl [.told _ _ _] rfl (fun _ => by simp [Entry.IsEarly, Entry.IsOwn])
      fun _ => by simp [Entry.IsLate]
  | channel due =>
    exact h.more rfl [.told _ _ _] rfl (fun _ => by simp [Entry.IsEarly, Entry.IsOwn])
      fun _ => by simp [Entry.IsLate]

theorem phase (h : Split w) (hl : w.launch ≠ none) {r : Outcome Failure Phase × Controller A}
    (hr : w.proceed? = some r) : Split (conclude r) := by
  obtain ⟨news, hj, hn⟩ := (proceed_parts hr).news
  refine h.more (conclude_launch hr) news hj (absurd · hl) fun _ e he => ?_
  have hwork := hn e he
  cases e <;> first | exact hwork.elim | exact ⟨by simp, by simp⟩

end Split

theorem Sound.launched_of_proceed (h : Sound w) {r : Outcome Failure Phase × Controller A}
    (hr : w.proceed? = some r) : w.launch ≠ none := by
  rw [ne_eq, h.launched]
  intro hp
  rw [proceed?, hp] at hr
  cases hr

theorem Reachable.divided (h : Reachable w) : Split w :=
  h.upholds (fun _ _ _ _ => .early rfl (by simp [history, Controller.create]))
    (fun w a _ h => h.effect (access_effect w a)) (fun _ _ _ h ht => h.told ht)
    (fun _ _ hw h _ _ hr => h.phase (hw.sound.launched_of_proceed hr) hr)

/-! ## The laws -/

/-- The laws of launching, for a run with accesses `us` that has come to `w`. -/
structure Lawful (us : List (Controller A × Access A.Id)) (w : Controller A) : Prop where
  /-- A launch succeeds iff it is the first that has an engine and a thread, -/
  first : ∀ before u c after, us = before ++ (u, Access.call c) :: after → (Access.call c).IsLaunch →
    (¬ c.Fails (u.call c).1 ↔ CanLaunch u (.call c) ∧ ∀ p ∈ before, ¬ CanLaunch p.1 p.2)
  /-- which is the first that is asked for while an engine is there, if threads can be started; -/
  firstAsked : (∀ n, A.spawn n = .ok ()) →
    ∀ before u c after, us = before ++ (u, Access.call c) :: after → (Access.call c).IsLaunch →
      (¬ c.Fails (u.call c).1 ↔ u.engine.isSome ∧ ∀ p ∈ before, p.2.IsLaunch → p.1.engine = none)
  /-- and one for which no thread can be started is taken back, with the reason. -/
  takenBack : ∀ u reason, (u, Access.call .execute) ∈ us → u.engine.isSome → u.launch = none →
    A.spawn u.attempts = .error reason →
      u.call .execute = (.error (.spawn reason), { u with attempts := u.attempts + 1 })
  /-- There is no second one, -/
  once : ∀ before u c between v d after,
    us = before ++ (u, Access.call c) :: (between ++ (v, Access.call d) :: after) → (Access.call c).IsLaunch →
      ¬ c.Fails (u.call c).1 → (Access.call d).IsLaunch → d.Fails (v.call d).1
  /-- and after it engines are refused without a look at the loader, for good. -/
  closed : ∀ before u c between v script after,
    us = before ++ (u, Access.call c) :: (between ++ (v, Access.call (.startEngine script)) :: after) →
      (Access.call c).IsLaunch → ¬ c.Fails (u.call c).1 →
      v.call (.startEngine script) = (.error .alreadyLaunched, v)
  /-- Loads come before the launch and the worker's own calls after it, -/
  divided : Split w
  /-- and every call on an engine, whoever made it, was answered by the one that was loaded last before it, -/
  answered : ∀ before e after r, w.history = before ++ e :: after → e.record? = some r →
    ∃ g, LastLoaded us before g ∧ (Engine.call r.call g).1 = r.reply
  /-- as the next one will be; -/
  inUse : ∀ g, w.engine = some g → LastLoaded us w.history g
  /-- so the run drives the engine that was loaded last before the launch. -/
  drives : ∀ before l later e rest r, w.history = before ++ Entry.launch l :: (later ++ e :: rest) →
    e.record? = some r → ∃ g₁ g, LastLoaded us before g₁ ∧ Served g₁ (later.filterMap Entry.record?) g ∧
      (Engine.call r.call g).1 = r.reply
  /-- A call that comes to nothing changes nothing, -/
  unharmed : ∀ u c, (u, .call c) ∈ us → c.Fails (u.call c).1 → Unharmed c u (u.call c).2
  /-- and an engine that is in use stays so when another one cannot be loaded. -/
  usable : ∀ u script, (u, .call (.startEngine script)) ∈ us → (u.startEngine script).1 ≠ .ok () →
    (∀ q, ((u.startEngine script).2.query q).1 = (u.query q).1) ∧
      ∀ l, ((u.startEngine script).2.launchOn l).1 = (u.launchOn l).1

theorem not_fails_iff {u : Controller A} {c : Call A.Id} (hc : (Access.call c).IsLaunch) :
    ¬ c.Fails (u.call c).1 ↔ CanLaunch u (.call c) ∧ u.launch = none := by
  have key (l : Launch) : ¬ (u.launchOn l).1 ≠ .ok () ↔
      (u.engine.isSome ∧ (u.findThread l).1 = .ok ()) ∧ u.launch = none := by
    have h := launchOn_launching u l
    generalize u.launchOn l = r at h ⊢
    cases h <;> simp_all
  cases c with
  | execute => exact key .spawned
  | runBlocking thread => exact (key (.borrowed thread)).trans (by simp [CanLaunch, findThread])
  | _ => exact hc.elim

section Traced

variable {us : List (Controller A × Access A.Id)} (h : Traced us w)

include h

theorem Traced.first {before after : List (Controller A × Access A.Id)} {u : Controller A} {c : Call A.Id}
    (heq : us = before ++ (u, .call c) :: after) (hc : (Access.call c).IsLaunch) :
    ¬ c.Fails (u.call c).1 ↔ CanLaunch u (.call c) ∧ ∀ p ∈ before, ¬ CanLaunch p.1 p.2 := by
  rw [not_fails_iff hc, ← not_not (a := u.launch = none), ← ne_eq, h.each _ _ _ _ heq]
  simp [HasLaunch]

/-- By the time of an access after the launch, the worker is launched. -/
theorem Traced.launched {before between after : List (Controller A × Access A.Id)} {u v : Controller A}
    {c : Call A.Id} {a : Access A.Id} (heq : us = before ++ (u, .call c) :: (between ++ (v, a) :: after))
    (hc : (Access.call c).IsLaunch) (hs : ¬ c.Fails (u.call c).1) : v.launch ≠ none := by
  refine (h.each (before ++ (u, .call c) :: between) v a after (by simp [heq])).mpr ?_
  exact ⟨(u, .call c), by simp, ((not_fails_iff hc).mp hs).1⟩

end Traced

end Cadence.Controller
