import Cadence.Domain.Quiescence
import Cadence.Proofs.Endings

/-!
# Cadence.Proofs.Blaming — the text of a failure

A run that fails is closed with the text of the call that failed, as it was: the state and the last
notification carry it, and nothing that happens afterwards takes its place.  Only a blank text is
replaced, and a panic is told as one.

* `Entry.Errs`, `Entry.Panics`: the calls of the worker that fail.
* `PassesOn`: hooks that end as soon as a call on the engine fails, with that failure.
* `Bracketed`: in a journal the calls of a hook stand right before its end.
* `Reachable.tellsWhy`: the whole of it.
-/

namespace Cadence.Controller

variable {A : Assembly} {w v : Controller A}

/-! ## Calls that fail -/

namespace Entry

variable {ι : Type}

/-- A call of the worker on the engine has returned an error, or a hook has, with a message. -/
inductive Errs : Entry ι → String → Prop where
  | engine {r : Engine.Record} {e : Engine.Error} (h : r.reply = .error e) : Errs (.engine r) e.message
  | passedOn (k : Domain.Hook) (e : Engine.Error) : Errs (.hook k (.error (.engine e))) e.message
  | failed (k : Domain.Hook) (m : String) : Errs (.hook k (.error (.failed m))) m

/-- The engine has panicked in a call of the worker, or the domain has. -/
inductive Panics : Entry ι → Payload → Prop where
  | engine {r : Engine.Record} {p : Payload} (h : r.reply = .panicked p) : Panics (.engine r) p
  | hook (k : Domain.Hook) (p : Payload) : Panics (.hook k (.panicked p)) p
  | hasDone (p : Payload) : Panics (.hasDone (.error p)) p

def Fails (e : Entry ι) : Prop := (∃ m, e.Errs m) ∨ ∃ p, e.Panics p

variable {e : Entry ι}

theorem Errs.act {m : String} (h : e.Errs m) :
    ∃ a f, e.act? = some a ∧ a.failure? = some f ∧ f.message = m := by
  cases h with
  | engine h => exact ⟨_, _, rfl, by simp only [Act.failure?, h]; rfl, rfl⟩
  | passedOn k e => exact ⟨_, _, rfl, rfl, rfl⟩
  | failed k m => exact ⟨_, _, rfl, rfl, rfl⟩

theorem Panics.act {p : Payload} (h : e.Panics p) :
    ∃ a, e.act? = some a ∧ a.failure? = some (.panicked p) := by
  cases h with
  | engine h => exact ⟨_, rfl, by simp only [Act.failure?, h]; rfl⟩
  | hook k p => exact ⟨_, rfl, rfl⟩
  | hasDone p => exact ⟨_, rfl, rfl⟩

theorem fails_iff : e.Fails ↔ ∃ a f, e.act? = some a ∧ a.failure? = some f := by
  constructor
  · rintro (⟨m, h⟩ | ⟨p, h⟩)
    · obtain ⟨a, f, ha, hf, -⟩ := h.act
      exact ⟨a, f, ha, hf⟩
    · obtain ⟨a, ha, hf⟩ := h.act
      exact ⟨a, _, ha, hf⟩
  · rintro ⟨a, f, ha, hf⟩
    cases e with
    | engine r =>
      cases ha
      rcases hr : r.reply with x | x | p
      · simp [Act.failure?, Failure.of?, Outcome.mapError, hr] at hf
      · exact .inl ⟨_, .engine hr⟩
      · exact .inr ⟨_, .engine hr⟩
    | hook k r =>
      cases ha
      rcases r with x | (x | m) | p
      · simp [Act.failure?, Failure.of?, Outcome.mapError] at hf
      · exact .inl ⟨_, .passedOn k x⟩
      · exact .inl ⟨_, .failed k m⟩
      · exact .inr ⟨_, .hook k p⟩
    | hasDone r =>
      rcases r with p | b
      · exact .inr ⟨_, .hasDone p⟩
      · cases ha
        cases hf
    | _ => cases ha <;> cases hf

end Entry

theorem mem_acts {a : Act} : a ∈ w.acts ↔ ∃ e ∈ w.history, e.act? = some a := by
  simp only [acts, mem_readOff, history, List.mem_reverse]

/-! ## Hooks that pass failures on -/

/-- A hook that passes on what the engine fails with: a call that fails is the end of it. -/
def PassesOn {δ : Type} : Engine.Errand (Domain.Result δ) → Prop
  | .done _ => True
  | .ask _ next =>
    (∀ e, ∃ d, next (.error e) = .done (.error (.engine e), d)) ∧
      (∀ p, ∃ d, next (.panicked p) = .done (.panicked p, d)) ∧ ∀ value, PassesOn (next (.ok value))

theorem passesOn_query {δ : Type} {c : Engine.Call} {d : δ}
    {next : c.Value → Engine.Errand (Domain.Result δ)} (h : ∀ value, PassesOn (next value)) :
    PassesOn (Domain.query c d next) :=
  ⟨fun _ => ⟨d, rfl⟩, fun _ => ⟨d, rfl⟩, h⟩

/-- What an engine failed with in a hook that passes failures on is what the hook ends with. -/
theorem PassesOn.play {σ δ : Type} [Engine σ] {e : Engine.Errand (Domain.Result δ)} (h : PassesOn e)
    (s : σ × List Engine.Record) :
    ∃ log, (e.play Engine.recorded s).2.2 = s.2 ++ log ∧ ∀ r ∈ log,
      (∀ x, r.reply = .error x → (e.play Engine.recorded s).1.1 = .error (.engine x)) ∧
        ∀ p, r.reply = .panicked p → (e.play Engine.recorded s).1.1 = .panicked p := by
  induction e generalizing s with
  | done a => exact ⟨[], (List.append_nil _).symm, by simp⟩
  | ask c next ih =>
    obtain ⟨herr, hpanic, hok⟩ := h
    have hserve : Engine.recorded c s =
        ((Engine.call c s.1).1, (Engine.call c s.1).2, s.2 ++ [⟨c, (Engine.call c s.1).1⟩]) := rfl
    simp only [Dialogue.play_ask, hserve]
    generalize Engine.call c s.1 = called
    obtain ⟨value | x | p, g⟩ := called
    · obtain ⟨log, hlog, hends⟩ := ih (.ok value) (hok value) (g, s.2 ++ [⟨c, .ok value⟩])
      refine ⟨⟨c, .ok value⟩ :: log, by simpa using hlog, fun r hr => ?_⟩
      rcases List.mem_cons.mp hr with rfl | hr
      · exact ⟨fun x hx => (nomatch hx), fun p hp => (nomatch hp)⟩
      · exact hends r hr
    · obtain ⟨d, hd⟩ := herr x
      refine ⟨[⟨c, .error x⟩], by rw [hd]; rfl, fun r hr => ?_⟩
      obtain rfl := List.mem_singleton.mp hr
      rw [hd]
      exact ⟨fun y hy => by cases hy; rfl, fun p hp => (nomatch hp)⟩
    · obtain ⟨d, hd⟩ := hpanic p
      refine ⟨[⟨c, .panicked p⟩], by rw [hd]; rfl, fun r hr => ?_⟩
      obtain rfl := List.mem_singleton.mp hr
      rw [hd]
      exact ⟨fun x hx => (nomatch hx), fun q hq => by cases hq; rfl⟩

theorem PassesOn.perform {σ δ : Type} [Engine σ] {e : Engine.Errand (Domain.Result δ)} (h : PassesOn e)
    (g : σ) {r : Engine.Record} (hr : r ∈ (Engine.perform e g).2.2) :
    (∀ x, r.reply = .error x → (Engine.perform e g).1.1 = .error (.engine x)) ∧
      ∀ p, r.reply = .panicked p → (Engine.perform e g).1.1 = .panicked p := by
  obtain ⟨log, hlog, hends⟩ := h.play (g, [])
  have hperform : (Engine.perform e g).2.2 = log := hlog
  exact hends r (hperform ▸ hr)

/-- The domain that waits for quiescence passes on what the engine fails with. -/
theorem Quiescence.passesOn (k : Domain.Hook) (d : Domain.Quiescence) : PassesOn (Domain.hook k d) := by
  cases k with
  | setup => exact passesOn_query fun _ => passesOn_query fun _ => trivial
  | action => exact passesOn_query fun _ => passesOn_query fun _ => trivial
  | dispose => trivial

/-! ## The calls of a hook in the journal -/

/-- Entries that are not about a hook. -/
def Entry.IsApart {ι : Type} : Entry ι → Prop
  | lent _ | hook _ _ => False
  | _ => True

/-- A journal in which the calls of a hook stand right before its end, newest first. -/
inductive Bracketed (A : Assembly) : List (Entry A.Id) → Prop where
  | nil : Bracketed A []
  | apart {e : Entry A.Id} {j : List (Entry A.Id)} (h : e.IsApart) (hj : Bracketed A j) :
      Bracketed A (e :: j)
  | hook (k : Domain.Hook) (d : A.Dom) (g : A.Eng) {j : List (Entry A.Id)} (hj : Bracketed A j) :
      Bracketed A (.hook k (Engine.perform (Domain.hook k d) g).1.1 ::
        ((Engine.perform (Domain.hook k d) g).2.2.reverse.map .lent ++ j))

namespace Bracketed

variable {j : List (Entry A.Id)}

theorem all {news : List (Entry A.Id)} (h : ∀ e ∈ news, e.IsApart) (hj : Bracketed A j) :
    Bracketed A (news ++ j) := by
  induction news with
  | nil => exact hj
  | cons e news ih =>
    obtain ⟨he, hnews⟩ := List.forall_mem_cons.mp h
    exact .apart he (ih hnews)

theorem not_lent {r : Engine.Record} (h : Bracketed A (.lent r :: j)) : False := by
  cases h with
  | apart h _ => exact h

/-- **What a journal says of a hook is what it did**: how it ended, and the calls right before. -/
theorem performed (h : Bracketed A j) {newer older : List (Entry A.Id)} {calls : List Engine.Record}
    {k : Domain.Hook} {ended : Outcome Domain.Error Unit}
    (hj : j = newer ++ .hook k ended :: (calls.reverse.map .lent ++ older)) :
    ∃ (d : A.Dom) (g : A.Eng), ended = (Engine.perform (Domain.hook k d) g).1.1 ∧
      ∀ r ∈ calls, r ∈ (Engine.perform (Domain.hook k d) g).2.2 := by
  induction h generalizing newer with
  | nil => simp at hj
  | apart he _ ih =>
    cases newer with
    | nil =>
      obtain ⟨rfl, -⟩ := List.cons.inj hj
      exact he.elim
    | cons x newer => exact ih (List.cons.inj hj).2
  | @hook k' d g j hj' ih =>
    cases newer with
    | nil =>
      obtain ⟨hhead, htail⟩ := List.cons.inj hj
      cases hhead
      refine ⟨d, g, rfl, fun r hr => ?_⟩
      have hmem : Entry.lent r ∈ (calls.reverse.map .lent : List (Entry A.Id)) :=
        List.mem_map_of_mem (List.mem_reverse.mpr hr)
      have hlog : Entry.lent r ∈
          ((Engine.perform (Domain.hook k d) g).2.2.reverse.map .lent : List (Entry A.Id)) := by
        -- the calls before are those of this hook, since nothing older ends in a call of a hook
        rcases List.append_eq_append_iff.mp htail with ⟨more, hmore, hrest⟩ | ⟨more, hmore, -⟩
        · cases more with
          | nil => rwa [hmore, List.append_nil] at hmem
          | cons x more =>
            have hx : x ∈ (calls.reverse.map .lent : List (Entry A.Id)) := by simp [hmore]
            obtain ⟨r', -, rfl⟩ := List.mem_map.mp hx
            exact (hrest ▸ hj').not_lent.elim
        · exact hmore ▸ List.mem_append_left _ hmem
      obtain ⟨r', hr', heq⟩ := List.mem_map.mp hlog
      cases heq
      exact List.mem_reverse.mp hr'
    | cons x newer =>
      have htail := (List.cons.inj hj).2
      rcases List.append_eq_append_iff.mp htail with ⟨more, -, hrest⟩ | ⟨more, hmore, hrest⟩
      · exact ih hrest
      · cases more with
        | nil => exact @ih [] hrest.symm
        | cons y more =>
          obtain ⟨rfl, -⟩ := List.cons.inj hrest
          have hy : Entry.hook k ended ∈
              ((Engine.perform (Domain.hook k' d) g).2.2.reverse.map .lent : List (Entry A.Id)) := by
            simp [hmore]
          obtain ⟨r, -, hr⟩ := List.mem_map.mp hy
          cases hr

theorem apply (h : Bracketed A w.journal) (x : Event) : Bracketed A (w.apply x).journal := by
  rw [apply_eq]
  have hj : Bracketed A (.event x (w.state.next x).isOk :: w.journal) := .apart trivial h
  refine all (fun e he => ?_) hj
  obtain ⟨n, -, rfl⟩ := List.mem_map.mp he
  trivial

theorem effect (h : Bracketed A w.journal) (he : Effect w v) : Bracketed A v.journal := by
  cases he with
  | nothing | noThread | subscribers => exact h
  | load script source g hl =>
    have hload : Bracketed A (.load script true :: w.journal) := .apart trivial h
    exact apply (w := { w with source := source, engine := some g }.note (.load script true)) hload _
  | _ => exact .apart trivial h

theorem told (h : Bracketed A w.journal) (ht : Told w v) : Bracketed A v.journal := by
  cases ht <;> exact .apart trivial h

theorem part (h : Bracketed A w.journal) (hp : Part w v) : Bracketed A v.journal := by
  cases hp with
  | report x => exact h.apply x
  | ask c =>
    unfold Controller.ask
    split
    · exact h
    · exact .apart trivial h
  | callHook k =>
    unfold Controller.callHook
    split
    · exact h
    · exact .hook k w.domain _ h
  | remark e he => exact .apart (by cases e <;> first | exact he.elim | trivial) h
  | point p g n => exact h

end Bracketed

/-- In every journal the calls of a hook stand right before its end. -/
theorem Reachable.bracketed (h : Reachable w) : Bracketed A w.journal :=
  h.upholds (P := fun w => Bracketed A w.journal) (fun _ _ _ _ => .nil)
    (fun w a _ h => h.effect (access_effect w a)) (fun _ _ _ h ht => h.told ht)
    (fun _ _ _ h _ _ hr => (proceed_parts hr).rec h fun _ hp h => h.part hp)

/-! ## What a failed run carries -/

/-- A run has failed with a text: the state carries it, the last notification does, and whoever was
told of the end was told of this. -/
structure FailedWith (w : Controller A) (text : String) : Prop where
  state : w.state = .failed text
  announced : ∃ ns, notices w.acts = ns ++ [.error text] ∧ ∀ n ∈ ns, n.isTerminal = false
  told : ∀ s, ∀ n ∈ w.toldTo s, n.isTerminal = true → n = .error text

/-- A run has failed for a reason: with its text as it is, unless that is blank. -/
def FailsFor (w : Controller A) (m : String) : Prop :=
  if Text.isBlankText m then FailedWith w "unknown failure" else FailedWith w m

/-- A run has failed over a panic: with the text that the panic has, or with one for all that have none. -/
def PanickedWith (w : Controller A) : Payload → Prop
  | .text s => FailedWith w ("panic during execution: " ++ s)
  | .other => FailedWith w "panic during execution: non-string panic payload"

theorem panickedWith_iff {p : Payload} :
    PanickedWith w p ↔ FailedWith w ("panic during execution: " ++ p.message) := by
  have hother : "panic during execution: " ++ Payload.other.message =
      "panic during execution: non-string panic payload" := by decide +kernel
  cases p with
  | text s => exact Iff.rfl
  | other => rw [hother, PanickedWith]

theorem failsFor_iff {m : String} : FailsFor w m ↔ FailedWith w (failureText m) := by
  unfold FailsFor failureText unknownFailure
  split <;> exact Iff.rfl

theorem toldTo_subset (h : Recorded w) (s : Subscriber A.Id) : w.toldTo s ⊆ notices w.acts := by
  intro n hn
  have hmem : n ∈ w.toldTo s ++ w.dueTo s := List.mem_append_left _ hn
  rw [toldTo_append h] at hmem
  obtain ⟨e, he, rfl⟩ := List.mem_map.mp hmem
  rw [notices_acts]
  exact List.mem_map_of_mem (List.mem_filter.mp he).1

theorem closed_by_error {t : Notification} {text : String}
    (h : closingState t = some (.failed text)) : t = .error text := by
  cases t with
  | error m => cases h; rfl
  | _ => cases h

/-- A run that ended in a failure has failed with its text, and that stays so. -/
theorem Reachable.failedWith (h : Reachable w) {f : Failure} (he : .ended (some f) ∈ w.acts)
    (ms : List (Move A.Id)) : FailedWith (w.moves ms) (failureText f.message) := by
  obtain ⟨hphase, hacts⟩ := h.stays_finished (h.sound.failed_of_ended he).1 ms
  have hs := (h.moves ms).sound
  have hstate := (hs.failed_of_ended (hacts ▸ he)).2
  obtain ⟨ns, t, hn, hns, -, ht⟩ := hs.closed hphase
  rw [hstate] at ht
  obtain rfl := closed_by_error ht
  refine ⟨hstate, ⟨ns, hn, hns⟩, fun s n hmem hterm => ?_⟩
  have hall := toldTo_subset (h.moves ms).recorded s hmem
  rw [hn, List.mem_append] at hall
  rcases hall with hmem | hmem
  · rw [hns n hmem] at hterm
    cases hterm
  · exact List.mem_singleton.mp hmem

/-- What a failure is, the run has failed with. -/
theorem Reachable.failsFor (h : Reachable w) {e : Entry A.Id} (he : e ∈ w.history) {m : String}
    (hm : e.Errs m) (ms : List (Move A.Id)) : FailsFor (w.moves ms) m := by
  obtain ⟨a, f, ha, hf, rfl⟩ := hm.act
  have hend := (h.sound.contained (mem_acts.mpr ⟨e, he, ha⟩) hf).1
  exact failsFor_iff.mpr (h.failedWith hend ms)

theorem panicText_not_blank (p : Payload) :
    Text.isBlankText ("panic during execution: " ++ p.message) = false := by
  have hstart : "panic during execution: ".toList.all Text.isBlank = false := by decide +kernel
  simp only [Text.isBlankText, String.toList_append, List.all_append, hstart, Bool.false_and]

theorem Reachable.failsOfPanic (h : Reachable w) {e : Entry A.Id} (he : e ∈ w.history) {p : Payload}
    (hp : e.Panics p) (ms : List (Move A.Id)) : PanickedWith (w.moves ms) p := by
  obtain ⟨a, ha, hf⟩ := hp.act
  have hend := (h.sound.contained (mem_acts.mpr ⟨e, he, ha⟩) hf).1
  have hfailed : FailedWith (w.moves ms) (failureText ("panic during execution: " ++ p.message)) :=
    h.failedWith hend ms
  rw [failureText, panicText_not_blank p] at hfailed
  exact panickedWith_iff.mpr hfailed

/-! ## Only one failure -/

/-- Nothing fails after a failure. -/
theorem no_failure_after {s : Spot} {as bs : List Act} {a b : Act} {f g : Failure}
    (h : Spot.Run .reset (as ++ a :: bs) s) (hf : a.failure? = some f) (hb : b ∈ bs) :
    b.failure? ≠ some g := by
  have hmem := (after_failure h hf).subset hb
  simp only [ending, List.mem_cons, List.not_mem_nil, or_false] at hmem
  rcases hmem with rfl | rfl <;> simp [Act.failure?]

theorem acts_of_history {before after : List (Entry A.Id)} {e : Entry A.Id} {a : Act}
    (h : w.history = before ++ e :: after) (ha : e.act? = some a) :
    w.acts = before.filterMap Entry.act? ++ a :: after.filterMap Entry.act? := by
  have hacts : w.acts = w.history.filterMap Entry.act? := rfl
  rw [hacts, h, List.filterMap_append, List.filterMap_cons_some ha]

/-- After a call that failed there is no other in the history. -/
theorem Reachable.no_later_failure (h : Reachable w) {before after : List (Entry A.Id)}
    {e e' : Entry A.Id} (hw : w.history = before ++ e :: after) (he : e.Fails) (he' : e' ∈ after) :
    ¬ e'.Fails := by
  intro hfails
  obtain ⟨a, f, ha, hf⟩ := Entry.fails_iff.mp he
  obtain ⟨b, g, hb, hg⟩ := Entry.fails_iff.mp hfails
  obtain ⟨s, hrun, -⟩ := h.sound.run
  rw [acts_of_history hw ha] at hrun
  exact no_failure_after hrun hf (List.mem_filterMap.mpr ⟨e', he', hb⟩) hg

/-- A run fails because it is cancelled or because an act of it fails. -/
theorem failure_of_broken {f : Failure} {as : List Act} (h : Broken f as) :
    f = .cancelled ∨ ∃ a ∈ as, a.failure? = some f := by
  cases h with
  | gate ms => exact .inl rfl
  | reset => exact .inr ⟨.engine .reset (some f), by simp, rfl⟩
  | setUp => exact .inr ⟨.hook .setup (some f), by simp, rfl⟩
  | ask ms p => exact .inr ⟨.hasDonePanics p, by simp, rfl⟩
  | advance ms m => exact .inr ⟨.engine (advanceOf m) (some f), by simp, rfl⟩
  | action ms m => exact .inr ⟨.hook .action (some f), by simp, rfl⟩
  | dispose ms => exact .inr ⟨.hook .dispose (some f), by simp, rfl⟩

/-! ## Why a run has failed -/

/-- **A failed run tells why**, from the failure on and whatever else happens. -/
structure TellsWhy (w : Controller A) : Prop where
  /-- The message of an error that the worker met is carried. -/
  errs : ∀ e ∈ w.history, ∀ m, e.Errs m → ∀ ms, FailsFor (w.moves ms) m
  /-- So is the text of a panic, told as one. -/
  panics : ∀ e ∈ w.history, ∀ p, e.Panics p → ∀ ms, PanickedWith (w.moves ms) p
  /-- What the engine fails with in a hook that passes failures on is carried as well. -/
  passedOn : ∀ k, (∀ d : A.Dom, PassesOn (Domain.hook k d)) →
    ∀ before (calls : List Engine.Record) ended after,
      w.history = before ++ calls.map .lent ++ .hook k ended :: after → ∀ r ∈ calls,
      (∀ x, r.reply = .error x → ∀ ms, FailsFor (w.moves ms) x.message) ∧
        ∀ p, r.reply = .panicked p → ∀ ms, PanickedWith (w.moves ms) p
  /-- A cancellation has a text of its own. -/
  cancelled : .ended (some .cancelled) ∈ w.history →
    ∀ ms, FailedWith (w.moves ms) "execution cancelled"
  /-- The first failure is the only one, -/
  only : ∀ before e after, w.history = before ++ e :: after → e.Fails → ∀ e' ∈ before ++ after, ¬ e'.Fails
  /-- and a run does not fail without one, unless it is stopped. -/
  reason : ∀ text, w.state = .failed text → (∃ e ∈ w.history, e.Fails) ∨
    .ended (some .cancelled) ∈ w.history ∧ .stop ∈ w.history

theorem Reachable.ended_cancelled (h : Reachable w) {text : String} (hw : w.state = .failed text)
    (hn : ∀ e ∈ w.history, ¬ e.Fails) :
    .ended (some .cancelled) ∈ w.history ∧ .stop ∈ w.history := by
  have hfin : w.phase = .finished := h.sound.finished_of_isTerminal (by rw [hw]; rfl)
  have hs := h.sound.stands
  rw [Stands, hfin] at hs
  obtain ⟨f, hrun, hstate, -, hcancelled⟩ := hs
  have hreads := run_reads hrun
  obtain _ | f := f
  · rw [hw] at hstate
    cases hstate
  obtain ⟨bs, hbroken, hacts⟩ := hreads
  rcases failure_of_broken hbroken with rfl | ⟨a, ha, hf⟩
  · have hend : .ended (some .cancelled) ∈ w.acts := (ended_mem_iff hrun _).mpr rfl
    obtain ⟨e, he, hact⟩ := mem_acts.mp hend
    have hstop : .stop ∈ w.history :=
      List.mem_reverse.mpr (h.recorded.cancelled.mpr (hcancelled rfl))
    refine ⟨?_, hstop⟩
    cases e with
    | ended g => cases hact; exact he
    | hasDone r => cases r <;> cases hact
    | _ => cases hact
  · obtain ⟨e, he, hact⟩ := mem_acts.mp (hacts ▸ List.mem_append_left _ ha)
    exact (hn e he (Entry.fails_iff.mpr ⟨a, f, hact, hf⟩)).elim

/-- **The failure text reaches the subscribers unchanged.** -/
theorem Reachable.tellsWhy (h : Reachable w) : TellsWhy w where
  errs _ he _ hm ms := h.failsFor he hm ms
  panics _ he _ hp ms := h.failsOfPanic he hp ms
  passedOn := by
    intro k hk before calls ended after hw r hr
    have hj : w.journal =
        after.reverse ++ .hook k ended :: (calls.reverse.map .lent ++ before.reverse) := by
      rw [← List.reverse_reverse w.journal]
      have hrev := congrArg List.reverse hw
      simpa [history] using hrev
    obtain ⟨d, g, rfl, hcalls⟩ := h.bracketed.performed hj
    obtain ⟨herr, hpanic⟩ := (hk d).perform g (hcalls r hr)
    have hmem : .hook k (Engine.perform (Domain.hook k d) g).1.1 ∈ w.history := by simp [hw]
    refine ⟨fun x hx => h.failsFor hmem ?_, fun p hp => h.failsOfPanic hmem ?_⟩
    · rw [herr x hx]
      exact .passedOn k x
    · rw [hpanic p hp]
      exact .hook k p
  cancelled := by
    intro he ms
    have hblank : Text.isBlankText "execution cancelled" = false := by decide +kernel
    have hfailed : FailedWith (w.moves ms) (failureText "execution cancelled") :=
      h.failedWith (mem_acts.mpr ⟨_, he, rfl⟩) ms
    rwa [failureText, hblank] at hfailed
  only := by
    intro before e after hw he e' he'
    rcases List.mem_append.mp he' with hb | ha
    · intro hfails
      obtain ⟨b, c, rfl⟩ := List.append_of_mem hb
      have hw' : w.history = b ++ e' :: (c ++ e :: after) := by simp [hw]
      exact h.no_later_failure hw' hfails (by simp) he
    · exact h.no_later_failure hw he ha
  reason := by
    intro text hw
    by_cases hn : ∃ e ∈ w.history, e.Fails
    · exact .inl hn
    · exact .inr (h.ended_cancelled hw fun e he hf => hn ⟨e, he, hf⟩)

/-- The hooks of a domain with a fixed conduct pass on what the engine fails with. -/
theorem Scripted.passesOn (k : Domain.Hook) (d : Domain.Scripted) : PassesOn (Domain.hook k d) := by
  have hfinish (plan : Option String) (d : Domain.Scripted) : PassesOn (Domain.Scripted.finish plan d) := by
    cases plan <;> trivial
  cases k with
  | setup => exact hfinish _ _
  | action =>
    change PassesOn (Domain.Scripted.act _)
    unfold Domain.Scripted.act
    split
    · trivial
    · split
      · trivial
      · exact passesOn_query fun _ => trivial
  | dispose => exact hfinish _ _

/-- The action of the second turn asks for the facts, which fails with a padded text of two lines. -/
theorem tellsWhy_of_padded_failure :
    (((Bench.trial .run 3 [⟨.facts, 2, .failure ⟨.io, "  disk full\n"⟩⟩]).moves
        (Bench.launched 13)).state = .failed "  disk full\n" ∧
      ((Bench.trial .run 3 [⟨.facts, 2, .failure ⟨.io, "  disk full\n"⟩⟩]).moves
        (Bench.launched 13)).toldTo (.observer "watcher") =
          [.setupDone, .actionDone, .error "  disk full\n"]) ∧
      (∀ (k : Domain.Hook) (d : Domain.Scripted), PassesOn (Domain.hook k d)) ∧
      TellsWhy ((Bench.trial .run 3 [⟨.facts, 2, .failure ⟨.io, "  disk full\n"⟩⟩]).moves
        (Bench.launched 13)) :=
  ⟨by decide, Scripted.passesOn, Reachable.tellsWhy (Reachable.moves (.create _ _ _ _) _)⟩

end Cadence.Controller
