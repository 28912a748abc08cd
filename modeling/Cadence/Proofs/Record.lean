import Cadence.Proofs.Course

/-!
# Cadence.Proofs.Record — the journal keeps faith

What a controller holds can be read off its journal: the mode, whether the run is cancelled, whether there is
an engine, the lifecycle state, and who still has to be told what.  `Recorded` says so.

Most of what the worker does is no news to any of these, so a phase is taken apart into its `Parts`.
-/

namespace Cadence.Controller

variable {A : Assembly}

/-! ## What the journal tells -/

def Entry.event? {ι : Type} : Entry ι → Option Event
  | event e _ => some e
  | _ => none

/-- The events that were fed to the state machine. -/
def events (w : Controller A) : List Event := readOff Entry.event? w.journal

/-- **The journal keeps faith.** -/
structure Recorded (w : Controller A) : Prop where
  mode : inForce w.config.initialMode w.history = w.mode
  cancelled : .stop ∈ w.journal ↔ w.cancelled = true
  loaded : (∃ script, .load script true ∈ w.journal) ↔ w.engine.isSome
  /-- The state machine, fed with the events, comes to the state and gives the notifications. -/
  fed : State.new.feed w.events = (w.state, w.emissions.map Prod.fst)
  /-- What was announced has been delivered or is due, in order. -/
  delivered : w.tellings ++ w.outbox = w.emissions.flatMap fun e => e.2.map (·, e.1)
  once : ∀ e ∈ w.emissions, e.2.Nodup

/-- Entries that are about none of this. -/
def Entry.IsPlain {ι : Type} : Entry ι → Prop
  | load _ true | event _ _ | emitted _ _ | told _ _ _ | setMode _ | stop => False
  | _ => True

namespace Entry.IsPlain

variable {ι : Type} {e : Entry ι} (h : e.IsPlain)

include h

theorem emission? : e.emission? = none := by cases e <;> first | rfl | exact h.elim

theorem telling? : e.telling? = none := by cases e <;> first | rfl | exact h.elim

theorem event? : e.event? = none := by cases e <;> first | rfl | exact h.elim

theorem inForce (m : Mode) : inForce m [e] = m := by cases e <;> first | rfl | exact h.elim

end Entry.IsPlain

theorem Entry.IsOwn.isPlain {ι : Type} {e : Entry ι} (h : e.IsOwn) : e.IsPlain := by
  cases e <;> trivial

theorem Entry.IsRemark.isPlain {ι : Type} {e : Entry ι} (h : e.IsRemark) : e.IsPlain := by
  cases e <;> trivial

theorem inForce_append {ι : Type} (m : Mode) (es fs : List (Entry ι)) :
    inForce m (es ++ fs) = inForce (inForce m es) fs := List.foldl_append

theorem inForce_of_plain {ι : Type} {es : List (Entry ι)} (h : ∀ e ∈ es, e.IsPlain) (m : Mode) :
    inForce m es = m := by
  induction es generalizing m with
  | nil => rfl
  | cons e es ih =>
    obtain ⟨he, hes⟩ := List.forall_mem_cons.mp h
    rw [← List.singleton_append, inForce_append, he.inForce, ih hes]

namespace Recorded

variable {w v : Controller A}

theorem create (config : Config) (source : A.Source) (domain : A.Dom) (crowd : A.Crowd) :
    Recorded (Controller.create (A := A) config source domain crowd) where
  mode := rfl
  cancelled := by simp [Controller.create]
  loaded := by simp [Controller.create]
  fed := rfl
  delivered := rfl
  once e he := by cases he

/-- Entries about no event, announcement or delivery leave all of these as they were. -/
theorem lists_eq {news : List (Entry A.Id)} (journal : v.journal = news ++ w.journal)
    (silent : ∀ e ∈ news, e.event? = none ∧ e.emission? = none ∧ e.telling? = none) :
    v.events = w.events ∧ v.emissions = w.emissions ∧ v.tellings = w.tellings := by
  refine ⟨?_, ?_, ?_⟩
  · rw [events, journal, readOff_append, readOff_eq_nil _ fun e he => (silent e he).1,
      List.append_nil, events]
  · rw [emissions, journal, readOff_append, readOff_eq_nil _ fun e he => (silent e he).2.1,
      List.append_nil, emissions]
  · rw [tellings, journal, readOff_append, readOff_eq_nil _ fun e he => (silent e he).2.2,
      List.append_nil, tellings]

/-- Such entries are news to the mode, the cancellation and the engine only. -/
theorem of_silent (h : Recorded w) (news : List (Entry A.Id)) (journal : v.journal = news ++ w.journal)
    (silent : ∀ e ∈ news, e.event? = none ∧ e.emission? = none ∧ e.telling? = none)
    (state : v.state = w.state) (outbox : v.outbox = w.outbox)
    (mode : inForce v.config.initialMode v.history = v.mode)
    (cancelled : .stop ∈ v.journal ↔ v.cancelled = true)
    (loaded : (∃ script, .load script true ∈ v.journal) ↔ v.engine.isSome) : Recorded v := by
  obtain ⟨hev, hem, htell⟩ := lists_eq journal silent
  exact
    { mode, cancelled, loaded
      fed := by rw [hev, state, hem]; exact h.fed
      delivered := by rw [htell, outbox, hem]; exact h.delivered
      once := by rw [hem]; exact h.once }

/-- Plain entries are no news. -/
theorem of_plain (h : Recorded w) (news : List (Entry A.Id)) (plain : ∀ e ∈ news, e.IsPlain)
    (journal : v.journal = news ++ w.journal) (config : v.config = w.config) (mode : v.mode = w.mode)
    (cancelled : v.cancelled = w.cancelled) (engine : v.engine.isSome = w.engine.isSome)
    (state : v.state = w.state) (outbox : v.outbox = w.outbox) : Recorded v := by
  refine h.of_silent news journal (fun e he => ?_) state outbox ?_ ?_ ?_
  · exact ⟨(plain e he).event?, (plain e he).emission?, (plain e he).telling?⟩
  · rw [history, journal, config, mode, List.reverse_append, inForce_append,
      inForce_of_plain fun e he => plain e (List.mem_reverse.mp he)]
    exact h.mode
  · rw [journal, cancelled, ← h.cancelled, List.mem_append]
    exact or_iff_right fun he => plain _ he
  · rw [engine, ← h.loaded]
    refine exists_congr fun script => ?_
    rw [journal, List.mem_append]
    exact or_iff_right fun he => plain _ he

theorem apply (h : Recorded w) (x : Event) : Recorded (w.apply x) := by
  have hfed : State.new.feed (w.events ++ [x]) =
      (w.state.after x, w.emissions.map Prod.fst ++ (w.state.noticeOf x).toList) := by
    rw [State.feed_append, h.fed]
    simp [State.feed_cons]
  rw [apply_eq]
  constructor
  · cases w.state.noticeOf x <;> simpa [history, inForce] using h.mode
  · cases w.state.noticeOf x <;> simpa using h.cancelled
  · cases w.state.noticeOf x <;> simpa using h.loaded
  · cases hn : w.state.noticeOf x <;>
      simpa [events, Entry.event?, emissions, Entry.emission?, hn] using hfed
  · have hd := h.delivered
    cases w.state.noticeOf x <;>
      simp [tellings, Entry.telling?, emissions, Entry.emission?] at hd ⊢
    · exact hd
    · rw [← List.append_assoc, hd]
  · cases hn : w.state.noticeOf x with
    | none => simpa [emissions, Entry.emission?] using h.once
    | some n =>
      intro e he
      have he' : e ∈ w.emissions ++ [(n, w.registry.members)] := by
        simpa [emissions, Entry.emission?] using he
      rcases List.mem_append.mp he' with he | he
      · exact h.once e he
      · rw [List.mem_singleton.mp he]; exact w.registry.nodup

theorem calls (h : Recorded w) {as : List Act} (hv : Since w as v) : Recorded v := by
  obtain ⟨had, g, d, news, own, -⟩ := hv
  exact h.of_plain news (fun e he => (own e he).isPlain) rfl rfl rfl rfl had.symm rfl rfl

theorem part (h : Recorded w) (hd : Part w v) : Recorded v := by
  cases hd with
  | report x => exact h.apply x
  | ask c =>
    cases he : w.engine with
    | none => rwa [ask_of_none he]
    | some g => exact h.calls (ask_since (by rw [he]; rfl) c)
  | callHook k =>
    cases he : w.engine with
    | none => rwa [callHook_of_none he]
    | some g => exact h.calls (callHook_since (by rw [he]; rfl) k)
  | remark e he =>
    exact h.of_plain [e] (by simpa using he.isPlain) rfl rfl rfl rfl rfl rfl rfl
  | point p g n => exact h.of_plain [] (by simp) rfl rfl rfl rfl rfl rfl rfl

theorem effect (h : Recorded w) (he : Effect w v) : Recorded v := by
  cases he with
  | nothing => exact h
  | load script source g hl =>
    refine Recorded.apply ?_ _
    refine h.of_silent [.load script true] rfl ?_ rfl rfl ?_ ?_ ?_
    · simp [Entry.event?, Entry.emission?, Entry.telling?]
    · simpa [note, history, inForce] using h.mode
    · simpa [note] using h.cancelled
    · simp [note]
  | loadFails script source hl =>
    exact h.of_plain [.load script false] (by simp [Entry.IsPlain]) rfl rfl rfl rfl rfl rfl rfl
  | launch l hl he => exact h.of_plain [.launch l] (by simp [Entry.IsPlain]) rfl rfl rfl rfl rfl rfl rfl
  | noThread => exact h.of_plain [] (by simp) rfl rfl rfl rfl rfl rfl rfl
  | query r g he => exact h.of_plain [.query r] (by simp [Entry.IsPlain]) rfl rfl rfl rfl he.symm rfl rfl
  | release hg hp =>
    exact h.of_plain [.resume true] (by simp [Entry.IsPlain]) rfl rfl rfl rfl rfl rfl rfl
  | releaseNobody _ =>
    exact h.of_plain [.resume false] (by simp [Entry.IsPlain]) rfl rfl rfl rfl rfl rfl rfl
  | stop =>
    refine h.of_silent [.stop] rfl ?_ rfl rfl ?_ ?_ ?_
    · simp [Entry.event?, Entry.emission?, Entry.telling?]
    · simpa [note, history, inForce] using h.mode
    · simp [note]
    · simpa [note] using h.loaded
  | setMode m =>
    refine h.of_silent [.setMode m] rfl ?_ rfl rfl ?_ ?_ ?_
    · simp [Entry.event?, Entry.emission?, Entry.telling?]
    · simp [note, history, inForce]
    · simpa [note] using h.cancelled
    · simpa [note] using h.loaded
  | subscribers r chs hheld => exact h.of_plain [] (by simp) rfl rfl rfl rfl rfl rfl rfl

/-- A delivery moves what was due first to what was told last. -/
theorem deliver (h : Recorded w) {s : Subscriber A.Id} {n : Notification} {p : Option Payload}
    (due : w.outbox = (s, n) :: v.outbox) (journal : v.journal = .told s n p :: w.journal)
    (config : v.config = w.config) (mode : v.mode = w.mode) (cancelled : v.cancelled = w.cancelled)
    (engine : v.engine = w.engine) (state : v.state = w.state) : Recorded v where
  mode := by simpa [history, inForce, journal, config, mode] using h.mode
  cancelled := by simpa [journal, cancelled] using h.cancelled
  loaded := by simpa [journal, engine] using h.loaded
  fed := by simpa [events, Entry.event?, emissions, Entry.emission?, journal, state] using h.fed
  delivered := by
    simpa [tellings, Entry.telling?, emissions, Entry.emission?, journal, due] using h.delivered
  once := by simpa [emissions, Entry.emission?, journal] using h.once

theorem told (h : Recorded w) (ht : Told w v) : Recorded v := by
  cases ht with
  | observer due crowd panic => exact h.deliver due rfl rfl rfl rfl rfl rfl
  | channel due => exact h.deliver due rfl rfl rfl rfl rfl rfl

end Recorded

/-- **The journal of every reachable controller keeps faith.** -/
theorem Reachable.recorded {w : Controller A} (h : Reachable w) : Recorded w :=
  h.upholds (fun _ _ _ _ => .create _ _ _ _) (fun w a _ h => h.effect (access_effect w a))
    (fun _ _ _ h ht => h.told ht) (fun _ _ _ h _ _ hr => (proceed_parts hr).rec h fun _ hd h => h.part hd)

end Cadence.Controller
