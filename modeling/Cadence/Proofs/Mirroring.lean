import Cadence.Proofs.Reporting
import Cadence.Proofs.Unread

/-!
# Cadence.Proofs.Mirroring — the facts that a domain shows

A domain that waits for quiescence keeps the fact list of the engine: a hook asks for the facts first and for the
agenda then, and keeps the facts as soon as it has them.  So a turn that fails leaves the facts of the last
completed turn, unless it fails over the agenda: then the domain shows facts of a turn that was never completed.

* `CutShort`: the calls of a look at the engine that was cut short, and what the domain shows after it.
* `Shows`: what the domain shows, from a moment of a run on.
* `Reachable.shows_cutShort`: what it shows once the run has failed.
-/

namespace Cadence

namespace Domain.Quiescence

/-- The calls of a look at the engine that was cut short, with the facts shown before it and after it. -/
inductive CutShort (shown : String) : List Engine.Record → String → Prop where
  | facts {reply : Engine.Reply .facts} (h : reply.isOk = false) : CutShort shown [⟨.facts, reply⟩] shown
  /-- The facts have been kept already. -/
  | agenda (text : String) {reply : Engine.Reply .agenda} (h : reply.isOk = false) :
      CutShort shown [⟨.facts, .ok text⟩, ⟨.agenda, reply⟩] text

/-- A look at the engine that does not go well is cut short by one of its calls. -/
theorem perform_cutShort {σ : Type} [Engine σ] (d : Quiescence) (g : σ)
    (h : (Engine.perform d.refresh g).1.1 ≠ .ok ()) :
    CutShort d.facts (Engine.perform d.refresh g).2.2 (Engine.perform d.refresh g).1.2.facts := by
  simp only [Engine.perform, refresh, query, Dialogue.play_ask, Engine.recorded] at h ⊢
  generalize Engine.call .facts g = asked at h ⊢
  obtain ⟨text | e | p, g'⟩ := asked
  · simp only [Dialogue.play_ask, Engine.recorded] at h ⊢
    generalize Engine.call .agenda g' = asked at h ⊢
    obtain ⟨agenda | e | p, g''⟩ := asked
    · exact absurd rfl h
    · exact .agenda text rfl
    · exact .agenda text rfl
  · exact .facts rfl
  · exact .facts rfl

end Domain.Quiescence

namespace Controller

open Domain.Quiescence (CutShort perform_cutShort)

/-! ## Calls of hooks -/

/-- The call that a hook has made on the engine, where an entry tells of one. -/
def Entry.lent? {ι : Type} : Entry ι → Option Engine.Record
  | lent r => some r
  | _ => none

/-- The calls that hooks have made, oldest first. -/
def lents {ι : Type} (j : List (Entry ι)) : List Engine.Record := readOff Entry.lent? j

@[simp] theorem lents_append {ι : Type} (i j : List (Entry ι)) : lents (i ++ j) = lents j ++ lents i :=
  readOff_append Entry.lent? i j

theorem lents_map {ι : Type} (log : List Engine.Record) :
    lents (log.reverse.map (Entry.lent (ι := ι))) = log := by
  simp [lents, readOff, List.filterMap_map, Function.comp_def, Entry.lent?]

section

variable {E S I C : Type} [Engine E] [DecidableEq I]
  {load : Engine.Script → S → Outcome Engine.Error E × S}
  {react : I → Notification → C → Reaction I Domain.Quiescence C}
  {u v w : Controller (quietParts load react)}

/-! ## What leaves the facts alone -/

/-- Between `w` and `v` no hook has asked anything, and the domain shows the same facts. -/
structure Leaves (w v : Controller (quietParts load react)) : Prop where
  facts : v.domain.facts = w.domain.facts
  news : ∃ news, v.journal = news ++ w.journal ∧ lents news = []

namespace Leaves

theorem refl (w : Controller (quietParts load react)) : Leaves w w := ⟨rfl, [], rfl, rfl⟩

theorem trans (h : Leaves u w) (h' : Leaves w v) : Leaves u v := by
  obtain ⟨news, hj, hn⟩ := h.news
  obtain ⟨more, hj', hm⟩ := h'.news
  exact ⟨h'.facts.trans h.facts, more ++ news, by rw [hj', hj, List.append_assoc], by simp [hn, hm]⟩

theorem noted {e : Entry I} (he : e.lent? = none) (hd : v.domain = w.domain) (hj : v.journal = e :: w.journal) :
    Leaves w v := ⟨by rw [hd], [e], hj, by simp [lents, he]⟩

theorem apply (h : Leaves u w) (x : Event) : Leaves u (w.apply x) := by
  refine h.trans ⟨by rw [apply_domain], ?_⟩
  rw [apply_eq]
  refine ⟨(w.state.noticeOf x).toList.map (.emitted · w.registry.members) ++
    [.event x (w.state.next x).isOk], by simp, readOff_eq_nil _ fun e he => ?_⟩
  simp only [List.mem_append, List.mem_map, List.mem_singleton] at he
  rcases he with ⟨n, -, rfl⟩ | rfl <;> rfl

theorem ask (h : Leaves u w) (c : Engine.Call) : Leaves u (w.ask c).2 := by
  unfold Controller.ask
  split
  · exact h
  · exact h.trans (noted rfl rfl rfl)

theorem advance (h : Leaves u w) (m : Mode) : Leaves u (w.advance m).2 := by
  unfold Controller.advance
  split
  · exact h.ask .step
  · exact h.ask .run

theorem note (h : Leaves u w) (e : Entry I) (he : e.lent? = none) : Leaves u (w.note e) :=
  h.trans (noted he rfl rfl)

theorem enter (h : Leaves u w) (p : Phase) : Leaves u (w.enter p) := h.trans ⟨rfl, [], rfl, rfl⟩

theorem fail (h : Leaves u w) (f : Failure) : Leaves u (w.fail f) :=
  ((h.apply _).note (.ended (some f)) rfl).enter .finished

theorem beginTurn (h : Leaves u w) : Leaves u w.beginTurn := (h.apply .turnStarted).trans ⟨rfl, [], rfl, rfl⟩

theorem gate (h : Leaves u w) (g : Gate) : Leaves u { w with gate := g } := h.trans ⟨rfl, [], rfl, rfl⟩

/-- Disposing asks nothing. -/
theorem dispose (h : Leaves u w) : Leaves u (w.callHook .dispose).2 := by
  unfold callHook
  split
  · exact h
  · exact h.trans ⟨rfl, [.hook .dispose (.ok ())], rfl, rfl⟩

/-- Neither do the calls of others than the worker, -/
theorem effect (h : Effect w v) : Leaves w v := by
  cases h with
  | load script source g hl =>
    have hload : Leaves w ({ w with source := source, engine := some g }.note (.load script true)) :=
      noted rfl rfl rfl
    exact hload.apply .engineLoaded
  | nothing | noThread | subscribers => exact ⟨rfl, [], rfl, rfl⟩
  | _ => exact noted rfl rfl rfl

theorem told (h : Told w v) : Leaves w v := by
  cases h <;> exact noted rfl rfl rfl

/-- nor the phases in which no call is made. -/
theorem stride (h : Stride w v) (hl : w.phase.isLabour = false) : Leaves w v := by
  have start := refl w
  cases h with
  | noEngine _ phase => rcases phase with hp | hp <;> rw [hp] at hl <;> cases hl
  | noEngineInTurn _ hp | resetFails hp | setUpFails hp | setUp hp | advanceFails hp | actionFails hp
  | turn hp | disposeFails hp | dispose hp => rw [hp] at hl; cases hl
  | askFails => exact (start.note _ rfl).fail _
  | goOn | isDone => exact (start.note _ rfl).enter _
  | cancel => exact start.fail _
  | comeUp => exact start.enter _
  | pass => exact (start.note _ rfl).enter _
  | park => exact ((start.gate _).apply _).enter _
  | leave => exact ((start.gate _).note _ rfl).enter _
  | cancelParked => exact (start.gate _).fail _

end Leaves

/-- An action that fails was cut short, or had no engine to look at. -/
theorem actionFails_cutShort {f : Failure} (hf : Failure.of? (w.callHook .action).1 = some f) :
    Leaves w (w.callHook .action).2 ∨ ∃ news, (w.callHook .action).2.journal = news ++ w.journal ∧
      CutShort w.domain.facts (lents news) (w.callHook .action).2.domain.facts := by
  cases he : w.engine with
  | none =>
    rw [callHook_of_none he]
    exact .inl (.refl w)
  | some g =>
    simp only [callHook, he] at hf ⊢
    refine .inr ⟨.hook .action _ :: List.map .lent _, rfl, ?_⟩
    have hlents (ended : Outcome Domain.Error Unit) (log : List Engine.Record) :
        lents (.hook .action ended :: log.reverse.map (Entry.lent (ι := I))) = log := by
      rw [lents, readOff_cons, ← lents, lents_map]
      exact List.append_nil log
    rw [hlents]
    refine perform_cutShort { w.domain with turns := w.domain.turns + 1 } g fun hok => ?_
    change Failure.of? ((Engine.perform (Domain.Quiescence.refresh _) g).1.1.mapError _) = _ at hf
    rw [hok] at hf
    cases hf

/-! ## From a moment on -/

/-- What the domain shows at `w`, which has come from `v`. -/
inductive Shows (v w : Controller (quietParts load react)) : Prop where
  /-- Nothing was asked since, and the domain shows the same. -/
  | same (h : Leaves v w)
  /-- The run is over, by a look at the engine that was cut short. -/
  | cutShort (hover : w.phase = .finished) (news : List (Entry I)) (journal : w.journal = news ++ v.journal)
      (h : CutShort v.domain.facts (lents news) w.domain.facts)
  /-- Another turn was completed. -/
  | completed (news : List (Entry I)) (journal : w.journal = news ++ v.journal)
      (h : ∃ rs, .emitted .actionDone rs ∈ news)

namespace Shows

/-- What leaves the facts alone keeps what is shown, if a run that is over stays so. -/
theorem leaves (h : Shows v w) (hl : Leaves w u) (hp : w.phase = .finished → u.phase = .finished) : Shows v u := by
  obtain ⟨more, hj, hm⟩ := hl.news
  cases h with
  | same h => exact .same (h.trans hl)
  | cutShort hover news journal h =>
    refine .cutShort (hp hover) (more ++ news) (by rw [hj, journal, List.append_assoc]) ?_
    rw [lents_append, hm, List.append_nil, hl.facts]
    exact h
  | completed news journal h =>
    obtain ⟨rs, h⟩ := h
    exact .completed (more ++ news) (by rw [hj, journal, List.append_assoc]) ⟨rs, List.mem_append_right _ h⟩

/-- A completed turn is announced. -/
theorem turn_announced (h : Sound ((w.apply .turnCompleted).enter .checking)) :
    ∃ news, (w.apply .turnCompleted).journal = news ++ w.journal ∧ ∃ rs, .emitted .actionDone rs ∈ news := by
  have haccepted := h.accepted .turnCompleted
  rw [Controller.enter] at haccepted
  cases hnext : w.state.next .turnCompleted with
  | error r =>
    rw [apply_of_rejected hnext] at haccepted
    exact absurd (List.mem_cons_self ..) haccepted
  | ok t =>
    obtain ⟨s, n⟩ := t
    obtain rfl : n = some .actionDone := by
      cases hs : w.state <;> rw [hs] at hnext <;> cases hnext
      rfl
    rw [apply_of_notice hnext]
    exact ⟨[.emitted .actionDone w.registry.members, .event .turnCompleted true], rfl, _, .head _⟩

/-- A look at the engine that was cut short is the end of the run. -/
theorem of_cutShort {x y : Controller (quietParts load react)} (before : Leaves v x) {news : List (Entry I)}
    (hj : y.journal = news ++ x.journal) (hcut : CutShort x.domain.facts (lents news) y.domain.facts)
    (after : Leaves y u) (hover : u.phase = .finished) : Shows v u := by
  obtain ⟨past, hpast, hp⟩ := before.news
  obtain ⟨more, hmore, hm⟩ := after.news
  refine .cutShort hover (more ++ (news ++ past)) (by simp [hmore, hj, hpast]) ?_
  have hlents : lents (more ++ (news ++ past)) = lents news := by simp [hp, hm]
  rw [hlents, after.facts, ← before.facts]
  exact hcut

/-- Where the worker makes calls it completes a turn, or is cut short, or leaves the facts alone. -/
theorem labour (h : Leaves v w) (hset : w.acts ≠ []) (hw : Sound w) (hu : Sound u) (hl : Labour w u) :
    Shows v u := by
  have unset (hp : w.phase = .starting) : False := by
    have stood := hw.stands
    rw [Stands, hp] at stood
    exact hset (run_reads stood.1)
  cases hl with
  | resetFails hp | setUpFails hp | setUp hp => exact (unset hp).elim
  | @advanceFails m hp f _ => exact .same ((h.beginTurn.advance m).fail f)
  | @actionFails m hp f _ hf =>
    have hbefore := h.beginTurn.advance m
    rcases actionFails_cutShort hf with hleaves | ⟨news, hj, hcut⟩
    · exact .same ((hbefore.trans hleaves).fail f)
    · exact of_cutShort hbefore hj hcut ((Leaves.refl _).fail f) rfl
  | @turn m hp _ _ =>
    obtain ⟨past, hpast, -⟩ := h.news
    obtain ⟨news, hnews, -⟩ := ((Parts.beginTurn .refl).advance m |>.callHook .action (u := w)).news
    obtain ⟨more, hmore, hannounced⟩ := turn_announced hu
    refine .completed (more ++ (news ++ past)) ?_ ?_
    · rw [enter, hmore, hnews, hpast]
      simp
    · obtain ⟨rs, hrs⟩ := hannounced
      exact ⟨rs, List.mem_append_left _ hrs⟩
  | @disposeFails hp f _ => exact .same (h.dispose.fail f)
  | dispose hp _ => exact .same (((h.dispose.apply _).note _ rfl).enter _)

theorem phase (h : Shows v w) (hset : w.acts ≠ []) (hw : Sound w)
    {r : Outcome Failure Phase × Controller (quietParts load react)} (hr : w.proceed? = some r)
    (hu : Sound (conclude r)) : Shows v (conclude r) := by
  cases h with
  | same h =>
    by_cases hl : w.phase.isLabour = true
    · exact labour h hset hw hu (proceed_labour hr hl)
    · exact .same (h.trans (.stride (proceed_stride hr) (by simpa using hl)))
  | cutShort hover =>
    simp [proceed?, hover] at hr
  | completed news journal h =>
    obtain ⟨more, hmore, -⟩ := (proceed_parts hr).news
    obtain ⟨rs, h⟩ := h
    exact .completed (more ++ news) (by rw [hmore, journal, List.append_assoc]) ⟨rs, List.mem_append_right _ h⟩

end Shows

/-- **What the domain shows in the rest of a run**, from any moment after it was set up. -/
theorem Reachable.shows (h : Reachable v) (hset : .setupDone ∈ notices v.acts) (ms : List (Move I)) :
    Shows v (v.moves ms) ∧ (v.moves ms).acts ≠ [] := by
  refine h.moves_uphold (P := fun w => Shows v w ∧ w.acts ≠ []) ?_ ?_ ?_ ⟨.same (.refl v), ?_⟩ ms
  · rintro w a hr ⟨hw, hacts⟩
    have he := access_effect w a
    refine ⟨hw.leaves (.effect he) fun hp => ?_, he.acts_eq ▸ hacts⟩
    exact (hr.sound.access_phase (by simp [hp]) a).trans hp
  · rintro w u hr ⟨hw, hacts⟩ ht
    obtain ⟨-, hphase, hsame, -⟩ := ht.frame
    exact ⟨hw.leaves (.told ht) hphase.trans, hsame ▸ hacts⟩
  · rintro w r hr ⟨hw, hacts⟩ hproceed hu
    refine ⟨hw.phase hacts hr.sound hproceed hu.sound, ?_⟩
    obtain ⟨news, hnews, -⟩ := (proceed_parts hproceed).news
    rw [acts, hnews, readOff_append]
    exact List.append_ne_nil_of_left_ne_nil hacts _
  · rintro hnil
    rw [hnil] at hset
    cases hset

/-- **What a failure leaves of the mirrored facts.**  An action that goes wrong leaves them alone if it could not
read any, and replaces them if it fails after that; so where a run ends in a failure, the domain shows
what it showed when the last turn was completed, unless the look at the engine was cut short over the agenda. -/
theorem Reachable.shows_cutShort (h : Reachable v) (hset : .setupDone ∈ notices v.acts) {ms : List (Move I)}
    {m : String} (hw : notices (v.moves ms).acts = notices v.acts ++ [.error m]) :
    (∀ (d : Domain.Quiescence) (g : E), (Engine.perform (Domain.hook .action d) g).1.1 ≠ .ok () →
      CutShort d.facts (Engine.perform (Domain.hook .action d) g).2.2
        (Engine.perform (Domain.hook .action d) g).1.2.facts) ∧
    (v.moves ms).state = .failed m ∧
    ∃ news, (v.moves ms).journal = news ++ v.journal ∧
      (lents news = [] ∧ (v.moves ms).domain.facts = v.domain.facts ∨
        CutShort v.domain.facts (lents news) (v.moves ms).domain.facts) := by
  refine ⟨fun d g => perform_cutShort { d with turns := d.turns + 1 } g, ?_, ?_⟩
  · have hmem : .error m ∈ notices (v.moves ms).acts := by simp [hw]
    exact (Option.some.inj ((h.moves ms).sound.agrees hmem rfl)).symm
  · obtain ⟨hshows, -⟩ := h.shows hset ms
    cases hshows with
    | same hsame =>
      obtain ⟨news, hj, hn⟩ := hsame.news
      exact ⟨news, hj, .inl ⟨hn, hsame.facts⟩⟩
    | cutShort _ news hj hcut => exact ⟨news, hj, .inr hcut⟩
    | completed news hj hturn =>
      -- the completed turn was announced, and only the failure has been
      obtain ⟨rs, hrs⟩ := hturn
      have hacts : (v.moves ms).acts = v.acts ++ readOff Entry.act? news := by
        rw [acts, hj, readOff_append, acts]
      rw [hacts, notices_append, List.append_cancel_left_eq] at hw
      have hmem : .actionDone ∈ notices (readOff Entry.act? news) :=
        List.mem_filterMap.mpr ⟨.emitted .actionDone, (mem_readOff _).mpr ⟨_, hrs, rfl⟩, rfl⟩
      rw [hw] at hmem
      simp at hmem

end

/-! ## A turn that is never completed -/

namespace Bench

/-- An engine with two rules to fire, whose second answer about the agenda is a diagnostic. -/
def faltering : BenchEngine where
  inside := { initial := ["0 lay: f-1", "0 hatch: f-2"], failing := fun _ => none }
  faults := [⟨.agenda, 2, .failure ⟨.command, "[PRNTUTIL2] agenda not found"⟩⟩]
  planned := fun _ => []

/-- A controller that has set up its domain and is about to make the first turn. -/
def setUpQuiet : Controller (parts Domain.Quiescence fun _ => .watcher []) :=
  .moves (.create { Config.standard with initialMode := .run } [("rules", .ok faltering)] {} {})
    [.call (.startEngine ⟨"rules"⟩), .call .execute, .work]

theorem setUpQuiet_reachable : Reachable setUpQuiet := .moves (.create ..) _

theorem setUpQuiet_setUp : .setupDone ∈ notices setUpQuiet.acts := by decide +kernel

theorem setUpQuiet_fails :
    notices (setUpQuiet.moves (List.replicate 3 .work)).acts =
      notices setUpQuiet.acts ++ [.error "[PRNTUTIL2] agenda not found"] := by decide +kernel

/-- The first turn has fired both rules when the agenda is asked for. -/
theorem setUpQuiet_shows_unfinished :
    (Reachable setUpQuiet ∧ .setupDone ∈ notices setUpQuiet.acts ∧
      notices (setUpQuiet.moves (List.replicate 3 .work)).acts =
        notices setUpQuiet.acts ++ [.error "[PRNTUTIL2] agenda not found"]) ∧
    ∃ news, (setUpQuiet.moves (List.replicate 3 .work)).journal = news ++ setUpQuiet.journal ∧
      CutShort "f-0     (initial-fact)" (lents news)
        "f-0     (initial-fact)\nf-1     (fired lay)\nf-2     (fired hatch)" := by
  refine ⟨⟨setUpQuiet_reachable, setUpQuiet_setUp, setUpQuiet_fails⟩, ?_⟩
  have before : setUpQuiet.domain.facts = "f-0     (initial-fact)" := by decide +kernel
  have after : (setUpQuiet.moves (List.replicate 3 .work)).domain.facts =
      "f-0     (initial-fact)\nf-1     (fired lay)\nf-2     (fired hatch)" := by decide +kernel
  obtain ⟨-, -, news, hj, hshows⟩ := Reachable.shows_cutShort (E := BenchEngine) setUpQuiet_reachable
    setUpQuiet_setUp setUpQuiet_fails
  rw [before, after] at hshows
  refine ⟨news, hj, hshows.resolve_left fun h => ?_⟩
  exact absurd h.2 (by decide)

/-- **A turn that failed can be seen in the facts**, those of an action and those of a whole run. -/
theorem mirror_half_updated :
    (¬ ∀ (d : Domain.Quiescence) (g : BenchEngine) (e : Domain.Error),
      (Engine.perform (Domain.hook .action d) g).1.1 = .error e →
        (Engine.perform (Domain.hook .action d) g).1.2.facts = d.facts) ∧
    ¬ ∀ (v : Controller (parts Domain.Quiescence fun _ => .watcher [])) (ms : List (Move String)) (m : String),
      Reachable v → .setupDone ∈ notices v.acts →
        notices (v.moves ms).acts = notices v.acts ++ [.error m] →
          (v.moves ms).domain.facts = v.domain.facts := by
  constructor
  · intro h
    -- the first agenda has been asked for already
    have := h {} { faltering with made := { agenda := 1 }, inside := { faltering.inside with facts := ["f-0"] } }
      (.engine ⟨.command, "[PRNTUTIL2] agenda not found"⟩) (by decide +kernel)
    exact absurd this (by decide +kernel)
  · intro h
    have := h _ _ _ setUpQuiet_reachable setUpQuiet_setUp setUpQuiet_fails
    exact absurd this (by decide +kernel)

end Bench

end Controller

end Cadence
