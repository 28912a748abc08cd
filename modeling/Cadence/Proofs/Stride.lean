import Cadence.Proofs.Labour

/-!
# Cadence.Proofs.Stride — what a step of the worker can do

A step of the worker delivers a notification to one subscriber (`Told`), or does what its phase asks
(`Stride`).  `Stride` has one case for each way a phase can end; what the worker's calls on engine and domain
leave behind is summed up by `Since`.

* `proceed_stride`: there is nothing else a phase can come to.
* `Reachable.keeps`: what new controllers have, and effects, deliveries and strides keep, all reachable
  controllers have.
-/

namespace Cadence.Controller

variable {A : Assembly} {w v : Controller A}

@[simp] theorem note_cancelled (w : Controller A) (e : Entry A.Id) : (w.note e).cancelled = w.cancelled := rfl
@[simp] theorem note_turns (w : Controller A) (e : Entry A.Id) : (w.note e).turns = w.turns := rfl

theorem acts_note (w : Controller A) (e : Entry A.Id) : (w.note e).acts = w.acts ++ e.act?.toList :=
  readOff_cons _ _ _

theorem acts_of_notice {x : Event} {s : State} {n : Notification}
    (h : w.state.next x = .ok ⟨s, some n⟩) : (w.apply x).acts = w.acts ++ [.emitted n] := by
  rw [apply_of_notice h]; simp [acts, Entry.act?]

theorem acts_apply (w : Controller A) (x : Event) :
    (w.apply x).acts = w.acts ++ (w.state.noticeOf x).toList.map .emitted := by
  rw [apply_eq]
  cases w.state.noticeOf x <;> simp [acts, Entry.act?]

@[simp] theorem beginTurn_acts (w : Controller A) : w.beginTurn.acts = w.acts := by
  have hacts : w.beginTurn.acts = (w.apply .turnStarted).acts := rfl
  rw [hacts, acts_apply, noticeOf_turnStarted]
  simp

/-! ## Calls of the worker -/

/-- `v` comes from `w` by calls of the worker on engine and domain, which amount to the acts `as`. -/
inductive Since (w : Controller A) (as : List Act) : Controller A → Prop where
  | mk (had : w.engine.isSome) (g : A.Eng) (d : A.Dom) (news : List (Entry A.Id))
      (own : ∀ e ∈ news, e.IsOwn) (acts : readOff Entry.act? news = as) :
      Since w as { w with engine := some g, domain := d, journal := news ++ w.journal }

theorem Since.engine {as : List Act} (h : Since w as v) : v.engine.isSome := by
  cases h; rfl

theorem Since.trans {w v u : Controller A} {as bs : List Act} (h : Since w as v) (h' : Since v bs u) :
    Since w (as ++ bs) u := by
  obtain ⟨had, g, d, news, own, rfl⟩ := h
  obtain ⟨-, g', d', news', own', rfl⟩ := h'
  have key := Since.mk had g' d' (news' ++ news)
    (fun e he => (List.mem_append.mp he).elim (own' e) (own e)) rfl
  rw [readOff_append] at key
  simpa using key

theorem Act.failure_of_entry {ι : Type} {e : Entry ι} {a : Act} {f : Failure} (h : e.act? = some a)
    (hf : a.failure? = some f) : f ≠ .engineMissing ∧ f ≠ .cancelled := by
  cases e with
  | engine r =>
    cases h
    rcases hr : r.reply with x | x | p <;> simp [Act.failure?, Failure.of?, Outcome.mapError, hr] at hf <;>
      subst hf <;> simp
  | hook k r =>
    cases h
    rcases r with x | x | p <;> simp [Act.failure?, Failure.of?, Outcome.mapError] at hf <;>
      subst hf <;> simp
  | hasDone r =>
    rcases r with p | b <;> cases h <;> cases hf
    simp
  | _ => cases h <;> cases hf

/-- Engine and domain never fail the way the worker itself does. -/
theorem Since.failure {as : List Act} (h : Since w as v) {a : Act} {f : Failure}
    (ha : a ∈ as) (hf : a.failure? = some f) : f ≠ .engineMissing ∧ f ≠ .cancelled := by
  obtain ⟨-, g, d, news, own, rfl⟩ := h
  obtain ⟨e, -, he⟩ := (mem_readOff _).mp ha
  exact Act.failure_of_entry he hf

theorem Since.acts_eq {as : List Act} (h : Since w as v) : v.acts = w.acts ++ as := by
  obtain ⟨-, g, d, news, own, rfl⟩ := h
  exact readOff_append _ _ _

theorem Since.accepted {as : List Act} (h : Since w as v)
    (hw : ∀ x, .event x false ∉ w.journal) (x : Event) : .event x false ∉ v.journal := by
  obtain ⟨-, g, d, news, own, rfl⟩ := h
  intro hx
  rcases List.mem_append.mp hx with hx | hx
  · exact own _ hx
  · exact hw x hx

theorem Since.frame {as : List Act} (h : Since w as v) :
    v.state = w.state ∧ v.turns = w.turns ∧ v.outbox = w.outbox ∧ v.cancelled = w.cancelled := by
  cases h
  exact ⟨rfl, rfl, rfl, rfl⟩

theorem ask_since (h : w.engine.isSome) (c : Engine.Call) :
    Since w [.engine c (Failure.of? (w.ask c).1)] (w.ask c).2 := by
  obtain ⟨g, hg⟩ := Option.isSome_iff_exists.mp h
  simp only [ask, hg, note]
  exact .mk h _ w.domain [.engine _] (by simp [Entry.IsOwn]) rfl

theorem advance_since (h : w.engine.isSome) (m : Mode) :
    Since w [.engine (advanceOf m) (Failure.of? (w.advance m).1)] (w.advance m).2 := by
  unfold advance advanceOf
  split
  · rw [Failure.of?_map]; exact ask_since h .step
  · rw [Failure.of?_map]; exact ask_since h .run

theorem readOff_lent (log : List Engine.Record) :
    readOff Entry.act? (log.reverse.map (Entry.lent (ι := A.Id))) = [] := by
  refine readOff_eq_nil _ fun e he => ?_
  obtain ⟨r, -, rfl⟩ := List.mem_map.mp he
  rfl

theorem callHook_since (h : w.engine.isSome) (k : Domain.Hook) :
    Since w [.hook k (Failure.of? (w.callHook k).1)] (w.callHook k).2 := by
  obtain ⟨g, hg⟩ := Option.isSome_iff_exists.mp h
  simp only [callHook, hg]
  refine .mk h _ _ (.hook k _ :: _) ?_ ?_
  · intro e he
    rcases List.mem_cons.mp he with rfl | he
    · trivial
    · obtain ⟨r, -, rfl⟩ := List.mem_map.mp he
      trivial
  · rw [readOff_cons, readOff_lent]; rfl

/-! ## Phases -/

/-- What the worker does in a phase, by the way it ends. -/
inductive Stride (w : Controller A) : Controller A → Prop where
  | noEngine (h : w.engine = none) (phase : w.phase = .starting ∨ w.phase = .disposing) :
      Stride w (w.fail .engineMissing)
  | noEngineInTurn (h : w.engine = none) {m : Mode} (phase : w.phase = .advancing m) :
      Stride w (w.beginTurn.fail .engineMissing)
  | resetFails (phase : w.phase = .starting) {v : Controller A} {f : Failure}
      (h : Since w [.engine .reset (some f)] v) : Stride w (v.fail f)
  | setUpFails (phase : w.phase = .starting) {v : Controller A} {f : Failure}
      (h : Since w [.engine .reset none, .hook .setup (some f)] v) : Stride w (v.fail f)
  | setUp (phase : w.phase = .starting) {v : Controller A}
      (h : Since w [.engine .reset none, .hook .setup none] v) :
      Stride w ((v.apply .setupCompleted).enter .checking)
  | askFails (phase : w.phase = .checking) {p : Payload} (h : Domain.hasDone w.domain = .error p) :
      Stride w ((w.note (.hasDone (.error p))).fail (.panicked p))
  | goOn (phase : w.phase = .checking) (h : Domain.hasDone w.domain = .ok false) :
      Stride w ((w.note (.hasDone (.ok false))).enter .approaching)
  | isDone (phase : w.phase = .checking) (h : Domain.hasDone w.domain = .ok true) :
      Stride w ((w.note (.hasDone (.ok true))).enter .disposing)
  | cancel (phase : w.phase = .approaching ∨ w.phase = .arriving) (h : w.cancelled = true) :
      Stride w (w.fail .cancelled)
  | comeUp (phase : w.phase = .approaching) (h : w.cancelled = false) (hm : w.mode.isGated = true) :
      Stride w (w.enter .arriving)
  | pass (phase : w.phase = .approaching ∨ w.phase = .arriving) (h : w.cancelled = false)
      (hm : w.mode.isGated = false) : Stride w ((w.note (.passed w.mode)).enter (.advancing w.mode))
  | park (phase : w.phase = .arriving) (h : w.cancelled = false) (hm : w.mode.isGated = true) :
      Stride w (({ w with gate := ⟨true, false⟩ }.apply .gateParked).enter .parked)
  | leave (phase : w.phase = .parked) (h : w.gate.permit = true) :
      Stride w (({ w with gate := ⟨false, false⟩ }.note (.passed w.mode)).enter (.advancing w.mode))
  | cancelParked (phase : w.phase = .parked) (h : w.gate.permit = false) (hc : w.cancelled = true) :
      Stride w ({ w with gate := ⟨false, false⟩ }.fail .cancelled)
  | advanceFails {m : Mode} (phase : w.phase = .advancing m) {v : Controller A} {f : Failure}
      (h : Since w.beginTurn [.engine (advanceOf m) (some f)] v) : Stride w (v.fail f)
  | actionFails {m : Mode} (phase : w.phase = .advancing m) {v : Controller A} {f : Failure}
      (h : Since w.beginTurn [.engine (advanceOf m) none, .hook .action (some f)] v) :
      Stride w (v.fail f)
  | turn {m : Mode} (phase : w.phase = .advancing m) {v : Controller A}
      (h : Since w.beginTurn [.engine (advanceOf m) none, .hook .action none] v) :
      Stride w ((v.apply .turnCompleted).enter .checking)
  | disposeFails (phase : w.phase = .disposing) {v : Controller A} {f : Failure}
      (h : Since w [.hook .dispose (some f)] v) : Stride w (v.fail f)
  | dispose (phase : w.phase = .disposing) {v : Controller A}
      (h : Since w [.hook .dispose none] v) :
      Stride w (((v.apply .disposed).note (.ended none)).enter .finished)

/-- The worker neither cancels a run nor takes a cancellation back. -/
theorem Stride.cancelled_eq (h : Stride w v) : v.cancelled = w.cancelled := by
  cases h with
  | resetFails _ h | setUpFails _ h | advanceFails _ h | actionFails _ h | disposeFails _ h
  | setUp _ h | turn _ h | dispose _ h => simp [h.frame.2.2.2]
  | _ => simp

/-- A turn is counted once it is past the gate. -/
theorem Stride.turns_eq (h : Stride w v) :
    v.turns = w.turns + (match w.phase with | .advancing _ => 1 | _ => 0) := by
  cases h with
  | noEngine _ hp | cancel hp | pass hp => rcases hp with hp | hp <;> simp [hp]
  | resetFails hp h | setUpFails hp h | advanceFails hp h | actionFails hp h | disposeFails hp h
  | setUp hp h | turn hp h | dispose hp h => simp [hp, h.frame.2.1]
  | noEngineInTurn _ hp | askFails hp | goOn hp | isDone hp | comeUp hp | park hp | leave hp
  | cancelParked hp => simp [hp]

theorem Stride.turns_of_not_labour (h : Stride w v) (hl : w.phase.isLabour = false) : v.turns = w.turns := by
  rw [h.turns_eq]
  cases hp : w.phase <;> first | rfl | (rw [hp] at hl; cases hl)

theorem Stride.phase_ne_idle (h : Stride w v) : v.phase ≠ .idle := by cases h <;> simp

/-- The phases in which no call is made leave the domain alone. -/
theorem Stride.domain_eq (hs : Stride w v) (hl : w.phase.isLabour = false) : v.domain = w.domain := by
  cases hs with
  | noEngine _ phase => rcases phase with hp | hp <;> rw [hp] at hl <;> cases hl
  | noEngineInTurn _ hp | resetFails hp | setUpFails hp | setUp hp | advanceFails hp | actionFails hp
  | turn hp | disposeFails hp | dispose hp => rw [hp] at hl; cases hl
  | askFails => exact apply_domain _ _
  | cancel => exact apply_domain _ _
  | cancelParked => exact apply_domain _ _
  | park => exact apply_domain _ _
  | _ => rfl

section Phases

theorem ask_of_none (h : w.engine = none) (c : Engine.Call) : w.ask c = (.error .engineMissing, w) := by
  simp only [ask, h]

theorem callHook_of_none (h : w.engine = none) (k : Domain.Hook) :
    w.callHook k = (.error .engineMissing, w) := by
  simp only [callHook, h]

theorem advance_of_none (h : w.engine = none) (m : Mode) : w.advance m = (.error .engineMissing, w) := by
  unfold advance
  split <;> simp [ask_of_none h, Outcome.map]

/-- Without an engine the first call fails; with one, each call is of engine or domain. -/
theorem Labour.stride (h : Labour w v) : Stride w v := by
  cases he : w.engine with
  | none =>
    have hb : w.beginTurn.engine = none := (beginTurn_engine w).trans he
    cases h with
    | resetFails hp hf =>
      rw [ask_of_none he] at hf ⊢
      cases hf
      exact .noEngine he (.inl hp)
    | advanceFails hp hf =>
      rw [advance_of_none hb] at hf ⊢
      cases hf
      exact .noEngineInTurn he hp
    | disposeFails hp hf =>
      rw [callHook_of_none he] at hf ⊢
      cases hf
      exact .noEngine he (.inr hp)
    | setUpFails hp hf | setUp hp hf => rw [ask_of_none he] at hf; cases hf
    | actionFails hp hf | turn hp hf => rw [advance_of_none hb] at hf; cases hf
    | dispose hp hf => rw [callHook_of_none he] at hf; cases hf
  | some g =>
    have hw : w.engine.isSome := by rw [he]; rfl
    have hreset := ask_since hw .reset
    have hsetup := hreset.trans (callHook_since hreset.engine .setup)
    have hadvance := advance_since (w := w.beginTurn) (by rwa [beginTurn_engine])
    have haction (m : Mode) := (hadvance m).trans (callHook_since (hadvance m).engine .action)
    have hdispose := callHook_since hw .dispose
    cases h with
    | resetFails hp hf => exact .resetFails hp (hf ▸ hreset)
    | setUpFails hp hf hf' => rw [hf, hf'] at hsetup; exact .setUpFails hp hsetup
    | setUp hp hf hf' => rw [hf, hf'] at hsetup; exact .setUp hp hsetup
    | advanceFails hp hf => exact .advanceFails hp (hf ▸ hadvance _)
    | @actionFails m hp f hf hf' =>
      have hm := haction m
      rw [hf, hf'] at hm
      exact .actionFails hp hm
    | @turn m hp hf hf' =>
      have hm := haction m
      rw [hf, hf'] at hm
      exact .turn hp hm
    | disposeFails hp hf => exact .disposeFails hp (hf ▸ hdispose)
    | dispose hp hf => exact .dispose hp (hf ▸ hdispose)

theorem check_stride (hp : w.phase = .checking) : Stride w (conclude w.check) := by
  unfold check
  rcases h : Domain.hasDone w.domain with p | _ | _
  · exact .askFails hp h
  · exact .goOn hp h
  · exact .isDone hp h

theorem approach_stride (hp : w.phase = .approaching) : Stride w (conclude w.approach) := by
  unfold approach
  cases hc : w.cancelled
  · cases hm : w.mode.isGated
    · exact .pass (.inl hp) hc hm
    · exact .comeUp hp hc hm
  · exact .cancel (.inl hp) hc

theorem arrive_stride (hp : w.phase = .arriving) : Stride w (conclude w.arrive) := by
  unfold arrive Gate.arrive
  by_cases hc : w.cancelled = true
  · rw [if_pos hc]
    exact .cancel (.inr hp) hc
  rw [if_neg hc]
  rw [Bool.not_eq_true] at hc
  by_cases hm : w.mode.isGated = true
  · rw [if_pos hm]
    exact .park hp hc hm
  · rw [if_neg hm]
    exact .pass (.inr hp) hc (by simpa using hm)

theorem look_stride (hp : w.phase = .parked) {r : Outcome Failure Phase × Controller A}
    (h : w.look? = some r) : Stride w (conclude r) := by
  unfold look? Gate.look at h
  by_cases hg : w.gate.permit = true
  · rw [if_pos hg] at h
    cases h
    exact .leave hp hg
  rw [if_neg hg] at h
  by_cases hc : w.cancelled = true
  · rw [if_pos hc] at h
    cases h
    exact .cancelParked hp (by simpa using hg) hc
  · rw [if_neg hc] at h
    cases h

/-- A phase without calls. -/
theorem Stride.parts (h : Stride w v) (hl : w.phase.isLabour = false) : Parts w v := by
  have start : Parts w w := .refl
  cases h with
  | noEngine _ phase => rcases phase with hp | hp <;> rw [hp] at hl <;> cases hl
  | noEngineInTurn _ hp | resetFails hp | setUpFails hp | setUp hp | advanceFails hp | actionFails hp
  | turn hp | disposeFails hp | dispose hp => rw [hp] at hl; cases hl
  | askFails => exact (start.remark _ (by trivial)).fail _
  | goOn | isDone => exact (start.remark _ (by trivial)).enter _
  | cancel => exact start.fail _
  | comeUp => exact start.enter _
  | pass => exact (start.remark _ (by trivial)).enter _
  | park => exact ((start.gate _).report _).enter _
  | leave => exact ((start.gate _).remark _ (by trivial)).enter _
  | cancelParked => exact (start.gate _).fail _

theorem proceed_stride {r : Outcome Failure Phase × Controller A} (h : w.proceed? = some r) :
    Stride w (conclude r) := by
  by_cases hl : w.phase.isLabour = true
  · exact (proceed_labour h hl).stride
  unfold proceed? at h
  cases hp : w.phase <;> simp only [hp, Phase.isLabour, not_true_eq_false, reduceCtorEq,
    Option.some.injEq] at h hl
  case checking => subst h; exact check_stride hp
  case approaching => subst h; exact approach_stride hp
  case arriving => subst h; exact arrive_stride hp
  case parked => exact look_stride hp h

theorem proceed_parts {r : Outcome Failure Phase × Controller A} (h : w.proceed? = some r) :
    Parts w (conclude r) := by
  by_cases hl : w.phase.isLabour = true
  · exact (proceed_labour h hl).parts
  · exact (proceed_stride h).parts (by simpa using hl)

end Phases

/-! ## Deliveries -/

/-- One subscriber has been notified of what was due first; what it called before is not part of this. -/
inductive Told (w : Controller A) : Controller A → Prop where
  | observer {i : A.Id} {n : Notification} {rest : List (Subscriber A.Id × Notification)}
      (due : w.outbox = (.observer i, n) :: rest) (crowd : A.Crowd) (panic : Option Payload) :
      Told w ({ w with crowd := crowd, outbox := rest }.note (.told (.observer i) n panic))
  | channel {k : Nat} {n : Notification} {rest : List (Subscriber A.Id × Notification)}
      (due : w.outbox = (.channel k, n) :: rest) :
      Told w ({ w with
        channels := w.channels.modify k fun ch => (ch.send n).2
        outbox := rest }.note (.told (.channel k) n none))

/-- Nobody but the worker has anything delivered. -/
theorem Effect.outbox_eq (h : Effect w v) : v.outbox = w.outbox := by
  cases h with
  | load script source g h => simp [apply_eq, noticeOf_engineLoaded, note]
  | _ => rfl

theorem Effect.isHeldUp_of (h : Effect w v) (hv : v.isHeldUp = true) :
    w.isHeldUp = true := by
  cases h with
  | load script source g h =>
    rw [isHeldUp, apply_channels] at hv
    exact hv
  | subscribers r chs h => exact h hv
  | _ => exact hv

theorem Effect.stays_free (h : Effect w v) (hw : w.isHeldUp = false) : v.isHeldUp = false := by
  rw [← Bool.not_eq_true] at hw ⊢
  exact mt h.isHeldUp_of hw

/-- Nobody but the worker acts, announces or delivers anything. -/
theorem Effect.lists_eq (h : Effect w v) : v.acts = w.acts ∧ v.emissions = w.emissions ∧ v.tellings = w.tellings := by
  cases h with
  | load script source g h =>
    simp [apply_eq, noticeOf_engineLoaded, note, acts, Entry.act?, emissions, Entry.emission?, tellings, Entry.telling?]
  | nothing | subscribers => exact ⟨rfl, rfl, rfl⟩
  | _ => simp [note, acts, Entry.act?, emissions, Entry.emission?, tellings, Entry.telling?]

theorem Effect.acts_eq (h : Effect w v) : v.acts = w.acts := h.lists_eq.1

theorem Effect.emissions_eq (h : Effect w v) : v.emissions = w.emissions := h.lists_eq.2.1

theorem Effect.tellings_eq (h : Effect w v) : v.tellings = w.tellings := h.lists_eq.2.2

/-- Nobody but the worker moves a run on once it is launched. -/
theorem Effect.of_launched (h : Effect w v) (hl : w.launch ≠ none) :
    v.phase = w.phase ∧ v.state = w.state ∧ v.acts = w.acts ∧ v.emissions = w.emissions ∧
      v.tellings = w.tellings := by
  refine and_assoc.mp ⟨?_, h.lists_eq⟩
  cases h with
  | load script source g h => exact absurd h hl
  | loadFails script source h => exact absurd h hl
  | launch l h => exact absurd h hl
  | _ => exact ⟨rfl, rfl⟩

theorem Effect.domain_eq (h : Effect w v) : v.domain = w.domain := by
  cases h with
  | load script source g h => rw [apply_eq]; rfl
  | _ => rfl

theorem Effect.turns_eq (h : Effect w v) : v.turns = w.turns := by
  cases h with
  | load script source g h => exact apply_turns _ _
  | _ => rfl

/-- Nobody takes a cancellation back. -/
theorem Effect.stays_cancelled (h : Effect w v) (hc : w.cancelled = true) : v.cancelled = true := by
  cases h with
  | load script source g h => rw [apply_cancelled]; exact hc
  | stop => rfl
  | _ => exact hc

/-- Nobody but the worker goes from phase to phase, but for the launch. -/
theorem Effect.phase_cases (h : Effect w v) : v.phase = w.phase ∨ v.phase = .starting := by
  cases h with
  | load script source g h => exact .inl (apply_phase _ _)
  | launch l h he => exact .inr rfl
  | _ => exact .inl rfl

theorem Effect.stays_launched (h : Effect w v) (hl : w.launch ≠ none) : v.launch ≠ none := by
  cases h with
  | load script source g h => exact absurd h hl
  | launch l h => exact absurd h hl
  | _ => exact hl

theorem Told.frame (h : Told w v) : v.cancelled = w.cancelled ∧ v.phase = w.phase ∧ v.acts = w.acts ∧
    v.domain = w.domain := by
  cases h with
  | observer | channel => exact ⟨rfl, rfl, by simp [acts, note, Entry.act?], rfl⟩

theorem Told.turns_eq (h : Told w v) : v.turns = w.turns := by
  cases h <;> rfl

/-- Where nothing is due, a step of the worker is a stride. -/
theorem step_stride (ho : w.outbox = []) (hv : w.step = some v) : Stride w v := by
  unfold step at hv
  rw [ho] at hv
  split at hv
  · cases hv
  · obtain ⟨r, hr, rfl⟩ := Option.map_eq_some_iff.mp hv
    exact proceed_stride hr

/-! ## Reachable controllers -/

/-- **Induction on a move**, with the accesses made so far: what accesses, deliveries and phases keep, a move
keeps.  `Q` is known on the way: accesses keep it. -/
theorem move_uses {Q : Controller A → Prop} {P : List (Controller A × Access A.Id) → Controller A → Prop}
    (grants : ∀ w a, Q w → Q (w.access a).2)
    (access : ∀ us w a, Q w → P us w → P (us ++ [(w, a)]) (w.access a).2)
    (told : ∀ us w v, Q w → P us w → Told w v → P us v)
    (phase : ∀ us w r, Q w → P us w → w.outbox = [] → w.isHeldUp = false → w.proceed? = some r →
      P us (conclude r))
    (us : List (Controller A × Access A.Id)) (hq : Q w) (hp : P us w) (m : Move A.Id) :
    P (us ++ w.uses m) (w.move m) := by
  cases m with
  | access a => exact access us w a hq hp
  | work =>
    by_cases hheld : w.isHeldUp = true
    · simpa [uses, move, step, hheld] using hp
    rw [Bool.not_eq_true] at hheld
    cases hout : w.outbox with
    | nil =>
      cases hr : w.proceed? with
      | none => simpa [uses, move, step, hheld, hout, hr] using hp
      | some r => simpa [uses, move, step, hheld, hout, hr] using phase us w r hq hp hout hheld hr
    | cons due rest =>
      obtain ⟨s | k, n⟩ := due
      · -- an observer has the same access to the controller as the host
        have hgrant : ∀ us a v, Q v ∧ P us v ∧ v.outbox = w.outbox →
            Q (v.access a).2 ∧ P (us ++ [(v, a)]) (v.access a).2 ∧ (v.access a).2.outbox = w.outbox := by
          rintro us a v ⟨hq, hp, ho⟩
          exact ⟨grants v a hq, access us v a hq hp, (access_effect v a).outbox_eq.trans ho⟩
        obtain ⟨hq', hp', ho⟩ := Dialogue.asked_induct Controller.access
          (P := fun us v => Q v ∧ P us v ∧ v.outbox = w.outbox) hgrant (A.react s n w.crowd) us w ⟨hq, hp, rfl⟩
        simp only [uses, move, step, hheld, hout, Bool.false_eq_true, if_false, Option.getD_some]
        exact told _ _ _ hq' hp' (.observer (ho.trans hout) _ _)
      · simp only [uses, move, step, hheld, hout, Bool.false_eq_true, if_false, Option.getD_some,
          List.append_nil]
        exact told _ _ _ hq hp (.channel hout)

/-- What accesses, deliveries and phases keep, a move keeps. -/
theorem move_upholds {Q P : Controller A → Prop} (grants : ∀ w a, Q w → Q (w.access a).2)
    (access : ∀ w a, Q w → P w → P (w.access a).2) (told : ∀ w v, Q w → P w → Told w v → P v)
    (phase : ∀ w r, Q w → P w → w.outbox = [] → w.isHeldUp = false → w.proceed? = some r → P (conclude r))
    {w : Controller A} (hq : Q w) (hp : P w) (m : Move A.Id) : P (w.move m) :=
  move_uses (P := fun _ w => P w) grants (fun _ => access) (fun _ => told) (fun _ => phase) [] hq hp m

/-- What effects, deliveries and strides keep, a move keeps.  `Q` is known on the way: accesses keep it. -/
theorem move_keeps {Q P : Controller A → Prop} (access : ∀ w a, Q w → Q (w.access a).2)
    (effect : ∀ w v : Controller A, Q w → P w → Effect w v → P v)
    (told : ∀ w v : Controller A, Q w → P w → Told w v → P v)
    (stride : ∀ w v : Controller A, Q w → P w → w.outbox = [] → w.isHeldUp = false →
      Stride w v → P v)
    {w : Controller A} (hq : Q w) (hp : P w) (m : Move A.Id) : P (w.move m) :=
  move_upholds access (fun w a hq hp => effect w _ hq hp (access_effect w a)) told
    (fun w _ hq hp ho hh hr => stride w _ hq hp ho hh (proceed_stride hr)) hq hp m

/-- **Induction on a run**, with the calls that are made: what new controllers have, and accesses, deliveries and
phases keep, holds of every reachable controller. -/
theorem Reachable.upholds {P : Controller A → Prop}
    (new : ∀ config source domain crowd, P (Controller.create config source domain crowd))
    (access : ∀ w a, Reachable w → P w → P (w.access a).2)
    (told : ∀ w v : Controller A, Reachable w → P w → Told w v → P v)
    (phase : ∀ w r, Reachable w → P w → w.outbox = [] → w.isHeldUp = false → w.proceed? = some r →
      P (conclude r))
    {w : Controller A} (h : Reachable w) : P w := by
  induction h with
  | create config source domain crowd => exact new config source domain crowd
  | @move w h m ih => exact move_upholds (fun w a h => h.move (.access a)) access told phase h ih m

/-- **Induction on a run.**  What new controllers have, and effects, deliveries and strides keep, holds of
every reachable controller. -/
theorem Reachable.keeps {P : Controller A → Prop}
    (new : ∀ config source domain crowd, P (Controller.create config source domain crowd))
    (effect : ∀ w v : Controller A, Reachable w → P w → Effect w v → P v)
    (told : ∀ w v : Controller A, Reachable w → P w → Told w v → P v)
    (stride : ∀ w v : Controller A, Reachable w → P w → w.outbox = [] → w.isHeldUp = false →
      Stride w v → P v)
    {w : Controller A} (h : Reachable w) : P w := by
  induction h with
  | create config source domain crowd => exact new config source domain crowd
  | @move w h m ih => exact move_keeps (fun w a h => h.move (.access a)) effect told stride h ih m

/-- **Induction on the rest of a run.**  What effects, deliveries and strides keep holds from then on. -/
theorem Reachable.moves_keep {P : Controller A → Prop}
    (effect : ∀ w v : Controller A, Reachable w → P w → Effect w v → P v)
    (told : ∀ w v : Controller A, Reachable w → P w → Told w v → P v)
    (stride : ∀ w v : Controller A, Reachable w → P w → w.outbox = [] → w.isHeldUp = false →
      Stride w v → P v)
    {w : Controller A} (h : Reachable w) (hp : P w) (ms : List (Move A.Id)) : P (w.moves ms) := by
  induction ms generalizing w with
  | nil => exact hp
  | cons m ms ih =>
    exact ih (h.move m) (move_keeps (fun w a h => h.move (.access a)) effect told stride h hp m)

/-- **Induction on the rest of a run**, with the accesses made so far. -/
theorem Reachable.moves_use {P : List (Controller A × Access A.Id) → Controller A → Prop}
    (access : ∀ us w a, Reachable w → P us w → P (us ++ [(w, a)]) (w.access a).2)
    (told : ∀ us w v, Reachable w → P us w → Told w v → P us v)
    (phase : ∀ us w r, Reachable w → P us w → w.outbox = [] → w.isHeldUp = false → w.proceed? = some r →
      P us (conclude r))
    {w : Controller A} (h : Reachable w) (us : List (Controller A × Access A.Id)) (hp : P us w)
    (ms : List (Move A.Id)) : P (us ++ w.usesOf ms) (w.moves ms) := by
  induction ms generalizing w us with
  | nil => simpa [usesOf] using hp
  | cons m ms ih =>
    have hm := ih (h.move m) _ (move_uses (fun w a h => h.move (.access a)) access told phase us h hp m)
    simpa [usesOf] using hm

/-- A phase that is gone through makes a step. -/
theorem Reachable.of_proceed {r : Outcome Failure Phase × Controller A} (h : Reachable w) (hout : w.outbox = [])
    (hheld : w.isHeldUp = false) (hproceed : w.proceed? = some r) : Reachable (conclude r) :=
  h.of_step (by simp [step, hheld, hout, hproceed])

/-- **Induction on the rest of a run.**  What accesses, deliveries and phases keep holds from then on. -/
theorem Reachable.moves_uphold {P : Controller A → Prop}
    (access : ∀ w a, Reachable w → P w → P (w.access a).2)
    (told : ∀ w v, Reachable w → P w → Told w v → P v)
    (phase : ∀ w r, Reachable w → P w → w.proceed? = some r → Reachable (conclude r) → P (conclude r))
    (h : Reachable w) (hp : P w) (ms : List (Move A.Id)) : P (w.moves ms) := by
  refine h.moves_use (P := fun _ w => P w) (fun _ => access) (fun _ => told) ?_ [] hp ms
  intro _ w r hr hp hout hheld hproceed
  exact phase w r hr hp hproceed (hr.of_proceed hout hheld hproceed)

end Cadence.Controller
