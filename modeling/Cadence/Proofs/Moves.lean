import Cadence.Controller.Bench
import Cadence.Domain.Scripted

/-!
# Cadence.Proofs.Moves — what can happen to a controller

A run is any sequence of moves: the worker makes a step, or the host makes a call, opens a channel, receives
or drops a receiver.  What a subscriber does while it is notified is part of the worker's step, and it has the
same access to the controller as the host.

* `Reachable`: the controllers that moves lead to.
* `Reachable.serve`: a session of a host stays among them.
* `Effect`: what anybody but the worker can do to a controller, case by case; `access_effect` says that there
  is nothing else.
-/

namespace Cadence.Controller

variable {A : Assembly}

/-- What can happen to a controller: its worker makes a step, if it can, or the host has access to it. -/
inductive Move (ι : Type) where
  | work
  | access (a : Access ι)
deriving DecidableEq

/-- The host makes a call. -/
abbrev Move.call {ι : Type} (c : Call ι) : Move ι := .access (.call c)

def move (w : Controller A) : Move A.Id → Controller A
  | .work => w.step.getD w
  | .access a => (w.access a).2

@[simp] theorem move_call (w : Controller A) (c : Call A.Id) : w.move (.call c) = (w.call c).2 := rfl

def moves (w : Controller A) (ms : List (Move A.Id)) : Controller A := ms.foldl move w

@[simp] theorem moves_nil (w : Controller A) : w.moves [] = w := rfl

@[simp] theorem moves_cons (w : Controller A) (m : Move A.Id) (ms : List (Move A.Id)) :
    w.moves (m :: ms) = (w.move m).moves ms := rfl

theorem moves_append (w : Controller A) (ms ns : List (Move A.Id)) :
    w.moves (ms ++ ns) = (w.moves ms).moves ns := List.foldl_append

/-- The controllers that moves lead to, from a new one. -/
inductive Reachable : Controller A → Prop where
  | create (config : Config) (source : A.Source) (domain : A.Dom) (crowd : A.Crowd) :
      Reachable (create config source domain crowd)
  | move {w : Controller A} (h : Reachable w) (m : Move A.Id) : Reachable (w.move m)

theorem Reachable.moves {w : Controller A} (h : Reachable w) (ms : List (Move A.Id)) :
    Reachable (w.moves ms) := by
  induction ms generalizing w with
  | nil => exact h
  | cons m ms ih => exact ih (h.move m)

/-! ## Accesses -/

/-- The accesses that a move is made of, each with the controller it meets: the host's own, or those of the
subscriber that is notified. -/
def uses (w : Controller A) : Move A.Id → List (Controller A × Access A.Id)
  | .access a => [(w, a)]
  | .work =>
    if w.isHeldUp then []
    else
      match w.outbox with
      | (.observer i, n) :: _ => (A.react i n w.crowd).asked access w
      | _ => []

/-- The accesses of several moves. -/
def usesOf (w : Controller A) : List (Move A.Id) → List (Controller A × Access A.Id)
  | [] => []
  | m :: ms => w.uses m ++ (w.move m).usesOf ms

theorem usesOf_append (w : Controller A) (ms ns : List (Move A.Id)) :
    w.usesOf (ms ++ ns) = w.usesOf ms ++ (w.moves ms).usesOf ns := by
  induction ms generalizing w with
  | nil => rfl
  | cons m ms ih => simp [usesOf, ih]

/-! ## Sessions -/

section Sessions

variable {s t : Session A}

theorem Reachable.of_step {w v : Controller A} (h : Reachable w) (hv : w.step = some v) : Reachable v := by
  have hw := h.move .work
  rwa [Controller.move, hv] at hw

theorem Reachable.drain (h : Reachable s.controller) {boxes : List Inbox}
    (ht : s.drain? boxes = some t) : Reachable t.controller := by
  induction boxes with
  | nil => cases ht
  | cons box boxes ih =>
    rw [Session.drain?] at ht
    split at ht
    · exact ih ht
    · rename_i n w hrec
      cases ht
      have hw := h.move (.access (.receive box.channel))
      rwa [Controller.move, access, hrec] at hw

theorem Reachable.rest (h : Reachable s.controller) (limit : Nat) :
    Reachable (s.rest limit).controller := by
  induction limit generalizing s with
  | zero => exact h
  | succ limit ih =>
    rw [Session.rest]
    split
    · rename_i w hw
      exact ih (h.of_step hw)
    · split
      · rename_i t ht
        exact ih (h.drain ht)
      · exact h

theorem collect_controller (s : Session A) : s.collect.2.controller = s.controller := by
  unfold Session.collect
  split
  · split <;> rfl
  · rfl

theorem Reachable.session_call (h : Reachable s.controller) (limit : Nat) (c : Call A.Id) :
    Reachable (s.call limit c).2.controller := by
  have hw := h.move (.call c)
  unfold Session.call
  dsimp only
  split
  · rw [collect_controller]
    exact Reachable.rest hw limit
  · exact Reachable.rest hw limit

theorem Reachable.openInbox (h : Reachable s.controller) (name : String) :
    Reachable (s.openInbox name).2.controller := by
  have hw := h.move (.access .subscribeChannel)
  rw [Controller.move, access] at hw
  unfold Session.openInbox
  split
  · rename_i k w hk
    rw [hk] at hw
    dsimp only
    split
    · exact hw.move (.access (.dropReceiver _))
    · exact hw
  · rename_i p w hk
    rwa [hk] at hw

/-- **A session of a host is made of moves:** whatever is asked for, its controller stays reachable. -/
theorem Reachable.serve (h : Reachable s.controller) (limit : Nat) (r : Request A.Id) :
    Reachable (s.serve limit r).2.controller := by
  cases r with
  | call c => exact h.session_call limit c
  | join =>
    rw [Session.serve]
    split <;> exact h
  | blockingResult =>
    rw [Session.serve, collect_controller]
    exact h
  | subscribeChannel name => exact h.openInbox name
  | dropChannel name =>
    rw [Session.serve]
    split
    · exact h
    · exact Reachable.rest (h.move (.access (.dropReceiver _))) limit
  | received name =>
    rw [Session.serve]
    split <;> exact h

end Sessions

namespace Bench

/-- The parts of a trial: a scripted domain, and subscribers of which one panics at every notification. -/
abbrev trialParts : Assembly :=
  parts Domain.Scripted fun i => if i = "panicker" then .panicker else .watcher []

/-- A controller to try out, with an engine that has nothing to do but to fail as planned. -/
def trial (mode : Mode) (doneAfter : Nat) (faults : List Engine.Fault) : Controller trialParts :=
  .create { Config.standard with initialMode := mode }
    [("rules", .ok
      { inside := { initial := [], failing := fun _ => none }, faults, planned := fun _ => [] })]
    { doneAfter } {}

/-- The host registers two subscribers, loads and launches; then the worker makes some steps. -/
def launched (steps : Nat) : List (Move String) :=
  [.call (.addSubscriber "panicker"), .call (.addSubscriber "watcher"),
    .call (.startEngine ⟨"rules"⟩), .call .execute] ++ List.replicate steps .work

end Bench

/-! ## What an event does -/

section Apply

variable {w : Controller A} {x : Event}

theorem apply_of_silent {s : State} (h : w.state.next x = .ok ⟨s, none⟩) :
    w.apply x = { w with state := s, journal := .event x true :: w.journal } := by
  simp only [apply, h, note]

theorem apply_of_notice {s : State} {n : Notification} (h : w.state.next x = .ok ⟨s, some n⟩) :
    w.apply x =
      { w with
        state := s
        outbox := w.outbox ++ w.registry.members.map (·, n)
        journal := .emitted n w.registry.members :: .event x true :: w.journal } := by
  simp only [apply, h, note, announce]

theorem apply_of_rejected {r : Rejection} (h : w.state.next x = .error r) :
    w.apply x = w.note (.event x false) := by
  simp only [apply, h]

variable (w x)

/-- An event changes the state, has its notification delivered to everybody, and is noted. -/
theorem apply_eq : w.apply x =
    { w with
      state := w.state.after x
      outbox := w.outbox ++
        (w.state.noticeOf x).toList.flatMap fun n => w.registry.members.map (·, n)
      journal := (w.state.noticeOf x).toList.map (.emitted · w.registry.members) ++
        .event x (w.state.next x).isOk :: w.journal } := by
  unfold State.after State.noticeOf
  rcases h : w.state.next x with r | ⟨s, _ | n⟩
  · simp [apply_of_rejected h, note, Except.isOk, Except.toBool]
  · simp [apply_of_silent h, Except.isOk, Except.toBool]
  · simp [apply_of_notice h, Except.isOk, Except.toBool]

@[simp] theorem apply_state : (w.apply x).state = w.state.after x := by rw [apply_eq]
@[simp] theorem apply_phase : (w.apply x).phase = w.phase := by rw [apply_eq]
@[simp] theorem apply_gate : (w.apply x).gate = w.gate := by rw [apply_eq]
@[simp] theorem apply_cancelled : (w.apply x).cancelled = w.cancelled := by rw [apply_eq]
@[simp] theorem apply_launch : (w.apply x).launch = w.launch := by rw [apply_eq]
@[simp] theorem apply_engine : (w.apply x).engine = w.engine := by rw [apply_eq]
@[simp] theorem apply_domain : (w.apply x).domain = w.domain := by rw [apply_eq]
@[simp] theorem apply_turns : (w.apply x).turns = w.turns := by rw [apply_eq]
@[simp] theorem apply_channels : (w.apply x).channels = w.channels := by rw [apply_eq]
@[simp] theorem apply_registry : (w.apply x).registry = w.registry := by rw [apply_eq]
@[simp] theorem apply_config : (w.apply x).config = w.config := by rw [apply_eq]

end Apply

/-! ## What others than the worker can do -/

/-- What an access to a controller can do to it. -/
inductive Effect (w : Controller A) : Controller A → Prop where
  | nothing : Effect w w
  | load (script : Engine.Script) (source : A.Source) (g : A.Eng) (h : w.launch = none) :
      Effect w (({ w with source := source, engine := some g }.note (.load script true)).apply
        .engineLoaded)
  | loadFails (script : Engine.Script) (source : A.Source) (h : w.launch = none) :
      Effect w ({ w with source := source }.note (.load script false))
  | launch (l : Launch) (h : w.launch = none) (he : w.engine.isSome) (n : Nat) :
      Effect w ({ w with launch := some l, attempts := n, phase := .starting }.note (.launch l))
  /-- There was no thread for the worker. -/
  | noThread (h : w.launch = none) (n : Nat) : Effect w { w with attempts := n }
  | query (r : Engine.Record) (g : A.Eng) (h : w.engine.isSome) :
      Effect w ({ w with engine := some g }.note (.query r))
  | release (h : w.gate.parked = true) (hp : w.gate.permit = false) :
      Effect w ({ w with gate := ⟨true, true⟩ }.note (.resume true))
  | releaseNobody (h : ¬ (w.gate.parked = true ∧ w.gate.permit = false)) :
      Effect w (w.note (.resume false))
  | stop : Effect w ({ w with cancelled := true }.note .stop)
  | setMode (m : Mode) : Effect w ({ w with mode := m }.note (.setMode m))
  /-- Registering, taking off, receiving; nobody is held up by it. -/
  | subscribers (r : Registry (Subscriber A.Id)) (chs : List (Channel Notification))
      (h : chs.any Channel.isHeldUp = true → w.isHeldUp = true) :
      Effect w { w with registry := r, channels := chs }

variable (w : Controller A)

/-- Letting the worker through hands over a permit iff it is parked and has none. -/
theorem resume_eq : w.resume =
    if w.gate.parked = true ∧ w.gate.permit = false then
      (true, { w with gate := ⟨true, true⟩ }.note (.resume true))
    else (false, w.note (.resume false)) := by
  rcases hg : w.gate with ⟨_ | _, _ | _⟩ <;> simp [resume, Gate.release, hg, note]

theorem startEngine_effect (script : Engine.Script) : Effect w (w.startEngine script).2 := by
  unfold startEngine
  split
  · exact .nothing
  · rename_i h
    have hl : w.launch = none := by simpa using h
    dsimp only
    split
    · exact .load script _ _ hl
    · exact .loadFails script _ hl
    · exact .loadFails script _ hl

theorem query_effect (c : Engine.Call) : Effect w (w.query c).2 := by
  unfold query
  cases he : w.engine with
  | none => exact .nothing
  | some g => exact .query _ _ (by simp [he])

/-- What comes of a launch, by the first thing that stands in its way. -/
inductive Launching (w : Controller A) (l : Launch) : Except Error Unit × Controller A → Prop where
  | again (h : w.launch ≠ none) : Launching w l (.error .alreadyExecuted, w)
  | noEngine (h : w.launch = none) (he : w.engine = none) : Launching w l (.error .engineNotStarted, w)
  | noThread (h : w.launch = none) (he : w.engine.isSome) {reason : String}
      (hf : (w.findThread l).1 = .error reason) (n : Nat) :
      Launching w l (.error (.spawn reason), { w with attempts := n })
  | launched (h : w.launch = none) (he : w.engine.isSome) (hf : (w.findThread l).1 = .ok ()) (n : Nat) :
      Launching w l (.ok (), { w with launch := some l, attempts := n, phase := .starting }.note (.launch l))

theorem launchOn_launching (l : Launch) : Launching w l (w.launchOn l) := by
  by_cases hl : w.launch = none
  · cases he : w.engine with
    | none =>
      have hw : w.launchOn l = (.error .engineNotStarted, w) := by simp [launchOn, claim, hl, he]
      rw [hw]
      exact .noEngine hl he
    | some g =>
      have hsome : w.engine.isSome := by rw [he]; rfl
      have hclaim : w.claim l = (.ok (), { w with launch := some l }) := by simp [claim, hl, he]
      -- finding a thread takes no account of the claim, and giving it up leaves what there was
      obtain ⟨n, hfind⟩ : ∃ n, ({ w with launch := some l } : Controller A).findThread l =
          ((w.findThread l).1, { w with launch := some l, attempts := n }) := by
        cases l with
        | spawned => exact ⟨w.attempts + 1, rfl⟩
        | borrowed thread => exact ⟨w.attempts, rfl⟩
      rw [launchOn, hclaim]
      dsimp only
      rw [hfind]
      cases hf : (w.findThread l).1 with
      | ok u => exact .launched hl hsome hf n
      | error reason =>
        have hback : ({ w with launch := none, attempts := n } : Controller A) = { w with attempts := n } := by
          rw [← hl]
        dsimp only
        rw [hback]
        exact .noThread hl hsome hf n
  · have hw : w.launchOn l = (.error .alreadyExecuted, w) := by
      rw [launchOn, claim, if_pos (Option.isSome_iff_ne_none.mpr hl)]
    rw [hw]
    exact .again hl

theorem launchOn_effect (l : Launch) : Effect w (w.launchOn l).2 := by
  have h := launchOn_launching w l
  generalize w.launchOn l = r at h ⊢
  cases h with
  | again | noEngine => exact .nothing
  | noThread hl he hf n => exact .noThread hl n
  | launched hl he hf n => exact .launch l hl he n

theorem call_effect (c : Call A.Id) : Effect w (w.call c).2 := by
  cases c with
  | startEngine script => exact startEngine_effect w script
  | execute => exact launchOn_effect w .spawned
  | runBlocking thread => exact launchOn_effect w (.borrowed thread)
  | resume =>
    rw [call, resume_eq]
    split
    · rename_i h; exact .release h.1 h.2
    · rename_i h; exact .releaseNobody h
  | stop => exact .stop
  | setMode m => exact .setMode m
  | setModeTag tag =>
    rw [call, setModeTag]
    split
    · exact .setMode _
    · exact .nothing
  | facts => exact query_effect w .facts
  | agenda => exact query_effect w .agenda
  | addSubscriber i => exact .subscribers _ _ id
  | removeSubscriber i => exact .subscribers _ _ id
  | mode | state | isSuspended | turns | domain | subscriberCount | threadName => exact .nothing

theorem isHeldUp_receive (ch : Channel Notification) (h : ch.receive.2.isHeldUp = true) :
    ch.isHeldUp = true := by
  unfold Channel.receive at h
  split at h
  · exact h
  · cases h

theorem subscribeChannel_effect : Effect w w.subscribeChannel.2 := by
  unfold subscribeChannel
  cases hc : Channel.create (α := Notification) w.config.eventCapacity with
  | error p => exact .nothing
  | ok ch =>
    refine .subscribers _ _ fun h => ?_
    have hch : ch.isHeldUp = false := by
      unfold Channel.create at hc
      split at hc <;> cases hc
      rfl
    simpa [isHeldUp, hch] using h

theorem receive_effect (k : Nat) : Effect w (w.receive k).2 := by
  unfold receive
  cases hk : w.channels[k]? with
  | none => exact .nothing
  | some ch =>
    refine .subscribers _ _ fun h => ?_
    obtain ⟨x, hx, hh⟩ := List.any_eq_true.mp h
    rcases List.mem_or_eq_of_mem_set hx with hx | rfl
    · exact List.any_eq_true.mpr ⟨x, hx, hh⟩
    · exact List.any_eq_true.mpr ⟨ch, List.mem_of_getElem? hk, isHeldUp_receive ch hh⟩

theorem dropReceiver_effect (k : Nat) : Effect w (w.dropReceiver k) := by
  refine .subscribers _ _ fun h => ?_
  obtain ⟨x, hx, hh⟩ := List.any_eq_true.mp h
  obtain ⟨i, hi⟩ := List.mem_iff_getElem?.mp hx
  rw [List.getElem?_modify] at hi
  obtain ⟨y, hy, rfl⟩ := Option.map_eq_some_iff.mp hi
  refine List.any_eq_true.mpr ⟨y, List.mem_of_getElem? hy, ?_⟩
  split at hh
  · cases hh
  · exact hh

theorem access_effect (a : Access A.Id) : Effect w (w.access a).2 := by
  cases a with
  | call c => exact call_effect w c
  | subscribeChannel => exact subscribeChannel_effect w
  | receive k => exact receive_effect w k
  | dropReceiver k => exact dropReceiver_effect w k

/-- What moves keep, one kind of move at a time. -/
theorem move_cases {P : Controller A → Prop} (effect : ∀ v, Effect w v → P v)
    (work : ∀ v, w.step = some v → P v) (m : Move A.Id) : P (w.move m) := by
  cases m with
  | work =>
    rw [move]
    cases h : w.step with
    | none => exact effect w .nothing
    | some v => exact work v h
  | access a => exact effect _ (access_effect w a)

end Cadence.Controller
