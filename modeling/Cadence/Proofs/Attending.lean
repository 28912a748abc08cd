import Cadence.Console.Program
import Cadence.Proofs.Halting
import Cadence.Proofs.Queueing

/-!
# Cadence.Proofs.Attending — a console that follows its run

A console opens one channel before it launches its run, and nobody else ever subscribes.  So everything that is
announced goes through this channel, in order, and is either printed, in the channel, or still due to it.

* `InSession`: the consoles that moves lead to from a freshly opened one.
* `InSession.readPieces`: reading input makes moves and nothing else.
* `Happens`: what a move can do to a console, case by case.
* `InSession.attends`: what is printed and what is on its way make up what was announced.
-/

namespace Cadence

namespace Channel

variable {α : Type} {ch ch' : Channel α} {x : α}

/-- A channel that is in use: its receiver is there, and nobody is held up while it is empty. -/
structure InUse (ch : Channel α) : Prop where
  isOpen : ch.isOpen = true
  capacity : 0 < ch.capacity
  full : ch.waiting ≠ none → ch.queue ≠ []

theorem InUse.receive (h : InUse ch) (hr : ch.receive = (some x, ch')) : InUse ch' ∧ ch.content = x :: ch'.content := by
  unfold Channel.receive at hr
  split at hr
  · cases hr
  · rename_i hq
    cases hr
    exact ⟨⟨h.isOpen, h.capacity, fun hw => absurd rfl hw⟩, by simp [content, hq]⟩

theorem InUse.receive_none (h : InUse ch) (hr : ch.receive.1 = none) : ch.content = [] := by
  unfold Channel.receive at hr
  split at hr
  · rename_i hq
    have hw : ch.waiting = none := by
      by_contra hw
      exact h.full hw hq
    simp [content, hq, hw]
  · cases hr

theorem InUse.send (h : InUse ch) (hw : ch.waiting = none) (x : α) :
    InUse (ch.send x).2 ∧ (ch.send x).2.content = ch.content ++ [x] := by
  have hcap := h.capacity
  by_cases hc : ch.queue.length < ch.capacity
  · have hs : (ch.send x).2 = { ch with queue := ch.queue ++ [x] } := by simp [Channel.send, hw, h.isOpen, hc]
    rw [hs]
    exact ⟨⟨h.isOpen, hcap, fun _ => by simp⟩, by simp [content, hw]⟩
  · have hs : (ch.send x).2 = { ch with waiting := some x } := by simp [Channel.send, hw, h.isOpen, hc]
    rw [hs]
    exact ⟨⟨h.isOpen, hcap, fun _ => List.ne_nil_of_length_pos (by simp only; omega)⟩, by simp [content, hw]⟩

end Channel

namespace Console

open Controller (Reachable Sound Told)

variable {E S : Type} [Engine E] {load : Engine.Script → S → Outcome Engine.Error E × S}
  {k l : Console load} {w v : Controller (parts load)}

/-! ## Sessions -/

/-- A console that has just been opened: it has subscribed, loaded a script, and launched the worker. -/
inductive Opens : Console load → Prop where
  | mk {config : Config} {source : S} {script : Engine.Script} {events : Nat} {w₁ w₂ w₃ : Controller (parts load)}
      (subscribed : (Controller.create (A := parts load) config source {} ()).subscribeChannel = (.ok events, w₁))
      (loaded : w₁.startEngine script = (.ok (), w₂)) (launched : w₂.launchOn .spawned = (.ok (), w₃)) :
      Opens { controller := w₃, events }

/-- The consoles that moves lead to. -/
inductive InSession : Console load → Prop where
  | opens {k : Console load} (h : Opens k) : InSession k
  | move {k : Console load} (h : InSession k) (m : Move) : InSession (k.move m)

theorem moves_cons (k : Console load) (m : Move) (ms : List Move) : k.moves (m :: ms) = (k.move m).moves ms := rfl

theorem InSession.moves (h : InSession k) (ms : List Move) : InSession (k.moves ms) := by
  induction ms generalizing k with
  | nil => exact h
  | cons m ms ih => exact ih (h.move m)

theorem InSession.rest (h : InSession k) (limit : Nat) : InSession (rest limit k) := by
  induction limit generalizing k with
  | zero => exact h
  | succ limit ih =>
    unfold Console.rest
    split
    · rename_i l hl
      have hm := h.move .notice
      rw [Console.move, hl] at hm
      exact ih hm
    · split
      · rename_i l hl
        have hm := h.move .work
        rw [Console.move, hl] at hm
        exact ih hm
      · exact h

/-- Several lines, read one right after another. -/
theorem moves_lines (k : Console load) (lines : List String) : lines.foldl line k = k.moves (lines.map .line) := by
  rw [moves, List.foldl_map]
  rfl

/-- **Reading input is made of moves.** -/
theorem InSession.readPieces (h : InSession k) (limit : Nat) (pieces : List String) :
    InSession (k.readPieces limit pieces).2 := by
  induction pieces generalizing k with
  | nil => exact h.rest limit
  | cons s pieces ih =>
    have hr := h.rest limit
    have hread : InSession ((linesOf [s]).foldl line (Console.rest limit k)) := by
      rw [moves_lines]
      exact hr.moves _
    unfold Console.readPieces
    dsimp only
    split
    · split
      · exact hread.rest limit
      · exact ih hread
    · exact hr

/-- The program opens its console this way. -/
theorem opens_of_launch {κ : Type} [Engine.Child κ] {config : Config} {launcher : Engine.Launcher κ} {script : String}
    {k : OfLauncher κ} (h : launch config launcher script = .ok k) : Opens k := by
  unfold launch at h
  dsimp only at h
  split at h
  · cases h
  rename_i events w₁ hsub
  split at h
  · cases h
  · cases h
  rename_i w₂ hload
  split at h
  · cases h
  rename_i w₃ hclaim
  cases h
  exact .mk hsub hload hclaim

/-! ## Moves -/

/-- The notifications that were printed. -/
def notices (k : Console load) : List Notification :=
  k.stdout.filterMap fun | .notification n => some n | _ => none

/-- What a move can do to a console. -/
inductive Happens (k : Console load) : Console load → Prop where
  | nothing : Happens k k
  | work {w : Controller (parts load)} (h : k.controller.step = some w) : Happens k { k with controller := w }
  | notice {n : Notification} {w : Controller (parts load)} (hw : k.isWaiting = true)
      (h : k.controller.receive k.events = (some n, w)) :
      Happens k (({ k with controller := w } : Console load).receive n)
  /-- A line is a call; something may be said about it, and the console may stop waiting. -/
  | line (c : Controller.Call Empty) {l : Console load} (hw : k.isWaiting = true) (ho : k.inputOpen = true)
      (controller : l.controller = (k.controller.call c).2) (events : l.events = k.events)
      (said : l.notices = k.notices) : Happens k l
  | misread (reason : String) (hw : k.isWaiting = true) (ho : k.inputOpen = true) :
      Happens k (k.breakOff (.unreadable reason))
  | endInput (hw : k.isWaiting = true) (ho : k.inputOpen = true) :
      Happens k { k with controller := (k.controller.setMode .run).resume.2, inputOpen := false }

/-- What is printed as JSON: notifications and the report. -/
def Printed.IsJson : Printed → Prop
  | .text _ => False
  | _ => True

/-- `l` goes on as `k` did, or was broken off by a panic. -/
def KeptOrBroken (k l : Console load) (panics : Payload → Prop) : Prop :=
  l.fault = k.fault ∧ l.isWaiting = k.isWaiting ∨
    l.isWaiting = false ∧ ∃ p, panics p ∧ l.fault = some (.panicked p)

/-- A command that asks the engine something. -/
inductive Command.Asks : Command → Engine.Call → Prop where
  | facts : Asks .facts .facts
  | agenda : Asks .agenda .agenda

/-- What a command does to a console, by the call that it comes to.  It may print texts of the engine. -/
structure Obeys (k : Console load) (c : Command) (l : Console load) (call : Controller.Call Empty) : Prop where
  controller : l.controller = (k.controller.call call).2
  events : l.events = k.events
  said : ∃ said, l.stdout = k.stdout ++ said ∧ ∀ p ∈ said, ¬ p.IsJson
  goesOn : c ≠ .quit → k.KeptOrBroken l fun p => ∃ q, c.Asks q ∧ (k.controller.query q).1 = .panicked p

theorem printReply_frame (k : Console load) (r : Outcome Controller.Error String) :
    (k.printReply r).controller = k.controller ∧ (k.printReply r).events = k.events ∧
      (∃ said, (k.printReply r).stdout = k.stdout ++ said ∧ ∀ p ∈ said, ¬ p.IsJson) ∧
      k.KeptOrBroken (k.printReply r) fun p => r = .panicked p := by
  have silent : ∃ said : List Printed, k.stdout = k.stdout ++ said ∧ ∀ p ∈ said, ¬ p.IsJson :=
    ⟨[], by simp, by simp⟩
  cases r with
  | ok s => exact ⟨rfl, rfl, ⟨[.text s], rfl, by simp [Printed.IsJson]⟩, .inl ⟨rfl, rfl⟩⟩
  | error e => exact ⟨rfl, rfl, silent, .inl ⟨rfl, rfl⟩⟩
  | panicked p => exact ⟨rfl, rfl, silent, .inr ⟨rfl, p, rfl, rfl⟩⟩

/-- **A command is a call.** -/
theorem obey_call (k : Console load) (c : Command) : ∃ call, Obeys k c (k.obey c) call := by
  have silent {l : Console load} (call : Controller.Call Empty) (hc : l.controller = (k.controller.call call).2)
      (he : l.events = k.events) (ho : l.stdout = k.stdout)
      (hw : c ≠ .quit → l.fault = k.fault ∧ l.isWaiting = k.isWaiting) : ∃ call, Obeys k c l call :=
    ⟨call, hc, he, ⟨[], by simp [ho], by simp⟩, fun hq => .inl (hw hq)⟩
  have reply (call : Controller.Call Empty) (w : Controller (parts load)) (r : Outcome Controller.Error String)
      (hw : w = (k.controller.call call).2)
      (hr : ∀ p, r = .panicked p → ∃ q, c.Asks q ∧ (k.controller.query q).1 = .panicked p) :
      ∃ call, Obeys k c (({ k with controller := w } : Console load).printReply r) call := by
    obtain ⟨hcontroller, hevents, hsaid, hgoes⟩ := printReply_frame { k with controller := w } r
    refine ⟨call, hcontroller.trans hw, hevents, hsaid, fun _ => hgoes.imp_right fun ⟨hwait, p, hp, hf⟩ => ?_⟩
    exact ⟨hwait, p, hr p hp, hf⟩
  cases c with
  | resume =>
    unfold obey
    dsimp only
    split <;> exact silent .resume rfl rfl rfl fun _ => ⟨rfl, rfl⟩
  | mode tag =>
    have hc : (k.controller.setModeTag tag).2 = (k.controller.call (.setModeTag tag)).2 := rfl
    unfold obey
    dsimp only
    generalize k.controller.setModeTag tag = p at hc ⊢
    split <;> exact silent (.setModeTag tag) hc rfl rfl fun _ => ⟨rfl, rfl⟩
  | facts => exact reply .facts _ _ rfl fun p hp => ⟨.facts, .facts, hp⟩
  | agenda => exact reply .agenda _ _ rfl fun p hp => ⟨.agenda, .agenda, hp⟩
  | stop => exact silent .stop rfl rfl rfl fun _ => ⟨rfl, rfl⟩
  | quit => exact silent .stop rfl rfl rfl fun hq => absurd rfl hq
  | state | help | unknown verb => exact silent .state rfl rfl rfl fun _ => ⟨rfl, rfl⟩

theorem Obeys.notices_eq {c : Command} {call : Controller.Call Empty} (h : Obeys k c l call) :
    l.notices = k.notices := by
  obtain ⟨said, hout, hsaid⟩ := h.said
  have hnone : said.filterMap (fun | .notification n => some n | _ => none) = ([] : List Notification) := by
    rw [List.filterMap_eq_nil_iff]
    intro p hp
    cases p with
    | notification n => exact absurd trivial (hsaid _ hp)
    | text s => rfl
    | report r => rfl
  rw [notices, hout, List.filterMap_append, hnone, List.append_nil, notices]

theorem obey_happens (hw : k.isWaiting = true) (ho : k.inputOpen = true) (c : Command) : Happens k (k.obey c) := by
  obtain ⟨call, h⟩ := obey_call k c
  exact .line call hw ho h.controller h.events h.notices_eq

/-- A notification arrives only where one is waited for. -/
theorem notice_happens (h : k.notice? = some l) : ∃ n w, k.isWaiting = true ∧
    k.controller.receive k.events = (some n, w) ∧ l = ({ k with controller := w } : Console load).receive n := by
  unfold notice? at h
  split at h
  · split at h
    · cases h
    · rename_i hr
      cases h
      exact ⟨_, _, by assumption, hr, rfl⟩
  · cases h

theorem move_happens (k : Console load) (m : Move) : Happens k (k.move m) := by
  cases m with
  | work =>
    rw [move, work?]
    cases h : k.controller.step with
    | none => exact .nothing
    | some w => exact .work h
  | notice =>
    rw [move]
    cases h : k.notice? with
    | none => exact .nothing
    | some l =>
      obtain ⟨n, w, hw, hr, rfl⟩ := notice_happens h
      exact .notice hw hr
  | line s =>
    rw [move, line]
    split
    · rename_i h
      rw [Bool.and_eq_true] at h
      exact obey_happens h.1 h.2 _
    · exact .nothing
  | misread reason =>
    rw [move, misread]
    split
    · rename_i h
      rw [Bool.and_eq_true] at h
      exact .misread reason h.1 h.2
    · exact .nothing
  | endInput =>
    rw [move, endInput]
    split
    · rename_i h
      rw [Bool.and_eq_true] at h
      exact .endInput h.1 h.2
    · exact .nothing

/-- What the console keeps of a notification that arrives. -/
theorem receive_frame (k : Console load) (n : Notification) :
    (k.receive n).controller = k.controller ∧ (k.receive n).events = k.events ∧
      (k.receive n).stdout = k.stdout ++ [.notification n] ∧ (k.receive n).inputOpen = k.inputOpen ∧
      (k.receive n).isWaiting = (k.isWaiting && !n.isTerminal) := by
  by_cases ht : n.isTerminal = true
  · have hk : k.receive n = { k.print (.notification n) with isWaiting := false } := if_pos ht
    rw [hk]
    exact ⟨rfl, rfl, rfl, rfl, by simp [ht]⟩
  · have hk : k.receive n = k.print (.notification n) ∨
        k.receive n = (k.print (.notification n)).complain hint := by
      rw [receive, if_neg ht]
      split
      · exact .inr rfl
      · exact .inl rfl
    rcases hk with hk | hk <;> rw [hk] <;> exact ⟨rfl, rfl, rfl, rfl, by simp [ht, print, complain]⟩

/-! ## The channel -/

/-- The controller of a console that has printed some notifications: all are announced to its channel. -/
structure Wired (w : Controller (parts load)) (printed : List Notification) (ch : Channel Notification) : Prop where
  channels : w.channels = [ch]
  inUse : ch.InUse
  members : w.registry.members = [.channel 0]
  announced : ∀ e ∈ w.emissions, e.2 = [.channel 0]
  delivered : printed ++ ch.content = w.toldTo (.channel 0)

namespace Wired

variable {printed : List Notification} {ch : Channel Notification}

/-- What leaves the channel alone, and announces to whoever is registered. -/
theorem same (h : Wired w printed ch) (channels : v.channels = w.channels) (registry : v.registry = w.registry)
    (emissions : ∀ e ∈ v.emissions, e ∈ w.emissions ∨ e.2 = w.registry.members)
    (tellings : v.tellings = w.tellings) : Wired v printed ch where
  channels := channels.trans h.channels
  inUse := h.inUse
  members := registry ▸ h.members
  announced e he := (emissions e he).elim (h.announced e) fun hm => hm.trans h.members
  delivered := by rw [h.delivered, Controller.toldTo, Controller.toldTo, tellings]

theorem of_plain (h : Wired w printed ch) (news : List (Controller.Entry Empty)) (plain : ∀ e ∈ news, e.IsPlain)
    (journal : v.journal = news ++ w.journal) (channels : v.channels = w.channels)
    (registry : v.registry = w.registry) : Wired v printed ch := by
  obtain ⟨-, he, ht⟩ := Controller.Recorded.lists_eq journal fun e hm =>
    ⟨(plain e hm).event?, (plain e hm).emission?, (plain e hm).telling?⟩
  exact h.same channels registry (fun e hm => .inl (he ▸ hm)) ht

theorem call (h : Wired w printed ch) (hl : w.launch ≠ none) (c : Controller.Call Empty) :
    Wired (w.call c).2 printed ch := by
  obtain ⟨-, -, -, he, ht⟩ := (Controller.call_effect w c).of_launched hl
  have hs : w.launch.isSome := Option.isSome_iff_ne_none.mpr hl
  have hcr : (w.call c).2.channels = w.channels ∧ (w.call c).2.registry = w.registry := by
    cases c with
    | startEngine script => rw [Controller.call, Controller.startEngine, if_pos hs]; exact ⟨rfl, rfl⟩
    | execute => rw [Controller.call, Controller.launchOn, Controller.claim, if_pos hs]; exact ⟨rfl, rfl⟩
    | runBlocking thread => rw [Controller.call, Controller.launchOn, Controller.claim, if_pos hs]; exact ⟨rfl, rfl⟩
    | facts | agenda => rw [Controller.call, Controller.query]; split <;> exact ⟨rfl, rfl⟩
    | setModeTag tag => rw [Controller.call, Controller.setModeTag]; split <;> exact ⟨rfl, rfl⟩
    | addSubscriber i => cases i
    | removeSubscriber i => cases i
    | _ => exact ⟨rfl, rfl⟩
  exact h.same hcr.1 hcr.2 (fun e hm => .inl (he ▸ hm)) ht

theorem calls {as : List Controller.Act} (h : Wired w printed ch) (hv : Controller.Since w as v) :
    Wired v printed ch := by
  obtain ⟨-, g, d, news, own, -⟩ := hv
  exact h.of_plain news (fun e he => (own e he).isPlain) rfl rfl rfl

theorem part (h : Wired w printed ch) (hp : Controller.Part w v) : Wired v printed ch := by
  cases hp with
  | report x =>
    rw [Controller.apply_eq]
    refine h.same rfl rfl (fun e he => ?_) ?_
    · cases hn : w.state.noticeOf x with
      | none => exact .inl (by simpa [Controller.emissions, Controller.Entry.emission?, hn] using he)
      | some n =>
        have he' : e ∈ w.emissions ∨ e = (n, w.registry.members) := by
          simpa [Controller.emissions, Controller.Entry.emission?, hn] using he
        exact he'.imp_right fun he => by rw [he]
    · cases w.state.noticeOf x <;> simp [Controller.tellings, Controller.Entry.telling?]
  | ask c =>
    cases hg : w.engine with
    | none => rwa [Controller.ask_of_none hg]
    | some g => exact h.calls (Controller.ask_since (by rw [hg]; rfl) c)
  | callHook k =>
    cases hg : w.engine with
    | none => rwa [Controller.callHook_of_none hg]
    | some g => exact h.calls (Controller.callHook_since (by rw [hg]; rfl) k)
  | remark e he => exact h.of_plain [e] (by simpa using he.isPlain) rfl rfl rfl
  | point p g n => exact h.of_plain [] (by simp) rfl rfl rfl

/-- What arrives is the oldest notification in the channel. -/
theorem receive (h : Wired w printed ch) {n : Notification} (hv : w.receive 0 = (some n, v)) :
    ∃ ch', Wired v (printed ++ [n]) ch' ∧ ch.content = n :: ch'.content := by
  simp only [Controller.receive, h.channels, List.getElem?_cons_zero, Prod.mk.injEq] at hv
  obtain ⟨hn, rfl⟩ := hv
  obtain ⟨huse, hc⟩ := h.inUse.receive (Prod.ext hn rfl)
  refine ⟨_, ⟨rfl, huse, h.members, h.announced, ?_⟩, hc⟩
  rw [List.append_assoc, List.singleton_append, ← hc]
  exact h.delivered

theorem receive_none (h : Wired w printed ch) (hv : (w.receive 0).1 = none) : ch.content = [] := by
  simp only [Controller.receive, h.channels, List.getElem?_cons_zero] at hv
  exact h.inUse.receive_none hv

/-- A notification that is due goes into the channel. -/
theorem told (h : Wired w printed ch) (hr : Reachable w) (hh : w.isHeldUp = false)
    {s : Controller.Subscriber Empty} {n : Notification} {rest : List (Controller.Subscriber Empty × Notification)}
    (due : w.outbox = (s, n) :: rest) (hv : v = { w.tell s n with outbox := rest }) :
    ∃ ch', Wired v printed ch' ∧ ch'.content = ch.content ++ [n] := by
  -- there is nobody else to be told
  have hs : s = .channel 0 := by
    have hmem : (s, n) ∈ w.emissions.flatMap fun e => e.2.map (·, e.1) := by
      rw [← hr.recorded.delivered, due]
      simp
    obtain ⟨e, he, hs⟩ := List.mem_flatMap.mp hmem
    rw [h.announced e he] at hs
    exact (Prod.mk.inj (List.mem_singleton.mp hs)).1
  subst hs
  have hw : ch.waiting = none := by simpa [Controller.isHeldUp, h.channels, Channel.isHeldUp] using hh
  obtain ⟨huse, hc⟩ := h.inUse.send hw n
  refine ⟨(ch.send n).2, ⟨?_, huse, ?_, ?_, ?_⟩, hc⟩ <;> rw [hv]
  · simp [Controller.tell, Controller.note, h.channels]
  · exact h.members
  · simpa [Controller.emissions, Controller.tell, Controller.note, Controller.Entry.emission?] using h.announced
  · rw [hc, ← List.append_assoc, h.delivered]
    simp [Controller.toldTo, Controller.tellings, Controller.tell, Controller.note, Controller.Entry.telling?]

/-- A step of the worker sends what was due first into the channel, or goes through a phase. -/
theorem step (h : Wired w printed ch) (hr : Reachable w) (hs : w.step = some v) :
    ∃ ch', Wired v printed ch' ∧
      ((∃ x, w.outbox = x :: v.outbox ∧ ch'.content.length = ch.content.length + 1 ∧ Told w v) ∨
        (w.outbox = [] ∧ ch' = ch ∧ Controller.Stride w v)) := by
  unfold Controller.step at hs
  split at hs
  · cases hs
  rename_i hh
  rw [Bool.not_eq_true] at hh
  cases ho : w.outbox with
  | nil =>
    rw [ho] at hs
    obtain ⟨r, hproceed, rfl⟩ := Option.map_eq_some_iff.mp hs
    exact ⟨ch, (Controller.proceed_parts hproceed).rec h fun _ hp h => h.part hp,
      .inr ⟨rfl, rfl, Controller.proceed_stride hproceed⟩⟩
  | cons x rest =>
    obtain ⟨s, n⟩ := x
    rw [ho] at hs
    cases hs
    obtain ⟨ch', hw, hc⟩ := h.told hr hh ho rfl
    refine ⟨ch', hw, .inl ⟨(s, n), rfl, by simp [hc], ?_⟩⟩
    cases s with
    | observer i => cases i
    | channel k => exact .channel ho

end Wired

/-- A console follows its run: it has launched it, and nothing is announced that does not come to it. -/
structure Attends (k : Console load) : Prop where
  reachable : Reachable k.controller
  launched : k.controller.phase ≠ .idle
  events : k.events = 0
  wired : ∃ ch, Wired k.controller k.notices ch
  /-- Nothing is waited for after a terminal notification. -/
  waits : k.isWaiting = true → ∀ n ∈ k.notices, n.isTerminal = false

theorem Opens.attends (h : Opens k) : Attends k := by
  obtain ⟨hsub, hload, hlaunch⟩ := h
  rename_i config source script events w₁ w₂ w₃
  have hr := Reachable.create (A := parts load) config source {} ()
  have hr₁ : Reachable w₁ := by
    have hm := hr.move (.access .subscribeChannel)
    rwa [Controller.move, Controller.access, hsub] at hm
  have hr₂ : Reachable w₂ := by
    have hm := hr₁.move (.call (.startEngine script))
    rwa [Controller.move_call, Controller.call, hload] at hm
  have hr₃ : Reachable w₃ := by
    have hm := hr₂.move (.call .execute)
    rwa [Controller.move_call, Controller.call, hlaunch] at hm
  have hw₁ : events = 0 ∧ ∃ ch, Wired w₁ [] ch := by
    unfold Controller.subscribeChannel at hsub
    split at hsub
    · cases hsub
    rename_i ch hc
    cases hsub
    have huse : ch.InUse := by
      unfold Channel.create at hc
      split at hc <;> cases hc
      exact ⟨rfl, by simp only; omega, fun hw => absurd rfl hw⟩
    refine ⟨rfl, ch, rfl, huse, by simp [Registry.add, Controller.create], fun e he => absurd he ?_, ?_⟩
    · simp [Controller.emissions, Controller.create]
    · rename_i hc
      unfold Channel.create at hc
      split at hc <;> cases hc
      rfl
  obtain ⟨hevents, ch, hw₁⟩ := hw₁
  have hw₂ : Wired w₂ [] ch := by
    unfold Controller.startEngine at hload
    split at hload
    · cases hload
    dsimp only at hload
    split at hload <;> cases hload
    refine Wired.part ?_ (.report .engineLoaded)
    refine hw₁.same rfl rfl (fun e he => .inl ?_) ?_
    · simpa [Controller.emissions, Controller.note, Controller.Entry.emission?] using he
    · simp [Controller.tellings, Controller.note, Controller.Entry.telling?]
  have hw₃ : w₃.phase = .starting ∧ Wired w₃ [] ch := by
    have hl := Controller.launchOn_launching w₂ .spawned
    rw [hlaunch] at hl
    cases hl
    exact ⟨rfl, hw₂.of_plain [.launch .spawned] (by simp [Controller.Entry.IsPlain]) rfl rfl rfl⟩
  exact ⟨hr₃, by simp [hw₃.1], hevents, ⟨ch, hw₃.2⟩, fun _ n hn => by cases hn⟩

theorem Attends.happens (h : Attends k) (hl : Happens k l) : Attends l := by
  obtain ⟨ch, hw⟩ := h.wired
  have hlaunch : k.controller.launch ≠ none := by rw [ne_eq, h.reachable.sound.launched]; exact h.launched
  have stays (m : Controller.Move Empty) : (k.controller.move m).phase ≠ .idle :=
    h.reachable.stays_launched h.launched [m]
  cases hl with
  | nothing => exact h
  | @work w hs =>
    have hm : k.controller.move .work = w := by rw [Controller.move, hs]; rfl
    obtain ⟨ch', hw', -⟩ := hw.step h.reachable hs
    exact ⟨h.reachable.of_step hs, hm ▸ stays .work, h.events, ⟨ch', hw'⟩, h.waits⟩
  | @notice n w hwait hs =>
    rw [h.events] at hs
    obtain ⟨ch', hw', -⟩ := hw.receive hs
    have hm : k.controller.move (.access (.receive 0)) = w := by rw [Controller.move, Controller.access, hs]
    obtain ⟨hc, he, ho, -, hwait'⟩ := receive_frame { k with controller := w } n
    have hn : (({ k with controller := w } : Console load).receive n).notices = k.notices ++ [n] := by
      rw [notices, ho]
      simp [notices]
    have hc' := hc.trans hm.symm
    refine ⟨hc' ▸ h.reachable.move _, hc' ▸ stays _, he.trans h.events, ⟨ch', ?_⟩, ?_⟩
    · rw [hc, hn]
      exact hw'
    · rw [hwait', hn]
      intro hstill x hx
      rcases List.mem_append.mp hx with hx | hx
      · exact h.waits hwait x hx
      · rw [List.mem_singleton.mp hx]
        simpa [hwait] using hstill
  | line c hwait ho hc he hn =>
    refine ⟨hc ▸ h.reachable.move (.call c), hc ▸ stays (.call c), he.trans h.events, ⟨ch, ?_⟩, ?_⟩
    · rw [hc, hn]
      exact hw.call hlaunch c
    · rw [hn]
      exact fun _ => h.waits hwait
  | misread => exact ⟨h.reachable, h.launched, h.events, h.wired, fun hf => by cases hf⟩
  | endInput hwait ho =>
    have hset := h.reachable.move (.call (.setMode .run))
    have hset' := stays (.call (.setMode .run))
    have hl' : (k.controller.setMode .run).launch ≠ none := hlaunch
    exact ⟨hset.move (.call .resume), hset.stays_launched hset' [.call .resume], h.events,
      ⟨ch, (hw.call hlaunch (.setMode .run)).call hl' .resume⟩, h.waits⟩

/-- **A console follows its run**, whatever happens in its session. -/
theorem InSession.attends (h : InSession k) : Attends k := by
  induction h with
  | opens h => exact h.attends
  | move _ m ih => exact ih.happens (move_happens _ m)

end Console

end Cadence
