import Cadence.Proofs.Queueing
import Cadence.Proofs.Subscribing

/-!
# Cadence.Proofs.Feeding — a channel of a controller

A channel that is subscribed is sent everything that is announced from then on, and nothing else is done with it but
what its receiver does.  So what holds of a channel holds of what the receiver gets of a run.

* `access_channel`: an access is at most one operation on a channel.
* `Fed`: the operations that a run comes to, as its channel sees it; `Reachable.fed`: they are the same.
* `Reachable.feeds`: what the receiver gets.
-/

namespace Cadence.Controller

variable {A : Assembly} {w v : Controller A} {k : Nat}

/-! ## Channels that are numbered -/

/-- Channels are announced to only after they were subscribed. -/
theorem Reachable.numbered (h : Reachable w) :
    Numbered w ∧ ∀ e ∈ w.emissions, ∀ k, .channel k ∈ e.2 → k < w.channels.length := by
  refine h.upholds (P := fun w => Numbered w ∧ ∀ e ∈ w.emissions, ∀ k, .channel k ∈ e.2 → k < w.channels.length)
    ?_ (fun w a _ hw => ?_) (fun w v _ hw ht => ?_) fun w r _ hw _ _ hr => ?_
  · exact fun _ _ _ _ => ⟨fun k hk => absurd hk List.not_mem_nil, fun e he => absurd he List.not_mem_nil⟩
  · refine ⟨hw.1.access a, fun e he k hk => Nat.lt_of_lt_of_le (hw.2 e ?_ k hk) (length_channels_access w a)⟩
    rwa [(access_effect w a).emissions_eq] at he
  · obtain ⟨hreg, hch⟩ := ht.registry_eq
    refine ⟨hw.1.same hreg hch, fun e he k hk => hch ▸ hw.2 e ?_ k hk⟩
    cases ht <;> simpa [emissions, note, Entry.emission?] using he
  · obtain ⟨hreg, hch⟩ := (proceed_parts hr).registry_eq
    obtain ⟨new, hem, hnew⟩ := (proceed_parts hr).announces
    refine ⟨hw.1.same hreg (congrArg List.length hch), fun e he k hk => ?_⟩
    rw [hem, List.mem_append] at he
    rw [hch]
    rcases he with he | he
    · exact hw.2 e he k hk
    · exact hw.1 k (hnew e he ▸ hk)

/-! ## Accesses to a channel -/

/-- The operation on a channel that an access comes to. -/
def channelOp? (k : Nat) : Access A.Id → Option (Channel.Op Notification)
  | .receive j => if j = k then some .receive else none
  | .dropReceiver j => if j = k then some .close else none
  | _ => none

/-- What an access gets out of a channel. -/
def taken? (k : Nat) : Controller A × Access A.Id → Option Notification
  | (w, .receive j) => if j = k then (w.receive j).1 else none
  | _ => none

/-- **An access is at most one operation** on a channel. -/
theorem access_channel {ch : Channel Notification} (h : w.channels[k]? = some ch) (a : Access A.Id) :
    (w.access a).2.channels[k]? = some (ch.acts (channelOp? k a).toList) ∧
      ch.received (channelOp? k a).toList = (taken? k (w, a)).toList ∧ ch.sent (channelOp? k a).toList = [] := by
  obtain ⟨hk, hget⟩ := List.getElem?_eq_some_iff.mp h
  have aside {a : Access A.Id} (hop : channelOp? k a = none) (htaken : taken? k (w, a) = none)
      (hch : (w.access a).2.channels[k]? = w.channels[k]?) :
      (w.access a).2.channels[k]? = some (ch.acts (channelOp? k a).toList) ∧
        ch.received (channelOp? k a).toList = (taken? k (w, a)).toList ∧ ch.sent (channelOp? k a).toList = [] := by
    rw [hop, htaken, hch, h]
    exact ⟨rfl, rfl, rfl⟩
  rcases a with (c | _ | j | j)
  case call => exact aside rfl rfl (congrArg (·[k]?) (call_channels w c))
  case subscribeChannel =>
    refine aside rfl rfl ?_
    rw [access, subscribeChannel]
    split
    · rfl
    · exact List.getElem?_append_left hk
  case receive =>
    by_cases hj : j = k
    · subst hj
      have hw : w.receive j = (ch.receive.1, { w with channels := w.channels.set j ch.receive.2 }) := by
        simp only [receive, h]
      simp [access, hw, channelOp?, taken?, Channel.act, Channel.received, Channel.gives, Channel.sent, Channel.takes, hk]
    · refine aside (if_neg hj) (if_neg hj) ?_
      rw [access, receive]
      split
      · rfl
      · exact List.getElem?_set_ne hj
  case dropReceiver =>
    by_cases hj : j = k
    · subst hj
      simp [access, dropReceiver, channelOp?, taken?, h, Channel.act, Channel.received, Channel.gives, Channel.sent,
        Channel.takes]
    · refine aside (if_neg hj) rfl ?_
      simp [access, dropReceiver, hj]

/-- The worker itself delivers nothing in a phase. -/
theorem Parts.tellings_eq (h : Parts w v) : v.tellings = w.tellings := by
  obtain ⟨news, hj, hn⟩ := h.news
  have hsilent : readOff Entry.telling? news = [] := readOff_eq_nil _ fun e he => by
    have hwork := hn e he
    cases e <;> first | rfl | exact hwork.elim
  rw [tellings, hj, readOff_append, hsilent, List.append_nil, tellings]

/-! ## A run, as a channel sees it -/

/-- **Induction on the rest of a run**, with the accesses made so far, where it is known that nobody is held up when
something is delivered. -/
theorem Reachable.moves_serve {P : List (Controller A × Access A.Id) → Controller A → Prop}
    (access : ∀ us w a, Reachable w → P us w → P (us ++ [(w, a)]) (w.access a).2)
    (told : ∀ us w v, Reachable w → w.isHeldUp = false → P us w → Told w v → P us v)
    (phase : ∀ us w r, Reachable w → P us w → w.proceed? = some r → P us (conclude r))
    (h : Reachable w) (us : List (Controller A × Access A.Id)) (hp : P us w) (ms : List (Move A.Id)) :
    P (us ++ w.usesOf ms) (w.moves ms) := by
  induction ms generalizing w us with
  | nil => simpa [usesOf] using hp
  | cons m ms ih =>
    have hm : P (us ++ w.uses m) (w.move m) := by
      cases m with
      | access a => exact access us w a h hp
      | work =>
        by_cases hheld : w.isHeldUp = true
        · simpa [uses, Controller.move, Controller.step, hheld] using hp
        -- accesses hold nobody up
        · exact move_uses (Q := fun v => Reachable v ∧ v.isHeldUp = false)
            (fun w a hw => ⟨hw.1.move (.access a), (access_effect w a).stays_free hw.2⟩) (fun us w a hw => access us w a hw.1)
            (fun us w v hw hp ht => told us w v hw.1 hw.2 hp ht) (fun us w r hw hp _ _ hr => phase us w r hw.1 hp hr)
            us ⟨h, by simpa using hheld⟩ hp .work
    have hms := ih (h.move m) _ hm
    simpa [usesOf] using hms

/-- The operations `os` on a channel are what its receiver did with it in the accesses `us`, and what it was sent;
`past` was announced before it was subscribed. -/
structure Fed (k : Nat) (new : Channel Notification) (past : List (Notification × List (Subscriber A.Id)))
    (us : List (Controller A × Access A.Id)) (w : Controller A) (os : List (Channel.Op Notification)) : Prop where
  channel : w.channels[k]? = some (new.acts os)
  member : .channel k ∈ w.registry.members
  received : new.received os = us.filterMap (taken? k)
  sent : new.sent os = w.toldTo (.channel k)
  dropped : .close ∈ os ↔ ∃ u, (u, .dropReceiver k) ∈ us
  announced : ∃ more, w.emissions = past ++ more ∧ ∀ e ∈ more, .channel k ∈ e.2

section Feeding

variable {new : Channel Notification} {past : List (Notification × List (Subscriber A.Id))}
  {us : List (Controller A × Access A.Id)} {os : List (Channel.Op Notification)}

/-- A subscription of a channel is not taken back. -/
theorem mem_members_stays (h : .channel k ∈ w.registry.members) (a : Access A.Id) :
    .channel k ∈ (w.access a).2.registry.members := by
  have add (s : Subscriber A.Id) : .channel k ∈ (w.registry.add s).2.members := by
    unfold Registry.add
    split
    · exact h
    · exact List.mem_append_left _ h
  rcases a with (c | _ | j | j)
  case call =>
    by_cases hs : (∃ i, c = .addSubscriber i) ∨ ∃ i, c = .removeSubscriber i
    · rcases hs with ⟨i, rfl⟩ | ⟨i, rfl⟩
      · exact add _
      · exact List.mem_filter.mpr ⟨h, by simp⟩
    · rw [not_or, not_exists, not_exists] at hs
      rwa [access, (call_registry c hs.1 hs.2).1]
  case subscribeChannel =>
    rw [access, subscribeChannel]
    split
    · exact h
    · exact add _
  case receive =>
    rw [access, receive]
    split <;> exact h
  case dropReceiver => exact h

theorem mem_channelOp {a : Access A.Id} : .close ∈ (channelOp? k a).toList ↔ a = .dropReceiver k := by
  rcases a with (c | _ | j | j)
  case receive =>
    rw [channelOp?]
    split <;> simp
  case dropReceiver =>
    rw [channelOp?]
    split <;> rename_i hj <;> simp [hj]
  all_goals simp [channelOp?]

theorem Fed.access (h : Fed k new past us w os) (a : Access A.Id) :
    Fed k new past (us ++ [(w, a)]) (w.access a).2 (os ++ (channelOp? k a).toList) := by
  obtain ⟨hch, hreceived, hsent⟩ := access_channel h.channel a
  have htold : (w.access a).2.toldTo (.channel k) = w.toldTo (.channel k) := by
    rw [toldTo, (access_effect w a).tellings_eq, toldTo]
  refine ⟨?_, mem_members_stays h.member a, ?_, ?_, ?_, ?_⟩
  · rw [hch, Channel.acts_append]
  · rw [Channel.received_append, h.received, hreceived, List.filterMap_append]
    cases hk : taken? k (w, a) <;> simp [hk]
  · rw [Channel.sent_append, h.sent, hsent, List.append_nil, htold]
  · rw [List.mem_append, h.dropped, mem_channelOp]
    simp only [List.mem_append, List.mem_singleton, Prod.mk.injEq, exists_or]
    simp [eq_comm]
  · rw [(access_effect w a).emissions_eq]
    exact h.announced

theorem Fed.same (h : Fed k new past us w os) (hch : v.channels[k]? = w.channels[k]?) (hr : v.registry = w.registry)
    (ht : v.toldTo (.channel k) = w.toldTo (.channel k))
    (ha : ∃ more, v.emissions = w.emissions ++ more ∧ ∀ e ∈ more, .channel k ∈ e.2) : Fed k new past us v os := by
  refine ⟨hch.trans h.channel, hr ▸ h.member, h.received, h.sent.trans ht.symm, h.dropped, ?_⟩
  obtain ⟨more, hem, hmore⟩ := h.announced
  obtain ⟨later, hem', hlater⟩ := ha
  refine ⟨more ++ later, by rw [hem', hem, List.append_assoc], fun e he => ?_⟩
  exact (List.mem_append.mp he).elim (hmore e) (hlater e)

theorem toldTo_note (w : Controller A) (s t : Subscriber A.Id) (n : Notification) (p : Option Payload) :
    (w.note (.told s n p)).toldTo t = w.toldTo t ++ if s = t then [n] else [] := by
  by_cases hs : s = t <;> simp [toldTo, tellings, note, Entry.telling?, hs]

theorem Fed.told (h : Fed k new past us w os) (hheld : w.isHeldUp = false) (ht : Told w v) :
    ∃ os, Fed k new past us v os := by
  cases ht with
  | @observer i n rest due crowd panic =>
    refine ⟨os, h.same rfl rfl ?_ ⟨[], by simp [emissions, note, Entry.emission?], by simp⟩⟩
    exact (toldTo_note _ (.observer i) (.channel k) n panic).trans (by simp [toldTo, tellings])
  | @channel j n rest due =>
    have htold := toldTo_note
      { w with channels := w.channels.modify j fun ch => (ch.send n).2, outbox := rest } (.channel j) (.channel k) n none
    have hem : ∃ more, (({ w with
        channels := w.channels.modify j fun ch => (ch.send n).2
        outbox := rest } : Controller A).note (.told (.channel j) n none)).emissions = w.emissions ++ more ∧
          ∀ e ∈ more, .channel k ∈ e.2 := ⟨[], by simp [emissions, note, Entry.emission?], by simp⟩
    by_cases hj : j = k
    · subst hj
      -- nobody is held up, so what is sent is taken in
      have hfree : (new.acts os).isHeldUp = false := by
        by_contra hch
        have := List.any_eq_true.mpr ⟨_, List.mem_of_getElem? h.channel, by simpa using hch⟩
        rw [isHeldUp, this] at hheld
        cases hheld
      obtain ⟨more, hem', hmore⟩ := h.announced
      refine ⟨os ++ [.send n], ?_, h.member, ?_, ?_, ?_, more, ?_, hmore⟩
      · simp [note, h.channel, Channel.acts_append, Channel.act]
      · simp [Channel.received_append, Channel.received, Channel.gives, h.received]
      · rw [Channel.sent_append, h.sent, htold]
        simp [Channel.sent, Channel.takes, hfree, toldTo, tellings]
      · simpa using h.dropped
      · simpa [emissions, note, Entry.emission?] using hem'
    · refine ⟨os, h.same ?_ rfl ?_ hem⟩
      · simp [note, hj]
      · rw [htold]
        simp [hj, toldTo, tellings]

theorem Fed.phase (h : Fed k new past us w os) {r : Outcome Failure Phase × Controller A} (hr : w.proceed? = some r) :
    Fed k new past us (conclude r) os := by
  have hp := proceed_parts hr
  refine h.same (congrArg (·[k]?) hp.registry_eq.2) hp.registry_eq.1 ?_ ?_
  · rw [toldTo, hp.tellings_eq, toldTo]
  · obtain ⟨more, hem, hmore⟩ := hp.announces
    exact ⟨more, hem, fun e he => hmore e he ▸ h.member⟩

/-- **A run is a list of operations** on a channel that is subscribed. -/
theorem Reachable.fed (hw : Reachable w) (h : Fed k new past us w os) (ms : List (Move A.Id)) :
    ∃ os, Fed k new past (us ++ w.usesOf ms) (w.moves ms) os :=
  hw.moves_serve (P := fun us w => ∃ os, Fed k new past us w os) (fun _ _ a _ ⟨_, h⟩ => ⟨_, h.access a⟩)
    (fun _ _ _ _ hheld ⟨_, h⟩ ht => h.told hheld ht) (fun _ _ _ _ ⟨_, h⟩ hr => ⟨_, h.phase hr⟩) us ⟨os, h⟩ ms

/-- What was sent to a channel and what is due to it are what was announced since it was subscribed. -/
theorem Fed.toldTo_eq (h : Fed k new past us w os) (hw : Recorded w) (hpast : ∀ e ∈ past, .channel k ∉ e.2) :
    w.toldTo (.channel k) ++ w.dueTo (.channel k) = (w.emissions.drop past.length).map Prod.fst := by
  obtain ⟨more, hem, hmore⟩ := h.announced
  rw [toldTo_append hw, hem, List.filter_append, List.drop_left, List.filter_eq_nil_iff.mpr fun e he => by simpa using hpast e he,
    List.filter_eq_self.mpr fun e he => by simpa using hmore e he, List.nil_append]

end Feeding

/-! ## What a receiver gets -/

/-- A channel that has just been subscribed. -/
theorem Reachable.fed_new (h : Reachable w) (hk : w.subscribeChannel.1 = .ok k) :
    ∃ new, Channel.create w.config.eventCapacity = .ok new ∧ (∀ e ∈ w.emissions, .channel k ∉ e.2) ∧
      w.subscribeChannel.2.emissions = w.emissions ∧
      Fed k new w.emissions [] w.subscribeChannel.2 [] := by
  obtain ⟨hnumbered, hbefore⟩ := h.numbered
  cases hnew : Channel.create (α := Notification) w.config.eventCapacity with
  | error p =>
    simp only [subscribeChannel, hnew] at hk
    cases hk
  | ok new =>
  simp only [subscribeChannel, hnew] at hk ⊢
  cases hk
  have hpast : ∀ e ∈ w.emissions, .channel w.channels.length ∉ e.2 :=
    fun e he hmem => Nat.lt_irrefl _ (hbefore e he _ hmem)
  have htold : w.toldTo (.channel w.channels.length) = [] := by
    have happend := toldTo_append h.recorded (.channel w.channels.length)
    rw [List.filter_eq_nil_iff.mpr fun e he => by simpa using hpast e he] at happend
    exact (List.append_eq_nil_iff.mp happend).1
  refine ⟨new, rfl, hpast, rfl, by simp, ?_, rfl, htold.symm, by simp, [], by simp [emissions], by simp⟩
  unfold Registry.add
  split
  · assumption
  · simp

/-- What was announced on the way from one controller to another. -/
def announcedSince (w v : Controller A) : List Notification := (v.emissions.drop w.emissions.length).map Prod.fst

/-- What the receiver of a channel gets in moves, from where it was subscribed. -/
structure Feeds (k : Nat) (v : Controller A) (ms : List (Move A.Id)) : Prop where
  /-- At any time it is the beginning of what was announced since. -/
  isPrefix : (v.usesOf ms).filterMap (taken? k) <+: announcedSince v (v.moves ms)
  /-- While the receiver is there, the rest is queued, is held up, or is still due. -/
  lossless : (∀ u, (u, .dropReceiver k) ∉ v.usesOf ms) → ∃ ch, (v.moves ms).channels[k]? = some ch ∧
    ch.queue.length ≤ max v.config.eventCapacity 1 ∧
    (v.usesOf ms).filterMap (taken? k) ++ ch.queue ++ ch.waiting.toList ++ (v.moves ms).dueTo (.channel k) =
      announcedSince v (v.moves ms)
  /-- The worker is held up by this channel only where something can be received, which lets it go on, -/
  frees : ∀ ch, (v.moves ms).channels[k]? = some ch → ch.isHeldUp = true →
    ((v.moves ms).receive k).1 ≠ none ∧
    ((∀ j ch, j ≠ k → (v.moves ms).channels[j]? = some ch → ch.isHeldUp = false) →
      ((v.moves ms).receive k).2.isHeldUp = false)
  /-- and never once the receiver is dropped. -/
  unblocked : (∃ u, (u, .dropReceiver k) ∈ v.usesOf ms) →
    ∀ ch, (v.moves ms).channels[k]? = some ch → ch.isHeldUp = false
  /-- Whoever receives until the worker is done and nothing is left has received everything, -/
  whole : (∀ u, (u, .dropReceiver k) ∉ v.usesOf ms) → (v.moves ms).isDone = true →
    ((v.moves ms).receive k).1 = none → (v.usesOf ms).filterMap (taken? k) = announcedSince v (v.moves ms)
  /-- which comes to pass by receiving. -/
  drained : (∀ u, (u, .dropReceiver k) ∉ v.usesOf ms) → (v.moves ms).isDone = true →
    ∃ n, (v.usesOf (ms ++ List.replicate n (.access (.receive k)))).filterMap (taken? k) =
      announcedSince v (v.moves ms)

/-- The moves of a receiver. -/
theorem moves_receive {ch : Channel Notification} (h : w.channels[k]? = some ch) (n : Nat) :
    (w.moves (List.replicate n (.access (.receive k)))).channels[k]? = some (ch.acts (List.replicate n .receive)) ∧
      ∀ u, (u, .dropReceiver k) ∉ w.usesOf (List.replicate n (.access (.receive k))) := by
  induction n generalizing w ch with
  | zero => exact ⟨h, by simp [usesOf]⟩
  | succ n ih =>
    have hch := (access_channel h (.receive k)).1
    rw [channelOp?, if_pos rfl] at hch
    obtain ⟨hmoves, hdrop⟩ := ih hch
    refine ⟨hmoves, fun u hu => ?_⟩
    rcases List.mem_append.mp hu with hu | hu
    · cases List.mem_singleton.mp hu
    · exact hdrop u hu

theorem receive_eq {ch : Channel Notification} (h : w.channels[k]? = some ch) :
    w.receive k = (ch.receive.1, { w with channels := w.channels.set k ch.receive.2 }) := by
  simp only [receive, h]

/-- Nobody holds the worker up, if neither the one channel does nor another one. -/
theorem isHeldUp_set {cs : List (Channel Notification)} {ch : Channel Notification}
    (h : ∀ j c, j ≠ k → cs[j]? = some c → c.isHeldUp = false) (hch : ch.isHeldUp = false) :
    (cs.set k ch).any Channel.isHeldUp = false := by
  refine List.any_eq_false.mpr fun c hc => ?_
  obtain ⟨j, hj⟩ := List.mem_iff_getElem?.mp hc
  rw [Bool.not_eq_true]
  by_cases hjk : j = k
  · subst hjk
    rw [List.getElem?_set_self'] at hj
    obtain ⟨-, -, rfl⟩ := Option.map_eq_some_iff.mp hj
    exact hch
  · rw [List.getElem?_set_ne (Ne.symm hjk)] at hj
    exact h j c hjk hj

section Receiving

variable {new : Channel Notification} (hnew : Channel.create w.config.eventCapacity = .ok new)
  (hpast : ∀ e ∈ w.emissions, .channel k ∉ e.2) (hv : Reachable v) (hem : v.emissions = w.emissions)
  (hfed : Fed k new w.emissions [] v [])

include hnew hpast hv hem hfed

/-- A run, as a channel sees it that was subscribed before it, and the law of channels. -/
theorem feeds_law (ms : List (Move A.Id)) : ∃ os, (v.moves ms).channels[k]? = some (new.acts os) ∧
    Channel.Lawful (max w.config.eventCapacity 1) new os ∧ new.received os = (v.usesOf ms).filterMap (taken? k) ∧
    (.close ∈ os ↔ ∃ u, (u, .dropReceiver k) ∈ v.usesOf ms) ∧
    new.sent os ++ (v.moves ms).dueTo (.channel k) = announcedSince v (v.moves ms) := by
  obtain ⟨os, hos⟩ := hv.fed hfed ms
  refine ⟨os, hos.channel, Channel.lawful_of_create hnew os, hos.received, hos.dropped, ?_⟩
  rw [hos.sent, hos.toldTo_eq (hv.moves ms).recorded hpast, announcedSince, hem]

theorem feeds_whole (ms : List (Move A.Id)) (hkept : ∀ u, (u, .dropReceiver k) ∉ v.usesOf ms)
    (hd : (v.moves ms).isDone = true) (hr : ((v.moves ms).receive k).1 = none) :
    (v.usesOf ms).filterMap (taken? k) = announcedSince v (v.moves ms) := by
  obtain ⟨os, hch, hlaw, hreceived, hclose, hsent⟩ := feeds_law hnew hpast hv hem hfed ms
  obtain ⟨-, ho, -⟩ := isDone_iff.mp hd
  have hlossless := hlaw.lossless fun hmem => (hclose.mp hmem).elim hkept
  rw [receive_eq hch] at hr
  have hcontent : (new.acts os).content = [] := by
    obtain ⟨hnil, -⟩ | ⟨x, rest, -, -, hx⟩ := ((Channel.Steady.create hnew).acts os).receive_cases
    · exact hnil
    · rw [hx] at hr
      cases hr
  rw [List.append_assoc, show (new.acts os).queue ++ _ = [] from hcontent, List.append_nil] at hlossless
  rw [← hreceived, hlossless, ← hsent, dueTo, ho]
  exact (List.append_nil _).symm

end Receiving

/-- **A receiver gets all of a run**, from where its channel was subscribed. -/
theorem Reachable.feeds (h : Reachable w) (hk : w.subscribeChannel.1 = .ok k) (ms : List (Move A.Id)) :
    Feeds k w.subscribeChannel.2 ms := by
  obtain ⟨new, hnew, hpast, hem, hfed⟩ := h.fed_new hk
  have hv : Reachable w.subscribeChannel.2 := h.move (.access .subscribeChannel)
  have hcap : w.subscribeChannel.2.config.eventCapacity = w.config.eventCapacity := by
    unfold subscribeChannel
    split <;> rfl
  have hwhole := feeds_whole hnew hpast hv hem hfed
  obtain ⟨os, hch, hlaw, hreceived, hclose, hsent⟩ := feeds_law hnew hpast hv hem hfed ms
  have hsteady := (Channel.Steady.create hnew).acts os
  generalize w.subscribeChannel.2 = v at *
  refine
    { isPrefix := ?_
      lossless := fun hkept => ⟨_, hch, hcap ▸ hlaw.bounded, ?_⟩
      frees := fun ch hch' hheld => ?_
      unblocked := fun hdropped ch hch' => ?_
      whole := hwhole ms
      drained := fun hkept hd => ⟨(new.acts os).content.length, ?_⟩ }
  · rw [← hreceived, ← hsent]
    exact hlaw.isPrefix.trans (List.prefix_append _ _)
  · rw [← hreceived, hlaw.lossless fun hmem => (hclose.mp hmem).elim hkept, hsent]
  · cases Option.some.inj (hch.symm.trans hch')
    obtain ⟨y, hy⟩ := Option.isSome_iff_exists.mp hheld
    obtain ⟨-, ⟨x, rest, -, hx⟩, -⟩ := hlaw.freed y hy
    rw [receive_eq hch, hx]
    exact ⟨by simp, fun others => isHeldUp_set others rfl⟩
  · cases Option.some.inj (hch.symm.trans hch')
    rw [Channel.isHeldUp, (hlaw.discards (hclose.mpr hdropped)).2.1]
    rfl
  · obtain ⟨hch', hkept'⟩ := moves_receive hch (new.acts os).content.length
    obtain ⟨hd', -, hem', -⟩ := (hv.moves ms).silent hd (List.replicate (new.acts os).content.length (.access (.receive k)))
    rw [hwhole _, announcedSince, announcedSince, moves_append, hem']
    · intro u hu
      rw [usesOf_append] at hu
      exact (List.mem_append.mp hu).elim (hkept u) (hkept' u)
    · rw [moves_append, hd']
    · rw [moves_append, receive_eq hch', hsteady.receive_replicate]

/-- A trial whose channels have room for one notification. -/
def Bench.narrow (doneAfter : Nat) : Controller Bench.trialParts :=
  .create { Config.standard with initialMode := .run, eventCapacity := 1 }
    [("rules", .ok { inside := { initial := [], failing := fun _ => none }, faults := [], planned := fun _ => [] })]
    { doneAfter } {}

/-- **Channels lose nothing**, whatever is done with one alone, and in any run that one is subscribed to. -/
theorem channels_lose_nothing {α : Type} {c : Nat} {ch : Channel α} (hc : Channel.create c = .ok ch)
    (os : List (Channel.Op α)) (h : Reachable w) (hk : w.subscribeChannel.1 = .ok k) (ms : List (Move A.Id)) :
    Channel.Lawful (max c 1) ch os ∧ Feeds k w.subscribeChannel.2 ms :=
  ⟨Channel.lawful_of_create hc os, h.feeds hk ms⟩

/-- The worker is held up at the second notification until the first is received, and so on. -/
theorem channels_lose_nothing_of_narrow_run :
    let v := (Bench.narrow 1).subscribeChannel.2
    let begun := [.call (.startEngine ⟨"rules"⟩), .call .execute] ++ List.replicate 6 .work
    let ended := begun ++ [.access (.receive 0), .work, .work, .work, .access (.receive 0), .access (.receive 0)]
    (v.moves begun).isHeldUp = true ∧ (v.moves ended).isDone = true ∧
      (v.usesOf ended).filterMap (taken? 0) = [.setupDone, .actionDone, .disposeDone] ∧
      (Channel.Lawful (max 0 1) { capacity := 1 } [.send Notification.setupDone, .send .actionDone, .receive] ∧
        Feeds 0 v ended) :=
  ⟨by decide, by decide, by decide, channels_lose_nothing rfl _ (.create _ _ _ _) rfl _⟩

end Cadence.Controller
