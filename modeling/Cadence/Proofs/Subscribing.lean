import Cadence.Proofs.FanOut
import Cadence.Proofs.Notices

/-!
# Cadence.Proofs.Subscribing — who is subscribed to a controller, and what is announced to them

Whoever is subscribed can be told from the calls that were made, by the host and by subscribers that call back
(`exchanges`).  What is announced goes to those who are subscribed when that begins.

* `access_exchange`: an access to a controller is at most one call on its set of subscribers.
* `move_emissions`: what one move announces, and to whom.
* `subscribed_of_create`: who is subscribed in any run, and what is announced and delivered to them.
* `Gathering.fansOut`, `fanOut`: the same of a gathering, and of both.
-/

namespace Cadence.Controller

variable {A : Assembly} {w v : Controller A}

/-! ## Calls on the set of subscribers -/

/-- The call on the set of subscribers that an access comes to, with its answer. -/
def exchange? : Controller A × Access A.Id → Option (Gathering.Exchange (Subscriber A.Id))
  | (w, .call (.addSubscriber i)) => some ⟨.add (.observer i), (w.addSubscriber i).1⟩
  | (w, .call (.removeSubscriber i)) => some ⟨.remove (.observer i), (w.removeSubscriber i).1⟩
  | (w, .call .subscriberCount) => some ⟨.size, w.registry.size⟩
  | (w, .subscribeChannel) => w.subscribeChannel.1.toOption.map fun k => ⟨.add (.channel k), true⟩
  | _ => none

/-- The calls on the set of subscribers that are made in moves. -/
def exchanges (u : Controller A) (ms : List (Move A.Id)) : List (Gathering.Exchange (Subscriber A.Id)) :=
  (u.usesOf ms).filterMap exchange?

/-- The channels that are subscribed are there. -/
def Numbered (w : Controller A) : Prop := ∀ k, .channel k ∈ w.registry.members → k < w.channels.length

theorem launchOn_registry (l : Launch) :
    (w.launchOn l).2.registry = w.registry ∧ (w.launchOn l).2.channels = w.channels := by
  have h := launchOn_launching w l
  generalize w.launchOn l = r at h ⊢
  cases h <;> exact ⟨rfl, rfl⟩

/-- Calls that are not about subscribers. -/
theorem call_registry (c : Call A.Id) (ha : ∀ i, c ≠ .addSubscriber i) (hr : ∀ i, c ≠ .removeSubscriber i) :
    (w.call c).2.registry = w.registry ∧ (w.call c).2.channels = w.channels := by
  cases c with
  | addSubscriber i => exact absurd rfl (ha i)
  | removeSubscriber i => exact absurd rfl (hr i)
  | startEngine script =>
    rw [call, startEngine]
    split
    · exact ⟨rfl, rfl⟩
    · dsimp only
      split <;> simp [note]
  | execute => exact launchOn_registry .spawned
  | runBlocking thread => exact launchOn_registry (.borrowed thread)
  | facts | agenda =>
    rw [call, query]
    split <;> exact ⟨rfl, rfl⟩
  | setModeTag tag =>
    rw [call, setModeTag]
    split <;> exact ⟨rfl, rfl⟩
  | _ => exact ⟨rfl, rfl⟩

theorem call_channels (w : Controller A) (c : Call A.Id) : (w.call c).2.channels = w.channels := by
  cases c with
  | addSubscriber i | removeSubscriber i => rfl
  | _ => exact (call_registry _ (by simp) (by simp)).2

/-- **An access is at most one call** on the set of subscribers. -/
theorem access_exchange (h : Numbered w) (a : Access A.Id) :
    exchange? (w, a) = none ∧ (w.access a).2.registry = w.registry ∨
      ∃ c, exchange? (w, a) = some ⟨c, (Gathering.serve c w.registry).1⟩ ∧
        (w.access a).2.registry = (Gathering.serve c w.registry).2 := by
  rcases a with (c | _ | k | k)
  case call =>
    cases c with
    | addSubscriber i => exact .inr ⟨.add (.observer i), rfl, rfl⟩
    | removeSubscriber i => exact .inr ⟨.remove (.observer i), rfl, rfl⟩
    | subscriberCount => exact .inr ⟨.size, rfl, rfl⟩
    | _ => exact .inl ⟨rfl, (call_registry _ (by simp) (by simp)).1⟩
  case subscribeChannel =>
    -- the number of the new channel is not taken
    have hnew : .channel w.channels.length ∉ w.registry.members := fun hmem => Nat.lt_irrefl _ (h _ hmem)
    simp only [exchange?, access, subscribeChannel]
    split
    · exact .inl ⟨rfl, rfl⟩
    · refine .inr ⟨.add (.channel w.channels.length), ?_, rfl⟩
      simp [Except.toOption, Gathering.serve, Registry.add, hnew]
  case receive =>
    rw [access, receive]
    split <;> exact .inl ⟨rfl, rfl⟩
  case dropReceiver => exact .inl ⟨rfl, rfl⟩

/-! ## Who is subscribed -/

theorem Part.registry_eq (h : Part w v) : v.registry = w.registry ∧ v.channels = w.channels := by
  cases h with
  | report x => exact ⟨apply_registry w x, apply_channels w x⟩
  | ask c => unfold Controller.ask; split <;> exact ⟨rfl, rfl⟩
  | callHook k => unfold Controller.callHook; split <;> exact ⟨rfl, rfl⟩
  | _ => exact ⟨rfl, rfl⟩

/-- The worker itself subscribes nobody. -/
theorem Parts.registry_eq (h : Parts w v) : v.registry = w.registry ∧ v.channels = w.channels := by
  induction h with
  | refl => exact ⟨rfl, rfl⟩
  | tail _ hp ih => exact ⟨hp.registry_eq.1.trans ih.1, hp.registry_eq.2.trans ih.2⟩

theorem Told.registry_eq (h : Told w v) : v.registry = w.registry ∧ v.channels.length = w.channels.length := by
  cases h <;> simp [note]

theorem length_channels_access (w : Controller A) (a : Access A.Id) :
    w.channels.length ≤ (w.access a).2.channels.length := by
  rcases a with (c | _ | k | k)
  case call => exact Nat.le_of_eq (congrArg List.length (call_channels w c)).symm
  case subscribeChannel =>
    rw [access, subscribeChannel]
    split <;> simp
  case receive =>
    rw [access, receive]
    split <;> simp
  case dropReceiver => simp [access, dropReceiver]

theorem mem_members_access {w : Controller A} {a : Access A.Id} {k : Nat}
    (h : .channel k ∈ (w.access a).2.registry.members) :
    .channel k ∈ w.registry.members ∨ k < (w.access a).2.channels.length := by
  rcases a with (c | _ | j | j)
  case call =>
    refine .inl ?_
    by_cases hs : (∃ i, c = .addSubscriber i) ∨ ∃ i, c = .removeSubscriber i
    · rcases hs with ⟨i, rfl⟩ | ⟨i, rfl⟩
      · simp only [access, call, addSubscriber, Registry.add] at h
        split at h <;> simpa using h
      · exact List.mem_of_mem_filter h
    · rw [not_or, not_exists, not_exists] at hs
      rwa [access, (call_registry c hs.1 hs.2).1] at h
  case subscribeChannel =>
    simp only [access, subscribeChannel] at h ⊢
    split at h
    · exact .inl h
    · simp only [Registry.add] at h
      split at h
      · exact .inl h
      · refine (List.mem_append.mp h).imp_right fun hk => ?_
        cases List.mem_singleton.mp hk
        simp
  case receive =>
    refine .inl ?_
    rw [access, receive] at h
    split at h <;> exact h
  case dropReceiver => exact .inl h

theorem Numbered.access (h : Numbered w) (a : Access A.Id) : Numbered (w.access a).2 := fun k hk =>
  (mem_members_access hk).elim (fun hk => Nat.lt_of_lt_of_le (h k hk) (length_channels_access w a)) id

theorem Numbered.same (h : Numbered w) (hr : v.registry = w.registry)
    (hc : v.channels.length = w.channels.length) : Numbered v := fun k hk => hc ▸ h k (hr ▸ hk)

/-- **Who is subscribed in a run** can be told from the calls that were made. -/
theorem Reachable.kept (h : Reachable w) {xs : List (Gathering.Exchange (Subscriber A.Id))}
    (hx : Gathering.Kept xs w.registry.members) (hn : Numbered w) (ms : List (Move A.Id)) :
    Gathering.Kept (xs ++ exchanges w ms) (w.moves ms).registry.members ∧ Numbered (w.moves ms) := by
  have hmoves := h.moves_use
    (P := fun us v => Gathering.Kept (xs ++ us.filterMap exchange?) v.registry.members ∧ Numbered v)
    (fun us v a _ hv => ?_) (fun us v u _ hv ht => ?_) (fun us v r _ hv _ _ hr => ?_) [] (by simpa using ⟨hx, hn⟩) ms
  · exact hmoves
  · refine ⟨?_, hv.2.access a⟩
    rw [List.filterMap_append, ← List.append_assoc]
    obtain ⟨he, hr⟩ | ⟨c, he, hr⟩ := access_exchange hv.2 a
    · simpa [he, hr] using hv.1
    · simpa [he, hr] using hv.1.serve c
  · obtain ⟨hr, hc⟩ := ht.registry_eq
    exact ⟨hr ▸ hv.1, hv.2.same hr hc⟩
  · obtain ⟨hr, hc⟩ := (proceed_parts hr).registry_eq
    exact ⟨hr ▸ hv.1, hv.2.same hr (congrArg List.length hc)⟩

/-! ## What is announced -/

/-- What is announced on the way from one controller to another goes to those who are subscribed at the first. -/
def Announces (w v : Controller A) : Prop :=
  ∃ new, v.emissions = w.emissions ++ new ∧ ∀ e ∈ new, e.2 = w.registry.members

theorem Announces.silent (h : v.emissions = w.emissions) : Announces w v := ⟨[], by simpa using h, by simp⟩

theorem Announces.trans {u : Controller A} (h : Announces w v) (hr : v.registry = w.registry) (h' : Announces v u) :
    Announces w u := by
  obtain ⟨new, hem, hnew⟩ := h
  obtain ⟨more, hem', hmore⟩ := h'
  refine ⟨new ++ more, by rw [hem', hem, List.append_assoc], fun e he => ?_⟩
  exact (List.mem_append.mp he).elim (hnew e) fun he => hr ▸ hmore e he

theorem Part.announces (h : Part w v) : Announces w v := by
  cases h with
  | report x =>
    refine ⟨(w.state.noticeOf x).toList.map (·, w.registry.members), ?_, fun e he => ?_⟩
    · rw [apply_eq]
      cases w.state.noticeOf x <;> simp [emissions, Entry.emission?]
    · obtain ⟨n, -, rfl⟩ := List.mem_map.mp he
      rfl
  | ask c =>
    refine .silent ?_
    unfold Controller.ask
    split
    · rfl
    · simp [emissions, note, Entry.emission?]
  | callHook k =>
    refine .silent ?_
    unfold Controller.callHook
    split
    · rfl
    · simp [emissions, Entry.emission?, readOff, List.filterMap_map, Function.comp_def]
  | remark e he =>
    refine .silent ?_
    cases e <;> first | exact he.elim | simp [emissions, note, Entry.emission?]
  | point p g n => exact .silent rfl

theorem Parts.announces (h : Parts w v) : Announces w v := by
  induction h with
  | refl => exact .silent rfl
  | tail hs hp ih => exact ih.trans (Parts.registry_eq hs).1 hp.announces

/-- **What a move announces** goes to those who are subscribed when it begins. -/
theorem move_emissions (w : Controller A) (m : Move A.Id) : Announces w (w.move m) := by
  refine move_cases w (fun v he => .silent he.emissions_eq) (fun v hv => ?_) m
  unfold step at hv
  split at hv
  · cases hv
  split at hv
  · rename_i s n rest ho
    cases hv
    refine .silent ?_
    cases s with
    | observer i =>
      have hplay := (A.react i n w.crowd).play_induct access (P := fun v => v.emissions = w.emissions)
        (fun a v hv => (access_effect v a).emissions_eq.trans hv) w rfl
      simpa [tell, note, emissions, Entry.emission?] using hplay
    | channel k => simp [tell, note, emissions, Entry.emission?]
  · obtain ⟨r, hr, rfl⟩ := Option.map_eq_some_iff.mp hv
    exact (proceed_parts hr).announces

/-! ## Any run -/

/-- Who is subscribed in the run that moves lead to, from a controller without subscribers. -/
structure Subscribed (u : Controller A) (ms : List (Move A.Id)) : Prop where
  /-- Those who were subscribed and not taken off since, in the order in which they were. -/
  kept : Gathering.Kept (exchanges u ms) (u.moves ms).registry.members
  /-- What is announced goes to those who are subscribed when it is, -/
  announced : ∀ before m after, ms = before ++ m :: after →
    ∃ new, (u.moves (before ++ [m])).emissions = (u.moves before).emissions ++ new ∧
      ∀ e ∈ new, e.2 = Gathering.standing (exchanges u before)
  /-- to one after another, whatever they do meanwhile, -/
  delivered : (u.moves ms).tellings ++ (u.moves ms).outbox =
    (u.moves ms).emissions.flatMap fun e => e.2.map (·, e.1)
  /-- so that each is told, or has still to be told, what was announced to it, once and in order. -/
  told : ∀ s, (u.moves ms).toldTo s ++ (u.moves ms).dueTo s =
    ((u.moves ms).emissions.filter (s ∈ ·.2)).map Prod.fst

theorem kept_of_create (config : Config) (source : A.Source) (domain : A.Dom) (crowd : A.Crowd)
    (ms : List (Move A.Id)) :
    Gathering.Kept (exchanges (.create config source domain crowd) ms)
      ((Controller.create config source domain crowd).moves ms).registry.members :=
  ((Reachable.create config source domain crowd).kept .nil (fun _ hk => by cases hk) ms).1

theorem subscribed_of_create (config : Config) (source : A.Source) (domain : A.Dom) (crowd : A.Crowd)
    (ms : List (Move A.Id)) : Subscribed (Controller.create config source domain crowd) ms where
  kept := kept_of_create config source domain crowd ms
  announced before m after _ := by
    obtain ⟨new, hem, hnew⟩ := move_emissions ((Controller.create config source domain crowd).moves before) m
    refine ⟨new, ?_, fun e he => ?_⟩
    · rw [moves_append, ← hem]
      rfl
    · rw [hnew e he, ← (kept_of_create config source domain crowd before).standing]
  delivered := ((Reachable.create config source domain crowd).moves ms).recorded.delivered
  told s := toldTo_append ((Reachable.create config source domain crowd).moves ms).recorded s

end Cadence.Controller

namespace Cadence

/-- A gathering, under any conduct of its members and any operations, calls those who are members when an emission
begins. -/
theorem Gathering.fansOut {ι σ : Type} [DecidableEq ι] (conduct : Conduct ι σ) (s : σ) (os : List (Op ι)) :
    ((watchAll conduct os { crowd := s }).1.map Episode.answer, (watchAll conduct os { crowd := s }).2) =
        performAll conduct os { crowd := s } ∧
      FansOut (watchAll conduct os { crowd := s }).1 (watchAll conduct os { crowd := s }).2.registry.members :=
  ⟨watchAll_eq conduct os _, FansOut.watchAll (g := { crowd := s }) .nil conduct os⟩

/-- **Fan-out**: a gathering, under any conduct of its members and any operations, calls those who are members when
an emission begins; and so does a controller, in any run. -/
theorem fanOut {ι σ : Type} [DecidableEq ι] (conduct : Gathering.Conduct ι σ) (s : σ) (os : List (Gathering.Op ι))
    {A : Controller.Assembly} (config : Config) (source : A.Source) (domain : A.Dom) (crowd : A.Crowd)
    (ms : List (Controller.Move A.Id)) :
    ((Gathering.watchAll conduct os { crowd := s }).1.map Gathering.Episode.answer,
        (Gathering.watchAll conduct os { crowd := s }).2) = Gathering.performAll conduct os { crowd := s } ∧
      Gathering.FansOut (Gathering.watchAll conduct os { crowd := s }).1
        (Gathering.watchAll conduct os { crowd := s }).2.registry.members ∧
      Controller.Subscribed (Controller.create config source domain crowd) ms :=
  ⟨(Gathering.fansOut conduct s os).1, (Gathering.fansOut conduct s os).2,
    Controller.subscribed_of_create config source domain crowd ms⟩

end Cadence
