import Cadence.Lifecycle

/-!
# Cadence.Proofs.Succession — which notifications follow one another

The state machine takes any events in any order, most of them out of place, and skips what it rejects.  What it
announces is in order all the same: set-up comes first and once, completed turns after it, and the end once and
last.

* `Upshot`: what an event can come to in a state, case by case; nothing later unfolds a transition.
* `feed_prescribed`: the notifications of any events, by the state they are fed to.
* `feed_ending`: a terminal notification is the last one, and goes with the state that is reached.
* `feed_cause`: a reported failure has the text of an event, unless that is blank.
-/

namespace Cadence.State

/-! ### One event -/

/-- The domain is set up and the end has not come. -/
def isUnderway : State → Bool
  | setupDone | suspended | runningTurn => true
  | _ => false

/-- Where an event leads, and what is announced of it; a rejected event comes to nothing. -/
inductive Upshot (s : State) (e : Event) : State → Option Notification → Prop where
  | nothing : Upshot s e s none
  | load (h : s = new ∨ s = started) : Upshot s e started none
  | setUp (h : s = started) : Upshot s e setupDone (some .setupDone)
  | goOn {t : State} (h : s.isUnderway = true) (ht : t.isUnderway = true) : Upshot s e t none
  | turn (h : s.isUnderway = true) : Upshot s e runningTurn (some .actionDone)
  | dispose (h : s.isUnderway = true) : Upshot s e disposed (some .disposeDone)
  | fail (m : String) (he : e = .faulted m) (h : s.isTerminal = false) :
      Upshot s e (failed (failureText m)) (some (.error (failureText m)))

variable {s t : State} {e : Event} {es : List Event} {ns : List Notification} {n : Notification}

theorem upshot (s : State) (e : Event) : Upshot s e (s.after e) (s.noticeOf e) := by
  cases e with
  | faulted m =>
    by_cases h : s.isTerminal = true
    · rw [after, noticeOf, next_of_isTerminal h]
      exact .nothing
    · have hs : s.isTerminal = false := by simpa using h
      have hn : s.next (.faulted m) = .ok ⟨failed (failureText m), some (.error (failureText m))⟩ := by
        cases s <;> first | rfl | cases hs
      rw [after, noticeOf, hn]
      exact .fail m rfl hs
  | engineLoaded => cases s <;> first | exact .nothing | exact .load (by simp)
  | setupCompleted => cases s <;> first | exact .nothing | exact .setUp rfl
  | gateParked | turnStarted => cases s <;> first | exact .nothing | exact .goOn rfl rfl
  | turnCompleted => cases s <;> first | exact .nothing | exact .turn rfl
  | disposed => cases s <;> first | exact .nothing | exact .dispose rfl

theorem isTerminal_of_isUnderway (h : s.isUnderway = true) : s.isTerminal = false := by
  cases s <;> first | rfl | cases h

/-! ### The order -/

/-- One terminal notification at most. -/
def IsLast (ns : List Notification) : Prop := ns = [] ∨ ns = [.disposeDone] ∨ ∃ m, ns = [.error m]

/-- What may be announced from a state on. -/
def Prescribes : State → List Notification → Prop
  | new, ns | started, ns =>
    (∃ k t, (t = .disposeDone ∨ ∃ m, t = .error m) ∧
      ns <+: .setupDone :: List.replicate k .actionDone ++ [t]) ∨ ∃ m, ns = [.error m]
  | setupDone, ns | suspended, ns | runningTurn, ns =>
    ∃ k last, ns = List.replicate k .actionDone ++ last ∧ IsLast last
  | disposed, ns | failed _, ns => ns = []

theorem prescribes_of_isUnderway (h : s.isUnderway = true) :
    s.Prescribes ns ↔ ∃ k last, ns = List.replicate k .actionDone ++ last ∧ IsLast last := by
  cases s <;> first | rfl | cases h

theorem prescribes_nil (s : State) : s.Prescribes [] := by
  have hfresh : ∃ k t, (t = .disposeDone ∨ ∃ m, t = .error m) ∧
      [] <+: Notification.setupDone :: List.replicate k .actionDone ++ [t] :=
    ⟨0, .disposeDone, .inl rfl, List.nil_prefix⟩
  cases s with
  | new | started => exact .inl hfresh
  | setupDone | suspended | runningTurn => exact ⟨0, [], rfl, .inl rfl⟩
  | disposed | failed m => rfl

/-- What is announced after set-up makes up, with it, what is announced from the beginning on. -/
theorem prescribes_setUp (h : setupDone.Prescribes ns) : started.Prescribes (.setupDone :: ns) := by
  obtain ⟨k, last, rfl, hlast⟩ := h
  refine .inl ?_
  rcases hlast with rfl | rfl | ⟨m, rfl⟩
  · exact ⟨k, .disposeDone, .inl rfl, by simp⟩
  · exact ⟨k, .disposeDone, .inl rfl, List.prefix_rfl⟩
  · exact ⟨k, .error m, .inr ⟨m, rfl⟩, List.prefix_rfl⟩

theorem prescribes_cons (h : (s.after e).Prescribes ns) :
    s.Prescribes ((s.noticeOf e).toList ++ ns) := by
  have ho := upshot s e
  revert ho h
  generalize s.after e = t
  generalize s.noticeOf e = o
  intro h ho
  cases ho with
  | nothing => exact h
  | load hs => rcases hs with rfl | rfl <;> exact h
  | setUp hs => subst hs; exact prescribes_setUp h
  | goOn hs ht =>
    rw [prescribes_of_isUnderway ht] at h
    exact (prescribes_of_isUnderway hs).mpr h
  | turn hs =>
    obtain ⟨k, last, rfl, hlast⟩ := h
    exact (prescribes_of_isUnderway hs).mpr ⟨k + 1, last, rfl, hlast⟩
  | dispose hs =>
    have hn : ns = [] := h
    subst hn
    exact (prescribes_of_isUnderway hs).mpr ⟨0, [.disposeDone], rfl, .inr (.inl rfl)⟩
  | fail m he hs =>
    have hn : ns = [] := h
    subst hn
    cases s with
    | new | started => exact .inr ⟨_, rfl⟩
    | setupDone | suspended | runningTurn => exact ⟨0, [_], rfl, .inr (.inr ⟨_, rfl⟩)⟩
    | disposed | failed m => cases hs

/-- **The notifications of any events are in order.** -/
theorem feed_prescribed (s : State) (es : List Event) : s.Prescribes (s.feed es).2 := by
  induction es generalizing s with
  | nil => exact prescribes_nil s
  | cons e es ih => exact prescribes_cons (ih (s.after e))

/-! ### The end -/

inductive Closes : Notification → State → Prop where
  | disposed : Closes .disposeDone .disposed
  | failed (m : String) : Closes (.error m) (.failed m)

theorem feed_of_isTerminal (h : s.isTerminal = true) (es : List Event) : s.feed es = (s, []) := by
  induction es with
  | nil => rfl
  | cons e es ih =>
    have hnext := next_of_isTerminal h e
    have ha : s.after e = s := by rw [after, hnext]
    have hn : s.noticeOf e = none := by rw [noticeOf, hnext]
    rw [feed_cons, ha, hn, ih]
    rfl

/-- One event either leaves the life open and announces no end, or ends it and announces just that. -/
theorem closes_of_event (h : s.isTerminal = false) (e : Event) :
    ((s.after e).isTerminal = false ∧ ∀ n ∈ (s.noticeOf e).toList, n.isTerminal = false) ∨
      ∃ n, s.noticeOf e = some n ∧ Closes n (s.after e) := by
  have ho := upshot s e
  revert ho
  generalize s.after e = t
  generalize s.noticeOf e = o
  intro ho
  cases ho with
  | nothing => exact .inl ⟨h, by simp⟩
  | load hs => exact .inl ⟨rfl, by simp⟩
  | setUp hs => exact .inl ⟨rfl, by simp [Notification.isTerminal]⟩
  | goOn hs ht => exact .inl ⟨isTerminal_of_isUnderway ht, by simp⟩
  | turn hs => exact .inl ⟨rfl, by simp [Notification.isTerminal]⟩
  | dispose hs => exact .inr ⟨_, rfl, .disposed⟩
  | fail m he hs => exact .inr ⟨_, rfl, .failed _⟩

theorem Closes.isTerminal (h : Closes n t) : n.isTerminal = true ∧ t.isTerminal = true := by
  cases h <;> exact ⟨rfl, rfl⟩

/-- **A life either is open and no end was announced, or it is over and its end was announced last.** -/
theorem feed_ending (h : s.isTerminal = false) (es : List Event) :
    ((s.feed es).1.isTerminal = false ∧ ∀ n ∈ (s.feed es).2, n.isTerminal = false) ∨
      ∃ ns n, (s.feed es).2 = ns ++ [n] ∧ (∀ x ∈ ns, x.isTerminal = false) ∧ Closes n (s.feed es).1 := by
  induction es generalizing s with
  | nil => exact .inl ⟨h, by simp⟩
  | cons e es ih =>
    rw [feed_cons]
    rcases closes_of_event h e with ⟨ha, hn⟩ | ⟨n, hn, hc⟩
    · rcases ih ha with ⟨hopen, hall⟩ | ⟨ns, n, heq, hall, hc⟩
      · refine .inl ⟨hopen, fun x hx => ?_⟩
        rcases List.mem_append.mp hx with hx | hx
        · exact hn x hx
        · exact hall x hx
      · refine .inr ⟨(s.noticeOf e).toList ++ ns, n, by rw [heq, List.append_assoc], fun x hx => ?_, hc⟩
        rcases List.mem_append.mp hx with hx | hx
        · exact hn x hx
        · exact hall x hx
    · -- the life is over, so the rest of the events is rejected
      rw [feed_of_isTerminal hc.isTerminal.2, hn]
      exact .inr ⟨[], n, rfl, by simp, hc⟩

/-! ### The text of a failure -/

theorem failureText_eq (m : String) :
    Text.isBlankText (failureText m) = false ∧
      (Text.isBlankText m = false → failureText m = m) ∧
      (Text.isBlankText m = true → failureText m = unknownFailure) := by
  unfold failureText
  by_cases h : Text.isBlankText m = true
  · rw [if_pos h]
    exact ⟨by decide, by simp [h], fun _ => rfl⟩
  · rw [if_neg h]
    exact ⟨by simpa using h, fun _ => rfl, fun hb => absurd hb h⟩

/-- A reported failure is the first fault that was fed to an open life. -/
theorem feed_cause {m : String} (hm : .error m ∈ (s.feed es).2) :
    ∃ before cause after, es = before ++ .faulted cause :: after ∧
      (s.feed before).1.isTerminal = false ∧ m = failureText cause := by
  induction es generalizing s with
  | nil => cases hm
  | cons e es ih =>
    rw [feed_cons] at hm
    rcases List.mem_append.mp hm with hm | hm
    · have ho := upshot s e
      rw [Option.mem_toList.mp hm] at ho
      generalize s.after e = t at ho
      generalize hx : some (Notification.error m) = o at ho
      cases ho with
      | fail cause he hs =>
        cases hx
        exact ⟨[], cause, es, by rw [he]; rfl, hs, rfl⟩
      | _ => cases hx
    · obtain ⟨before, cause, after, rfl, hopen, hcause⟩ := ih hm
      exact ⟨e :: before, cause, after, rfl, hopen, hcause⟩

/-! ### The guarantees -/

/-- What subscribers can rely on, for a life that goes on from `s` with the events `es`. -/
structure InOrder (s : State) (es : List Event) : Prop where
  /-- The notifications are in order. -/
  prescribed : s.Prescribes (s.feed es).2
  /-- Nothing happens in a life that is over. -/
  closed : s.isTerminal = true → (s.feed es).1 = s ∧ (s.feed es).2 = []
  /-- An end is announced iff a life that was open has come to it, -/
  ends : (∃ n ∈ (s.feed es).2, n.isTerminal = true) ↔
    s.isTerminal = false ∧ (s.feed es).1.isTerminal = true
  /-- nothing is announced after it, -/
  last : ∀ before n after, (s.feed es).2 = before ++ n :: after → n.isTerminal = true → after = []
  /-- and it tells the state: the life ended well, -/
  disposed : s.isTerminal = false → (.disposeDone ∈ (s.feed es).2 ↔ (s.feed es).1 = .disposed)
  /-- or by a failure, with the same text. -/
  failed : s.isTerminal = false → ∀ m, .error m ∈ (s.feed es).2 ↔ (s.feed es).1 = .failed m
  /-- The text is never blank, and is that of the fault unless that was blank. -/
  text : ∀ m, .error m ∈ (s.feed es).2 → Text.isBlankText m = false ∧
    ∃ before cause after, es = before ++ .faulted cause :: after ∧
      (s.feed before).1.isTerminal = false ∧ (Text.isBlankText cause = false → m = cause) ∧
      (Text.isBlankText cause = true → m = "unknown failure")

theorem mem_feed_iff (h : s.isTerminal = false) (hn : n.isTerminal = true) :
    n ∈ (s.feed es).2 ↔ Closes n (s.feed es).1 := by
  rcases feed_ending h es with ⟨hopen, hall⟩ | ⟨ns, t, heq, hall, hc⟩
  · constructor
    · intro hmem
      rw [hall n hmem] at hn
      cases hn
    · intro hc
      rw [hc.isTerminal.2] at hopen
      cases hopen
  · rw [heq]
    constructor
    · intro hmem
      rcases List.mem_append.mp hmem with hmem | hmem
      · rw [hall n hmem] at hn
        cases hn
      · rw [List.mem_singleton.mp hmem]
        exact hc
    · intro hc'
      have hnt : n = t := by
        generalize (s.feed es).1 = u at hc hc'
        cases hc <;> cases hc' <;> rfl
      simp [hnt]

/-- **The state machine announces in order**, from any state and whatever it is fed. -/
theorem feed_inOrder (s : State) (es : List Event) : InOrder s es where
  prescribed := feed_prescribed s es
  closed h := by rw [feed_of_isTerminal h es]; exact ⟨rfl, rfl⟩
  ends := by
    cases h : s.isTerminal
    · rcases feed_ending h es with ⟨hopen, hall⟩ | ⟨ns, n, heq, hall, hc⟩
      · simp [hopen]
        exact hall
      · simp [heq, hc.isTerminal]
    · simp [feed_of_isTerminal h es]
  last before n after heq hn := by
    cases h : s.isTerminal
    · rcases feed_ending h es with ⟨hopen, hall⟩ | ⟨ns, t, hns, hall, hc⟩
      · rw [hall n (by simp [heq])] at hn
        cases hn
      · rw [hns] at heq
        rcases List.eq_nil_or_concat after with rfl | ⟨as, a, rfl⟩
        · rfl
        · -- `n` would come before the last notification
          have hmem : n ∈ ns := by
            have hsplit : ns ++ [t] = (before ++ n :: as) ++ [a] := by simpa using heq
            obtain ⟨rfl, -⟩ := List.append_inj' hsplit rfl
            simp
          rw [hall n hmem] at hn
          cases hn
    · rw [feed_of_isTerminal h es] at heq
      simp at heq
  disposed h := by
    rw [mem_feed_iff h rfl]
    generalize (s.feed es).1 = t
    refine ⟨fun hc => ?_, fun ht => ht ▸ .disposed⟩
    cases hc
    rfl
  failed h m := by
    rw [mem_feed_iff h rfl]
    generalize (s.feed es).1 = t
    refine ⟨fun hc => ?_, fun ht => ht ▸ .failed m⟩
    cases hc
    rfl
  text m hm := by
    obtain ⟨before, cause, after, heq, hopen, rfl⟩ := feed_cause hm
    obtain ⟨hblank, hsame, hunknown⟩ := failureText_eq cause
    exact ⟨hblank, before, cause, after, heq, hopen, hsame, hunknown⟩

/-- Events out of place, a turn, a failure without a text, and more events after it. -/
example : new.feed [.turnCompleted, .engineLoaded, .disposed, .setupCompleted, .engineLoaded, .turnStarted,
      .turnCompleted, .setupCompleted, .faulted " ", .disposed] =
    (failed "unknown failure", [.setupDone, .actionDone, .error "unknown failure"]) := by decide

end Cadence.State
