import Cadence.Channel
import Mathlib.Data.List.Basic

/-!
# Cadence.Proofs.Queueing — a channel loses nothing

What comes out of a channel, what is queued in it, and what waits to go in, are what was sent, in order, as long as
its receiver is there; and there are never more items queued than it has room for.

* `Steady`: what all operations keep.
* `act_content`, `acts_content`: what one operation, and several, take in and give out.
* `Lawful`: what holds of a channel after any operations.
-/

namespace Cadence.Channel

variable {α : Type} {ch ch' : Channel α} {x : α}

/-- What is in a channel, with what waits to go in. -/
def content (ch : Channel α) : List α := ch.queue ++ ch.waiting.toList

/-! ## Operations -/

inductive Op (α : Type) where
  /-- Send from a thread that may wait. -/
  | send (x : α)
  /-- Send from a thread that may not wait. -/
  | trySend (x : α)
  | receive
  /-- Drop the receiver. -/
  | close
deriving DecidableEq

def act (ch : Channel α) : Op α → Channel α
  | .send x => (ch.send x).2
  | .trySend x => ch.trySend x
  | .receive => ch.receive.2
  | .close => ch.close

/-- What an operation takes in.  A sender that is held up sends nothing else. -/
def takes (ch : Channel α) : Op α → List α
  | .send x => if ch.isHeldUp then [] else [x]
  | .trySend x => if ch.isOpen && ch.queue.length < ch.capacity then [x] else []
  | _ => []

/-- What an operation gives out. -/
def gives (ch : Channel α) : Op α → List α
  | .receive => ch.receive.1.toList
  | _ => []

def acts (ch : Channel α) (os : List (Op α)) : Channel α := os.foldl act ch

@[simp] theorem acts_nil (ch : Channel α) : ch.acts [] = ch := rfl

@[simp] theorem acts_cons (ch : Channel α) (o : Op α) (os : List (Op α)) : ch.acts (o :: os) = (ch.act o).acts os := rfl

/-- What operations take in, one after another. -/
def sent (ch : Channel α) : List (Op α) → List α
  | [] => []
  | o :: os => ch.takes o ++ (ch.act o).sent os

/-- What operations give out, one after another. -/
def received (ch : Channel α) : List (Op α) → List α
  | [] => []
  | o :: os => ch.gives o ++ (ch.act o).received os

theorem acts_append (ch : Channel α) (os ps : List (Op α)) : ch.acts (os ++ ps) = (ch.acts os).acts ps :=
  List.foldl_append

theorem sent_append (ch : Channel α) (os ps : List (Op α)) : ch.sent (os ++ ps) = ch.sent os ++ (ch.acts os).sent ps := by
  induction os generalizing ch with
  | nil => rfl
  | cons o os ih => simp [sent, ih]

theorem received_append (ch : Channel α) (os ps : List (Op α)) :
    ch.received (os ++ ps) = ch.received os ++ (ch.acts os).received ps := by
  induction os generalizing ch with
  | nil => rfl
  | cons o os ih => simp [received, ih]

/-! ## One operation -/

/-- What holds of a channel that has room for `n` items. -/
structure Steady (n : Nat) (ch : Channel α) : Prop where
  capacity : ch.capacity = n
  room : 0 < n
  bounded : ch.queue.length ≤ n
  /-- A sender is held up only at a full queue, and only by a receiver that is there. -/
  held : ch.waiting ≠ none → ch.isOpen = true ∧ ch.queue.length = n
  shut : ch.isOpen = false → ch.queue = []

namespace Steady

variable {n : Nat}

theorem create {c : Nat} (h : Channel.create c = .ok ch) : Steady (max c 1) ch := by
  unfold Channel.create at h
  split at h <;> cases h
  exact ⟨rfl, by omega, Nat.zero_le _, fun hw => absurd rfl hw, fun _ => rfl⟩

/-- A sender that may wait finds another one held up, nobody there, room, or a full queue. -/
theorem send_cases (h : Steady n ch) (x : α) :
    (ch.waiting ≠ none ∧ ch.send x = (.busy, ch)) ∨
    (ch.waiting = none ∧ ch.isOpen = false ∧ ch.send x = (.through, ch)) ∨
    (ch.waiting = none ∧ ch.isOpen = true ∧ ch.queue.length < n ∧
      ch.send x = (.through, { ch with queue := ch.queue ++ [x] })) ∨
    (ch.waiting = none ∧ ch.isOpen = true ∧ ch.queue.length = n ∧ ch.send x = (.heldUp, { ch with waiting := some x })) := by
  have hcap := h.capacity
  have hlen := h.bounded
  unfold Channel.send
  rcases hw : ch.waiting with _ | y
  · cases ho : ch.isOpen
    · simp
    · by_cases hq : ch.queue.length < n
      · simp [hcap, hq]
      · simp [hcap, show ch.queue.length = n by omega]
  · simp

/-- One that may not wait finds room, or its item is dropped. -/
theorem trySend_cases (h : Steady n ch) (x : α) :
    (ch.isOpen = true ∧ ch.queue.length < n ∧ ch.waiting = none ∧ ch.trySend x = { ch with queue := ch.queue ++ [x] }) ∨
    ((ch.queue.length = n ∨ ch.isOpen = false) ∧ ch.trySend x = ch) := by
  have hcap := h.capacity
  have hlen := h.bounded
  unfold Channel.trySend
  cases ho : ch.isOpen
  · simp
  · by_cases hq : ch.queue.length < n
    · have hw : ch.waiting = none := by
        by_contra hw
        have := (h.held hw).2
        omega
      simp [hcap, hq, hw]
    · simp [hcap, show ch.queue.length = n by omega]

/-- A receiver finds nothing, and then nobody is held up, or it takes the oldest item and lets in whoever is. -/
theorem receive_cases (h : Steady n ch) :
    (ch.content = [] ∧ ch.receive = (none, ch)) ∨
    ∃ x rest, ch.queue = x :: rest ∧ ch.isOpen = true ∧
      ch.receive = (some x, { ch with queue := rest ++ ch.waiting.toList, waiting := none }) := by
  have hroom := h.room
  cases hq : ch.queue with
  | nil =>
    have hw : ch.waiting = none := by
      by_contra hw
      have hfull := (h.held hw).2
      rw [hq] at hfull
      exact Nat.lt_irrefl _ (hfull ▸ hroom)
    exact .inl ⟨by simp [content, hq, hw], by simp [receive, hq]⟩
  | cons x rest =>
    refine .inr ⟨x, rest, rfl, ?_, by simp [receive, hq]⟩
    by_contra ho
    have hnil := h.shut (by simpa using ho)
    rw [hq] at hnil
    cases hnil

/-- **One operation** keeps a channel steady. -/
theorem act (h : Steady n ch) (o : Op α) : Steady n (ch.act o) := by
  have hlen := h.bounded
  cases o with
  | send x =>
    rw [Channel.act]
    obtain ⟨-, hs⟩ | ⟨-, -, hs⟩ | ⟨hw, ho, hq, hs⟩ | ⟨hw, ho, hq, hs⟩ := h.send_cases x <;> rw [hs]
    · exact h
    · exact h
    · exact ⟨h.capacity, h.room, by simpa using Nat.succ_le_of_lt hq, fun hw' => absurd hw hw',
        fun ho' => by rw [ho] at ho'; cases ho'⟩
    · exact ⟨h.capacity, h.room, hlen, fun _ => ⟨ho, hq⟩, h.shut⟩
  | trySend x =>
    rw [Channel.act]
    obtain ⟨ho, hq, hw, hs⟩ | ⟨-, hs⟩ := h.trySend_cases x <;> rw [hs]
    · exact ⟨h.capacity, h.room, by simpa using Nat.succ_le_of_lt hq, fun hw' => absurd hw hw',
        fun ho' => by rw [ho] at ho'; cases ho'⟩
    · exact h
  | receive =>
    rw [Channel.act]
    obtain ⟨-, hr⟩ | ⟨x, rest, hq, ho, hr⟩ := h.receive_cases <;> rw [hr]
    · exact h
    · refine ⟨h.capacity, h.room, ?_, fun hw => absurd rfl hw, fun ho' => by rw [ho] at ho'; cases ho'⟩
      rw [hq, List.length_cons] at hlen
      have hone : ch.waiting.toList.length ≤ 1 := by cases ch.waiting <;> simp
      simp only [List.length_append]
      omega
  | close => exact ⟨h.capacity, h.room, Nat.zero_le _, fun hw => absurd rfl hw, fun _ => rfl⟩

theorem acts (h : Steady n ch) (os : List (Op α)) : Steady n (ch.acts os) := by
  induction os generalizing ch with
  | nil => exact h
  | cons o os ih => exact ih (h.act o)

/-- **One operation** loses nothing, as long as the receiver is there. -/
theorem act_content (h : Steady n ch) {o : Op α} (ho : (ch.act o).isOpen = true) :
    ch.isOpen = true ∧ ch.gives o ++ (ch.act o).content = ch.content ++ ch.takes o := by
  cases o with
  | send x =>
    rw [Channel.act] at ho ⊢
    obtain ⟨hw, hs⟩ | ⟨-, hopen, hs⟩ | ⟨hw, hopen, -, hs⟩ | ⟨hw, hopen, -, hs⟩ := h.send_cases x <;> rw [hs] at ho ⊢
    · refine ⟨ho, ?_⟩
      simp [gives, takes, isHeldUp, Option.isSome_iff_ne_none.mpr hw]
    · rw [hopen] at ho
      cases ho
    · exact ⟨hopen, by simp [gives, takes, isHeldUp, content, hw]⟩
    · exact ⟨hopen, by simp [gives, takes, isHeldUp, content, hw]⟩
  | trySend x =>
    rw [Channel.act] at ho ⊢
    have hcap := h.capacity
    obtain ⟨hopen, hq, hw, hs⟩ | ⟨hfull, hs⟩ := h.trySend_cases x <;> rw [hs] at ho ⊢
    · exact ⟨hopen, by simp [gives, takes, content, hopen, hcap, hq, hw]⟩
    · refine ⟨ho, ?_⟩
      have hq : ch.queue.length = n := hfull.resolve_right (by simp [ho])
      simp [gives, takes, hcap, hq]
  | receive =>
    rw [Channel.act] at ho ⊢
    obtain ⟨hc, hr⟩ | ⟨x, rest, hq, hopen, hr⟩ := h.receive_cases
    · rw [hr] at ho ⊢
      exact ⟨ho, by simp [gives, takes, hr]⟩
    · rw [hr] at ho ⊢
      exact ⟨hopen, by simp [gives, takes, content, hr, hq]⟩
  | close => cases ho

/-- **Several operations** lose nothing either. -/
theorem acts_content (h : Steady n ch) {os : List (Op α)} (ho : (ch.acts os).isOpen = true) :
    ch.isOpen = true ∧ ch.received os ++ (ch.acts os).content = ch.content ++ ch.sent os := by
  induction os generalizing ch with
  | nil => exact ⟨ho, by simp [received, sent]⟩
  | cons o os ih =>
    obtain ⟨hopen, hrest⟩ := ih (h.act o) ho
    obtain ⟨hopen', hfirst⟩ := h.act_content hopen
    refine ⟨hopen', ?_⟩
    rw [received, sent, List.append_assoc, acts_cons, hrest, ← List.append_assoc, hfirst, List.append_assoc]

end Steady

/-! ## Any operations -/

/-- Once the receiver is gone, it does not come back. -/
theorem Steady.closed {n : Nat} (h : Steady n ch) (ho : ch.isOpen = false) (os : List (Op α)) :
    (ch.acts os).isOpen = false := by
  by_contra hopen
  rw [Bool.not_eq_false] at hopen
  rw [(h.acts_content hopen).1] at ho
  cases ho

/-- Without operations that wait, nobody is held up. -/
theorem Steady.unheld {n : Nat} (h : Steady n ch) (hw : ch.waiting = none) {os : List (Op α)}
    (hos : ∀ x, .send x ∉ os) : (ch.acts os).waiting = none := by
  induction os generalizing ch with
  | nil => exact hw
  | cons o os ih =>
    refine ih (h.act o) ?_ fun x hx => hos x (List.mem_cons_of_mem o hx)
    cases o with
    | send x => exact absurd List.mem_cons_self (hos x)
    | trySend x =>
      rw [Channel.act]
      obtain ⟨-, -, -, hs⟩ | ⟨-, hs⟩ := h.trySend_cases x <;> rw [hs] <;> exact hw
    | receive =>
      rw [Channel.act]
      obtain ⟨-, hr⟩ | ⟨x, rest, -, -, hr⟩ := h.receive_cases <;> rw [hr]
      exact hw
    | close => rfl

/-- A channel closes by its receiver alone. -/
theorem Steady.isOpen_acts {n : Nat} (h : Steady n ch) (ho : ch.isOpen = true) (os : List (Op α)) :
    (ch.acts os).isOpen = true ↔ .close ∉ os := by
  induction os generalizing ch with
  | nil => simpa using ho
  | cons o os ih =>
    by_cases hc : o = .close
    · subst hc
      simp [(h.act .close).closed rfl os]
    · have hopen : (ch.act o).isOpen = true := by
        cases o with
        | send x =>
          rw [Channel.act]
          obtain ⟨-, hs⟩ | ⟨-, -, hs⟩ | ⟨-, -, -, hs⟩ | ⟨-, -, -, hs⟩ := h.send_cases x <;> rw [hs] <;> exact ho
        | trySend x =>
          rw [Channel.act]
          obtain ⟨-, -, -, hs⟩ | ⟨-, hs⟩ := h.trySend_cases x <;> rw [hs] <;> exact ho
        | receive =>
          rw [Channel.act]
          obtain ⟨-, hr⟩ | ⟨x, rest, -, -, hr⟩ := h.receive_cases <;> rw [hr] <;> exact ho
        | close => exact absurd rfl hc
      rw [acts_cons, ih (h.act o) hopen]
      simp [Ne.symm hc]

/-- Nobody takes anything out of a channel that is closed. -/
theorem Steady.received_of_closed {n : Nat} (h : Steady n ch) (ho : ch.isOpen = false) (os : List (Op α)) :
    ch.received os = [] := by
  induction os generalizing ch with
  | nil => rfl
  | cons o os ih =>
    rw [received, ih (h.act o) (h.closed ho [o]), List.append_nil]
    cases o with
    | receive => simp [gives, receive, h.shut ho]
    | send x | trySend x | close => rfl

/-- What comes out is the beginning of what was there and what was sent, even if the rest is discarded. -/
theorem Steady.received_prefix {n : Nat} (h : Steady n ch) (os : List (Op α)) :
    ch.received os <+: ch.content ++ ch.sent os := by
  induction os generalizing ch with
  | nil => exact List.nil_prefix
  | cons o os ih =>
    rw [received, sent, ← List.append_assoc]
    cases hopen : (ch.act o).isOpen with
    | true =>
      rw [← (h.act_content hopen).2, List.append_assoc]
      exact (List.prefix_append_right_inj _).mpr (ih (h.act o))
    | false =>
      rw [(h.act o).received_of_closed hopen, List.append_nil]
      cases o with
      | receive =>
        obtain ⟨-, hr⟩ | ⟨x, rest, hq, -, hr⟩ := h.receive_cases
        · simp [gives, hr]
        · simp [gives, hr, content, hq]
      | send x | trySend x | close => exact List.nil_prefix

/-- Receiving often enough leaves nothing to be received. -/
theorem Steady.receive_replicate {n : Nat} (h : Steady n ch) :
    (ch.acts (List.replicate ch.content.length .receive)).receive.1 = none := by
  induction hk : ch.content.length generalizing ch with
  | zero =>
    obtain ⟨-, hr⟩ | ⟨x, rest, hq, -⟩ := h.receive_cases
    · simp [hr]
    · simp [content, hq] at hk
  | succ k ih =>
    obtain ⟨hnil, -⟩ | ⟨x, rest, hq, -, hr⟩ := h.receive_cases
    · rw [hnil] at hk
      cases hk
    · refine ih (h.act .receive) ?_
      rw [Channel.act, hr]
      simp [content, hq] at hk ⊢
      omega

/-- What is sent by a thread that may wait, and does wait. -/
def Op.item? : Op α → Option α
  | send x => some x
  | _ => none

/-- What holds of a channel with room for `n` items, after operations on it. -/
structure Lawful (n : Nat) (ch : Channel α) (os : List (Op α)) : Prop where
  bounded : (ch.acts os).queue.length ≤ n
  /-- A sender that may wait is held up iff the queue is full and the receiver is there, -/
  blocks : (ch.acts os).waiting = none → ∀ x,
    ((ch.acts os).send x).1 = .heldUp ↔ (ch.acts os).queue.length = n ∧ (ch.acts os).isOpen = true
  /-- and stays so until its item goes in, when something is received, or it is let go, when the receiver is dropped. -/
  freed : ∀ y, (ch.acts os).waiting = some y →
    (∀ x, (ch.acts os).send x = (.busy, ch.acts os)) ∧
    (∃ x rest, (ch.acts os).queue = x :: rest ∧
      (ch.acts os).receive = (some x, { ch.acts os with queue := rest ++ [y], waiting := none })) ∧
    (ch.acts os).close.waiting = none
  /-- Nothing is lost, while the receiver is there, -/
  lossless : .close ∉ os → ch.received os ++ (ch.acts os).queue ++ (ch.acts os).waiting.toList = ch.sent os
  /-- and what is received is the beginning of what was sent in any case. -/
  isPrefix : ch.received os <+: ch.sent os
  /-- Without the receiver everything is discarded at once. -/
  discards : .close ∈ os → (ch.acts os).queue = [] ∧ (ch.acts os).waiting = none ∧
    (ch.acts os).receive = (none, ch.acts os) ∧ ∀ x, (ch.acts os).send x = (.through, ch.acts os)
  /-- What was sent is what was given to `send`, if whoever sends waits until it is through. -/
  all : (∀ x, .trySend x ∉ os) →
    (∀ before x after, os = before ++ .send x :: after → (ch.acts before).waiting = none) →
    ch.sent os = os.filterMap Op.item?
  /-- A thread that may not wait never holds anybody up, -/
  unheld : (∀ x, .send x ∉ os) → (ch.acts os).waiting = none
  /-- its item goes in, or is dropped, which it is iff the queue is full or the receiver gone. -/
  drops : ∀ x,
    ((ch.acts os).trySend x = ch.acts os ↔ (ch.acts os).queue.length = n ∨ (ch.acts os).isOpen = false) ∧
    ((ch.acts os).trySend x ≠ ch.acts os →
      (ch.acts os).trySend x = { ch.acts os with queue := (ch.acts os).queue ++ [x] })

theorem sent_eq {os : List (Op α)} (ht : ∀ x, .trySend x ∉ os)
    (hw : ∀ before x after, os = before ++ .send x :: after → (ch.acts before).waiting = none) :
    ch.sent os = os.filterMap Op.item? := by
  induction os generalizing ch with
  | nil => rfl
  | cons o os ih =>
    rw [sent, ih (fun x hx => ht x (List.mem_cons_of_mem o hx)) fun before x after heq =>
      hw (o :: before) x after (by rw [heq]; rfl)]
    cases o with
    | send x => simp [takes, isHeldUp, Op.item?, show ch.waiting = none from hw [] x os rfl]
    | trySend x => exact absurd List.mem_cons_self (ht x)
    | receive | close => rfl

/-- **A channel loses nothing**, whatever is done with it. -/
theorem lawful_of_create {c : Nat} (hc : Channel.create c = .ok ch) (os : List (Op α)) : Lawful (max c 1) ch os := by
  have hnew := Steady.create hc
  have h := hnew.acts os
  have hopen : ch.isOpen = true ∧ ch.content = [] ∧ ch.waiting = none := by
    unfold Channel.create at hc
    split at hc <;> cases hc
    exact ⟨rfl, rfl, rfl⟩
  refine
    { bounded := h.bounded
      blocks := fun hw x => ?_
      freed := fun y hy => ?_
      lossless := fun hos => ?_
      isPrefix := by simpa [hopen.2.1] using hnew.received_prefix os
      discards := fun hos => ?_
      all := sent_eq
      unheld := hnew.unheld hopen.2.2
      drops := fun x => ?_ }
  · obtain ⟨hw', -⟩ | ⟨-, ho, hs⟩ | ⟨-, -, hq, hs⟩ | ⟨-, ho, hq, hs⟩ := h.send_cases x
    · exact absurd hw hw'
    · simp [hs, ho]
    · simp [hs, Nat.ne_of_lt hq]
    · simp [hs, ho, hq]
  · refine ⟨fun x => ?_, ?_, rfl⟩
    · obtain ⟨-, hs⟩ | ⟨hw, -⟩ | ⟨hw, -⟩ | ⟨hw, -⟩ := h.send_cases x
      · exact hs
      all_goals rw [hw] at hy; cases hy
    · obtain ⟨hnil, -⟩ | ⟨x, rest, hq, -, hr⟩ := h.receive_cases
      · simp [content, hy] at hnil
      · exact ⟨x, rest, hq, by rw [hr, hy]; rfl⟩
  · have hcontent := (hnew.acts_content ((hnew.isOpen_acts hopen.1 os).mpr hos)).2
    rw [hopen.2.1, content, ← List.append_assoc] at hcontent
    exact hcontent
  · have ho : (ch.acts os).isOpen = false := by
      by_contra ho
      exact (hnew.isOpen_acts hopen.1 os).mp (by simpa using ho) hos
    have hw : (ch.acts os).waiting = none := by
      by_contra hw
      rw [(h.held hw).1] at ho
      cases ho
    refine ⟨h.shut ho, hw, ?_, fun x => ?_⟩
    · simp [receive, h.shut ho]
    · simp [Channel.send, hw, ho]
  · obtain ⟨ho, hq, -, hs⟩ | ⟨hfull, hs⟩ := h.trySend_cases x
    · have hne : (ch.acts os).trySend x ≠ ch.acts os := by
        rw [hs]
        intro heq
        have := congrArg (List.length ∘ Channel.queue) heq
        simp at this
      refine ⟨⟨fun heq => absurd heq hne, fun hfull => ?_⟩, fun _ => hs⟩
      rcases hfull with hfull | hclosed
      · exact absurd hfull (Nat.ne_of_lt hq)
      · rw [ho] at hclosed
        cases hclosed
    · exact ⟨⟨fun _ => hfull, fun _ => hs⟩, fun hne => absurd hs hne⟩

end Cadence.Channel
