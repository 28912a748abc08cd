import Cadence.Domain.Quiescence
import Cadence.Engine.Memory
import Mathlib.Data.List.Induction

/-!
# Cadence.Proofs.Firing — what an engine in memory has fired, and what the domain reads of it

An engine in memory fires its agenda in order: `Fired m k` says that the first `k` activations have become facts
and the others are still there.  Firing one rule and firing all of them move along the same row of states.

* `Fired.reset`, `Fired.step`, `Fired.run`: the three calls that move along it.
* `agendaIsEmpty_joined`: an agenda of activations reads as empty iff it is.
* `perform_refresh`: what the domain keeps of a look at the engine.
-/

namespace Cadence

/-! ## The text of an agenda -/

namespace Text

variable {α : Type} {p : α → Bool}

theorem cut_of_none {s : List α} (h : ∀ c ∈ s, p c = false) : cut p s = [s] := by
  induction s with
  | nil => rfl
  | cons c s ih =>
    obtain ⟨hc, hs⟩ := List.forall_mem_cons.mp h
    simp [cut, hc, ih hs]

/-- The pieces of two texts with an element to cut at between them. -/
theorem cut_append (s r : List α) {c : α} (hc : p c = true) :
    cut p (s ++ c :: r) = cut p s ++ cut p r := by
  induction s with
  | nil => simp [cut, hc]
  | cons d s ih =>
    by_cases hd : p d = true
    · simp [cut, hd, ih]
    · obtain ⟨piece, pieces, hs⟩ := List.exists_cons_of_ne_nil (cut_ne_nil p s)
      simp [cut, hd, ih, hs]

theorem cut_append_cons {s r : List α} {c : α} (h : ∀ c ∈ s, p c = false) (hc : p c = true) :
    cut p (s ++ c :: r) = s :: cut p r := by
  rw [cut_append s r hc, cut_of_none h, List.singleton_append]

theorem ne_lf {l : List Char} (h : '\n' ∉ l) : ∀ c ∈ l, (c == '\n') = false := by
  intro c hc
  rw [beq_eq_false_iff_ne]
  rintro rfl
  exact h hc

theorem cut_joined (s : String) (rest : List String) (h : ∀ a ∈ s :: rest, '\n' ∉ a.toList) :
    cut (· == '\n') (joined "\n" (s :: rest)).toList = s.toList :: rest.map String.toList := by
  have clean {a : String} (ha : a ∈ s :: rest) : ∀ c ∈ a.toList, (c == '\n') = false := ne_lf (h a ha)
  induction rest generalizing s with
  | nil => simpa [joined] using cut_of_none (clean (a := s) (by simp))
  | cons t rest ih =>
    have hjoined : (joined "\n" (s :: t :: rest)).toList =
        s.toList ++ '\n' :: (joined "\n" (t :: rest)).toList := by simp [joined]
    rw [hjoined, cut_append_cons (clean (by simp)) (by simp),
      ih t (fun a ha => h a (List.mem_cons_of_mem _ ha)) fun ha => clean (List.mem_cons_of_mem _ ha)]
    rfl

theorem last_mem_endLines {pieces : List (List Char)} {last : List Char} (h : last ≠ []) :
    last ∈ endLines (pieces ++ [last]) := by
  induction pieces with
  | nil => simp [endLines, h]
  | cons piece pieces ih =>
    cases hp : pieces ++ [last] with
    | nil => simp at hp
    | cons q qs =>
      rw [hp] at ih
      rw [List.cons_append, hp, endLines]
      · exact List.mem_cons_of_mem _ ih
      · simp

end Text

namespace Domain

/-- A line that an agenda lists a rule with. -/
structure IsActivation (a : String) : Prop where
  line : '\n' ∉ a.toList
  text : Text.trim a.toList ≠ []
  rule : ¬ summaryStart <+: Text.trim a.toList

/-- **An agenda of activations reads as empty iff it is.** -/
theorem agendaIsEmpty_joined {as : List String} (h : ∀ a ∈ as, IsActivation a) :
    agendaIsEmpty (Text.joined "\n" as) = as.isEmpty := by
  induction as using List.reverseRecOn with
  | nil => rfl
  | append_singleton as a _ =>
    have ha : IsActivation a := h a (by simp)
    have hcut : Text.cut (· == '\n') (Text.joined "\n" (as ++ [a])).toList =
        (as.map String.toList) ++ [a.toList] := by
      cases as with
      | nil => exact Text.cut_joined a [] fun b hb => (h b hb).line
      | cons s rest => simpa using Text.cut_joined s (rest ++ [a]) fun b hb => (h b hb).line
    have hne : a.toList ≠ [] := fun hnil => ha.text (by rw [hnil]; rfl)
    have hmem : Text.trim a.toList ∈ (Text.lines (Text.joined "\n" (as ++ [a])).toList).map Text.trim := by
      rw [Text.lines, hcut]
      exact List.mem_map_of_mem (Text.last_mem_endLines hne)
    have hfalse : agendaIsEmpty (Text.joined "\n" (as ++ [a])) = false := by
      rw [agendaIsEmpty, List.all_eq_false]
      refine ⟨_, List.mem_filter.mpr ⟨hmem, ?_⟩, ?_⟩
      · simpa using ha.text
      · simpa using ha.rule
    rw [hfalse]
    simp

end Domain

/-! ## Firing in order -/

namespace Engine.Memory

/-- The facts once the activations have been fired, in order: the initial one, and one with its number for each rule. -/
def factList (as : List String) : List String :=
  "f-0     (initial-fact)" ::
    as.mapIdx fun i a => "f-" ++ Text.decimal (i + 1) ++ "     (fired " ++ ruleOf a ++ ")"

@[simp] theorem length_factList (as : List String) : (factList as).length = as.length + 1 := by
  simp [factList]

theorem factsAfter_eq (facts as : List String) :
    factsAfter facts as = facts ++ as.mapIdx fun i a => firedFact (facts.length + i) a := by
  induction as generalizing facts with
  | nil => simp [factsAfter]
  | cons a as ih =>
    rw [factsAfter, ih]
    simp [Nat.add_assoc, Nat.add_comm 1]

theorem factList_append (as bs : List String) : factList (as ++ bs) = factsAfter (factList as) bs := by
  rw [factsAfter_eq, length_factList, factList, factList, List.mapIdx_append]
  simp [firedFact, Nat.add_assoc, Nat.add_comm]

/-- The first `k` activations are fired, and the others are on the agenda. -/
structure Fired (m : Memory) (k : Nat) : Prop where
  le : k ≤ m.initial.length
  agenda : m.agenda = m.initial.drop k
  facts : m.facts = factList (m.initial.take k)

variable {m : Memory} {k : Nat}

/-- The engine as it is when it answers: the call is counted. -/
def counted (m : Memory) (c : Call) : Memory := { m with counters := m.counters.count c }

theorem call_of_sound {c : Call} (h : m.failing c = none) :
    Engine.call c m = (.ok ((m.counted c).answer c).1, ((m.counted c).answer c).2) := by
  simp only [Engine.call, h]
  rfl

theorem Fired.counted (h : Fired m k) (c : Call) : Fired (m.counted c) k := ⟨h.le, h.agenda, h.facts⟩

theorem Fired.reset (m : Memory) : Fired (m.answer .reset).2 0 where
  le := Nat.zero_le _
  agenda := rfl
  facts := rfl

theorem Fired.run (h : Fired m k) : Fired (m.answer .run).2 m.initial.length where
  le := Nat.le_refl _
  agenda := by simp [answer, fireAll]
  facts := by
    have hall : m.initial = m.initial.take k ++ m.initial.drop k := (List.take_append_drop k _).symm
    change factsAfter m.facts m.agenda = factList (m.initial.take m.initial.length)
    rw [h.facts, h.agenda, ← factList_append, ← hall, List.take_length]

theorem Fired.step (h : Fired m k) (hk : k < m.initial.length) : Fired (m.answer .step).2 (k + 1) := by
  have hagenda : m.agenda = m.initial[k] :: m.initial.drop (k + 1) := by
    rw [h.agenda, List.drop_eq_getElem_cons hk]
  have hanswer : (m.answer .step).2 = { m with
      agenda := m.initial.drop (k + 1)
      facts := m.facts ++ [firedFact m.facts.length m.initial[k]] } := by
    simp only [answer, fire, hagenda]
  rw [hanswer]
  refine ⟨hk, rfl, ?_⟩
  have hlen : m.facts.length = k + 1 := by
    rw [h.facts, length_factList, List.length_take, Nat.min_eq_left h.le]
  change m.facts ++ [firedFact m.facts.length m.initial[k]] = factList (m.initial.take (k + 1))
  rw [List.take_succ_eq_append_getElem hk, factList_append, ← h.facts]
  rfl

/-- No call changes what the engine was made with. -/
theorem call_keeps (c : Call) (m : Memory) :
    (Engine.call c m).2.initial = m.initial ∧ (Engine.call c m).2.failing = m.failing := by
  simp only [Engine.call]
  split
  · exact ⟨rfl, rfl⟩
  · cases c with
    | step =>
      unfold answer
      cases m.agenda <;> simp [fire]
    | _ => exact ⟨rfl, rfl⟩

/-- Asking for a text fires nothing. -/
theorem Fired.query (h : Fired m k) {c : Call} (hc : c = .facts ∨ c = .agenda) : Fired (Engine.call c m).2 k := by
  simp only [Engine.call]
  split
  · exact h.counted c
  · rcases hc with rfl | rfl <;> exact h.counted _

theorem query_facts {c : Call} (hc : c = .facts ∨ c = .agenda) (m : Memory) :
    (Engine.call c m).2.facts = m.facts := by
  simp only [Engine.call]
  split
  · rfl
  · rcases hc with rfl | rfl <;> rfl

end Engine.Memory

/-! ## What the domain reads -/

namespace Domain.Quiescence

open Engine.Memory

/-- **A look at an engine that does not fail** gives the domain the facts, and whether the agenda is empty. -/
theorem perform_refresh {m : Engine.Memory} (h : ∀ c, m.failing c = none) (d : Quiescence) :
    ∃ log, Engine.perform (refresh d) m =
      ((.ok (), { d with
        facts := Text.joined "\n" m.facts
        done := agendaIsEmpty (Text.joined "\n" m.agenda) }), (m.counted .facts).counted .agenda, log) := by
  have hf : Engine.call .facts m = (.ok (Text.joined "\n" m.facts), m.counted .facts) := call_of_sound (h _)
  have ha : Engine.call .agenda (m.counted .facts) =
      (.ok (Text.joined "\n" m.agenda), (m.counted .facts).counted .agenda) := call_of_sound (h _)
  exact ⟨_, by
    simp only [Engine.perform, refresh, query, Dialogue.play_ask, Engine.recorded, hf, ha, Dialogue.play_done]
    rfl⟩

end Domain.Quiescence

end Cadence
