import Cadence.Gathering
import Mathlib.Data.List.Nodup

/-!
# Cadence.Proofs.Membership — who is a member, told from the answers

A set of subscribers is changed by calls that add and remove members, and each is answered by whether it changed
anything.  So the members can be told from the answers alone (`standing`), whoever made the calls.

* `Kept`: members and answers go together, and the members are in the order in which they joined.
* `Kept.concat`: one call more.
-/

namespace Cadence.Gathering

variable {ι : Type} [DecidableEq ι]

/-- A call on a set of subscribers, and its answer. -/
abbrev Exchange (ι : Type) : Type := (c : Call ι) × c.Answer

/-- The members after a call, by its answer. -/
def Exchange.lead (ms : List ι) : Exchange ι → List ι
  | ⟨.add i, true⟩ => ms ++ [i]
  | ⟨.remove i, true⟩ => ms.filter (· ≠ i)
  | _ => ms

/-- The members after calls on a set that was empty, by their answers. -/
def standing (xs : List (Exchange ι)) : List ι := xs.foldl Exchange.lead []

/-- The answer that a call has to get, where these are the members. -/
def Exchange.Fits (ms : List ι) : Exchange ι → Prop
  | ⟨.add i, accepted⟩ => accepted = true ↔ i ∉ ms
  | ⟨.remove i, accepted⟩ => accepted = true ↔ i ∈ ms
  | ⟨.size, n⟩ => n = ms.length

theorem standing_concat (xs : List (Exchange ι)) (x : Exchange ι) :
    standing (xs ++ [x]) = x.lead (standing xs) := List.foldl_concat _ _ _ _

/-! ## Calls one after another -/

/-- What holds of everything in a list, with what comes before it, and of one thing more. -/
theorem forall_cut_concat {α : Type} {P : List α → α → Prop} {xs : List α} {x : α}
    (h : ∀ before y after, xs = before ++ y :: after → P before y) (hx : P xs x) (before : List α) (y : α)
    (after : List α) (heq : xs ++ [x] = before ++ y :: after) : P before y := by
  rcases List.eq_nil_or_concat after with rfl | ⟨after, z, rfl⟩
  · obtain ⟨rfl, rfl⟩ := List.append_singleton_inj.mp heq
    exact hx
  · rw [List.concat_eq_append, ← List.cons_append, ← List.append_assoc] at heq
    exact h before y after (List.append_singleton_inj.mp heq).1

/-- The members of a set that was empty, after calls with these answers. -/
structure Kept (xs : List (Exchange ι)) (members : List ι) : Prop where
  /-- They are those that were added and not removed since; a call that was not accepted changed nothing. -/
  standing : members = standing xs
  /-- Nobody is a member twice. -/
  nodup : members.Nodup
  /-- An addition is accepted iff its subscriber is absent, a removal iff it is present. -/
  answers : ∀ before x after, xs = before ++ x :: after → x.Fits (Gathering.standing before)
  joined : ∀ i ∈ members, ⟨.add i, true⟩ ∈ xs
  /-- The members are in the order of the last addition of each that was accepted. -/
  ordered : members.Pairwise fun i j => ∃ before after, xs = before ++ ⟨.add j, true⟩ :: after ∧
    ⟨.add i, true⟩ ∈ before ∧ ⟨.add i, true⟩ ∉ after ∧ ⟨.add j, true⟩ ∉ after

namespace Kept

variable {xs : List (Exchange ι)} {members : List ι}

theorem nil : Kept (ι := ι) [] [] where
  standing := rfl
  nodup := .nil
  answers before x after h := by simp at h
  joined i hi := by cases hi
  ordered := .nil

theorem answers_concat (h : Kept xs members) {x : Exchange ι} (hx : x.Fits members) (before : List (Exchange ι))
    (y : Exchange ι) (after : List (Exchange ι)) (heq : xs ++ [x] = before ++ y :: after) :
    y.Fits (Gathering.standing before) :=
  forall_cut_concat (P := fun before y => y.Fits (Gathering.standing before)) h.answers (h.standing ▸ hx) _ _ _ heq

/-- The order of members stays, whatever comes later, unless it is an addition of one of them. -/
theorem ordered_concat (h : Kept xs members) {x : Exchange ι} (hx : ∀ i ∈ members, x ≠ ⟨.add i, true⟩) :
    members.Pairwise fun i j => ∃ before after, xs ++ [x] = before ++ ⟨.add j, true⟩ :: after ∧
      ⟨.add i, true⟩ ∈ before ∧ ⟨.add i, true⟩ ∉ after ∧ ⟨.add j, true⟩ ∉ after := by
  refine h.ordered.imp_of_mem fun {i j} hi hj => ?_
  rintro ⟨before, after, rfl, hbefore, hi', hj'⟩
  have more {k : ι} (hk : k ∈ members) (hk' : ⟨.add k, true⟩ ∉ after) : ⟨.add k, true⟩ ∉ after ++ [x] := by
    rw [List.mem_append, List.mem_singleton, not_or]
    exact ⟨hk', (hx k hk).symm⟩
  exact ⟨before, after ++ [x], by simp, hbefore, more hi hi', more hj hj'⟩

/-- A call that changes nothing. -/
theorem idle (h : Kept xs members) {x : Exchange ι} (hx : x.Fits members) (hl : x.lead members = members)
    (ha : ∀ i, x ≠ ⟨.add i, true⟩) : Kept (xs ++ [x]) members where
  standing := by rw [standing_concat, ← h.standing, hl]
  nodup := h.nodup
  answers := h.answers_concat hx
  joined i hi := List.mem_append_left _ (h.joined i hi)
  ordered := h.ordered_concat fun i _ => ha i

/-- **One call more**, answered as it has to be. -/
theorem concat (h : Kept xs members) {x : Exchange ι} (hx : x.Fits members) :
    Kept (xs ++ [x]) (x.lead members) := by
  have hstanding : x.lead members = Gathering.standing (xs ++ [x]) := by rw [standing_concat, ← h.standing]
  have hanswers := h.answers_concat hx
  rcases x with ⟨i | i | _, answer⟩
  case add =>
    cases answer with
    | false => exact h.idle hx rfl (by simp)
    | true =>
      have hi : i ∉ members := hx.mp rfl
      have hne (k : ι) (hk : k ∈ members) : (⟨.add i, true⟩ : Exchange ι) ≠ ⟨.add k, true⟩ := by
        rintro heq
        cases heq
        exact hi hk
      exact
        { standing := hstanding
          nodup := by
            rw [Exchange.lead, ← List.concat_eq_append]
            exact h.nodup.concat hi
          answers := hanswers
          joined := fun k hk => by
            rcases List.mem_append.mp hk with hk | hk
            · exact List.mem_append_left _ (h.joined k hk)
            · rw [List.mem_singleton.mp hk]
              exact List.mem_append_right _ (List.mem_singleton_self _)
          -- whoever was a member joined before, and the newcomer now
          ordered := List.pairwise_append.mpr ⟨h.ordered_concat hne, List.pairwise_singleton _ _, fun k hk j hj => by
            rw [List.mem_singleton.mp hj]
            exact ⟨xs, [], rfl, h.joined k hk, by simp, by simp⟩⟩ }
  case remove =>
    cases answer with
    | false => exact h.idle hx rfl (by simp)
    | true =>
      exact
        { standing := hstanding
          nodup := h.nodup.filter _
          answers := hanswers
          joined := fun k hk => List.mem_append_left _ (h.joined k (List.mem_filter.mp hk).1)
          ordered := (h.ordered_concat (by simp)).filter _ }
  case size => exact h.idle hx rfl (by simp)

end Kept

/-! ## A set that is served -/

theorem serve_fits (c : Call ι) (r : Registry ι) : Exchange.Fits r.members ⟨c, (serve c r).1⟩ := by
  cases c with
  | add i =>
    show (r.add i).1 = true ↔ i ∉ r.members
    unfold Registry.add
    split <;> simp_all
  | remove i => simp [Exchange.Fits, serve, Registry.remove]
  | size => rfl

theorem serve_lead (c : Call ι) (r : Registry ι) :
    (serve c r).2.members = Exchange.lead r.members ⟨c, (serve c r).1⟩ := by
  cases c with
  | add i =>
    simp only [serve, Registry.add]
    split <;> rfl
  | remove i =>
    by_cases hi : i ∈ r.members
    · simp [serve, Registry.remove, Exchange.lead, hi]
    · have hall : r.members.filter (· ≠ i) = r.members := by
        refine List.filter_eq_self.mpr fun a ha => ?_
        simpa using ne_of_mem_of_not_mem ha hi
      simpa [serve, Registry.remove, Exchange.lead, hi] using hall
  | size => rfl

theorem Kept.serve {xs : List (Exchange ι)} {r : Registry ι} (h : Kept xs r.members) (c : Call ι) :
    Kept (xs ++ [⟨c, (Gathering.serve c r).1⟩]) (Gathering.serve c r).2.members := by
  rw [serve_lead]
  exact h.concat (serve_fits c r)

end Cadence.Gathering
