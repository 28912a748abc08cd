/-!
# Cadence.Dialogue — conduct that asks and answers

A party that may call a service decides each call from the answers it has had, and comes to a
result in the end.  `Dialogue Q R α` is such a conduct with calls `q : Q`, answers of type `R q` and
result `α`; it says nothing about the service, so a statement about all dialogues holds for every
way to use it.  `play` runs a dialogue against a service that keeps a state.
-/

namespace Cadence

/-- Calls one after another, each chosen from the answers so far, and a result. -/
inductive Dialogue (Q : Type) (R : Q → Type) (α : Type) where
  | done (result : α)
  | ask (q : Q) (next : R q → Dialogue Q R α)

namespace Dialogue

variable {Q : Type} {R : Q → Type} {α β σ : Type}

/-- Runs a dialogue against a service with state. -/
def play (serve : (q : Q) → σ → R q × σ) : Dialogue Q R α → σ → α × σ
  | done a, s => (a, s)
  | ask q next, s => (next (serve q s).1).play serve (serve q s).2

/-- The calls that a dialogue makes, each with the state it meets. -/
def asked (serve : (q : Q) → σ → R q × σ) : Dialogue Q R α → σ → List (σ × Q)
  | done _, _ => []
  | ask q next, s => (s, q) :: (next (serve q s).1).asked serve (serve q s).2

/-- Goes on with another dialogue that may depend on the result. -/
def andThen : Dialogue Q R α → (α → Dialogue Q R β) → Dialogue Q R β
  | done a, f => f a
  | ask q next, f => ask q fun r => (next r).andThen f

variable (serve : (q : Q) → σ → R q × σ)

@[simp] theorem play_done (a : α) (s : σ) : (done a : Dialogue Q R α).play serve s = (a, s) := rfl

@[simp] theorem play_ask (q : Q) (next : R q → Dialogue Q R α) (s : σ) :
    (ask q next).play serve s = (next (serve q s).1).play serve (serve q s).2 := rfl

theorem play_andThen (d : Dialogue Q R α) (f : α → Dialogue Q R β) (s : σ) :
    (d.andThen f).play serve s = (f (d.play serve s).1).play serve (d.play serve s).2 := by
  induction d generalizing s with
  | done a => rfl
  | ask q next ih => exact ih (serve q s).1 (serve q s).2

/-- What every call keeps, a dialogue keeps. -/
theorem play_induct {P : σ → Prop} (keeps : ∀ q s, P s → P (serve q s).2) (d : Dialogue Q R α)
    (s : σ) (h : P s) : P (d.play serve s).2 := by
  induction d generalizing s with
  | done a => exact h
  | ask q next ih => exact ih (serve q s).1 (serve q s).2 (keeps q s h)

/-- What every call keeps, with the calls made so far, a dialogue keeps. -/
theorem asked_induct {P : List (σ × Q) → σ → Prop}
    (keeps : ∀ qs q s, P qs s → P (qs ++ [(s, q)]) (serve q s).2) (d : Dialogue Q R α)
    (qs : List (σ × Q)) (s : σ) (h : P qs s) : P (qs ++ d.asked serve s) (d.play serve s).2 := by
  induction d generalizing qs s with
  | done a => simpa [asked] using h
  | ask q next ih =>
    have hq := ih (serve q s).1 (qs ++ [(s, q)]) (serve q s).2 (keeps qs q s h)
    simpa [asked] using hq

end Dialogue

end Cadence
