/-!
# Cadence.Outcome — how a call can end

A call of foreign code returns a value, returns an error, or panics.  A panic carries a payload,
which is a text or something that has no text.
-/

namespace Cadence

/-- What a panic carries. -/
inductive Payload where
  | text (message : String)
  | other
deriving DecidableEq, Repr, Inhabited

/-- The text of a panic. -/
def Payload.message : Payload → String
  | text m => m
  | other => "non-string panic payload"

/-- The end of a call. -/
inductive Outcome (ε α : Type) where
  | ok (value : α)
  | error (e : ε)
  | panicked (p : Payload)
deriving DecidableEq, Repr

namespace Outcome

variable {ε ε' α β : Type}

/-- Goes on after a value, with the state it left behind; an error or a panic is the end. -/
def follow {σ : Type} : Outcome ε α × σ → (α → σ → Outcome ε β × σ) → Outcome ε β × σ
  | (ok a, s), f => f a s
  | (error e, s), _ => (error e, s)
  | (panicked p, s), _ => (panicked p, s)

def map (f : α → β) : Outcome ε α → Outcome ε β
  | ok a => ok (f a)
  | error e => error e
  | panicked p => panicked p

def mapError (f : ε → ε') : Outcome ε α → Outcome ε' α
  | ok a => ok a
  | error e => error (f e)
  | panicked p => panicked p

def isOk : Outcome ε α → Bool
  | ok _ => true
  | _ => false

end Outcome

end Cadence
