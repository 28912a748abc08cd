import Cadence.Proofs.Protocol

/-!
# Cadence.Proofs.History — what a journal says

The journal of a controller has an entry for everything; a statement is about the entries of one sort.
`readOff f` reads a journal, which is kept newest first, from its oldest entry on and takes what `f` makes of
each entry.

* `acts`: what the worker did in the run, as the turn protocol sees it.
* `emissions`: what was announced, and to whom.
* `tellings`: who was told what.
* `inForce`: the mode after a history, told from the modes that were set.
-/

namespace Cadence.Controller

variable {A : Assembly} {ι β : Type}

/-- The failure a call ended in, if it did; a panic is one. -/
def Failure.of? {α : Type} : Outcome Failure α → Option Failure
  | .ok _ => none
  | .error f => some f
  | .panicked p => some (.panicked p)

theorem Failure.of?_map {α γ : Type} (r : Outcome Failure α) (g : α → γ) :
    Failure.of? (r.map g) = Failure.of? r := by
  cases r <;> rfl

namespace Entry

/-- The act of the worker that an entry tells of. -/
def act? : Entry ι → Option Act
  | engine r => some (.engine r.call (Failure.of? (r.reply.mapError fun e => .domain (.engine e))))
  | hook h r => some (.hook h (Failure.of? (r.mapError .domain)))
  | hasDone (.ok b) => some (.hasDone b)
  | hasDone (.error p) => some (.hasDonePanics p)
  | passed m => some (.passed m)
  | emitted n _ => some (.emitted n)
  | ended f => some (.ended f)
  | _ => none

/-- The announcement that an entry tells of: what, and to whom. -/
def emission? : Entry ι → Option (Notification × List (Subscriber ι))
  | emitted n rs => some (n, rs)
  | _ => none

/-- The delivery that an entry tells of. -/
def telling? : Entry ι → Option (Subscriber ι × Notification)
  | told s n _ => some (s, n)
  | _ => none

/-- Whether an entry is about a call of the worker on the engine or the domain. -/
def IsOwn : Entry ι → Prop
  | engine _ => True
  | lent _ => True
  | hook _ _ => True
  | _ => False

theorem IsOwn.emission? {e : Entry ι} (h : e.IsOwn) : e.emission? = none := by
  cases e <;> first | rfl | exact h.elim

theorem IsOwn.telling? {e : Entry ι} (h : e.IsOwn) : e.telling? = none := by
  cases e <;> first | rfl | exact h.elim

end Entry

/-! ## Reading a journal -/

/-- What a journal says to `f`, oldest first. -/
def readOff (f : Entry ι → Option β) (j : List (Entry ι)) : List β := j.reverse.filterMap f

section Reading

variable (f : Entry ι → Option β)

@[simp] theorem readOff_nil : readOff f [] = [] := rfl

@[simp] theorem readOff_cons (e : Entry ι) (j : List (Entry ι)) :
    readOff f (e :: j) = readOff f j ++ (f e).toList := by
  cases h : f e <;> simp [readOff, h]

@[simp] theorem readOff_append (i j : List (Entry ι)) : readOff f (i ++ j) = readOff f j ++ readOff f i := by
  simp [readOff]

theorem readOff_eq_nil {j : List (Entry ι)} (h : ∀ e ∈ j, f e = none) : readOff f j = [] := by
  simp only [readOff, List.filterMap_eq_nil_iff, List.mem_reverse]
  exact h

theorem mem_readOff {b : β} {j : List (Entry ι)} : b ∈ readOff f j ↔ ∃ e ∈ j, f e = some b := by
  simp [readOff]

end Reading

def acts (w : Controller A) : List Act := readOff Entry.act? w.journal

def emissions (w : Controller A) : List (Notification × List (Subscriber A.Id)) :=
  readOff Entry.emission? w.journal

def tellings (w : Controller A) : List (Subscriber A.Id × Notification) :=
  readOff Entry.telling? w.journal

/-- What one subscriber was told. -/
def toldTo (w : Controller A) (s : Subscriber A.Id) : List Notification :=
  w.tellings.filterMap fun p => if p.1 = s then some p.2 else none

/-- The mode after a history that began under `m`. -/
def inForce (m : Mode) (es : List (Entry ι)) : Mode :=
  es.foldl (fun m e => match e with | .setMode m' => m' | _ => m) m

end Cadence.Controller
