import Cadence.Proofs.Membership

/-!
# Cadence.Proofs.FanOut — who is told of a notification

A gathering is run with its members watched: a watched member does what it would do anyway, and the calls it makes,
with their answers, are written down together with how its update ended.  What was written down tells everything
about the run, and writing it down changes nothing.

* `update_watched`, `updateAll_watched`, `watch_emit`: what one update, several, and an emission write down.
* `watchAll_eq`: watching changes nothing.
* `FansOut`: what a record tells; `FansOut.watchAll`: it does so for any conduct and any operations.
-/

namespace Cadence

/-! ## Dialogues that are written down -/

namespace Dialogue

variable {Q : Type} {R : Q → Type} {α σ : Type}

/-- A dialogue with the answers it gets written down behind others. -/
def noted : Dialogue Q R α → List ((q : Q) × R q) → Dialogue Q R (α × List ((q : Q) × R q))
  | done a, xs => done (a, xs)
  | ask q next, xs => ask q fun r => (next r).noted (xs ++ [⟨q, r⟩])

/-- The calls of a dialogue with their answers. -/
def answered (serve : (q : Q) → σ → R q × σ) (d : Dialogue Q R α) (s : σ) : List ((q : Q) × R q) :=
  (d.asked serve s).map fun u => ⟨u.2, (serve u.2 u.1).1⟩

theorem play_noted (serve : (q : Q) → σ → R q × σ) (d : Dialogue Q R α) (xs : List ((q : Q) × R q)) (s : σ) :
    (d.noted xs).play serve s = (((d.play serve s).1, xs ++ d.answered serve s), (d.play serve s).2) := by
  induction d generalizing xs s with
  | done a => simp [noted, answered, asked]
  | ask q next ih => simp [noted, answered, asked, ih]

end Dialogue

namespace Gathering

variable {ι σ : Type} [DecidableEq ι]

/-! ## Watched members -/

/-- What one update came to: whose it was, the calls it made, and whether it panicked. -/
structure Visit (ι : Type) where
  who : ι
  calls : List (Exchange ι)
  panic : Option Payload

/-- The conduct of members who are watched. -/
def watched (conduct : Conduct ι σ) : Conduct ι (σ × List (Visit ι)) := fun i n s =>
  ((conduct i n s.1).noted []).andThen fun r => .done (r.1.1, r.1.2, s.2 ++ [⟨i, r.2, r.1.1⟩])

/-- Whether the update did not panic. -/
def Visit.isCalm (v : Visit ι) : Bool := v.panic.isNone

/-- **Calls of a dialogue** with the set. -/
theorem Kept.play {α : Type} {xs : List (Exchange ι)} {r : Registry ι} (h : Kept xs r.members)
    (d : Dialogue (Call ι) Call.Answer α) :
    Kept (xs ++ d.answered Gathering.serve r) (d.play Gathering.serve r).2.members := by
  induction d generalizing xs r with
  | done a => simpa [Dialogue.answered, Dialogue.asked] using h
  | ask c next ih => simpa [Dialogue.answered, Dialogue.asked] using ih _ (h.serve c)

theorem update_watched (conduct : Conduct ι σ) (n : Notification) (i : ι) (g : Gathering ι σ) (vs : List (Visit ι)) :
    update (watched conduct) n i ⟨g.registry, g.crowd, vs⟩ =
      ((g.update conduct n i).1, ⟨(g.update conduct n i).2.registry, (g.update conduct n i).2.crowd,
        vs ++ [⟨i, (conduct i n g.crowd).answered serve g.registry,
          ((conduct i n g.crowd).play serve g.registry).1.1⟩]⟩) := by
  simp [update, watched, Dialogue.play_andThen, Dialogue.play_noted]

theorem updateAll_cons (conduct : Conduct ι σ) (n : Notification) (i : ι) (is : List ι) (g : Gathering ι σ) :
    updateAll conduct n (i :: is) g =
      (if (g.update conduct n i).1 then (updateAll conduct n is (g.update conduct n i).2).1 + 1
        else (updateAll conduct n is (g.update conduct n i).2).1,
        (updateAll conduct n is (g.update conduct n i).2).2) := rfl

/-- **Updates one after another**: everybody in the list is called once, in order, and each update goes on with
the set as the last one left it. -/
theorem updateAll_watched (conduct : Conduct ι σ) (n : Notification) (is : List ι) (g : Gathering ι σ)
    (vs : List (Visit ι)) :
    ∃ more : List (Visit ι), updateAll (watched conduct) n is ⟨g.registry, g.crowd, vs⟩ =
        ((updateAll conduct n is g).1,
          ⟨(updateAll conduct n is g).2.registry, (updateAll conduct n is g).2.crowd, vs ++ more⟩) ∧
      more.map Visit.who = is ∧ (updateAll conduct n is g).1 = more.countP Visit.isCalm ∧
      ∀ xs, Kept xs g.registry.members →
        Kept (xs ++ more.flatMap Visit.calls) (updateAll conduct n is g).2.registry.members := by
  induction is generalizing g vs with
  | nil => exact ⟨[], by simp [updateAll], rfl, rfl, fun xs h => by simpa [updateAll] using h⟩
  | cons i is ih =>
    let v : Visit ι := ⟨i, (conduct i n g.crowd).answered serve g.registry,
      ((conduct i n g.crowd).play serve g.registry).1.1⟩
    obtain ⟨more, hmore, hwho, hcalm, hkept⟩ := ih (g.update conduct n i).2 (vs ++ [v])
    refine ⟨v :: more, ?_, by rw [List.map_cons, hwho], ?_, fun xs h => ?_⟩
    · rw [updateAll_cons, update_watched]
      simp only [show v = ⟨i, _, _⟩ from rfl] at hmore
      rw [hmore, List.append_assoc]
      rfl
    · rw [updateAll_cons, List.countP_cons, ← hcalm]
      show _ = _ + if (g.update conduct n i).1 = true then 1 else 0
      split <;> rfl
    · have hv := hkept _ (h.play (conduct i n g.crowd))
      rwa [List.append_assoc] at hv

/-! ## A gathering in use -/

/-- What is done to a gathering. -/
inductive Op (ι : Type) where
  | ask (c : Call ι)
  | emit (n : Notification)

/-- The answer of the set, or how many members took a notification. -/
abbrev Op.Answer : Op ι → Type
  | ask c => c.Answer
  | emit _ => Nat

/-- Does one thing to a gathering. -/
def perform (conduct : Conduct ι σ) : (o : Op ι) → Gathering ι σ → o.Answer × Gathering ι σ
  | .ask (.add i), g => g.add i
  | .ask (.remove i), g => g.remove i
  | .ask .size, g => (g.registry.size, g)
  | .emit n, g => g.emit conduct n

/-- Does one thing after another. -/
def performAll (conduct : Conduct ι σ) :
    List (Op ι) → Gathering ι σ → List ((o : Op ι) × o.Answer) × Gathering ι σ
  | [], g => ([], g)
  | o :: os, g =>
    let (answer, g) := perform conduct o g
    let (answers, g) := performAll conduct os g
    (⟨o, answer⟩ :: answers, g)

/-- What was done to a gathering, and what came of it. -/
inductive Episode (ι : Type) where
  | asked (x : Exchange ι)
  | emission (n : Notification) (visits : List (Visit ι)) (delivered : Nat)

namespace Episode

/-- The calls on the set, those of updates included. -/
def calls : Episode ι → List (Exchange ι)
  | asked x => [x]
  | emission _ visits _ => visits.flatMap Visit.calls

def answer : Episode ι → (o : Op ι) × o.Answer
  | asked x => ⟨.ask x.1, x.2⟩
  | emission n _ delivered => ⟨.emit n, delivered⟩

end Episode

/-- Does one thing to a gathering whose members are watched meanwhile. -/
def watch (conduct : Conduct ι σ) : Op ι → Gathering ι σ → Episode ι × Gathering ι σ
  | .ask c, g => (.asked ⟨c, (perform conduct (.ask c) g).1⟩, (perform conduct (.ask c) g).2)
  | .emit n, g =>
    let (delivered, h) := emit (watched conduct) n ⟨g.registry, g.crowd, []⟩
    (.emission n h.crowd.2 delivered, ⟨h.registry, h.crowd.1⟩)

/-- Does one thing after another, the members being watched. -/
def watchAll (conduct : Conduct ι σ) : List (Op ι) → Gathering ι σ → List (Episode ι) × Gathering ι σ
  | [], g => ([], g)
  | o :: os, g =>
    let (e, g) := watch conduct o g
    let (es, g) := watchAll conduct os g
    (e :: es, g)

/-- An emission under watch. -/
theorem watch_emit (conduct : Conduct ι σ) (n : Notification) (g : Gathering ι σ) :
    ∃ visits : List (Visit ι),
      watch conduct (.emit n) g = (.emission n visits (g.emit conduct n).1, (g.emit conduct n).2) ∧
      visits.map Visit.who = g.registry.members ∧ (g.emit conduct n).1 = visits.countP Visit.isCalm ∧
      ∀ xs, Kept xs g.registry.members →
        Kept (xs ++ visits.flatMap Visit.calls) (g.emit conduct n).2.registry.members := by
  obtain ⟨visits, heq, hrest⟩ := updateAll_watched conduct n g.registry.members g []
  refine ⟨visits, ?_, hrest⟩
  rw [watch, emit, heq]
  rfl

theorem watch_eq (conduct : Conduct ι σ) (o : Op ι) (g : Gathering ι σ) :
    (watch conduct o g).1.answer = ⟨o, (perform conduct o g).1⟩ ∧ (watch conduct o g).2 = (perform conduct o g).2 := by
  cases o with
  | ask c => exact ⟨rfl, rfl⟩
  | emit n =>
    obtain ⟨visits, heq, -⟩ := watch_emit conduct n g
    rw [heq]
    exact ⟨rfl, rfl⟩

/-- **Watching changes nothing.** -/
theorem watchAll_eq (conduct : Conduct ι σ) (os : List (Op ι)) (g : Gathering ι σ) :
    ((watchAll conduct os g).1.map Episode.answer, (watchAll conduct os g).2) = performAll conduct os g := by
  induction os generalizing g with
  | nil => rfl
  | cons o os ih =>
    obtain ⟨hanswer, hg⟩ := watch_eq conduct o g
    have hos := ih (watch conduct o g).2
    rw [hg] at hos
    simp only [watchAll, performAll, List.map_cons, hanswer, hg, ← hos]

/-! ## What a record tells -/

/-- What one subscriber is called with. -/
def Episode.received (i : ι) : Episode ι → List Notification
  | asked _ => []
  | emission n visits _ => (visits.filter (·.who = i)).map fun _ => n

/-- What one subscriber has to be called with, where these are the members when it begins. -/
def Episode.due (i : ι) (members : List ι) : Episode ι → List Notification
  | asked _ => []
  | emission n _ _ => if i ∈ members then [n] else []

/-- The notifications whose emission began while a subscriber was a member, in a record that comes after calls. -/
def dueTo (i : ι) : List (Exchange ι) → List (Episode ι) → List Notification
  | _, [] => []
  | xs, e :: es => e.due i (standing xs) ++ dueTo i (xs ++ e.calls) es

theorem dueTo_append (i : ι) (xs : List (Exchange ι)) (es fs : List (Episode ι)) :
    dueTo i xs (es ++ fs) = dueTo i xs es ++ dueTo i (xs ++ es.flatMap Episode.calls) fs := by
  induction es generalizing xs with
  | nil => simp [dueTo]
  | cons e es ih => simp [dueTo, ih]

/-- What a record tells of a gathering that was empty at first. -/
structure FansOut (es : List (Episode ι)) (members : List ι) : Prop where
  /-- The members are those that joined and did not leave, and every call was answered accordingly. -/
  kept : Kept (es.flatMap Episode.calls) members
  /-- An emission calls those who were members when it began, each once and in their order, whatever the others do,
  and is answered by how many did not panic. -/
  visits : ∀ before n visits delivered after, es = before ++ .emission n visits delivered :: after →
    visits.map Visit.who = standing (before.flatMap Episode.calls) ∧ delivered = visits.countP Visit.isCalm
  /-- Each subscriber gets the notifications whose emission began while it was a member, each once and in order. -/
  received : ∀ i, es.flatMap (Episode.received i) = dueTo i [] es

namespace FansOut

variable {es : List (Episode ι)} {members : List ι}

theorem nil : FansOut (ι := ι) [] [] := ⟨.nil, by simp, fun _ => rfl⟩

theorem visits_concat (h : FansOut es members) {e : Episode ι}
    (he : ∀ n vs k, e = .emission n vs k → vs.map Visit.who = members ∧ k = vs.countP Visit.isCalm)
    (before : List (Episode ι)) (n : Notification) (vs : List (Visit ι)) (k : Nat) (after : List (Episode ι))
    (heq : es ++ [e] = before ++ .emission n vs k :: after) :
    vs.map Visit.who = standing (before.flatMap Episode.calls) ∧ k = vs.countP Visit.isCalm := by
  refine forall_cut_concat (P := fun before e => ∀ n vs k, e = .emission n vs k →
    vs.map Visit.who = standing (before.flatMap Episode.calls) ∧ k = vs.countP Visit.isCalm)
    ?_ (h.kept.standing ▸ he) _ _ _ heq n vs k rfl
  rintro before - after heq n vs k rfl
  exact h.visits before n vs k after heq

/-- One subscriber among visits to members. -/
theorem received_eq (h : members.Nodup) {vs : List (Visit ι)} (hvs : vs.map Visit.who = members) (i : ι)
    (n : Notification) (k : Nat) : (Episode.emission n vs k).received i = (Episode.emission n vs k).due i members := by
  have hlength : (vs.filter (·.who = i)).length = if i ∈ members then 1 else 0 := by
    rw [← h.count, ← hvs, List.count, List.countP_map, List.countP_eq_length_filter]
    rfl
  simp only [Episode.received, Episode.due, List.map_const', hlength]
  split <;> rfl

/-- **One thing more** that is done to a gathering. -/
theorem watch {g : Gathering ι σ} (h : FansOut es g.registry.members) (conduct : Conduct ι σ) (o : Op ι) :
    FansOut (es ++ [(Gathering.watch conduct o g).1]) (Gathering.watch conduct o g).2.registry.members := by
  have hmore (i : ι) (e : Episode ι) (he : e.received i = e.due i g.registry.members) :
      (es ++ [e]).flatMap (Episode.received i) = dueTo i [] (es ++ [e]) := by
    rw [List.flatMap_append, h.received, dueTo_append, List.nil_append, dueTo, ← h.kept.standing, ← he]
    simp [dueTo]
  cases o with
  | ask c =>
    have hc := h.kept.serve c
    have hg : perform conduct (.ask c) g = ((serve c g.registry).1, { g with registry := (serve c g.registry).2 }) := by
      cases c <;> rfl
    simp only [Gathering.watch, hg]
    refine ⟨by simpa [Episode.calls] using hc, h.visits_concat (by simp), fun i => hmore i _ rfl⟩
  | emit n =>
    obtain ⟨vs, heq, hwho, hcalm, hkept⟩ := watch_emit conduct n g
    rw [heq]
    refine ⟨by simpa [Episode.calls] using hkept _ h.kept, h.visits_concat ?_, fun i => hmore i _ ?_⟩
    · rintro n' vs' k' heq'
      cases heq'
      exact ⟨hwho, hcalm⟩
    · exact received_eq g.registry.nodup hwho i n _

/-- **Any run** of a gathering. -/
theorem watchAll {g : Gathering ι σ} (h : FansOut es g.registry.members) (conduct : Conduct ι σ) (os : List (Op ι)) :
    FansOut (es ++ (Gathering.watchAll conduct os g).1) (Gathering.watchAll conduct os g).2.registry.members := by
  induction os generalizing es g with
  | nil => simpa [Gathering.watchAll] using h
  | cons o os ih => simpa [Gathering.watchAll] using ih (h.watch conduct o)

end FansOut

/-- The first member takes the second off and adds a third one, and panics: the second is still called this time,
and the third from the next time on. -/
example :
    let conduct : Conduct Nat Unit := fun i _ s =>
      if i = 0 then .ask (.remove 1) fun _ => .ask (.add 2) fun _ => .done (some .other, s) else .done (none, s)
    let es := (watchAll conduct [.ask (.add 0), .ask (.add 1), .emit .setupDone, .emit .actionDone] { crowd := () }).1
    es.flatMap (Episode.received 1) = [.setupDone] ∧ es.flatMap (Episode.received 2) = [.actionDone] := by
  decide

end Gathering

end Cadence
