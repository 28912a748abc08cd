import Cadence.Proofs.Alike
import Cadence.Proofs.Course
import Cadence.Proofs.FanOut

/-!
# Cadence.Proofs.Company — a controller in company

A controller is in company if there are guests among its subscribers, who only observe or panic, and if those who
were there originally make accesses in between that they did not make before.  `Company` says how the reactions of an
assembly are extended, and `Shadows` how a controller goes along with one in company, as far as anybody can tell
who was there originally.

* `Shadows.own`: an original access is answered as it would be without company.
* `Shadows.extra`: an access in between is not noticed.
* `Shadows.follows`, `Shadows.watches`: the same for whole reactions.
-/

namespace Cadence

namespace Dialogue

variable {Q Q' : Type} {R : Q → Type} {α σ : Type}

/-- The same dialogue under other names for its calls. -/
def under (f : Q' → Q) : Dialogue Q' (fun q => R (f q)) α → Dialogue Q R α
  | done a => done a
  | ask q next => ask (f q) fun r => (next r).under f

theorem play_under (serve : (q : Q) → σ → R q × σ) (f : Q' → Q) (d : Dialogue Q' (fun q => R (f q)) α) (s : σ) :
    (d.under f).play serve s = d.play (fun q => serve (f q)) s := by
  induction d generalizing s with
  | done a => rfl
  | ask q next ih => exact ih (serve (f q) s).1 (serve (f q) s).2

end Dialogue

/-- A panic is no error that was put in other words. -/
theorem Outcome.eq_of_mapError {ε ε' α : Type} {r : Outcome ε α} {f : ε → ε'} {p : Payload}
    (h : r.mapError f = .panicked p) : r = .panicked p := by
  cases r <;> cases h
  rfl

namespace Registry

variable {ι : Type} [DecidableEq ι] {r r' : Registry ι} {p : ι → Bool} {i : ι}

/-! ## Members of one kind -/

theorem add_filter (h : r.members = r'.members.filter p) (hi : p i = true) :
    (r.add i).1 = (r'.add i).1 ∧ (r.add i).2.members = (r'.add i).2.members.filter p := by
  have hmem : i ∈ r.members ↔ i ∈ r'.members := by rw [h, List.mem_filter, and_iff_left hi]
  unfold add
  by_cases hin : i ∈ r'.members
  · rw [dif_pos hin, dif_pos (hmem.mpr hin)]
    exact ⟨rfl, h⟩
  · rw [dif_neg hin, dif_neg (mt hmem.mp hin)]
    exact ⟨rfl, by simp [h, hi]⟩

theorem add_filter_of_not (r : Registry ι) (hi : p i = false) :
    (r.add i).2.members.filter p = r.members.filter p := by
  unfold add
  split
  · rfl
  · simp [hi]

theorem remove_filter (h : r.members = r'.members.filter p) (hi : p i = true) :
    (r.remove i).1 = (r'.remove i).1 ∧ (r.remove i).2.members = (r'.remove i).2.members.filter p := by
  have hmem : i ∈ r.members ↔ i ∈ r'.members := by rw [h, List.mem_filter, and_iff_left hi]
  exact ⟨decide_eq_decide.mpr hmem, by simp only [remove, h, List.filter_filter, Bool.and_comm]⟩

theorem remove_filter_of_not (r : Registry ι) (hi : p i = false) :
    (r.remove i).2.members.filter p = r.members.filter p := by
  rw [remove, List.filter_filter]
  refine List.filter_congr fun j _ => ?_
  by_cases hj : j = i <;> simp [hj, hi]

end Registry

namespace Controller

/-! ## Reactions in company -/

section Reactions

variable {ι δ γ γ' : Type}

/-- What changes nothing for the others: to ask, to resume a worker that does not wait, and to register guests or take
them off. -/
def Access.IsPassive (guest : ι → Bool) : Access ι → Prop
  | .call .resume | .call .mode | .call .state | .call .isSuspended | .call .turns | .call .facts | .call .agenda
  | .call .domain | .call .subscriberCount | .call .threadName => True
  | .call (.addSubscriber i) | .call (.removeSubscriber i) => guest i = true
  | _ => False

/-- Whether an access leaves the guests alone. -/
def Access.Spares (guest : ι → Bool) : Access ι → Prop
  | .call (.addSubscriber i) | .call (.removeSubscriber i) => guest i = false
  | _ => True

/-- The answers that an access in between can get. -/
def Access.Foresees (prepared : Payload → Prop) : (a : Access ι) → a.Answer δ → Prop
  | .call .facts, r => ∀ p, r = .panicked p → prepared p
  | .call .agenda, r => ∀ p, r = .panicked p → prepared p
  | .call .resume, r => r = false
  | _, _ => True

/-- Whether an answer in company is the one without, the number of subscribers apart. -/
def Access.Agrees : (a : Access ι) → a.Answer δ → a.Answer δ → Prop
  | .call .subscriberCount, _, _ => True
  | _, r, r' => r = r'

/-- An access, and whether it is one in between. -/
structure Marked (ι : Type) where
  extra : Bool
  access : Access ι

abbrev Marked.Answer (δ : Type) (m : Marked ι) : Type := m.access.Answer δ

variable (guest : ι → Bool) (prepared : Payload → Prop) (alike : γ → γ' → Prop)

/-- The second reaction does what the first one does, with accesses in between that it makes nothing of. -/
inductive Follows :
    Reaction ι δ γ → Dialogue (Marked ι) (Marked.Answer δ) (Option Payload × γ') → Prop where
  | done (panic : Option Payload) {c : γ} {c' : γ'} (h : alike c c') : Follows (.done (panic, c)) (.done (panic, c'))
  | own (a : Access ι) (ha : a.Spares guest) {next : a.Answer δ → Reaction ι δ γ}
      {next' : a.Answer δ → Dialogue (Marked ι) (Marked.Answer δ) (Option Payload × γ')}
      (h : ∀ r r', a.Agrees r r' → Follows (next r) (next' r')) : Follows (.ask a next) (.ask ⟨false, a⟩ next')
  | extra (a : Access ι) (ha : a.IsPassive guest) {d : Reaction ι δ γ}
      {next' : a.Answer δ → Dialogue (Marked ι) (Marked.Answer δ) (Option Payload × γ')}
      (h : ∀ r, a.Foresees prepared r → Follows d (next' r)) : Follows d (.ask ⟨true, a⟩ next')

/-- The reaction only observes, or panics; whatever is remembered by then stays the same for the others. -/
inductive Watches (c : γ) : Dialogue (Marked ι) (Marked.Answer δ) (Option Payload × γ') → Prop where
  | done (panic : Option Payload) {c' : γ'} (h : alike c c') : Watches c (.done (panic, c'))
  | extra (a : Access ι) (ha : a.IsPassive guest)
      {next' : a.Answer δ → Dialogue (Marked ι) (Marked.Answer δ) (Option Payload × γ')}
      (h : ∀ r, a.Foresees prepared r → Watches c (next' r)) : Watches c (.ask ⟨true, a⟩ next')

end Reactions

/-- How the subscribers of an assembly behave in company. -/
structure Company (A : Assembly) where
  /-- Who is a guest. -/
  guest : A.Id → Bool
  /-- What the subscribers remember in company. -/
  Crowd : Type
  /-- Whether it is the same for those who were there originally. -/
  alike : A.Crowd → Crowd → Prop
  /-- The panics that accesses in between are prepared for, should a query of the engine panic. -/
  prepared : Payload → Prop
  react : A.Id → Notification → Crowd → Dialogue (Marked A.Id) (Marked.Answer A.Dom) (Option Payload × Crowd)
  follows : ∀ i n c c', guest i = false → alike c c' →
    Follows guest prepared alike (A.react i n c) (react i n c')
  watches : ∀ i n c c', guest i = true → alike c c' → Watches guest prepared alike c (react i n c')

variable {A : Assembly}

namespace Company

/-- The assembly in company. -/
abbrev assembly (E : Company A) : Assembly :=
  { A with
    Crowd := E.Crowd
    react := fun i n c => (E.react i n c).under Marked.access }

/-- Who was there originally: whoever is not a guest. -/
def isOwn (E : Company A) : Subscriber A.Id → Bool
  | .observer i => !E.guest i
  | .channel _ => true

/-- Whatever is loaded, one script after another, a source gives engines whose queries change nothing. -/
def Supplies (E : Company A) (s : A.Source) : Prop :=
  ∀ (scripts : List Engine.Script) script g, (A.load script (scripts.foldl (fun s x => (A.load x s).2) s)).1 = .ok g →
    Engine.Inert E.prepared g

theorem Supplies.load {E : Company A} {s : A.Source} (h : E.Supplies s) (script : Engine.Script) :
    E.Supplies (A.load script s).2 := fun scripts => h (script :: scripts)

end Company

/-- `w` goes along with `v`, which is in company. -/
structure Shadows (E : Company A) (w : Controller A) (v : Controller E.assembly) : Prop where
  config : w.config = v.config
  source : w.source = v.source
  engine : Option.Rel (fun g h => Engine.Alike g h ∧ Engine.Inert E.prepared h) w.engine v.engine
  domain : w.domain = v.domain
  mode : w.mode = v.mode
  state : w.state = v.state
  gate : w.gate = v.gate
  cancelled : w.cancelled = v.cancelled
  launch : w.launch = v.launch
  attempts : w.attempts = v.attempts
  turns : w.turns = v.turns
  members : w.registry.members = v.registry.members.filter E.isOwn
  crowd : E.alike w.crowd v.crowd
  channels : w.channels = v.channels
  phase : w.phase = v.phase
  died : w.died = v.died
  outbox : w.outbox = v.outbox.filter fun d => E.isOwn d.1
  tellings : w.tellings = v.tellings.filter fun d => E.isOwn d.1
  supplies : E.Supplies v.source

variable {E : Company A} {w : Controller A} {v : Controller E.assembly}

namespace Shadows

theorem engine_of_some (h : Shadows E w v) {g : A.Eng} (hw : w.engine = some g) :
    ∃ g', v.engine = some g' ∧ Engine.Alike g g' ∧ Engine.Inert E.prepared g' := by
  have hengine := h.engine
  rw [hw] at hengine
  generalize v.engine = o at hengine ⊢
  cases hengine with
  | some hg => exact ⟨_, rfl, hg⟩

theorem engine_of_none (h : Shadows E w v) (hw : w.engine = none) : v.engine = none := by
  have hengine := h.engine
  rw [hw] at hengine
  generalize v.engine = o at hengine ⊢
  cases hengine
  rfl

theorem isNone (h : Shadows E w v) : w.engine.isNone = v.engine.isNone := by
  cases hw : w.engine with
  | none => rw [h.engine_of_none hw]
  | some g =>
    obtain ⟨g', hv, -⟩ := h.engine_of_some hw
    rw [hv]
    rfl

/-! ## Entries and events -/

/-- Entries that are not about deliveries. -/
theorem note (h : Shadows E w v) (e e' : Entry A.Id) (he : e.telling? = none) (he' : e'.telling? = none) :
    Shadows E (w.note e) (v.note e') :=
  { h with
    tellings := by
      have ht := h.tellings
      simpa [Controller.tellings, Controller.note, he, he'] using ht }

theorem apply (h : Shadows E w v) (x : Event) : Shadows E (w.apply x) (v.apply x) := by
  rw [apply_eq, apply_eq]
  have htellings := h.tellings
  refine
    { h with
      state := by rw [h.state]
      outbox := ?_
      tellings := ?_ }
  · simp only [h.outbox, h.state, h.members]
    cases v.state.noticeOf x with
    | none => simp
    | some n => simp [List.filter_map, Function.comp_def]
  · simp only [h.state]
    cases v.state.noticeOf x <;>
      simpa [Controller.tellings, Entry.telling?] using htellings

/-! ## Original accesses -/

theorem query (h : Shadows E w v) (c : Engine.Call) :
    (w.query c).1 = (v.query c).1 ∧ Shadows E (w.query c).2 (v.query c).2 := by
  unfold Controller.query
  cases hw : w.engine with
  | none =>
    rw [h.engine_of_none hw]
    exact ⟨rfl, h⟩
  | some g =>
    obtain ⟨g', hv, halike, hinert⟩ := h.engine_of_some hw
    rw [hv]
    refine ⟨congrArg (Outcome.mapError Error.engine) (halike.reply c), ?_⟩
    refine Shadows.note ?_ _ _ rfl rfl
    exact { h with engine := .some ⟨halike.call c, hinert.call c⟩ }

theorem startEngine (h : Shadows E w v) (script : Engine.Script) :
    (w.startEngine script).1 = (v.startEngine script).1 ∧
      Shadows E (w.startEngine script).2 (v.startEngine script).2 := by
  have hsupplies : E.Supplies (A.load script v.source).2 := h.supplies.load script
  unfold Controller.startEngine
  rw [h.launch, h.source]
  split
  · exact ⟨rfl, h⟩
  · dsimp only
    cases hload : (A.load script v.source).1 with
    | ok g =>
      have hg : Engine.Inert E.prepared g := h.supplies [] script g hload
      refine ⟨rfl, Shadows.apply (Shadows.note ?_ _ _ rfl rfl) _⟩
      exact { h with source := rfl, launch := rfl, engine := .some ⟨.refl g, hg⟩, supplies := hsupplies }
    | error e =>
      refine ⟨rfl, Shadows.note ?_ _ _ rfl rfl⟩
      exact { h with source := rfl, launch := rfl, supplies := hsupplies }
    | panicked p =>
      refine ⟨rfl, Shadows.note ?_ _ _ rfl rfl⟩
      exact { h with source := rfl, launch := rfl, supplies := hsupplies }

theorem claim (h : Shadows E w v) (l : Launch) :
    (w.claim l).1 = (v.claim l).1 ∧ Shadows E (w.claim l).2 (v.claim l).2 := by
  unfold Controller.claim
  rw [h.launch, h.isNone]
  split
  · exact ⟨rfl, h⟩
  · split
    · exact ⟨rfl, h⟩
    · exact ⟨rfl, { h with launch := rfl }⟩

theorem findThread (h : Shadows E w v) (l : Launch) :
    (w.findThread l).1 = (v.findThread l).1 ∧ Shadows E (w.findThread l).2 (v.findThread l).2 := by
  cases l with
  | spawned =>
    have ha := h.attempts
    exact ⟨congrArg A.spawn ha, { h with attempts := congrArg (· + 1) ha }⟩
  | borrowed thread => exact ⟨rfl, h⟩

theorem launchOn (h : Shadows E w v) (l : Launch) :
    (w.launchOn l).1 = (v.launchOn l).1 ∧ Shadows E (w.launchOn l).2 (v.launchOn l).2 := by
  obtain ⟨hclaim, hclaimed⟩ := h.claim l
  unfold Controller.launchOn
  rcases hw : w.claim l with ⟨r, w'⟩
  rcases hv : v.claim l with ⟨r', v'⟩
  rw [hw, hv] at hclaim hclaimed
  obtain rfl : r = r' := hclaim
  rcases r with e | u
  · exact ⟨rfl, hclaimed⟩
  obtain ⟨hfind, hfound⟩ := hclaimed.findThread l
  dsimp only at hfind hfound ⊢
  rcases hw' : w'.findThread l with ⟨s, w''⟩
  rcases hv' : v'.findThread l with ⟨s', v''⟩
  rw [hw', hv'] at hfind hfound
  obtain rfl : s = s' := hfind
  rcases s with reason | u
  · exact ⟨rfl, { hfound with launch := rfl }⟩
  · refine ⟨rfl, Shadows.note ?_ _ _ rfl rfl⟩
    exact { hfound with phase := rfl }

theorem resume (h : Shadows E w v) : w.resume.1 = v.resume.1 ∧ Shadows E w.resume.2 v.resume.2 := by
  rw [resume_eq, resume_eq, h.gate]
  split
  · refine ⟨rfl, Shadows.note ?_ _ _ rfl rfl⟩
    exact { h with gate := rfl }
  · exact ⟨rfl, h.note _ _ rfl rfl⟩

theorem subscribeChannel (h : Shadows E w v) :
    w.subscribeChannel.1 = v.subscribeChannel.1 ∧ Shadows E w.subscribeChannel.2 v.subscribeChannel.2 := by
  unfold Controller.subscribeChannel
  rw [h.config, h.channels]
  split
  · exact ⟨rfl, h⟩
  · refine ⟨rfl, ?_⟩
    have hmembers := (Registry.add_filter h.members (i := .channel v.channels.length) rfl).2
    exact { h with config := rfl, channels := rfl, members := hmembers }

theorem receive (h : Shadows E w v) (k : Nat) :
    (w.receive k).1 = (v.receive k).1 ∧ Shadows E (w.receive k).2 (v.receive k).2 := by
  unfold Controller.receive
  rw [h.channels]
  split
  · exact ⟨rfl, h⟩
  · refine ⟨rfl, ?_⟩
    exact { h with channels := rfl }

theorem stop (h : Shadows E w v) : Shadows E w.stop v.stop := by
  refine Shadows.note ?_ _ _ rfl rfl
  exact { h with cancelled := rfl }

theorem setMode (h : Shadows E w v) (m : Mode) : Shadows E (w.setMode m) (v.setMode m) := by
  refine Shadows.note ?_ _ _ rfl rfl
  exact { h with mode := rfl }

theorem setModeTag (h : Shadows E w v) (tag : String) :
    (w.setModeTag tag).1 = (v.setModeTag tag).1 ∧ Shadows E (w.setModeTag tag).2 (v.setModeTag tag).2 := by
  unfold Controller.setModeTag
  split
  · exact ⟨rfl, h.setMode _⟩
  · exact ⟨rfl, h⟩

theorem threadName (h : Shadows E w v) : w.threadName = v.threadName := by
  simp only [Controller.threadName, h.launch, h.config]

/-- **An original access** is answered as it would be without company. -/
theorem own (h : Shadows E w v) (a : Access A.Id) (ha : a.Spares E.guest) :
    a.Agrees (access a w).1 (access (A := E.assembly) a v).1 ∧
      Shadows E (access a w).2 (access (A := E.assembly) a v).2 := by
  rcases a with (c | _ | k | k)
  case subscribeChannel => exact h.subscribeChannel
  case receive => exact h.receive k
  case dropReceiver => exact ⟨rfl, { h with channels := by simp only [access, dropReceiver, h.channels] }⟩
  case call =>
    cases c with
    | startEngine script => exact h.startEngine script
    | execute => exact h.launchOn _
    | runBlocking thread => exact h.launchOn _
    | resume => exact h.resume
    | stop => exact ⟨rfl, h.stop⟩
    | setMode m => exact ⟨rfl, h.setMode m⟩
    | setModeTag tag => exact h.setModeTag tag
    | mode => exact ⟨h.mode, h⟩
    | state => exact ⟨h.state, h⟩
    | isSuspended => exact ⟨congrArg Gate.parked h.gate, h⟩
    | turns => exact ⟨h.turns, h⟩
    | facts => exact h.query .facts
    | agenda => exact h.query .agenda
    | domain => exact ⟨h.domain, h⟩
    | addSubscriber i =>
      have hi : E.isOwn (.observer i) = true := by rw [Company.isOwn, ha]; rfl
      obtain ⟨hanswer, hmembers⟩ := Registry.add_filter h.members hi
      exact ⟨hanswer, { h with members := hmembers }⟩
    | removeSubscriber i =>
      have hi : E.isOwn (.observer i) = true := by rw [Company.isOwn, ha]; rfl
      obtain ⟨hanswer, hmembers⟩ := Registry.remove_filter h.members hi
      exact ⟨hanswer, { h with members := hmembers }⟩
    | subscriberCount => exact ⟨trivial, h⟩
    | threadName => exact ⟨h.threadName, h⟩

/-! ## Accesses in between -/

/-- Something is noted of which those who were there originally are not told. -/
theorem note_extra (h : Shadows E w v) (e : Entry A.Id) (he : e.telling? = none) : Shadows E w (v.note e) :=
  { h with
    tellings := by
      have ht := h.tellings
      simpa [Controller.tellings, Controller.note, he] using ht }

/-- A query that nobody made originally. -/
theorem query_extra (h : Shadows E w v) {c : Engine.Call} (hc : c.isQuery = true) :
    (∀ p, (v.query c).1 = .panicked p → E.prepared p) ∧ Shadows E w (v.query c).2 := by
  unfold Controller.query
  cases hw : w.engine with
  | none =>
    rw [h.engine_of_none hw]
    exact ⟨fun p hp => (nomatch hp), h⟩
  | some g =>
    obtain ⟨g', hv, halike, hinert⟩ := h.engine_of_some hw
    rw [hv]
    refine ⟨fun p hp => hinert.panics [] c p hc (Outcome.eq_of_mapError hp), ?_⟩
    refine Shadows.note_extra ?_ _ rfl
    exact { h with engine := hw ▸ .some ⟨halike.trans (hinert.alike [] c hc).symm, hinert.call c⟩ }

/-- **An access in between is not noticed**, if it does not let a worker through. -/
theorem extra (h : Shadows E w v) (a : Access A.Id) (ha : a.IsPassive E.guest)
    (hr : a = .call .resume → ¬ (v.gate.parked = true ∧ v.gate.permit = false)) :
    a.Foresees E.prepared (access (A := E.assembly) a v).1 ∧ Shadows E w (access (A := E.assembly) a v).2 := by
  rcases a with (c | _ | k | k)
  case call =>
    cases c with
    | resume =>
      show Access.Foresees E.prepared (.call .resume) v.resume.1 ∧ Shadows E w v.resume.2
      rw [resume_eq, if_neg (hr rfl)]
      exact ⟨rfl, h.note_extra _ rfl⟩
    | facts => exact h.query_extra rfl
    | agenda => exact h.query_extra rfl
    | addSubscriber i =>
      have hi : E.isOwn (.observer i) = false := by rw [Company.isOwn, ha]; rfl
      exact ⟨trivial, { h with members := h.members.trans (Registry.add_filter_of_not _ hi).symm }⟩
    | removeSubscriber i =>
      have hi : E.isOwn (.observer i) = false := by rw [Company.isOwn, ha]; rfl
      exact ⟨trivial, { h with members := h.members.trans (Registry.remove_filter_of_not _ hi).symm }⟩
    | mode | state | isSuspended | turns | domain | subscriberCount | threadName => exact ⟨trivial, h⟩
    | _ => exact ha.elim
  all_goals exact ha.elim

/-! ## Reactions -/

/-- Nobody waits at the gate while somebody is notified. -/
theorem not_waiting (hv : Reachable v) (hd : v.outbox ≠ []) : ¬ (v.gate.parked = true ∧ v.gate.permit = false) := by
  rintro ⟨hp, -⟩
  have hphase := hv.sound.parked.mp hp
  rcases hv.sound.due (.inl hd) with hc | hc <;> rw [hphase] at hc <;> cases hc

end Shadows

/-- Grants an access, whether it is an original one or one in between. -/
def grant (m : Marked A.Id) (v : Controller E.assembly) : m.Answer A.Dom × Controller E.assembly :=
  access (A := E.assembly) m.access v

/-- A reaction in company, with the marks of its accesses. -/
theorem Company.play_react (i : A.Id) (n : Notification) (c : E.Crowd) (v : Controller E.assembly) :
    (E.assembly.react i n c).play (access (A := E.assembly)) v = (E.react i n c).play grant v :=
  Dialogue.play_under _ _ _ _

/-- The original ones among accesses with their answers. -/
def original {ι δ : Type} (xs : List ((m : Marked ι) × m.Answer δ)) : List ((a : Access ι) × a.Answer δ) :=
  xs.filterMap fun x => if x.1.extra then none else some ⟨x.1.access, x.2⟩

/-- The same access with the same answer, if that is not a number of subscribers. -/
inductive Concur {ι δ : Type} : (a : Access ι) × a.Answer δ → (a : Access ι) × a.Answer δ → Prop where
  | mk (a : Access ι) {r r' : a.Answer δ} (h : a.Agrees r r') : Concur ⟨a, r⟩ ⟨a, r'⟩

namespace Shadows

/-- A worker that notifies somebody goes on notifying it, whatever is done. -/
theorem notifying (hv : Reachable v ∧ v.outbox ≠ []) (a : Access A.Id) :
    Reachable (access (A := E.assembly) a v).2 ∧ (access (A := E.assembly) a v).2.outbox ≠ [] :=
  ⟨hv.1.move (.access a), by rw [(access_effect v a).outbox_eq]; exact hv.2⟩

/-- **A reaction that does more than another one** does the same for those who were there originally. -/
theorem reaction_own (h : Shadows E w v) (hv : Reachable v ∧ v.outbox ≠ [])
    {d : Reaction A.Id A.Dom A.Crowd} {d' : Dialogue (Marked A.Id) (Marked.Answer A.Dom) (Option Payload × E.Crowd)}
    (hd : Follows E.guest E.prepared E.alike d d') :
    (d.play access w).1.1 = (d'.play grant v).1.1 ∧ E.alike (d.play access w).1.2 (d'.play grant v).1.2 ∧
      Shadows E (d.play access w).2 (d'.play grant v).2 ∧
      List.Forall₂ Concur (d.answered access w) (original (d'.answered grant v)) := by
  induction hd generalizing w v with
  | done panic hc => exact ⟨rfl, hc, h, .nil⟩
  | own a ha _ ih =>
    obtain ⟨hagrees, hafter⟩ := h.own a ha
    obtain ⟨hpanic, hcrowd, hshadows, hanswers⟩ := ih _ _ hagrees hafter (notifying hv a)
    exact ⟨hpanic, hcrowd, hshadows, .cons (.mk a hagrees) hanswers⟩
  | extra a ha _ ih =>
    obtain ⟨hforeseen, hafter⟩ := h.extra a ha fun _ => not_waiting hv.1 hv.2
    exact ih _ hforeseen hafter (notifying hv a)

/-- **A reaction that only observes or panics** is not noticed. -/
theorem reaction_guest (h : Shadows E w v) (hv : Reachable v ∧ v.outbox ≠ []) {c : A.Crowd}
    {d' : Dialogue (Marked A.Id) (Marked.Answer A.Dom) (Option Payload × E.Crowd)}
    (hd : Watches E.guest E.prepared E.alike c d') :
    E.alike c (d'.play grant v).1.2 ∧ Shadows E w (d'.play grant v).2 ∧ original (d'.answered grant v) = [] := by
  induction hd generalizing v with
  | done panic hc => exact ⟨hc, h, rfl⟩
  | extra a ha _ ih =>
    obtain ⟨hforeseen, hafter⟩ := h.extra a ha fun _ => not_waiting hv.1 hv.2
    exact ih _ hforeseen hafter (notifying hv a)

end Shadows

end Controller

end Cadence
