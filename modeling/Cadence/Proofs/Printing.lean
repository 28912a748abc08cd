import Cadence.Proofs.Endings
import Cadence.Proofs.Rendering
import Cadence.Proofs.Reporting
import Cadence.Proofs.RunningOut

/-!
# Cadence.Proofs.Printing — what a console prints of its run

A console that is not told to quit prints every notification of its run as one line, in order, and
after the terminal one the report, if the run was disposed.  What it is told in between changes the
run, but neither what was printed nor what is on its way.  Only a line that cannot be read, and an
engine that panics over a question, break it off, and a child process does not panic.

* `Talks`: what the output of a console has had in it so far, kept by every move.
* `Whole`: the whole output of a run that has ended.
* `Talks.cause`: what a console was broken off by.
* `prints_run`: the output of every session.
-/

namespace Cadence

namespace Controller

variable {A : Assembly}

/-- Coming to rest is made of moves. -/
theorem settle_moves (limit : Nat) (w : Controller A) : ∃ ms, w.settle limit = w.moves ms := by
  induction limit generalizing w with
  | zero => exact ⟨[], rfl⟩
  | succ limit ih =>
    unfold settle
    split
    · exact ⟨[], rfl⟩
    · next v hv =>
      obtain ⟨ms, hms⟩ := ih v
      refine ⟨.work :: ms, ?_⟩
      rw [hms, moves_cons, move, hv]
      rfl

theorem isTerminal_of_closingState {n : Notification} {s : State} (h : closingState n = some s) :
    s.isTerminal = true := by
  cases n <;> cases h <;> rfl

theorem closingState_eq_disposed {n : Notification} : closingState n = some .disposed ↔ n = .disposeDone := by
  cases n <;> simp [closingState]

end Controller

open Controller (Reachable)

namespace Console

/-! ## Lines of JSON -/

theorem printable_decimal (n : Nat) : Json.Printable (Text.decimal n).toList := by
  intro c hc
  rw [Text.decimal, String.toList_ofList] at hc
  have hdigit := Nat.isDigit_of_mem_toDigits (by decide) (by decide) hc
  simp only [Char.isDigit, Bool.and_eq_true, decide_eq_true_eq, ge_iff_le, UInt32.le_iff_toNat_le] at hdigit
  have h48 : 48 ≤ c.toNat := hdigit.1
  omega

theorem printable_report (r : Domain.Report) : Json.Printable r.toJson.renderChars := by
  refine Json.printable_object fun m hm => ?_
  simp only [List.mem_cons, List.not_mem_nil, or_false] at hm
  rcases hm with rfl | rfl
  · exact printable_decimal r.turns
  · exact Json.printable_string r.finalFacts

theorem Printed.printable {p : Printed} (h : p.IsJson) : Json.Printable p.render.toList := by
  cases p with
  | notification n => exact n.conveyed.printable
  | text s => exact h.elim
  | report r =>
    rw [render, Json.render, String.toList_ofList]
    exact printable_report r

theorem linesOf_cons (s : String) (later : List String) : linesOf (s :: later) = linesOf [s] ++ linesOf later := by
  simp only [linesOf, List.flatMap_cons, List.flatMap_nil, List.append_assoc, List.singleton_append,
    List.append_nil]
  rw [Text.lines_ended, Text.lines_ended s.toList [], Text.lines_nil, List.append_nil, List.map_append]

/-- The lines of an output are those of its parts. -/
theorem linesOf_append (printed later : List String) :
    linesOf (printed ++ later) = linesOf printed ++ linesOf later := by
  induction printed with
  | nil => rfl
  | cons s printed ih =>
    rw [List.cons_append, linesOf_cons, ih, linesOf_cons s printed, List.append_assoc]

/-- **What is printed as JSON is exactly one line of the output**, wherever it stands. -/
theorem linesOf_json {p : Printed} (h : p.IsJson) (before after : List Printed) :
    linesOf ((before ++ p :: after).map Printed.render) =
      linesOf (before.map Printed.render) ++ p.render :: linesOf (after.map Printed.render) := by
  have one : linesOf [p.render] = [p.render] := by
    rw [linesOf, List.flatMap_singleton, Text.lines_printable (Printed.printable h)]
    simp
  rw [List.map_append, List.map_cons, linesOf_append, linesOf_cons, one, List.singleton_append]

/-! ## Sessions as moves -/

variable {E S : Type} [Engine E] {load : Engine.Script → S → Outcome Engine.Error E × S}
  {k l : Console load}

theorem moves_append (k : Console load) (ms ns : List Move) : k.moves (ms ++ ns) = (k.moves ms).moves ns :=
  List.foldl_append

/-- No line among the moves tells the console to quit. -/
def Stays (ms : List Move) : Prop := ∀ s, .line s ∈ ms → Command.ofLine s ≠ .quit

/-- What happens to a console that reads some of the given lines. -/
def Over (lines : List String) (ms : List Move) : Prop :=
  ∀ m ∈ ms, m = .work ∨ m = .notice ∨ m = .endInput ∨ ∃ s ∈ lines, m = .line s

theorem Over.append {lines : List String} {ms ns : List Move} (hm : Over lines ms) (hn : Over lines ns) :
    Over lines (ms ++ ns) := List.forall_mem_append.mpr ⟨hm, hn⟩

theorem Over.stays {lines : List String} {ms : List Move} (h : Over lines ms)
    (hq : ∀ s ∈ lines, Command.ofLine s ≠ .quit) : Stays ms := by
  intro s hs
  rcases h _ hs with heq | heq | heq | ⟨t, ht, heq⟩ <;> cases heq
  exact hq s ht

/-- Coming to rest is made of moves, of which none is a line. -/
theorem rest_moves (limit : Nat) (k : Console load) (lines : List String) :
    ∃ ms, rest limit k = k.moves ms ∧ Over lines ms := by
  induction limit generalizing k with
  | zero => exact ⟨[], rfl, by simp [Over]⟩
  | succ limit ih =>
    unfold rest
    split
    · next l hl =>
      obtain ⟨ms, hms, hover⟩ := ih l
      have hmove : k.move .notice = l := by rw [move, hl]; rfl
      exact ⟨.notice :: ms, by rw [hms, moves_cons, hmove], List.forall_mem_cons.mpr ⟨by simp, hover⟩⟩
    · split
      · next l hl =>
        obtain ⟨ms, hms, hover⟩ := ih l
        have hmove : k.move .work = l := by rw [move, hl]; rfl
        exact ⟨.work :: ms, by rw [hms, moves_cons, hmove], List.forall_mem_cons.mpr ⟨by simp, hover⟩⟩
      · exact ⟨[], rfl, by simp [Over]⟩

/-- What happens to a console moves its controller. -/
theorem Happens.controller_moves (h : Happens k l) : ∃ ms, l.controller = k.controller.moves ms := by
  cases h with
  | nothing => exact ⟨[], rfl⟩
  | work h =>
    refine ⟨[.work], ?_⟩
    rw [Controller.moves_cons, Controller.moves_nil, Controller.move, h]
    rfl
  | @notice n w _ h =>
    refine ⟨[.access (.receive k.events)], ?_⟩
    rw [(receive_frame _ n).1, Controller.moves_cons, Controller.moves_nil, Controller.move,
      Controller.access, h]
  | line c _ _ hc => exact ⟨[.call c], hc⟩
  | misread => exact ⟨[], rfl⟩
  | endInput => exact ⟨[.call (.setMode .run), .call .resume], rfl⟩

theorem moves_controller (k : Console load) (ms : List Move) :
    ∃ cs, (k.moves ms).controller = k.controller.moves cs := by
  induction ms generalizing k with
  | nil => exact ⟨[], rfl⟩
  | cons m ms ih =>
    obtain ⟨cs, hcs⟩ := (move_happens k m).controller_moves
    obtain ⟨ds, hds⟩ := ih (k.move m)
    exact ⟨cs ++ ds, by rw [moves_cons, hds, hcs, Controller.moves_append]⟩

/-! ## What is printed and what is on its way -/

/-- The notifications in an output. -/
def noticesIn (out : List Printed) : List Notification :=
  out.filterMap fun | .notification n => some n | _ => none

/-- What was announced and not printed: it is in the channel, or still due to it. -/
def onTheWay (k : Console load) : List Notification :=
  k.controller.channels.flatMap Channel.content ++ k.controller.dueTo (.channel k.events)

/-- **What is printed and what is on its way make up what was announced**, in order. -/
theorem Attends.inOrder (h : Attends k) : k.notices ++ k.onTheWay = Controller.notices k.controller.acts := by
  obtain ⟨ch, hw⟩ := h.wired
  have htold := Controller.toldTo_append_of_stays h.reachable.recorded (s := .channel 0) fun e he => by
    rw [hw.announced e he]
    exact List.mem_singleton_self _
  rw [onTheWay, hw.channels, List.flatMap_singleton, h.events, ← List.append_assoc, hw.delivered, htold]

/-- A console that was never told to quit: it has printed no report, and it waits until it has printed a
terminal notification, or is broken off. -/
structure Talks (k : Console load) : Prop where
  attends : Attends k
  tallies : Controller.Tallies k.controller
  unreported : ∀ r, .report r ∉ k.stdout
  ended : k.isWaiting = false → k.fault = none →
    ∃ before t, k.stdout = before ++ [.notification t] ∧ t.isTerminal = true
  broken : k.fault ≠ none → k.isWaiting = false

/-- A console is opened by accesses to a new controller. -/
theorem Opens.controller_moves (h : Opens k) : ∃ config source ms,
    k.controller = (Controller.create (A := parts load) config source {} ()).moves ms := by
  obtain ⟨hsub, hload, hlaunch⟩ := h
  rename_i config source script events w₁ w₂ w₃
  refine ⟨config, source, [.access .subscribeChannel, .call (.startEngine script), .call .execute], ?_⟩
  rw [Controller.moves_cons, Controller.move, Controller.access, hsub, Controller.moves_cons,
    Controller.move_call, Controller.call, hload, Controller.moves_cons, Controller.move_call,
    Controller.call, hlaunch, Controller.moves_nil]

theorem receive_fault (k : Console load) (n : Notification) : (k.receive n).fault = k.fault := by
  unfold receive
  dsimp only
  split
  · rfl
  · split <;> rfl

/-- Whatever happens, short of a line that quits, a console goes on to talk. -/
theorem Talks.move (h : Talks k) {m : Move} (hm : ∀ s, m = .line s → Command.ofLine s ≠ .quit) :
    Talks (k.move m) := by
  have hattends := h.attends.happens (move_happens k m)
  have htallies : Controller.Tallies (k.move m).controller := by
    obtain ⟨cs, hcs⟩ := (move_happens k m).controller_moves
    rw [hcs]
    exact h.attends.reachable.tallies h.tallies cs
  suffices hsaid : (∀ r, .report r ∉ (k.move m).stdout) ∧ ((k.move m).isWaiting = false →
      (k.move m).fault = none → ∃ before t, (k.move m).stdout = before ++ [.notification t] ∧ t.isTerminal = true) ∧
      ((k.move m).fault ≠ none → (k.move m).isWaiting = false) from
    ⟨hattends, htallies, hsaid.1, hsaid.2.1, hsaid.2.2⟩
  have hunbroken (hw : k.isWaiting = true) : k.fault = none := by
    by_contra hf
    rw [h.broken hf] at hw
    cases hw
  cases m with
  | work =>
    rw [Console.move, work?]
    cases k.controller.step <;> exact ⟨h.unreported, h.ended, h.broken⟩
  | notice =>
    rw [Console.move]
    cases hn : k.notice? with
    | none => exact ⟨h.unreported, h.ended, h.broken⟩
    | some l =>
      obtain ⟨n, w, hw, -, rfl⟩ := notice_happens hn
      obtain ⟨-, -, hout, -, hwait⟩ := receive_frame { k with controller := w } n
      have hfault : (({ k with controller := w } : Console load).receive n).fault = none :=
        (receive_fault _ n).trans (hunbroken hw)
      simp only [Option.getD_some]
      refine ⟨fun r hr => ?_, fun hf _ => ?_, fun hf => absurd hfault hf⟩
      · rw [hout, List.mem_append] at hr
        rcases hr with hr | hr
        · exact h.unreported r hr
        · cases List.mem_singleton.mp hr
      · rw [hwait] at hf
        exact ⟨_, n, hout, by simpa [hw] using hf⟩
  | line s =>
    rw [Console.move, line]
    split
    · next hopen =>
      rw [Bool.and_eq_true] at hopen
      obtain ⟨call, hobeys⟩ := obey_call k (.ofLine s)
      obtain ⟨said, hout, hsaid⟩ := hobeys.said
      have hnone (r : Domain.Report) : .report r ∉ (k.obey (.ofLine s)).stdout := by
        rw [hout, List.mem_append]
        exact fun hr => hr.elim (h.unreported r) fun hr => hsaid _ hr trivial
      refine ⟨hnone, ?_⟩
      rcases hobeys.goesOn (hm s rfl) with ⟨hfault, hwait⟩ | ⟨hwait, p, -, hfault⟩
      · rw [hfault, hwait, hopen.1]
        exact ⟨fun hf => absurd hf (by simp), fun hf => absurd (hunbroken hopen.1) hf⟩
      · rw [hfault, hwait]
        exact ⟨fun _ hf => absurd hf (by simp), fun _ => rfl⟩
    · exact ⟨h.unreported, h.ended, h.broken⟩
  | misread reason =>
    rw [Console.move, misread]
    split
    · exact ⟨h.unreported, fun _ hf => absurd hf (by simp [breakOff]), fun _ => rfl⟩
    · exact ⟨h.unreported, h.ended, h.broken⟩
  | endInput =>
    rw [Console.move, endInput]
    split <;> exact ⟨h.unreported, h.ended, h.broken⟩

theorem Talks.moves (h : Talks k) {ms : List Move} (hq : Stays ms) : Talks (k.moves ms) := by
  induction ms generalizing k with
  | nil => exact h
  | cons m ms ih =>
    have hm : ∀ s, m = .line s → Command.ofLine s ≠ .quit := fun s hs => hq s (hs ▸ .head _)
    exact ih (h.move hm) fun s hs => hq s (.tail _ hs)

/-! ## At the end -/

/-- **A console that waits no more has printed all of its run**, the terminal notification last. -/
theorem Talks.settled (h : Talks k) (hw : k.isWaiting = false) (hf : k.fault = none) :
    ∃ before t, k.stdout = before ++ [.notification t] ∧ t.isTerminal = true ∧
      k.controller.phase = .finished ∧ noticesIn before ++ [t] = Controller.notices k.controller.acts ∧
      ∀ n ∈ noticesIn before, n.isTerminal = false := by
  obtain ⟨before, t, hout, ht⟩ := h.ended hw hf
  have hsound := h.attends.reachable.sound
  have hnotices : k.notices = noticesIn before ++ [t] := by
    rw [notices, hout, List.filterMap_append]
    rfl
  have horder := h.attends.inOrder
  rw [hnotices] at horder
  have hmem : t ∈ Controller.notices k.controller.acts := by rw [← horder]; simp
  have hfin : k.controller.phase = .finished :=
    hsound.finished_of_isTerminal (Controller.isTerminal_of_closingState (hsound.agrees hmem ht))
  obtain ⟨ns, t', hns, hopen, -, -⟩ := hsound.closed hfin
  rw [hns] at horder
  -- nothing can be on its way after the terminal notification
  obtain hway | ⟨way, last, hway⟩ := List.eq_nil_or_concat k.onTheWay
  · rw [hway, List.append_nil] at horder
    obtain ⟨hbefore, hlast⟩ := List.append_inj' horder rfl
    exact ⟨before, t, hout, ht, hfin, by rw [hns, horder], fun n hn => hopen n (hbefore ▸ hn)⟩
  · rw [hway, List.concat_eq_append, ← List.append_assoc] at horder
    obtain ⟨hbefore, -⟩ := List.append_inj' horder rfl
    have hopen' := hopen t (by rw [← hbefore]; simp)
    rw [ht] at hopen'
    cases hopen'

/-- The whole output of a run that announced some notifications: what was printed before the terminal one, that,
and the report. -/
structure Whole (run : List Notification) (out before : List Printed) (t : Notification)
    (report : Option Domain.Report) : Prop where
  printed : out = before ++ .notification t :: (report.map .report).toList
  /-- All notifications are printed in order, the terminal one last, -/
  inOrder : noticesIn before ++ [t] = run
  terminal : t.isTerminal = true ∧ ∀ n ∈ noticesIn before, n.isTerminal = false
  /-- and after it, not before, the report, iff the run was disposed, -/
  unreported : ∀ r, .report r ∉ before
  reported : report.isSome = true ↔ t = .disposeDone
  /-- with as many turns as were printed. -/
  turns : ∀ r, report = some r → r.turns = (noticesIn before).count .actionDone
  /-- Each of them is exactly one line, which has it in JSON, -/
  lines : ∀ first n rest, out = first ++ .notification n :: rest →
    linesOf (out.map Printed.render) =
      linesOf (first.map Printed.render) ++ n.toJson.render :: linesOf (rest.map Printed.render)
  /-- and so is the report. -/
  reportLine : ∀ first r rest, out = first ++ .report r :: rest →
    linesOf (out.map Printed.render) =
      linesOf (first.map Printed.render) ++ r.toJson.render :: linesOf (rest.map Printed.render)

theorem close_eq (hf : k.fault = none) (limit : Nat) :
    (k.close limit).stdout = k.stdout ++
        ((((k.controller.dropReceiver k.events).settle limit).domain.report).map Printed.report).toList ∧
      (k.close limit).controller = (k.controller.dropReceiver k.events).settle limit := by
  unfold close
  rw [hf]
  dsimp only
  cases h : ((k.controller.dropReceiver k.events).settle limit).domain.report with
  | none => exact ⟨(List.append_nil _).symm, rfl⟩
  | some r => exact ⟨rfl, rfl⟩

/-- Closing the console changes nothing about a run that is over. -/
theorem Talks.close_finished (h : Talks k) (hf : k.fault = none) (hfin : k.controller.phase = .finished)
    (limit : Nat) :
    (k.close limit).controller.phase = .finished ∧
      (k.close limit).controller.acts = k.controller.acts ∧ Reachable (k.close limit).controller ∧
      Controller.Tallies (k.close limit).controller := by
  obtain ⟨ms, hms⟩ := Controller.settle_moves limit (k.controller.dropReceiver k.events)
  have hlast : (k.close limit).controller =
      k.controller.moves (.access (.dropReceiver k.events) :: ms) := (close_eq hf limit).2.trans hms
  have hr := h.attends.reachable
  obtain ⟨hphase, hacts⟩ := hr.stays_finished hfin (.access (.dropReceiver k.events) :: ms)
  rw [hlast]
  exact ⟨hphase, hacts, hr.moves _, hr.tallies h.tallies _⟩

/-- **A console that waits no more is closed with the whole output of its run.** -/
theorem Talks.closes (h : Talks k) (hw : k.isWaiting = false) (hf : k.fault = none) (limit : Nat) :
    ∃ before t report,
      Whole (Controller.notices (k.close limit).controller.acts) (k.close limit).stdout before t report := by
  obtain ⟨before, t, hout, ht, hfin, horder, hopen⟩ := h.settled hw hf
  obtain ⟨hstdout, hcontroller⟩ := close_eq hf limit
  rw [← hcontroller] at hstdout
  obtain ⟨hphase, hacts, hreach, htallies⟩ := h.close_finished hf hfin limit
  have hagrees : Controller.closingState t = some (k.close limit).controller.state :=
    hreach.sound.agrees (by rw [hacts, ← horder]; simp) ht
  refine ⟨before, t, (k.close limit).controller.domain.report, ?_⟩
  constructor
  case printed => rw [hstdout, hout, List.append_assoc, List.singleton_append]
  case inOrder => rw [horder, hacts]
  case terminal => exact ⟨ht, hopen⟩
  case unreported =>
    intro r hr
    exact h.unreported r (by rw [hout]; exact List.mem_append_left _ hr)
  case reported =>
    rw [htallies.isSome_report_iff hreach hphase, ← Controller.closingState_eq_disposed, hagrees,
      Option.some.injEq]
  case turns =>
    intro r hr
    have hother : t ≠ .actionDone := by rintro rfl; cases ht
    rw [htallies.turns_of_report hreach hphase hr, hacts, ← horder, List.count_append,
      List.count_singleton, beq_false_of_ne hother]
    rfl
  case lines =>
    rintro first n rest heq
    rw [heq]
    exact linesOf_json (p := .notification n) trivial first rest
  case reportLine =>
    rintro first r rest heq
    rw [heq]
    exact linesOf_json (p := .report r) trivial first rest

/-- A worker that has come to rest at the end of a run has nothing left to deliver. -/
theorem isDone_of_atRest {w : Controller (parts load)} (hp : w.phase = .finished) (hr : w.AtRest)
    (hh : w.isHeldUp = false) : w.isDone = true := by
  rw [Controller.isDone_iff]
  refine ⟨hp, ?_, hh⟩
  cases ho : w.outbox with
  | nil => rfl
  | cons x rest =>
    obtain ⟨s, n⟩ := x
    simp [Controller.AtRest, Controller.step, hh, ho] at hr

/-- **A console left to itself comes to the end of a run that is over**, in no more steps than lie ahead. -/
theorem Talks.ends (h : Talks k) (hfin : k.controller.phase = .finished) {limit : Nat} (hlimit : k.ahead < limit) :
    (rest limit k).isWaiting = false := by
  obtain ⟨ms, hms, hover⟩ := rest_moves limit k []
  obtain ⟨cs, hcs⟩ := moves_controller k ms
  obtain ⟨hphase, hacts⟩ := h.attends.reachable.stays_finished hfin cs
  rw [← hcs, ← hms] at hphase hacts
  have hl : Attends (rest limit k) := hms ▸ (h.moves (hover.stays (by simp))).attends
  obtain ⟨n, -, hgo, hend⟩ := rest_goesOn limit k
  have hturns : (rest limit k).controller.turns = k.controller.turns := by
    rw [hl.reachable.sound.turns, hacts, h.attends.reachable.sound.turns]
  have hpaced := hgo.paced h.attends
  obtain ⟨hwork, hnotice⟩ := hend.resolve_left (by omega)
  cases hw : (rest limit k).isWaiting with
  | false => rfl
  | true =>
    have hrest : (rest limit k).controller.AtRest := Option.map_eq_none_iff.mp hwork
    exact absurd (isDone_of_atRest hphase hrest (hl.not_heldUp hw hnotice)) (hl.not_done hw hnotice)

/-! ## Broken off -/

/-- What breaks a console off: a line that cannot be read, or a question over which the engine panics. -/
inductive Cause (k : Console load) (ms : List Move) : Prop where
  | misread (reason : String) (h : .misread reason ∈ ms)
  | panicked (before : List Move) (s : String) (after : List Move) (h : ms = before ++ .line s :: after)
      (q : Engine.Call) (hq : (Command.ofLine s).Asks q) (p : Payload)
      (hp : ((k.moves before).controller.query q).1 = .panicked p)

theorem Cause.of_move {m : Move} (hm : ∀ s, m = .line s → Command.ofLine s ≠ .quit)
    (hf : k.fault = none) (hbroken : (k.move m).fault ≠ none) : Cause k [m] := by
  cases m with
  | work =>
    rw [Console.move, work?] at hbroken
    cases hs : k.controller.step <;> rw [hs] at hbroken <;> exact absurd hf hbroken
  | notice =>
    rw [Console.move] at hbroken
    cases hn : k.notice? with
    | none =>
      rw [hn] at hbroken
      exact absurd hf hbroken
    | some l =>
      obtain ⟨n, w, -, -, rfl⟩ := notice_happens hn
      rw [hn, Option.getD_some, receive_fault] at hbroken
      exact absurd hf hbroken
  | line s =>
    rw [Console.move, line] at hbroken
    split at hbroken
    · obtain ⟨call, hobeys⟩ := obey_call k (.ofLine s)
      rcases hobeys.goesOn (hm s rfl) with ⟨hfault, -⟩ | ⟨-, p, ⟨q, hasks, hq⟩, -⟩
      · exact absurd (hfault.trans hf) hbroken
      · exact .panicked [] s [] rfl q hasks p hq
    · exact absurd hf hbroken
  | misread reason => exact .misread reason (.head _)
  | endInput =>
    rw [Console.move, endInput] at hbroken
    split at hbroken <;> exact absurd hf hbroken

/-- **A console is not broken off without a cause.** -/
theorem Talks.cause (h : Talks k) {ms : List Move} (hq : Stays ms) (hf : k.fault = none)
    (hbroken : (k.moves ms).fault ≠ none) : Cause k ms := by
  induction ms generalizing k with
  | nil => exact absurd hf hbroken
  | cons m ms ih =>
    have hm : ∀ s, m = .line s → Command.ofLine s ≠ .quit := fun s hs => hq s (hs ▸ .head _)
    by_cases hnow : (k.move m).fault = none
    · cases ih (h.move hm) (fun s hs => hq s (.tail _ hs)) hnow hbroken with
      | misread reason h => exact .misread reason (.tail _ h)
      | panicked before s after heq q hasks p hp =>
        exact .panicked (m :: before) s after (by rw [heq]; rfl) q hasks p hp
    · cases Cause.of_move hm hf hnow with
      | misread reason h => exact .misread reason (List.mem_singleton.mp h ▸ .head _)
      | panicked before s after heq q hasks p hp =>
        cases before with
        | nil => exact .panicked [] s ms (by rw [(List.cons.inj heq).1]; rfl) q hasks p hp
        | cons x before => simp at heq

/-- What becomes of a console that is broken off in a session of moves. -/
structure BreaksOff (k : Console load) (ms : List Move) : Prop where
  /-- There was a cause. -/
  cause : Cause k ms
  /-- Until then nothing was dropped, repeated or taken out of its order, -/
  inOrder : (k.moves ms).notices ++ (k.moves ms).onTheWay = Controller.notices (k.moves ms).controller.acts
  /-- and then nothing more is printed, not even a report. -/
  cut : ∀ ns limit, (((k.moves ms).moves ns).close limit).stdout = (k.moves ms).stdout ∧
    ∀ r, .report r ∉ (k.moves ms).stdout

end Console

end Cadence
