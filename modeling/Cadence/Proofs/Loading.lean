import Cadence.Engine.Workspace
import Cadence.Proofs.Diagnosing

/-!
# Cadence.Proofs.Loading — what it takes to load a script

An engine in a child process is started with three commands: an empty one, whose reply is the banner, the one that
loads the script, and the one that turns the statistics on.  Any of the replies may be cut off, and two of them are
judged, each in its own way.  The first obstacle ends it.

* `lastLine?_iff`: what a text ends in, by its lines.
* `Replies.command`: a command returns the reply of the child, or fails as the connection does.
* `Piped.load_cases`: the three commands, one after another.
* `Launcher.load_judged`: when a script is loaded, what goes wrong otherwise, and what the child is sent.
-/

namespace Cadence

namespace Text

/-- The last line of `s` that is not blank is `t`, white space at both ends aside. -/
def EndsIn (s t : List Char) : Prop :=
  ∃ before line after, lines s = before ++ line :: after ∧ Trims line t ∧ ∀ l ∈ after, Trims l []

theorem lastLine?_iff {s t : List Char} (ht : t ≠ []) : lastLine? s = some t ↔ EndsIn s t := by
  simp only [lastLine?, ← List.map_reverse, List.find?_map, Option.map_eq_some_iff,
    List.find?_eq_some_iff_append, EndsIn, trims_iff]
  constructor
  · rintro ⟨line, ⟨-, later, before, hlines, hlater⟩, rfl⟩
    refine ⟨before.reverse, line, later.reverse, ?_, rfl, ?_⟩
    · simpa using congrArg List.reverse hlines
    · intro l hl
      simpa using hlater l (List.mem_reverse.mp hl)
  · rintro ⟨before, line, after, hlines, rfl, hafter⟩
    refine ⟨line, ⟨?_, after.reverse, before.reverse, by simp [hlines], ?_⟩, rfl⟩
    · simpa using ht
    · intro l hl
      simpa using hafter l (List.mem_reverse.mp hl)

/-- A line may be indented, and blank ones may follow it. -/
example : lastLine? "TRUE\n  FALSE\r\n\n \t".toList = some "FALSE".toList ∧
    lastLine? "FALSE\nTRUE".toList ≠ some "FALSE".toList := by decide +kernel

end Text

namespace Engine

open Text.Utf8 (Bytes lenient)

namespace Piped

variable {κ : Type} [Child κ] {p : Piped κ} {text : String} {script : Script}

/-! ## One command -/

/-- What a child makes of a command: the text of its output, or none if its output ends before the reply is
complete or its input is closed. -/
inductive Replies (p : Piped κ) (text : String) : Option String → Prop where
  | whole {out : Bytes} (h : p.Answers text out) : Replies p text (some (lenient out))
  | cutOff {out : Bytes} (h : p.BreaksOff text out) : Replies p text none
  | deaf (h : Child.isDeaf p.child = true) : Replies p text none

/-- Writes to a child, which takes nothing once it has closed its input. -/
def send (text : String) (k : κ) : κ := if Child.isDeaf k then k else (Child.write text k).2

/-- What a command sends: its text, and the printing of its mark. -/
def message (text : String) (m : Mark) : String := text ++ "\n" ++ m.command ++ "\n"

theorem command_sends (p : Piped κ) (text : String) :
    (p.command text).2.child = send (message text p.mark) p.child ∧ (p.command text).2.marks = p.marks := by
  unfold command send
  cases Child.isDeaf p.child <;> exact ⟨rfl, rfl⟩

theorem close_sends (p : Piped κ) : p.close.child = send "(exit)\n" p.child := by
  unfold close send
  cases Child.isDeaf p.child <;> rfl

/-- **A complete reply is returned**, and nothing of it is left. -/
theorem Replies.command {reply : String} (h : Replies p text (some reply)) (hp : p.pending = []) :
    (p.command text).1 = .ok reply ∧ (p.command text).2.pending = [] ∧ (p.command text).2.used = p.used + 1 := by
  cases h with
  | whole h =>
    obtain ⟨hreply, hpending⟩ := h.command hp
    refine ⟨hreply, hpending, ?_⟩
    simp [Piped.command, h.listens]

/-- **A reply that is cut off is a failure of the connection.** -/
theorem Replies.breaks (h : Replies p text none) (hp : p.pending = []) :
    ∃ what, (p.command text).1 = .error ⟨.io, what⟩ := by
  cases h with
  | cutOff h =>
    obtain ⟨⟨kind, what⟩, herror, rfl⟩ := h.command hp
    exact ⟨what, herror⟩
  | deaf h => exact ⟨inputClosed.message, by simp [Piped.command, h, inputClosed]⟩

/-! ## Three commands -/

/-- Whether a reply has a line that is a diagnostic. -/
def Objects (reply : String) : Prop := ∃ l ∈ Text.cut (· == '\n') reply.toList, IsDiagnostic l

/-- Whether the last line of a reply says that nothing was loaded. -/
def Denies (reply : String) : Prop := Text.EndsIn reply.toList "FALSE".toList

/-- The commands that loading a script sends, in order. -/
def loading (script : Script) : List String := ["", loadCommand script, "(watch statistics)"]

/-- What the first `n` of them send to the child. -/
def messages (script : Script) (marks : Nat → Mark) (n : Nat) : List String :=
  ((loading script).take n).mapIdx fun i text => message text (marks i)

/-- The child is described by its replies to the three commands.  After one that is cut off there are no more. -/
structure Replying (p : Piped κ) (script : Script) (banner load watch : Option String) : Prop where
  first : Replies p "" banner
  second : banner.isSome → Replies (p.command "").2 (loadCommand script) load
  third : banner.isSome → load.isSome →
    Replies ((p.command "").2.command (loadCommand script)).2 "(watch statistics)" watch

/-- Nothing is in the way of loading. -/
structure Clear (banner load watch : Option String) : Prop where
  banner : banner.isSome
  load : ∃ reply, load = some reply ∧ ¬ Objects reply ∧ ¬ Denies reply
  watch : ∃ reply, watch = some reply ∧ ¬ Objects reply

/-- The first obstacle in the way of loading: the command that meets it, counted from one, and the failure. -/
inductive Obstacle (script : Script) : (banner load watch : Option String) → Nat → Error → Prop where
  | banner {load watch : Option String} (what : String) : Obstacle script none load watch 1 ⟨.io, what⟩
  | load {banner : String} {watch : Option String} (what : String) :
      Obstacle script (some banner) none watch 2 ⟨.io, what⟩
  /-- The text of the failure is the reply, trimmed. -/
  | objection {banner reply : String} {watch : Option String} {what : String} (h : Objects reply)
      (hwhat : Text.Trims reply.toList what.toList) :
      Obstacle script (some banner) (some reply) watch 2 ⟨.load, what⟩
  | denial {banner reply : String} {watch : Option String} (h : ¬ Objects reply) (hd : Denies reply) :
      Obstacle script (some banner) (some reply) watch 2 ⟨.load, "clips could not load " ++ script.path⟩
  | watch {banner reply : String} (h : ¬ Objects reply) (hd : ¬ Denies reply) (what : String) :
      Obstacle script (some banner) (some reply) none 3 ⟨.io, what⟩
  | complaint {banner reply watch : String} {what : String} (h : ¬ Objects reply) (hd : ¬ Denies reply)
      (hw : Objects watch) (hwhat : Text.Trims watch.toList what.toList) :
      Obstacle script (some banner) (some reply) (some watch) 3 ⟨.command, what⟩

theorem Obstacle.not_clear {banner load watch : Option String} {n : Nat} {e : Error}
    (h : Obstacle script banner load watch n e) : ¬ Clear banner load watch := by
  rintro ⟨hb, ⟨reply, hload, hobjects, hdenies⟩, ⟨watched, hwatch, hcomplains⟩⟩
  cases h with
  | banner => cases hb
  | load => cases hload
  | objection h => cases hload; exact hobjects h
  | denial _ h => cases hload; exact hdenies h
  | watch => cases hwatch
  | complaint _ _ h => cases hwatch; exact hcomplains h

theorem trims_trimmed (s : String) : Text.Trims s.toList (Text.trimmed s).toList :=
  Text.trimmed_iff.mp rfl

theorem diagnostic?_of_objects {reply : String} (h : Objects reply) :
    diagnostic? reply = some (Text.trimmed reply) := by
  rw [diagnostic?, if_pos (hasDiagnostic_iff.mpr h)]

theorem diagnostic?_of_not_objects {reply : String} (h : ¬ Objects reply) : diagnostic? reply = none := by
  rw [diagnostic?, if_neg fun hd => h (hasDiagnostic_iff.mp hd)]

theorem checkLoad_of_objects {reply : String} (h : Objects reply) :
    checkLoad script reply = .error ⟨.load, Text.trimmed reply⟩ := by
  simp only [checkLoad, diagnostic?_of_objects h]

theorem checkLoad_of_denies {reply : String} (h : ¬ Objects reply) (hd : Denies reply) :
    checkLoad script reply = .error ⟨.load, "clips could not load " ++ script.path⟩ := by
  simp only [checkLoad, diagnostic?_of_not_objects h, (Text.lastLine?_iff (by simp)).mpr hd, if_true]

theorem checkLoad_of_clear {reply : String} (h : ¬ Objects reply) (hd : ¬ Denies reply) :
    checkLoad script reply = .ok () := by
  simp only [checkLoad, diagnostic?_of_not_objects h, (Text.lastLine?_iff (by simp)).not.mpr hd, if_false]

theorem load_of_banner {e : Error} (h : (p.command "").1 = .error e) :
    p.load script = (.error e, (p.command "").2) := by
  obtain ⟨reply, q, hc⟩ : ∃ reply q, p.command "" = (reply, q) := ⟨_, _, rfl⟩
  rw [hc] at h ⊢
  cases h
  simp only [load, hc]

section Loading

variable {q : Piped κ} {banner : String}

/-- What is left to do once the banner has come. -/
theorem load_of_load {e : Error} (hb : p.command "" = (.ok banner, q))
    (h : (q.command (loadCommand script)).1 = .error e) :
    p.load script = (.error e, (q.command (loadCommand script)).2) := by
  obtain ⟨reply, r, hc⟩ : ∃ reply r, q.command (loadCommand script) = (reply, r) := ⟨_, _, rfl⟩
  rw [hc] at h ⊢
  cases h
  simp only [load, hb, hc]

variable {r : Piped κ} {reply : String}

theorem load_of_refused {e : Error} (hb : p.command "" = (.ok banner, q))
    (hl : q.command (loadCommand script) = (.ok reply, r)) (hc : checkLoad script reply = .error e) :
    p.load script = (.error e, r) := by
  simp only [load, hb, hl, hc]

theorem load_of_accepted (hb : p.command "" = (.ok banner, q))
    (hl : q.command (loadCommand script) = (.ok reply, r)) (hc : checkLoad script reply = .ok ()) :
    p.load script =
      ((r.checked "(watch statistics)").1.map fun _ => (), (r.command "(watch statistics)").2) := by
  simp only [load, hb, hl, hc]
  rfl

end Loading

/-- **The three commands, one after another**: all of them, or those up to the first obstacle. -/
theorem load_cases {banner load watch : Option String} (hp : p.pending = []) (hu : p.used = 0)
    (h : p.Replying script banner load watch) :
    (Clear banner load watch ∧ (p.load script).1 = .ok () ∧
        (p.load script).2.child = (messages script p.marks 3).foldl (fun k text => send text k) p.child) ∨
      ∃ n e, Obstacle script banner load watch n e ∧ (p.load script).1 = .error e ∧
        (p.load script).2.child = (messages script p.marks n).foldl (fun k text => send text k) p.child := by
  obtain ⟨hsent₁, hmarks₁⟩ := p.command_sends ""
  rw [mark, hu] at hsent₁
  cases banner with
  | none =>
    obtain ⟨what, herror⟩ := h.first.breaks hp
    exact .inr ⟨1, _, .banner what, by rw [load_of_banner herror], by rw [load_of_banner herror]; exact hsent₁⟩
  | some banner =>
    obtain ⟨hok₁, hp₁, hu₁⟩ := h.first.command hp
    have hload := h.second rfl
    have hwatch := h.third rfl
    have hb : p.command "" = (.ok banner, (p.command "").2) := Prod.ext hok₁ rfl
    generalize (p.command "").2 = q at hb hp₁ hu₁ hload hwatch hsent₁ hmarks₁
    obtain ⟨hsent₂, hmarks₂⟩ := q.command_sends (loadCommand script)
    rw [mark, hu₁, hu, hmarks₁, hsent₁] at hsent₂
    cases load with
    | none =>
      obtain ⟨what, herror⟩ := hload.breaks hp₁
      exact .inr ⟨2, _, .load what, by rw [load_of_load hb herror], by rw [load_of_load hb herror]; exact hsent₂⟩
    | some reply =>
      obtain ⟨hok₂, hp₂, hu₂⟩ := hload.command hp₁
      have hwatch := hwatch rfl
      have hl : q.command (loadCommand script) = (.ok reply, (q.command (loadCommand script)).2) := Prod.ext hok₂ rfl
      generalize (q.command (loadCommand script)).2 = r at hl hp₂ hu₂ hwatch hsent₂ hmarks₂
      obtain ⟨hsent₃, -⟩ := r.command_sends "(watch statistics)"
      rw [mark, hu₂, hu₁, hu, hmarks₂, hmarks₁, hsent₂] at hsent₃
      by_cases hobjects : Objects reply
      · rw [load_of_refused hb hl (checkLoad_of_objects hobjects)]
        exact .inr ⟨2, _, .objection hobjects (trims_trimmed reply), rfl, hsent₂⟩
      by_cases hdenies : Denies reply
      · rw [load_of_refused hb hl (checkLoad_of_denies hobjects hdenies)]
        exact .inr ⟨2, _, .denial hobjects hdenies, rfl, hsent₂⟩
      rw [load_of_accepted hb hl (checkLoad_of_clear hobjects hdenies)]
      cases watch with
      | none =>
        obtain ⟨what, herror⟩ := hwatch.breaks hp₂
        exact .inr ⟨3, _, .watch hobjects hdenies what, by simp [checked, herror, Except.bind, Except.map], hsent₃⟩
      | some watched =>
        obtain ⟨hok₃, -, -⟩ := hwatch.command hp₂
        by_cases hcomplains : Objects watched
        · refine .inr ⟨3, _, .complaint hobjects hdenies hcomplains (trims_trimmed watched), ?_, hsent₃⟩
          simp [checked, hok₃, check, diagnostic?_of_objects hcomplains, Except.bind, Except.map]
        · refine .inl ⟨⟨rfl, ⟨reply, rfl, hobjects, hdenies⟩, ⟨watched, rfl, hcomplains⟩⟩, ?_, hsent₃⟩
          simp [checked, hok₃, check, diagnostic?_of_not_objects hcomplains, Except.bind, Except.map]

end Piped

/-! ## A child that was started -/

namespace Launcher

open Piped (send)

variable {κ : Type} [Child κ] {l : Launcher κ} {script : Script} {banner load watch : Option String}

/-- The engine in the child that starting the program gives. -/
def started (l : Launcher κ) : Piped κ := { child := l.child, marks := l.marks }

/-- The child after the messages, in order. -/
def told (l : Launcher κ) (texts : List String) : κ := texts.foldl (fun k text => send text k) l.child

/-- What is made of the three replies of a child that was started. -/
structure Judged (l : Launcher κ) (script : Script) (banner load watch : Option String) : Prop where
  /-- The script is loaded iff nothing is in the way. -/
  loads_iff : (∃ p, (l.load script).1 = .ok p) ↔ Piped.Clear banner load watch
  /-- The child was then sent the three commands. -/
  loaded : ∀ p, (l.load script).1 = .ok p → p.child = l.told (Piped.messages script l.marks 3)
  /-- Otherwise the failure is that of the first obstacle, and the child was sent the commands up to it, and then
  only told to exit. -/
  fails : ¬ Piped.Clear banner load watch → ∃ n e p, Piped.Obstacle script banner load watch n e ∧
    l.load script = (.error e, { l with discarded := some p }) ∧
      p.child = l.told (Piped.messages script l.marks n ++ ["(exit)\n"])

section Started

variable {p : Piped κ} (hfile : l.workspace.isFile script.path = true)
  (hstart : l.workspace.start? l.binary = .ok ())

include hfile hstart

theorem load_of_ok (h : l.started.load script = (.ok (), p)) : l.load script = (.ok p, l) := by
  rw [started] at h
  simp only [load, hfile, hstart, h, if_true]

theorem load_of_error {e : Error} (h : l.started.load script = (.error e, p)) :
    l.load script = (.error e, { l with discarded := some p.close }) := by
  rw [started] at h
  simp only [load, hfile, hstart, h, if_true]

end Started

/-- **When a script is loaded, what goes wrong otherwise, and what the child is sent.** -/
theorem load_judged (hfile : l.workspace.isFile script.path = true) (hstart : l.workspace.start? l.binary = .ok ())
    (h : l.started.Replying script banner load watch) : l.Judged script banner load watch := by
  rcases hrun : l.started.load script with ⟨verdict, p⟩
  rcases Piped.load_cases rfl rfl h with ⟨hclear, hverdict, hsent⟩ | ⟨n, e, hobstacle, hverdict, hsent⟩
  · rw [hrun] at hverdict hsent
    cases hverdict
    have hload := load_of_ok hfile hstart hrun
    refine ⟨iff_of_true ⟨p, by rw [hload]⟩ hclear, fun q hq => ?_, fun hnot => absurd hclear hnot⟩
    rw [hload] at hq
    cases hq
    exact hsent
  · rw [hrun] at hverdict hsent
    cases hverdict
    have hload := load_of_error hfile hstart hrun
    refine ⟨iff_of_false ?_ hobstacle.not_clear, ?_, fun _ => ⟨n, e, p.close, hobstacle, hload, ?_⟩⟩
    · rintro ⟨q, hq⟩
      rw [hload] at hq
      cases hq
    · intro q hq
      rw [hload] at hq
      cases hq
    · rw [p.close_sends, told, List.foldl_append, ← told, hsent]
      rfl

open StandIn in
/-- A program with a diagnostic in its banner, whose output ends when the statistics are turned on. -/
def faltering : Launcher StandIn where
  workspace := { entries := [(["rules.clp"], .file), (["clips"], .program)] }
  binary := "./clips"
  child := { replies :=
    [(.banner, { bytes := Text.Utf8.ofString "[START1] CLIPS\n" }),
     (.load, { bytes := Text.Utf8.ofString "FALSE\n%%\nTRUE\n", pieceLength := some 7 }),
     (.watch, { bytes := Text.Utf8.ofString "[WATCH1] ", closes := true })] }
  marks := Mark.numbered

theorem faltering_judged :
    (faltering.workspace.isFile "rules.clp" = true ∧ faltering.workspace.start? faltering.binary = .ok () ∧
      faltering.started.Replying ⟨"rules.clp"⟩ (some "[START1] CLIPS\n") (some "FALSE\n%%\nTRUE\n") none) ∧
    faltering.Judged ⟨"rules.clp"⟩ (some "[START1] CLIPS\n") (some "FALSE\n%%\nTRUE\n") none := by
  have hfile : faltering.workspace.isFile "rules.clp" = true := by decide +kernel
  have hstart : faltering.workspace.start? faltering.binary = .ok () := by decide +kernel
  have hreplying : faltering.started.Replying ⟨"rules.clp"⟩ (some "[START1] CLIPS\n") (some "FALSE\n%%\nTRUE\n")
      none := by
    refine ⟨?_, fun _ => ?_, fun _ _ => ?_⟩
    · have hanswers : faltering.started.Answers "" (Text.Utf8.ofString "[START1] CLIPS\n") :=
        ⟨rfl, by decide +kernel, ⟨.lf, by decide +kernel⟩, by decide +kernel⟩
      exact .whole hanswers
    · have hanswers : (faltering.started.command "").2.Answers (Piped.loadCommand ⟨"rules.clp"⟩)
          (Text.Utf8.ofString "FALSE\n%%\nTRUE\n") :=
        ⟨by decide +kernel, by decide +kernel, ⟨.lf, by decide +kernel⟩, by decide +kernel⟩
      exact .whole hanswers
    · have hbreaks : ((faltering.started.command "").2.command (Piped.loadCommand ⟨"rules.clp"⟩)).2.BreaksOff
          "(watch statistics)" (Text.Utf8.ofString "[WATCH1] ") := ⟨by decide +kernel, .lf, by decide +kernel⟩
      exact .cutOff hbreaks
  exact ⟨⟨hfile, hstart, hreplying⟩, load_judged hfile hstart hreplying⟩

end Launcher

end Engine

end Cadence
