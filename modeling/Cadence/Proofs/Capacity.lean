import Cadence.Console.Program
import Cadence.Proofs.Configuring
import Cadence.Proofs.Reporting

/-!
# Cadence.Proofs.Capacity — which capacities are admitted, and which can be used

The settings admit any capacity from one to the largest number of 64 bits.  A channel has room for fewer items
than that: with more than `Channel.maxCapacity` it cannot be made.

* `Config.oversized_iff`: the environments whose capacity no channel has.
* `subscribes_unless_oversized`: what comes of them, for a controller and for the program.
* `oversized_crashes`: an environment with the least such capacity.
-/

namespace Cadence

/-! ## Capacities -/

namespace Config

variable {env : String → Option String}

/-- The environment has a capacity that is admitted and that no channel has. -/
def Oversized (env : String → Option String) : Prop :=
  ∃ text n, env "CLIPS_DRIVER_EVENT_CAPACITY" = some text ∧ Denotes text n ∧ Channel.maxCapacity < n ∧
    n < Text.countLimit

/-- The capacity is denoted by its variable, or it is the default. -/
theorem eventCapacity_cases (env : String → Option String) :
    (∃ text, env "CLIPS_DRIVER_EVENT_CAPACITY" = some text ∧ Denotes text (ofEnv env).eventCapacity ∧
      0 < (ofEnv env).eventCapacity ∧ (ofEnv env).eventCapacity < Text.countLimit) ∨
        (ofEnv env).eventCapacity = standard.eventCapacity := by
  simp only [ofEnv]
  cases h : (env "CLIPS_DRIVER_EVENT_CAPACITY").bind capacity? with
  | none => exact .inr rfl
  | some n =>
    obtain ⟨text, hlookup, htext⟩ := Option.bind_eq_some_iff.mp h
    exact .inl ⟨text, hlookup, capacity?_iff.mp htext⟩

theorem eventCapacity_pos (env : String → Option String) : 0 < (ofEnv env).eventCapacity := by
  rcases eventCapacity_cases env with ⟨-, -, -, hpos, -⟩ | hdefault
  · exact hpos
  · rw [hdefault]
    decide

theorem oversized_iff : Oversized env ↔ Channel.maxCapacity < (ofEnv env).eventCapacity := by
  constructor
  · rintro ⟨text, n, hlookup, hdenotes, hmax, hlimit⟩
    have hcap : capacity? text = some n := capacity?_iff.mpr ⟨hdenotes, Nat.zero_lt_of_lt hmax, hlimit⟩
    simp only [ofEnv]
    rwa [hlookup, Option.bind_some, hcap, Option.getD_some]
  · intro hmax
    rcases eventCapacity_cases env with ⟨text, hlookup, hdenotes, -, hlimit⟩ | hdefault
    · exact ⟨text, _, hlookup, hdenotes, hmax, hlimit⟩
    · rw [hdefault] at hmax
      exact absurd hmax (by decide)

end Config

/-- What is said of a capacity that is too large. -/
def Channel.tooLarge : Payload :=
  .text "a semaphore may not have more than MAX_PERMITS permits (2305843009213693951)"

namespace Controller

variable {A : Assembly} {w v : Controller A}

/-! ## Controllers -/

theorem Effect.config_eq (h : Effect w v) : v.config = w.config := by
  cases h with
  | load script source g h => exact apply_config _ _
  | _ => rfl

/-- Settings stay what they were. -/
theorem Reachable.moves_config (h : Reachable w) (ms : List (Move A.Id)) : (w.moves ms).config = w.config := by
  refine h.moves_uphold (P := fun v => v.config = w.config) (fun v a _ hv => ?_) (fun v u _ hv ht => ?_)
    (fun v r _ hv hr _ => ?_) rfl ms
  · exact (access_effect v a).config_eq.trans hv
  · cases ht <;> exact hv
  · exact (proceed_parts hr).config_eq.trans hv

/-- Subscribing makes a channel: it is empty and has room for so many items. -/
structure MakesChannel (w : Controller A) (room : Nat) : Prop where
  number : w.subscribeChannel.1 = .ok w.channels.length
  channel : w.subscribeChannel.2.channels = w.channels ++ [{ capacity := room }]

/-- Subscribing panics, and changes nothing. -/
def MakesNone (w : Controller A) : Prop := w.subscribeChannel = (.error Channel.tooLarge, w)

/-- A channel is made, unless it is to have room for more than it can. -/
theorem subscribeChannel_cases (w : Controller A) (h : 0 < w.config.eventCapacity) :
    (Channel.maxCapacity < w.config.eventCapacity ∧ w.MakesNone) ∨
      (¬ Channel.maxCapacity < w.config.eventCapacity ∧ w.MakesChannel w.config.eventCapacity) := by
  have hmax : max w.config.eventCapacity 1 = w.config.eventCapacity := Nat.max_eq_left h
  by_cases hle : w.config.eventCapacity ≤ Channel.maxCapacity
  · refine .inr ⟨Nat.not_lt.mpr hle, ?_, ?_⟩ <;> simp [subscribeChannel, Channel.create, hmax, hle]
  · refine .inl ⟨Nat.lt_of_not_le hle, ?_⟩
    simp [MakesNone, subscribeChannel, Channel.create, hmax, hle, Channel.tooLarge]

end Controller

/-! ## The program -/

namespace Console

open Engine

variable {κ : Type} [Child κ]

/-- Loading an engine in a child process may fail, and does not panic. -/
theorem load_ne_panicked (script : Script) (l : Launcher κ) (p : Payload) :
    (Launcher.load script l).1 ≠ .panicked p := by
  unfold Launcher.load
  split
  · split
    · simp
    · split <;> simp
  · simp

/-- Starting such an engine does not panic either. -/
theorem startEngine_ne_panicked (w : Controller (parts (@Launcher.load κ _))) (script : Script) (p : Payload) :
    (w.startEngine script).1 ≠ .panicked p := by
  have hload := load_ne_panicked script w.source
  unfold Controller.startEngine
  split
  · simp
  · dsimp only
    split
    · simp
    · simp
    · next q hq => exact absurd hq (hload q)

/-- A launch ends in a panic iff there is no channel for it. -/
theorem launch_crashes_iff (config : Config) (launcher : Launcher κ) (script : String)
    (h : 0 < config.eventCapacity) :
    (∃ exit left, launch config launcher script = .error (exit, left) ∧ exit.code = 101) ↔
      Channel.maxCapacity < config.eventCapacity := by
  have hcases := Controller.subscribeChannel_cases
    (Controller.create (A := parts (@Launcher.load κ _)) config launcher {} ()) h
  change (Channel.maxCapacity < config.eventCapacity ∧ _) ∨ (¬ Channel.maxCapacity < config.eventCapacity ∧ _)
    at hcases
  unfold launch
  generalize Controller.create (A := parts (@Launcher.load κ _)) config launcher {} () = w at hcases
  rcases hcases with ⟨hmax, hw⟩ | ⟨hmax, hw, -⟩
  · rw [Controller.MakesNone] at hw
    simp only [hw, hmax, iff_true]
    exact ⟨_, _, rfl, rfl⟩
  · rcases hs : w.subscribeChannel with ⟨_ | k, v⟩
    · rw [hs] at hw
      cases hw
    have hstart := startEngine_ne_panicked v ⟨script⟩
    simp only [hmax, iff_false]
    rintro ⟨exit, left, hlaunch, hcode⟩
    rcases hv : v.startEngine ⟨script⟩ with ⟨_ | e | p, u⟩
    · rcases hu : u.launchOn .spawned with ⟨_ | _, t⟩ <;> simp only [hs, hv, hu] at hlaunch <;> cases hlaunch
      cases hcode
    · simp only [hs, hv] at hlaunch
      cases hlaunch
      cases hcode
    · rw [hv] at hstart
      exact absurd rfl (hstart p)

theorem exitOf_code (k : OfLauncher κ) (read : Nat) : (exitOf k read).code ≠ 101 := by
  simp only [exitOf]
  split <;> decide

/-- Whatever else happens, a program that has begun its run does not crash. -/
theorem run_crashes_iff (limit : Nat) (arguments : List String) (env : String → Option String)
    (workspace : Workspace) (child : κ) (marks : Nat → Mark) (input : List String) :
    (run limit arguments env workspace child marks input).1.code = 101 ↔
      arguments ≠ [] ∧ (∃ binary, Launcher.locate (Config.ofEnv env).binary workspace = .ok binary) ∧
        Config.Oversized env := by
  unfold run prepare
  cases arguments with
  | nil => simp
  | cons script rest =>
    dsimp only
    cases Launcher.locate (Config.ofEnv env).binary workspace with
    | error e => simp [fail]
    | ok binary =>
      have hlaunch := launch_crashes_iff (Config.ofEnv env) { workspace, binary, child, marks } script
        (Config.eventCapacity_pos env)
      rw [Config.oversized_iff, ← hlaunch]
      rcases hended : launch (Config.ofEnv env) { workspace, binary, child, marks } script with ⟨exit, left⟩ | k
      · simp [hended]
      · simpa [hended] using exitOf_code _ _

end Console

/-! ## Settings that cannot be used -/

/-- **A capacity that is admitted may be one that no channel has.**  Then no channel can be subscribed to, at any
time, and the program ends in a panic before its run begins; with any other environment neither happens. -/
theorem subscribes_unless_oversized (env : String → Option String) :
    (∀ {A : Controller.Assembly} (source : A.Source) (domain : A.Dom) (crowd : A.Crowd)
        (ms : List (Controller.Move A.Id)),
        (Config.Oversized env → ((Controller.create (Config.ofEnv env) source domain crowd).moves ms).MakesNone) ∧
          (¬ Config.Oversized env →
            ((Controller.create (Config.ofEnv env) source domain crowd).moves ms).MakesChannel
              (Config.ofEnv env).eventCapacity)) ∧
      ∀ {κ : Type} [Engine.Child κ] (limit : Nat) (arguments : List String) (workspace : Engine.Workspace)
        (child : κ) (marks : Nat → Engine.Mark) (input : List String),
        (Console.run limit arguments env workspace child marks input).1.code = 101 ↔
          arguments ≠ [] ∧
            (∃ binary, Engine.Launcher.locate (Config.ofEnv env).binary workspace = .ok binary) ∧
            Config.Oversized env := by
  refine ⟨fun {A} source domain crowd ms => ?_, fun limit arguments workspace child marks input =>
    Console.run_crashes_iff limit arguments env workspace child marks input⟩
  have hconfig : ((Controller.create (A := A) (Config.ofEnv env) source domain crowd).moves ms).config =
      Config.ofEnv env := (Controller.Reachable.create _ _ _ _).moves_config ms
  have hcases := Controller.subscribeChannel_cases _ (hconfig.symm ▸ Config.eventCapacity_pos env)
  rw [hconfig, ← Config.oversized_iff] at hcases
  rcases hcases with ⟨hsize, hw⟩ | ⟨hsize, hw⟩
  · exact ⟨fun _ => hw, fun h => absurd hsize h⟩
  · exact ⟨fun h => absurd h hsize, fun _ => hw⟩

/-- An environment with a capacity one larger than a channel can have. -/
def oversized : String → Option String
  | "CLIPS_DRIVER_EVENT_CAPACITY" => some "2305843009213693952"
  | "CLIPS_BINARY" => some "./clips"
  | _ => none

/-- **An environment can crash the program**: its capacity is admitted as it is, and no channel has it. -/
theorem oversized_crashes :
    ((Config.ofEnv oversized).eventCapacity = 2305843009213693952 ∧
      ((Console.run 9 ["rules.clp"] oversized { entries := [] } ({ replies := [] } : Engine.StandIn)
        Engine.Mark.numbered []).1.code = 101)) ∧
      ¬ ∀ (env : String → Option String) (source : Engine.Catalogue Controller.Bench.BenchEngine)
          (domain : Domain.Scripted) (crowd : Controller.Notebook String Domain.Scripted),
          ∃ k, (Controller.create (A := Controller.Bench.trialParts) (Config.ofEnv env) source domain
            crowd).subscribeChannel.1 = .ok k := by
  have hcapacity : (Config.ofEnv oversized).eventCapacity = 2305843009213693952 := by decide +kernel
  have hsize : Config.Oversized oversized := by
    rw [Config.oversized_iff, hcapacity]
    decide
  refine ⟨⟨hcapacity, ?_⟩, fun h => ?_⟩
  · exact (Console.run_crashes_iff _ _ _ _ _ _ _).mpr ⟨by decide, ⟨"./clips", by decide +kernel⟩, hsize⟩
  · obtain ⟨k, hk⟩ := h oversized [] { doneAfter := 0 } {}
    rcases Controller.subscribeChannel_cases (Controller.create (A := Controller.Bench.trialParts)
      (Config.ofEnv oversized) [] { doneAfter := 0 } {}) (Config.eventCapacity_pos _) with ⟨-, hw⟩ | ⟨hmax, -⟩
    · rw [hw] at hk
      cases hk
    · exact hmax (Config.oversized_iff.mp hsize)

end Cadence
