import Cadence.Config
import Cadence.Proofs.Diagnosing
import Cadence.Proofs.Numbering
import Mathlib.Logic.Function.Basic

/-!
# Cadence.Proofs.Configuring — settings, each from its own variable

There are four settings.  Each has a variable, texts that mean something for it, and a default for where the
variable has no such text; a setting is looked at through these only, and so all four are dealt with at once.

* `Mode.ofTag_iff`, `Config.capacity?_iff`: the texts that name a cadence, and those that are a capacity.
* `Config.denotes_iff`: the texts that denote a number, written out.
* `Setting.read?_iff`, `Config.ofEnv_get`: what is read of a text, and what becomes of it.
* `Config.settings_apart`: what every setting is, for every environment.
-/

namespace Cadence

/-! ## Cadences -/

namespace Mode

variable {text : String} {m : Mode}

/-- A text that names a cadence, white space around it aside. -/
inductive Names (text : String) : Mode → Prop where
  | tag {m : Mode} (h : Text.Trims text.toList m.tag.toList) : Names text m
  /-- The older spelling. -/
  | older (h : Text.Trims text.toList "RUNONE".toList) : Names text runOne

theorem names_iff : Names text m ↔
    Text.trimmed text = m.tag ∨ (m = runOne ∧ Text.trimmed text = "RUNONE") := by
  simp only [Text.trimmed_iff]
  constructor
  · rintro (h | h)
    · exact .inl h
    · exact .inr ⟨rfl, h⟩
  · rintro (h | ⟨rfl, h⟩)
    · exact .tag h
    · exact .older h

/-- **A text is read as the cadence that it names.** -/
theorem ofTag_iff : ofTag text = .ok m ↔ Names text m := by
  rw [names_iff, ofTag]
  generalize Text.trimmed text = tag
  constructor
  · intro h
    split_ifs at h with hrun hone hstep
    · cases h
      exact .inl hrun
    · cases h
      exact hone.imp_right fun h => ⟨rfl, h⟩
    · cases h
      exact .inl hstep
  · rintro (rfl | ⟨rfl, rfl⟩)
    · cases m <;> simp [Mode.tag]
    · simp

end Mode

/-! ## Capacities -/

namespace Config

variable {text : String} {n : Nat}

/-- A text that denotes a number: digits, at least one, with one plus sign before them or none. -/
def Denotes (text : String) (n : Nat) : Prop :=
  ∃ digits, (text.toList = digits ∨ text.toList = '+' :: digits) ∧ digits ≠ [] ∧
    (∀ c ∈ digits, c.isDigit = true) ∧ Nat.ofDigitChars 10 digits 0 = n

/-- **A number is denoted by its digits**, behind zeros and a plus sign. -/
theorem denotes_iff : Denotes text n ↔
    ∃ zeros, text.toList = Text.padded zeros n ∨ text.toList = '+' :: Text.padded zeros n := by
  constructor
  · rintro ⟨digits, htext, hne, hall, rfl⟩
    obtain ⟨zeros, hdigits⟩ := Text.eq_padded hne hall
    exact ⟨zeros, hdigits ▸ htext⟩
  · rintro ⟨zeros, htext⟩
    exact ⟨Text.padded zeros n, htext, Text.padded_ne_nil zeros n, Text.isDigit_of_mem_padded,
      Text.ofDigitChars_padded zeros n⟩

/-- A text without the plus sign that it may begin with. -/
def unsigned : List Char → List Char
  | '+' :: r => r
  | s => s

theorem unsigned_of_ne {s : List Char} (h : ∀ r, s ≠ '+' :: r) : unsigned s = s := by
  unfold unsigned
  split
  · next r => exact absurd rfl (h r)
  · rfl

/-- There is one way to leave the plus sign out. -/
theorem denotes_iff_unsigned : Denotes text n ↔ unsigned text.toList ≠ [] ∧
    (∀ c ∈ unsigned text.toList, c.isDigit = true) ∧ Nat.ofDigitChars 10 (unsigned text.toList) 0 = n := by
  constructor
  · rintro ⟨digits, htext | htext, hdigits⟩
    · have hsign : ∀ r, digits ≠ '+' :: r := by
        rintro r rfl
        -- a plus sign is no digit
        exact absurd (hdigits.2.1 '+' (.head _)) (by decide)
      rwa [htext, unsigned_of_ne hsign]
    · rwa [htext]
  · intro h
    by_cases hplus : ∃ r, text.toList = '+' :: r
    · obtain ⟨r, hr⟩ := hplus
      rw [hr] at h
      exact ⟨r, .inr hr, h⟩
    · rw [unsigned_of_ne (not_exists.mp hplus)] at h
      exact ⟨text.toList, .inl rfl, h⟩

theorem Denotes.unique {m : Nat} (hm : Denotes text m) (hn : Denotes text n) : m = n :=
  (denotes_iff_unsigned.mp hm).2.2.symm.trans (denotes_iff_unsigned.mp hn).2.2

theorem capacity?_eq (text : String) :
    capacity? text = (Text.count? (unsigned text.toList)).filter fun n => 0 < n := by
  unfold capacity?
  extract_lets digits
  have hdigits : digits = unsigned text.toList := rfl
  rw [hdigits]
  cases Text.count? (unsigned text.toList) with
  | none => rfl
  | some m => by_cases hm : 0 < m <;> simp [Option.filter, hm]

/-- **A capacity is a number above zero that has 64 bits.** -/
theorem capacity?_iff : capacity? text = some n ↔ Denotes text n ∧ 0 < n ∧ n < Text.countLimit := by
  rw [capacity?_eq, Option.filter_eq_some_iff, Text.count?_iff, decide_eq_true_iff, denotes_iff_unsigned]
  constructor
  · rintro ⟨⟨hne, hall, hval, hlimit⟩, hpos⟩
    exact ⟨⟨hne, hall, hval⟩, hpos, hlimit⟩
  · rintro ⟨⟨hne, hall, hval⟩, hpos, hlimit⟩
    exact ⟨⟨hne, hall, hval, hlimit⟩, hpos⟩

end Config

/-! ## Settings -/

/-- The settings, one by one. -/
inductive Setting where
  | initialMode
  | binary
  | eventCapacity
  | workerName
deriving DecidableEq

namespace Setting

/-- The variable that a setting is read from. -/
def key : Setting → String
  | initialMode => "CLIPS_DRIVER_MODE"
  | binary => "CLIPS_BINARY"
  | eventCapacity => "CLIPS_DRIVER_EVENT_CAPACITY"
  | workerName => "CLIPS_DRIVER_WORKER_NAME"

/-- What a setting can be. -/
abbrev Value : Setting → Type
  | initialMode => Mode
  | binary => Option String
  | eventCapacity => Nat
  | workerName => String

/-- What a text means for a setting. -/
def Means : (s : Setting) → String → s.Value → Prop
  | initialMode => Mode.Names
  | binary => fun text path => text ≠ "" ∧ path = some text
  | eventCapacity => fun text n => Config.Denotes text n ∧ 1 ≤ n ∧ n < Text.countLimit
  | workerName => fun text name => text ≠ "" ∧ name = text

/-- What a setting is where nothing is said. -/
def usual : (s : Setting) → s.Value
  | initialMode => Mode.step
  | binary => none
  | eventCapacity => 128
  | workerName => "clips-driver"

/-- What a setting is, by the text of its variable: what that means, and else the default. -/
inductive Chosen (s : Setting) : Option String → s.Value → Prop where
  | meant {text : String} {a : s.Value} (h : s.Means text a) : Chosen s (some text) a
  | senseless {text : String} (h : ∀ a, ¬ s.Means text a) : Chosen s (some text) s.usual
  | unset : Chosen s none s.usual

/-- How a text is read for a setting. -/
def read? : (s : Setting) → String → Option s.Value
  | initialMode => fun text => (Mode.ofTag text).toOption
  | binary => fun text => (Config.nonempty text).map some
  | eventCapacity => Config.capacity?
  | workerName => Config.nonempty

variable {s : Setting} {text : String}

/-- **A text is read as what it means.** -/
theorem read?_iff {a : s.Value} : s.read? text = some a ↔ s.Means text a := by
  cases s with
  | initialMode =>
    change (Mode.ofTag text).toOption = some a ↔ Mode.Names text a
    rw [← Mode.ofTag_iff]
    cases Mode.ofTag text <;> simp [Except.toOption]
  | binary => simp [read?, Means, Config.nonempty, eq_comm]
  | eventCapacity => exact Config.capacity?_iff
  | workerName => simp [read?, Means, Config.nonempty, eq_comm]

theorem chosen_iff {value : Option String} {a : s.Value} :
    s.Chosen value a ↔ (value.bind s.read?).getD s.usual = a := by
  cases value with
  | none =>
    constructor
    · rintro ⟨⟩
      rfl
    · rintro rfl
      exact .unset
  | some text =>
    rw [Option.bind_some]
    cases hread : s.read? text with
    | some b =>
      have hb : s.Means text b := read?_iff.mp hread
      constructor
      · rintro (h | h)
        · exact Option.some.inj (hread.symm.trans (read?_iff.mpr h))
        · exact absurd hb (h b)
      · rintro rfl
        exact .meant hb
    | none =>
      have hnone : ∀ b, ¬ s.Means text b := fun b hb => by
        rw [read?_iff.mpr hb] at hread
        cases hread
      constructor
      · rintro (h | h)
        · exact absurd h (hnone _)
        · rfl
      · rintro rfl
        exact .senseless hnone

theorem key_injective : Function.Injective key := by
  intro s t
  cases s <;> cases t <;> decide

end Setting

namespace Config

open Setting

variable {env : String → Option String} {text : String} {n : Nat}

/-- One of the settings. -/
def get (config : Config) : (s : Setting) → s.Value
  | .initialMode => config.initialMode
  | .binary => config.binary
  | .eventCapacity => config.eventCapacity
  | .workerName => config.workerName

theorem ext_get {c d : Config} (h : ∀ s, c.get s = d.get s) : c = d := by
  cases c
  cases d
  exact (Config.mk.injEq ..).mpr
    ⟨h .initialMode, h .binary, h .eventCapacity, h .workerName⟩

/-- **Every setting is read in one way**: from its variable, or it is the default. -/
theorem ofEnv_get (env : String → Option String) (s : Setting) :
    (ofEnv env).get s = ((env s.key).bind s.read?).getD s.usual := by
  cases s with
  | initialMode =>
    simp only [get, ofEnv, key, read?]
    cases env "CLIPS_DRIVER_MODE" with
    | none => rfl
    | some text => cases h : Mode.ofTag text <;> simp [h, Except.toOption, usual, standard]
  | binary =>
    simp only [get, ofEnv, key, read?, usual]
    cases env "CLIPS_BINARY" with
    | none => rfl
    | some text => cases h : nonempty text <;> simp [h]
  | eventCapacity => rfl
  | workerName => rfl

/-- A setting is the same wherever its variable is. -/
theorem get_congr {s : Setting} {other : String → Option String} (h : other s.key = env s.key) :
    (ofEnv other).get s = (ofEnv env).get s := by
  rw [ofEnv_get, ofEnv_get, h]

/-- **The settings are what their variables mean**, and no other settings are. -/
theorem chosen_iff_ofEnv {config : Config} :
    (∀ s, Chosen s (env s.key) (config.get s)) ↔ ofEnv env = config := by
  simp only [Setting.chosen_iff, ← ofEnv_get]
  constructor
  · exact ext_get
  · rintro rfl s
    rfl

theorem capacity?_padded {zeros : Nat} (htext : text.toList = Text.padded zeros n ∨
    text.toList = '+' :: Text.padded zeros n) :
    capacity? text = if 1 ≤ n ∧ n < Text.countLimit then some n else none := by
  have hdenotes : Denotes text n := denotes_iff.mpr ⟨zeros, htext⟩
  split_ifs with hn
  · exact capacity?_iff.mpr ⟨hdenotes, hn⟩
  · rw [Option.eq_none_iff_forall_ne_some]
    intro m hm
    obtain ⟨hm, hlimits⟩ := capacity?_iff.mp hm
    rw [hm.unique hdenotes] at hlimits
    exact hn hlimits

/-- **Each setting is what its own variable means, or its default.** -/
theorem settings_apart (env : String → Option String) :
    (∀ config : Config, (∀ s, Chosen s (env s.key) (config.get s)) ↔ ofEnv env = config) ∧
      (∀ s other, other s.key = env s.key → (ofEnv other).get s = (ofEnv env).get s) ∧
      (∀ s t value, s ≠ t → (ofEnv (Function.update env t.key value)).get s = (ofEnv env).get s) ∧
      ∀ text zeros n, text.toList = Text.padded zeros n ∨ text.toList = '+' :: Text.padded zeros n →
        env Setting.eventCapacity.key = some text →
        (ofEnv env).eventCapacity = if 1 ≤ n ∧ n < Text.countLimit then n else 128 := by
  refine ⟨fun config => chosen_iff_ofEnv, fun s other h => get_congr h, fun s t value hne => ?_,
    fun text zeros n htext henv => ?_⟩
  · refine get_congr (Function.update_of_ne ?_ _ _)
    exact fun h => hne (key_injective h)
  · have hcapacity := ofEnv_get env .eventCapacity
    rw [henv, Option.bind_some] at hcapacity
    change (ofEnv env).eventCapacity = (capacity? text).getD 128 at hcapacity
    rw [hcapacity, capacity?_padded htext]
    split_ifs <;> rfl

/-- An environment with white space around its cadence and zeros before the largest capacity; the name is a
space, and so not empty. -/
def spacious : String → Option String
  | "CLIPS_DRIVER_MODE" => some "\u3000RUNONE\n"
  | "CLIPS_DRIVER_EVENT_CAPACITY" => some "+00018446744073709551615"
  | "CLIPS_DRIVER_WORKER_NAME" => some " "
  | _ => none

/-- The same environment, with a capacity one larger. -/
def excessive : String → Option String :=
  Function.update spacious Setting.eventCapacity.key (some "018446744073709551616")

/-- One more is past the limit: the capacity is the default again, and nothing else changes. -/
theorem settings_apart_of_excessive :
    ofEnv spacious = ⟨.runOne, none, 18446744073709551615, " "⟩ ∧
      ofEnv excessive = ⟨.runOne, none, 128, " "⟩ := by
  have hspacious : ofEnv spacious = ⟨.runOne, none, 18446744073709551615, " "⟩ := by
    refine ((settings_apart spacious).1 _).mp fun s => ?_
    cases s with
    | initialMode => exact .meant (Mode.Names.older (Text.trims_iff.mpr (by decide +kernel)))
    | binary => exact .unset
    | eventCapacity =>
      refine .meant ⟨denotes_iff.mpr ⟨3, .inr ?_⟩, by decide, by decide⟩
      decide +kernel
    | workerName => exact .meant ⟨by decide, rfl⟩
  refine ⟨hspacious, ext_get fun s => ?_⟩
  obtain ⟨-, -, hothers, -⟩ := settings_apart spacious
  obtain ⟨-, -, -, hcapacity⟩ := settings_apart excessive
  by_cases hs : s = .eventCapacity
  · subst hs
    exact hcapacity "018446744073709551616" 1 18446744073709551616 (.inl (by decide +kernel))
      (Function.update_self _ _ _)
  · rw [excessive, hothers s .eventCapacity _ hs, hspacious]
    cases s with
    | eventCapacity => exact absurd rfl hs
    | _ => rfl

end Config

end Cadence
