import Cadence.Text.Count
import Mathlib.Data.List.Induction

/-!
# Cadence.Proofs.Numbering — numbers in decimal digits

Digits are read with checked arithmetic, and denote a number whatever their length.

* `readDigits?_iff`, `count?_iff`: the digits that are read as a count, and the count that they are read as.
* `padded`, `eq_padded`: digits are those of the number that they denote, with zeros before them.
* `count?_toDigits`: the digits of a count are read as that count.
-/

namespace Cadence.Text

variable {n v : Nat} {s : List Char}

/-! ## Reading -/

theorem digit?_iff {c : Char} {d : Nat} : digit? c = some d ↔ c.isDigit = true ∧ c.toNat - '0'.toNat = d := by
  have hdigit : c.isDigit = true ↔ '0' ≤ c ∧ c ≤ '9' := by simp [Char.isDigit, Char.le_def]
  unfold digit?
  split
  · next h => simp [hdigit, h]
  · next h => simp [hdigit, h]

/-- Further digits make a number no smaller. -/
theorem le_ofDigitChars (s : List Char) (n : Nat) : n ≤ Nat.ofDigitChars 10 s n := by
  induction s generalizing n with
  | nil => exact Nat.le_refl n
  | cons c s ih =>
    rw [Nat.ofDigitChars_cons]
    have h := ih (10 * n + (c.toNat - '0'.toNat))
    omega

/-- **Digits are read as the number they denote**, as long as that is a count; nothing wraps on the way. -/
theorem readDigits?_iff (hn : n < countLimit) : readDigits? n s = some v ↔
    (∀ c ∈ s, c.isDigit = true) ∧ Nat.ofDigitChars 10 s n = v ∧ v < countLimit := by
  induction s generalizing n with
  | nil =>
    simp only [readDigits?, Option.some.injEq, List.not_mem_nil, false_imp_iff, implies_true, true_and,
      Nat.ofDigitChars_nil]
    exact ⟨fun h => ⟨h, h ▸ hn⟩, fun h => h.1⟩
  | cons c s ih =>
    rw [readDigits?, List.forall_mem_cons, Nat.ofDigitChars_cons]
    cases hc : digit? c with
    | none =>
      have hnot : ¬ c.isDigit = true := fun h => by simp [digit?_iff.mpr ⟨h, rfl⟩] at hc
      simp [hnot]
    | some d =>
      obtain ⟨hdigit, rfl⟩ := digit?_iff.mp hc
      simp only [Option.bind_eq_bind, Option.bind_some, hdigit, true_and, pushDigit?]
      by_cases hlimit : 10 * n + (c.toNat - '0'.toNat) < countLimit
      · rw [if_pos hlimit, Option.bind_some, ih hlimit]
      · -- the number is past the limit already, and stays so
        have hle := le_ofDigitChars s (10 * n + (c.toNat - '0'.toNat))
        simp only [if_neg hlimit, Option.bind_none, reduceCtorEq, false_iff]
        rintro ⟨-, rfl, hv⟩
        omega

theorem count?_iff : count? s = some v ↔
    s ≠ [] ∧ (∀ c ∈ s, c.isDigit = true) ∧ Nat.ofDigitChars 10 s 0 = v ∧ v < countLimit := by
  have hzero : 0 < countLimit := Nat.two_pow_pos 64
  cases s with
  | nil => simp [count?]
  | cons c s =>
    have hcount : count? (c :: s) = readDigits? 0 (c :: s) := by simp [count?]
    rw [hcount, readDigits?_iff hzero]
    exact ⟨fun h => ⟨List.cons_ne_nil _ _, h⟩, And.right⟩

/-! ## Writing -/

theorem isDigit_of_mem_toDigits : ∀ c ∈ Nat.toDigits 10 n, c.isDigit = true :=
  fun _ hc => Nat.isDigit_of_mem_toDigits (by decide) (by decide) hc

/-- **The decimal digits of a count are read as that count**, as long as it fits into 64 bits. -/
theorem count?_toDigits (hn : n < countLimit) : count? (Nat.toDigits 10 n) = some n :=
  count?_iff.mpr ⟨Nat.toDigits_ne_nil, isDigit_of_mem_toDigits, Nat.ofDigitChars_ten_toDigits, hn⟩

/-- The decimal digits of `n`, with zeros before them. -/
def padded (zeros n : Nat) : List Char := List.replicate zeros '0' ++ Nat.toDigits 10 n

theorem padded_ne_nil (zeros n : Nat) : padded zeros n ≠ [] :=
  List.append_ne_nil_of_right_ne_nil _ Nat.toDigits_ne_nil

theorem isDigit_of_mem_padded {zeros : Nat} : ∀ c ∈ padded zeros n, c.isDigit = true := by
  intro c hc
  rcases List.mem_append.mp hc with h | h
  · rw [(List.mem_replicate.mp h).2]
    rfl
  · exact isDigit_of_mem_toDigits c h

/-- Zeros before a number do not change it. -/
theorem ofDigitChars_padded (zeros n : Nat) : Nat.ofDigitChars 10 (padded zeros n) 0 = n := by
  rw [padded, Nat.ofDigitChars_append, Nat.ofDigitChars_replicate_zero, Nat.mul_zero,
    Nat.ofDigitChars_ten_toDigits]

theorem exists_digit {c : Char} (h : c.isDigit = true) :
    ∃ d < 10, c.toNat - '0'.toNat = d ∧ c = Nat.digitChar d := by
  have hc : 48 ≤ c.toNat ∧ c.toNat ≤ 57 := by
    simpa [Char.isDigit, UInt32.le_iff_toNat_le] using h
  refine ⟨c.toNat - 48, by omega, rfl, Char.toNat_inj.mp ?_⟩
  rw [Nat.toNat_digitChar_of_lt_ten (by omega)]
  omega

/-- **Digits are those of the number that they denote**, with zeros before them. -/
theorem eq_padded (hne : s ≠ []) (hs : ∀ c ∈ s, c.isDigit = true) :
    ∃ zeros, s = padded zeros (Nat.ofDigitChars 10 s 0) := by
  induction s using List.reverseRecOn with
  | nil => exact absurd rfl hne
  | append_singleton t c ih =>
    obtain ⟨ht, hc⟩ := List.forall_mem_append.mp hs
    obtain ⟨d, hd, hval, rfl⟩ := exists_digit (hc c (.head _))
    rw [Nat.ofDigitChars_append, Nat.ofDigitChars_cons, Nat.ofDigitChars_nil, hval]
    by_cases hnil : t = []
    · subst hnil
      refine ⟨0, ?_⟩
      simp [padded, Nat.toDigits_of_lt_base hd]
    · obtain ⟨zeros, hpadded⟩ := ih hnil ht
      generalize Nat.ofDigitChars 10 t 0 = v at hpadded
      subst hpadded
      rcases Nat.eq_zero_or_pos v with rfl | hv
      · -- the digits so far are zeros, and there is one more of them than before
        refine ⟨zeros + 1, ?_⟩
        simp [padded, Nat.toDigits_of_lt_base hd, List.replicate_succ']
      · refine ⟨zeros, ?_⟩
        rw [padded, padded, ← Nat.toDigits_append_toDigits (by decide) hv hd, Nat.toDigits_of_lt_base hd,
          List.append_assoc]

end Cadence.Text
