import Cadence.Engine.Piped
import Mathlib.Data.List.Infix

/-!
# Cadence.Proofs.Quoting — a quoted text stays inside its quotes

A literal ends at the first double quote that no backslash makes literal.  Whatever a text is made of, its
literal ends at the quote that was written last: what is read is the text, and what follows is left.

* `Inside`, `read?_iff`: which literals there are, and what they mean.
* `read?_quote`, `read?_early`: a quoted text is read back, and not before all of it is there.
* `quoted_stays_inside`: the same for the command that loads a script.
-/

namespace Cadence.Engine

namespace Literal

/-- What can stand between the quotes of a literal, with the text it means. -/
inductive Inside : List Char → List Char → Prop where
  | nil : Inside [] []
  | plain {c : Char} {raw t : List Char} (quote : c ≠ '"') (backslash : c ≠ '\\') (h : Inside raw t) :
      Inside (c :: raw) (c :: t)
  /-- A backslash makes any character literal. -/
  | literal (c : Char) {raw t : List Char} (h : Inside raw t) : Inside ('\\' :: c :: raw) (c :: t)

variable {s t raw r : List Char}

theorem Inside.read (h : Inside raw t) (r : List Char) : readInside? (raw ++ '"' :: r) = some (t, r) := by
  induction h with
  | nil => rfl
  | plain _ backslash _ ih => simp [readInside?, backslash, ih]
  | literal c _ ih => simp [readInside?, ih]

theorem inside_of_read (h : readInside? s = some (t, r)) : ∃ raw, s = raw ++ '"' :: r ∧ Inside raw t := by
  fun_induction readInside? s generalizing t with
  | case1 => cases h
  | case2 r' =>
    cases h
    exact ⟨[], rfl, .nil⟩
  | case3 c s ih =>
    obtain ⟨⟨t', r'⟩, hread, heq⟩ := Option.map_eq_some_iff.mp h
    cases heq
    obtain ⟨raw, rfl, hraw⟩ := ih hread
    exact ⟨'\\' :: c :: raw, rfl, .literal c hraw⟩
  | case4 => cases h
  | case5 c s hquote hescaped hbackslash ih =>
    obtain ⟨⟨t', r'⟩, hread, heq⟩ := Option.map_eq_some_iff.mp h
    cases heq
    obtain ⟨raw, rfl, hraw⟩ := ih hread
    have hslash : c ≠ '\\' := by
      rintro rfl
      cases raw with
      | nil => exact hescaped _ _ rfl rfl
      | cons d raw => exact hescaped _ _ rfl rfl
    exact ⟨c :: raw, rfl, .plain hquote hslash hraw⟩

/-- **What is read is a literal**, and what follows it is left. -/
theorem read?_iff : read? s = some (t, r) ↔ ∃ raw, s = '"' :: (raw ++ '"' :: r) ∧ Inside raw t := by
  constructor
  · intro h
    unfold read? at h
    split at h
    · obtain ⟨raw, rfl, hraw⟩ := inside_of_read h
      exact ⟨raw, rfl, hraw⟩
    · cases h
  · rintro ⟨raw, rfl, hraw⟩
    exact hraw.read r

/-- Reading looks no further than the quote that ends the literal. -/
theorem read?_append (h : read? s = some (t, r)) (more : List Char) :
    read? (s ++ more) = some (t, r ++ more) := by
  obtain ⟨raw, rfl, hraw⟩ := read?_iff.mp h
  exact read?_iff.mpr ⟨raw, by simp, hraw⟩

theorem inside_escape (t : List Char) : Inside (escape t) t := by
  induction t with
  | nil => exact .nil
  | cons c t ih =>
    rw [escape]
    split
    · exact .literal c ih
    · next h =>
      obtain ⟨hquote, hslash⟩ := not_or.mp h
      exact .plain hquote hslash ih

theorem read?_quote (t r : List Char) : read? (quote t ++ r) = some (t, r) :=
  read?_iff.mpr ⟨escape t, by simp [quote], inside_escape t⟩

/-- A literal that is still being written is not read as one. -/
theorem read?_early (h : s <+: quote t) (hne : s ≠ quote t) : read? s = none := by
  obtain ⟨more, hmore⟩ := h
  cases hs : read? s with
  | none => rfl
  | some found =>
    obtain ⟨u, rest⟩ := found
    have hread := read?_append hs more
    rw [hmore, ← List.append_nil (quote t), read?_quote] at hread
    have hrest : rest ++ more = [] := (Prod.mk.inj (Option.some.inj hread)).2.symm
    rw [(List.append_eq_nil_iff.mp hrest).2, List.append_nil] at hmore
    exact absurd hmore hne

/-- Different texts have different literals, also when other things follow them. -/
theorem quote_prefix_free {t' r' : List Char} (h : quote t ++ r = quote t' ++ r') : t = t' ∧ r = r' := by
  have hread := congrArg read? h
  rw [read?_quote, read?_quote] at hread
  exact Prod.mk.inj (Option.some.inj hread)

theorem toList_quoted (s : String) : (quoted s).toList = quote s.toList := String.toList_ofList

end Literal

open Literal

/-- **A quoted text stays inside its quotes**, and so does the path in the command that loads a script: the
literal ends right before the bracket of the command, whatever is sent after it. -/
theorem quoted_stays_inside :
    (∀ (t : String) (r : List Char), read? ((quoted t).toList ++ r) = some (t.toList, r)) ∧
      (∀ (t : String) (early : List Char), early <+: (quoted t).toList → early ≠ (quoted t).toList →
        read? early = none) ∧
      Function.Injective quoted ∧
      ∀ (script : Script) (later : List Char), ∃ rest,
        (Piped.loadCommand script).toList ++ later = "(load ".toList ++ rest ∧
          read? rest = some (script.path.toList, ')' :: later) := by
  refine ⟨fun t r => ?_, fun t early hpre hne => ?_, fun t t' h => ?_, fun script later => ?_⟩
  · rw [toList_quoted]
    exact read?_quote _ _
  · rw [toList_quoted] at hpre hne
    exact read?_early hpre hne
  · have hquote : quote t.toList ++ [] = quote t'.toList ++ [] := by
      rw [← toList_quoted, ← toList_quoted, h]
    exact String.toList_inj.mp (quote_prefix_free hquote).1
  · refine ⟨quote script.path.toList ++ ')' :: later, ?_, read?_quote _ _⟩
    simp [Piped.loadCommand, toList_quoted]

end Cadence.Engine
