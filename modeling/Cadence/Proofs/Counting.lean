import Cadence.Engine.StandIn
import Cadence.Proofs.Firing
import Cadence.Proofs.Framing
import Cadence.Proofs.Numbering
import Mathlib.Data.List.TakeWhile

/-!
# Cadence.Proofs.Counting — how many rules are said to have fired

A reply is searched line by line for the first that has a fixed form.  The engine says how many rules
fired after everything that the rules have printed, so its own line is the one that counts only if no
line before it, printed by a rule, has the same form.
-/

namespace Cadence

/-! ## Lines -/

namespace Text

/-- To prove something of a text, prove it of one line and of a line more. -/
@[elab_as_elim]
theorem byLines {P : List Char → Prop} (one : ∀ l, '\n' ∉ l → P l)
    (more : ∀ l r, '\n' ∉ l → P r → P (l ++ '\n' :: r)) (s : List Char) : P s := by
  -- what was passed since the last line feed belongs to the line that is being read
  have after : ∀ s l, '\n' ∉ l → P (l ++ s) := by
    intro s
    induction s with
    | nil =>
      intro l hl
      rw [List.append_nil]
      exact one l hl
    | cons c s ih =>
      intro l hl
      by_cases hc : c = '\n'
      · subst hc
        exact more l s hl (ih [] List.not_mem_nil)
      · have hlc : '\n' ∉ l ++ [c] := by
          simp only [List.mem_append, List.mem_singleton, not_or]
          exact ⟨hl, fun h => hc h.symm⟩
        have h := ih (l ++ [c]) hlc
        rwa [List.append_assoc] at h
  exact after s [] List.not_mem_nil

/-- White space at the start of a text ends with its first line only if that is blank. -/
theorem trimStart_line (l r : List Char) :
    trimStart (l ++ '\n' :: r) =
      if trimStart l = [] then trimStart r else trimStart l ++ '\n' :: r := by
  have hlf : isBlank '\n' = true := by decide
  by_cases hl : l.dropWhile isBlank = []
  · simp [trimStart, List.dropWhile_append, hl, hlf]
  · simp [trimStart, List.dropWhile_append, hl]

/-- Where a run of characters ends. -/
theorem takeWhile_append_stop {p : Char → Bool} {s r : List Char} (hs : ∀ c ∈ s, p c = true)
    (hr : ∀ c ∈ r.head?, p c = false) : (s ++ r).takeWhile p = s ∧ (s ++ r).dropWhile p = r := by
  rw [List.takeWhile_append_of_pos hs, List.dropWhile_append_of_pos hs]
  cases r with
  | nil => simp
  | cons c r =>
    have hc : p c = false := hr c rfl
    simp [hc]

end Text

namespace Engine

open Text

section Search

variable {α : Type} {f g : List Char → Option α}

/-- The text at a line start is asked first. -/
theorem firstAtLineStart_start (s : List Char) :
    firstAtLineStart f true s = (f s).or (firstAtLineStart f true s) := by
  cases s with
  | nil => simp [firstAtLineStart]
  | cons c r =>
    simp only [firstAtLineStart, if_true]
    cases f (c :: r) <;> rfl

/-- Inside a line nothing is asked until the line has ended. -/
theorem firstAtLineStart_inside {l : List Char} (h : '\n' ∉ l) (r : List Char) :
    firstAtLineStart f false (l ++ '\n' :: r) = firstAtLineStart f true r := by
  induction l with
  | nil => rfl
  | cons c l ih =>
    obtain ⟨hc, hl⟩ := List.forall_mem_cons.mp (ne_lf h)
    have hl : '\n' ∉ l := fun hm => h (.tail _ hm)
    simp only [List.cons_append, firstAtLineStart, Bool.false_eq_true, if_false, hc, ih hl]

theorem firstAtLineStart_last {l : List Char} (h : '\n' ∉ l) : firstAtLineStart f false l = none := by
  induction l with
  | nil => rfl
  | cons c l ih =>
    obtain ⟨hc, -⟩ := List.forall_mem_cons.mp (ne_lf h)
    have hl : '\n' ∉ l := fun hm => h (.tail _ hm)
    simp only [firstAtLineStart, Bool.false_eq_true, if_false, hc, ih hl]

/-- One line is asked once. -/
theorem firstAtLineStart_line {l : List Char} (h : '\n' ∉ l) : firstAtLineStart f true l = f l := by
  cases l with
  | nil => rfl
  | cons c l =>
    obtain ⟨hc, -⟩ := List.forall_mem_cons.mp (ne_lf h)
    have hl : '\n' ∉ l := fun hm => h (.tail _ hm)
    simp only [firstAtLineStart, if_true, hc, firstAtLineStart_last hl]
    cases f (c :: l) <;> rfl

/-- A line is asked before what follows it. -/
theorem firstAtLineStart_more {l : List Char} (h : '\n' ∉ l) (r : List Char) :
    firstAtLineStart f true (l ++ '\n' :: r) = (f (l ++ '\n' :: r)).or (firstAtLineStart f true r) := by
  cases l with
  | nil =>
    simp only [List.nil_append, firstAtLineStart, if_true, beq_self_eq_true]
    cases f ('\n' :: r) <;> rfl
  | cons c l =>
    obtain ⟨hc, -⟩ := List.forall_mem_cons.mp (ne_lf h)
    have hl : '\n' ∉ l := fun hm => h (.tail _ hm)
    simp only [List.cons_append, firstAtLineStart, if_true, hc, firstAtLineStart_inside hl]
    cases f (c :: (l ++ '\n' :: r)) <;> rfl

/-- A function that looks at nothing beyond the first line, where that is not empty. -/
structure ReadsLine (g : List Char → Option α) : Prop where
  nil : g [] = none
  line : ∀ l r, '\n' ∉ l → l ≠ [] → g (l ++ '\n' :: r) = g l

/-- **A search at line starts asks the lines in turn**, where what is asked takes no account of
leading white space; blank lines are of no account then. -/
theorem firstAtLineStart_eq (hg : ReadsLine g) (s : List Char) :
    firstAtLineStart (fun s => g (trimStart s)) true s =
      (cut (· == '\n') s).findSome? fun l => g (trimStart l) := by
  induction s using byLines with
  | one l hl =>
    rw [firstAtLineStart_line hl, cut_of_none (ne_lf hl), List.findSome?_singleton]
  | more l r hl ih =>
    rw [firstAtLineStart_more hl, cut_append_cons (ne_lf hl) (by decide), List.findSome?_cons, ← ih,
      trimStart_line]
    by_cases hb : trimStart l = []
    · rw [if_pos hb, hb, hg.nil]
      exact (firstAtLineStart_start (f := fun s => g (trimStart s)) r).symm
    · have hsub : '\n' ∉ trimStart l := fun hm => hl ((List.dropWhile_sublist _).mem hm)
      rw [if_neg hb, hg.line _ r hsub hb]
      cases g (trimStart l) <;> rfl

end Search

/-! ## The line that counts -/

/-- What follows the white space before a count of fired rules. -/
def countHere? (s : List Char) : Option (List Char) :=
  let rest := (dropPrefix? " rule".toList (s.dropWhile isDigit)).bind fun r =>
    (dropPrefix? "s fired".toList r).or (dropPrefix? " fired".toList r)
  if !(s.takeWhile isDigit).isEmpty && rest.isSome then some (s.takeWhile isDigit) else none

theorem firedDigits?_eq : firedDigits? = fun s => countHere? (trimStart s) := rfl

theorem takeWhile_line {p : Char → Bool} (hp : p '\n' = false) (l r : List Char) :
    (l ++ '\n' :: r).takeWhile p = l.takeWhile p := by
  induction l with
  | nil => simp [hp]
  | cons c l ih => cases hc : p c <;> simp [hc, ih]

theorem dropWhile_line {p : Char → Bool} (hp : p '\n' = false) (l r : List Char) :
    (l ++ '\n' :: r).dropWhile p = l.dropWhile p ++ '\n' :: r := by
  induction l with
  | nil => simp [hp]
  | cons c l ih => cases hc : p c <;> simp [hc, ih]

/-- A beginning without line feeds is looked for in the first line. -/
theorem dropPrefix?_line {start : List Char} (h : '\n' ∉ start) (l r : List Char) :
    dropPrefix? start (l ++ '\n' :: r) = (dropPrefix? start l).map (· ++ '\n' :: r) := by
  induction start generalizing l with
  | nil => rfl
  | cons c start ih =>
    have hc : c ≠ '\n' := fun hc => h (hc ▸ .head _)
    have hstart : '\n' ∉ start := fun hm => h (.tail _ hm)
    cases l with
    | nil => simp [dropPrefix?, hc]
    | cons d l =>
      by_cases hd : c = d
      · simp [dropPrefix?, hd, ih hstart]
      · simp [dropPrefix?, hd]

theorem dropPrefix?_eq_some_iff {start s r : List Char} : dropPrefix? start s = some r ↔ s = start ++ r := by
  induction start generalizing s with
  | nil => simp [dropPrefix?]
  | cons c start ih =>
    cases s with
    | nil => simp [dropPrefix?]
    | cons d s =>
      by_cases hd : c = d
      · simp [dropPrefix?, hd, ih]
      · simp [dropPrefix?, hd, Ne.symm hd]

theorem readsLine_countHere? : ReadsLine countHere? where
  nil := rfl
  line := by
    intro l r _ _
    have ht := takeWhile_line (p := isDigit) (by decide) l r
    have hd := dropWhile_line (p := isDigit) (by decide) l r
    have hrule := dropPrefix?_line (by decide : '\n' ∉ " rule".toList)
    have hmany := dropPrefix?_line (by decide : '\n' ∉ "s fired".toList)
    have hone := dropPrefix?_line (by decide : '\n' ∉ " fired".toList)
    simp only [countHere?, ht, hd, hrule]
    cases dropPrefix? " rule".toList (l.dropWhile isDigit) with
    | none => rfl
    | some u =>
      simp only [Option.map_some, Option.bind_some, hmany, hone, Option.isSome_or, Option.isSome_map]

/-- The lines are asked in turn for a count of fired rules. -/
theorem search_eq (s : List Char) :
    firstAtLineStart firedDigits? true s = (cut (· == '\n') s).findSome? firedDigits? := by
  rw [firedDigits?_eq]
  exact firstAtLineStart_eq readsLine_countHere? s

/-! ### Digits -/

theorem isDigit_eq (c : Char) : isDigit c = c.isDigit := by
  rw [Bool.eq_iff_iff]
  simp [isDigit, Char.isDigit, Char.le_def]

theorem isDigit_of_mem_toDigits {n : Nat} : ∀ c ∈ Nat.toDigits 10 n, isDigit c = true := by
  intro c hc
  rw [isDigit_eq]
  exact Text.isDigit_of_mem_toDigits c hc

theorem not_isBlank_of_isDigit {c : Char} (h : isDigit c = true) : isBlank c = false := by
  simp only [isDigit, Bool.and_eq_true, decide_eq_true_eq, Char.le_def, UInt32.le_iff_toNat_le] at h
  have h1 : 48 ≤ c.toNat := h.1
  have h2 : c.toNat ≤ 57 := h.2
  simp only [isBlank, Bool.or_eq_false_iff, Bool.and_eq_false_iff, decide_eq_false_iff_not, beq_eq_false_iff_ne]
  omega

/-! ### The form -/

/-- A text that begins with a count of fired rules, white space aside, and the digits of the count. -/
inductive SaysFired : List Char → List Char → Prop where
  | mk {blanks digits noun : List Char} (rest : List Char) (blank : ∀ c ∈ blanks, isBlank c = true)
      (hd : digits ≠ []) (digit : ∀ c ∈ digits, isDigit c = true)
      (hn : noun = " rule fired".toList ∨ noun = " rules fired".toList) :
      SaysFired (blanks ++ (digits ++ (noun ++ rest))) digits

/-- **What is looked for in a line** is a count of fired rules. -/
theorem firedDigits?_eq_some_iff {s ds : List Char} : firedDigits? s = some ds ↔ SaysFired s ds := by
  constructor
  · intro h
    simp only [firedDigits?, Bool.and_eq_true, Bool.not_eq_true', List.isEmpty_eq_false_iff,
      Option.ite_none_right_eq_some, Option.some.injEq] at h
    obtain ⟨⟨hd, hnoun⟩, rfl⟩ := h
    obtain ⟨rest, hrest⟩ := Option.isSome_iff_exists.mp hnoun
    obtain ⟨u, hu, hnoun⟩ := Option.bind_eq_some_iff.mp hrest
    have hs : s = s.takeWhile isBlank ++ ((trimStart s).takeWhile isDigit ++ (" rule".toList ++ u)) := by
      rw [← dropPrefix?_eq_some_iff.mp hu, List.takeWhile_append_dropWhile, trimStart,
        List.takeWhile_append_dropWhile]
    have hblank : ∀ c ∈ s.takeWhile isBlank, isBlank c = true := fun c hc => List.mem_takeWhile_imp hc
    have hdigit : ∀ c ∈ (trimStart s).takeWhile isDigit, isDigit c = true := fun c hc => List.mem_takeWhile_imp hc
    obtain ⟨noun, hn, hu⟩ : ∃ noun, (noun = " rule fired".toList ∨ noun = " rules fired".toList) ∧
        " rule".toList ++ u = noun ++ rest := by
      rcases Option.or_eq_some_iff.mp hnoun with hmany | ⟨-, hone⟩
      · exact ⟨_, .inr rfl, by rw [dropPrefix?_eq_some_iff.mp hmany]; rfl⟩
      · exact ⟨_, .inl rfl, by rw [dropPrefix?_eq_some_iff.mp hone]; rfl⟩
    have h := SaysFired.mk rest hblank hd hdigit hn
    rwa [← hu, ← hs] at h
  · rintro ⟨rest, blank, hd, digit, hn⟩
    rename_i blanks noun
    have hstart : ∀ c ∈ (ds ++ (noun ++ rest)).head?, isBlank c = false := by
      obtain ⟨c, cs, rfl⟩ := List.exists_cons_of_ne_nil hd
      rintro _ ⟨⟩
      exact not_isBlank_of_isDigit (digit c (.head _))
    have hend : ∀ c ∈ (noun ++ rest).head?, isDigit c = false := by
      rcases hn with rfl | rfl <;> rintro _ ⟨⟩ <;> rfl
    obtain ⟨htake, hdrop⟩ := takeWhile_append_stop digit hend
    have hnoun : ((dropPrefix? " rule".toList (noun ++ rest)).bind fun r =>
        (dropPrefix? "s fired".toList r).or (dropPrefix? " fired".toList r)).isSome = true := by
      rcases hn with rfl | rfl <;> rfl
    have htrim : trimStart (blanks ++ (ds ++ (noun ++ rest))) = ds ++ (noun ++ rest) :=
      (takeWhile_append_stop blank hstart).2
    simp only [firedDigits?, htrim, htake, hdrop, hnoun, List.isEmpty_eq_false_iff.mpr hd, Bool.not_false, Bool.and_self,
      if_true]

/-! ## The engine's own line -/

/-- A text that is empty or whose last line has ended. -/
def Ended (p : List Char) : Prop := p = [] ∨ ∃ q, p = q ++ ['\n']

/-- What the engine says of itself: how many rules have fired, in either number, and more. -/
def statistics (n : Nat) (isPlural : Bool) (more : List Char) : List Char :=
  Nat.toDigits 10 n ++ " rule".toList ++ ((if isPlural then "s fired" else " fired").toList ++ more)

/-- How many rules are said to have fired when the rules have printed `p` and the engine says `n`: by
the first line of `p` that has the form, where there is one, and a count past 64 bits is zero. -/
def said (p : List Char) (n : Nat) : Nat :=
  match (cut (· == '\n') p).findSome? firedDigits? with
  | none => n
  | some digits => (count? digits).getD 0

/-- The engine's own line has the form. -/
theorem firedDigits?_statistics (n : Nat) (isPlural : Bool) (more : List Char) :
    firedDigits? (statistics n isPlural more) = some (Nat.toDigits 10 n) := by
  refine firedDigits?_eq_some_iff.mpr ?_
  have form (noun : List Char) := @SaysFired.mk [] _ noun more (by simp) Nat.toDigits_ne_nil
    (isDigit_of_mem_toDigits (n := n))
  cases isPlural with
  | true => simpa [statistics] using form " rules fired".toList (.inr rfl)
  | false => simpa [statistics] using form " rule fired".toList (.inl rfl)

/-- The lines of ended lines and more are the lines of both. -/
theorem findSome?_cut_append {p : List Char} (hp : Ended p) (s : List Char) :
    (cut (· == '\n') (p ++ s)).findSome? firedDigits? =
      ((cut (· == '\n') p).findSome? firedDigits?).or
        ((cut (· == '\n') s).findSome? firedDigits?) := by
  have hnil : firedDigits? [] = none := rfl
  have hend : (cut (· == '\n') ([] : List Char)).findSome? firedDigits? = none := rfl
  obtain rfl | ⟨q, rfl⟩ := hp
  · rw [List.nil_append, hend, Option.none_or]
  · rw [List.append_assoc, List.singleton_append, cut_append q s (by decide),
      cut_append q [] (by decide), List.findSome?_append, List.findSome?_append, hend, Option.or_none]

/-- **The first line that has the form is the one that counts**; only after lines without the form is
that the engine's own. -/
theorem rulesFired_eq_said {p : List Char} (hp : Ended p) {n : Nat} (hn : n < countLimit)
    {isPlural : Bool} {more : List Char} {reply : String}
    (hr : reply.toList = p ++ statistics n isPlural more) : rulesFired reply = said p n := by
  have own : (cut (· == '\n') (statistics n isPlural more)).findSome? firedDigits? = some (Nat.toDigits 10 n) := by
    rw [← search_eq, firstAtLineStart_start, firedDigits?_statistics, Option.some_or]
  rw [rulesFired, search_eq, hr, findSome?_cut_append hp, own, said]
  cases (cut (· == '\n') p).findSome? firedDigits? with
  | none => rw [Option.none_or, Option.bind_some, count?_toDigits hn, Option.getD_some]
  | some digits => rw [Option.some_or, Option.bind_some]

/-! ## Through the pipe -/

namespace Piped

variable {κ : Type} [Child κ] {P : Piped κ} {p : List Char} {n : Nat}

/-- **A child reports on a call**: the rules have printed `p`, then the engine has said `n`, and none
of it is a diagnostic. -/
structure Reports (P : Piped κ) (c : Call) (p : List Char) (n : Nat) : Prop where
  idle : P.pending = []
  ended : Ended p
  small : n < countLimit
  answers : ∃ out isPlural more, P.Answers (commandOf c) out ∧
    (Text.Utf8.lenient out).toList = p ++ statistics n isPlural more ∧
    diagnostic? (Text.Utf8.lenient out) = none

/-- The reply of a call that has no diagnostic is made a value of. -/
theorem call_of_answers {c : Call} {out : Text.Utf8.Bytes} (hp : P.pending = [])
    (ha : P.Answers (commandOf c) out) (hd : diagnostic? (Text.Utf8.lenient out) = none) :
    (Engine.call c P).1 = .ok (readValue c (Text.Utf8.lenient out)) := by
  have hreply := (ha.command hp).1
  have hchecked : (P.checked (commandOf c)).1 = .ok (Text.Utf8.lenient out) := by
    change (P.command (commandOf c)).1.bind check = _
    rw [hreply]
    simp only [Except.bind, check, hd]
  simp only [Engine.call]
  split
  · next reply _ h =>
    rw [h] at hchecked
    cases hchecked
    rfl
  · next h =>
    rw [h] at hchecked
    cases hchecked

/-- **What `run` and `step` return** is by the first line that has the form, printed by a rule or by
the engine. -/
theorem fired_by_first_line :
    (P.Reports .run p n → (Engine.call .run P).1 = .ok (said p n)) ∧
      (P.Reports .step p n → (Engine.call .step P).1 = .ok (said p n)) := by
  constructor
  · rintro ⟨hidle, hended, hsmall, out, isPlural, more, ha, hout, hd⟩
    rw [call_of_answers hidle ha hd, readValue, rulesFired_eq_said hended hsmall hout]
  · rintro ⟨hidle, hended, hsmall, out, isPlural, more, ha, hout, hd⟩
    rw [call_of_answers hidle ha hd, readValue, rulesFired_eq_said hended hsmall hout]

open StandIn in
/-- A child whose rules print a greeting before the engine counts them. -/
def greeter : Piped StandIn where
  child := { replies :=
    [(.run, { bytes := Text.Utf8.ofString "hello\n3 rules fired  Run time\n" }),
     (.run1, { bytes := Text.Utf8.ofString "hi\n1 rule fired  Run time\n", pieceLength := some 4 })] }
  marks := Mark.numbered

theorem greeter_fired :
    (Engine.call .run greeter).1 = .ok 3 ∧ (Engine.call .step greeter).1 = .ok 1 := by
  have hrun : greeter.Reports .run "hello\n".toList 3 :=
    ⟨rfl, .inr ⟨"hello".toList, rfl⟩, by decide +kernel,
      Text.Utf8.ofString "hello\n3 rules fired  Run time\n", true, "  Run time\n".toList,
      ⟨rfl, by decide +kernel, ⟨.lf, by decide +kernel⟩, by decide +kernel⟩, by decide +kernel,
      by decide +kernel⟩
  have hstep : greeter.Reports .step "hi\n".toList 1 :=
    ⟨rfl, .inr ⟨"hi".toList, rfl⟩, by decide +kernel,
      Text.Utf8.ofString "hi\n1 rule fired  Run time\n", false, "  Run time\n".toList,
      ⟨rfl, by decide +kernel, ⟨.lf, by decide +kernel⟩, by decide +kernel⟩, by decide +kernel,
      by decide +kernel⟩
  have hthree : said "hello\n".toList 3 = 3 := by decide +kernel
  have hone : said "hi\n".toList 1 = 1 := by decide +kernel
  have h := And.intro (fired_by_first_line.1 hrun) (fired_by_first_line.2 hstep)
  rwa [hthree, hone] at h

open StandIn in
/-- A child with a rule that prints a line of the engine's form. -/
def boaster : Piped StandIn where
  child := { replies :=
    [(.run1, { bytes := Text.Utf8.ofString "7 rules fired\n1 rule fired  Run time\n" })] }
  marks := Mark.numbered

/-- **A rule can speak for the engine**: one rule has fired, and `step` returns seven. -/
theorem boaster_not_counted :
    (boaster.Reports .step "7 rules fired\n".toList 1 ∧ (Engine.call .step boaster).1 = .ok 7) ∧
      ¬ ∀ (P : Piped StandIn) (p : List Char) (n : Nat), P.Reports .step p n →
        (Engine.call .step P).1 = .ok n := by
  have hreports : boaster.Reports .step "7 rules fired\n".toList 1 :=
    ⟨rfl, .inr ⟨"7 rules fired".toList, rfl⟩, by decide +kernel,
      Text.Utf8.ofString "7 rules fired\n1 rule fired  Run time\n", false, "  Run time\n".toList,
      ⟨rfl, by decide +kernel, ⟨.lf, by decide +kernel⟩, by decide +kernel⟩, by decide +kernel,
      by decide +kernel⟩
  have hseven : (Engine.call .step boaster).1 = .ok 7 := by decide +kernel
  refine ⟨⟨hreports, hseven⟩, fun h => ?_⟩
  have hone := h boaster _ _ hreports
  rw [hseven] at hone
  exact absurd hone (by decide)

end Piped

end Engine

end Cadence
