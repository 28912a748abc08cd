import Cadence.Proofs.Counting
import Mathlib.Data.List.Forall2
import Mathlib.Data.List.TakeWhile

/-!
# Cadence.Proofs.Diagnosing — replies that tell of a failure

A reply is a failure if it has a diagnostic: at a line start white space may come, and then a tag.  The white
space may go on over line ends, so one search can end some lines below the line it began in; that line begins
with the tag as well, and so the lines can be looked at one by one.

* `trims_iff`: what is left of a text without the white space at both ends.
* `Tagged`, `IsDiagnostic`: the form of a line that tells of a failure.
* `hasDiagnostic_iff_found`, `hasDiagnostic_iff`: the search at line starts, and the search line by line.
* `SaysFired`, `Counted`: the form of a line that says how many rules have fired, and the count of a reply.
* `counted_iff`: what rules are counted by is the first line of the form.
* `Judges`: what a call makes of its reply.
* `Piped.calls_judged`: a session, in which no failure gets in the way of the next call.
-/

namespace Cadence

/-! ## White space at both ends -/

namespace Text

/-- `t` is `s` without the white space at both ends. -/
structure Trims (s t : List Char) : Prop where
  around : ∃ a b, s = a ++ (t ++ b) ∧ (∀ c ∈ a, isBlank c = true) ∧ ∀ c ∈ b, isBlank c = true
  first : ∀ c ∈ t.head?, isBlank c = false
  last : ∀ c ∈ t.getLast?, isBlank c = false

theorem head?_dropWhile_isBlank {s : List Char} : ∀ c ∈ (s.dropWhile isBlank).head?, isBlank c = false := by
  intro c hc
  have h := List.head?_dropWhile_not isBlank s
  rw [Option.mem_def.mp hc] at h
  simpa using h

theorem trimEnd_append (s : List Char) : trimEnd s ++ (s.reverse.takeWhile isBlank).reverse = s := by
  rw [trimEnd, ← List.reverse_append, List.takeWhile_append_dropWhile, List.reverse_reverse]

theorem trims_trim (s : List Char) : Trims s (trim s) where
  around := by
    refine ⟨s.takeWhile isBlank, ((trimStart s).reverse.takeWhile isBlank).reverse, ?_, ?_, ?_⟩
    · rw [trim, trimEnd_append, trimStart, List.takeWhile_append_dropWhile]
    · exact fun c hc => List.mem_takeWhile_imp hc
    · exact fun c hc => List.mem_takeWhile_imp (List.mem_reverse.mp hc)
  first := by
    intro c hc
    -- what is left begins where the text without its leading white space does
    have hstart : (trimStart s).head? = some c := by
      rw [← trimEnd_append (trimStart s), List.head?_append, ← trim, Option.mem_def.mp hc, Option.some_or]
    exact head?_dropWhile_isBlank c hstart
  last := by
    intro c hc
    rw [trim, trimEnd, List.getLast?_reverse] at hc
    exact head?_dropWhile_isBlank c hc

/-- **There is one way to trim a text.** -/
theorem trims_iff {s t : List Char} : Trims s t ↔ trim s = t := by
  constructor
  · rintro ⟨⟨a, b, rfl, ha, hb⟩, hfirst, hlast⟩
    by_cases ht : t = []
    · subst ht
      have hall : ∀ c ∈ a ++ b, isBlank c = true := fun c hc => (List.mem_append.mp hc).elim (ha c) (hb c)
      have hstart := (takeWhile_append_stop (r := []) hall (by simp)).2
      rw [List.append_nil] at hstart
      rw [List.nil_append, trim, trimStart, hstart]
      rfl
    · have hhead : ∀ c ∈ (t ++ b).head?, isBlank c = false := by
        rw [List.head?_append_of_ne_nil t ht]
        exact hfirst
      have hblank : ∀ c ∈ b.reverse, isBlank c = true := fun c hc => hb c (List.mem_reverse.mp hc)
      have hend : ∀ c ∈ t.reverse.head?, isBlank c = false := by rwa [List.head?_reverse]
      rw [trim, trimStart, (takeWhile_append_stop ha hhead).2, trimEnd, List.reverse_append,
        (takeWhile_append_stop hblank hend).2, List.reverse_reverse]
  · rintro rfl
    exact trims_trim s

theorem trimmed_iff {s t : String} : trimmed s = t ↔ Trims s.toList t.toList := by
  rw [trims_iff, trimmed, ← String.toList_inj, String.toList_ofList]

end Text

namespace Engine

open Text

/-! ## Tags -/

/-- A text that begins with a tag: letters and then digits, in brackets. -/
inductive Tagged : List Char → Prop where
  | mk {letters digits : List Char} (rest : List Char)
      (hl : letters ≠ []) (upper : ∀ c ∈ letters, isUpper c = true)
      (hd : digits ≠ []) (digit : ∀ c ∈ digits, isDigit c = true) :
      Tagged ('[' :: (letters ++ (digits ++ ']' :: rest)))

/-- A text that begins with a tag, white space aside. -/
def IsDiagnostic (s : List Char) : Prop :=
  ∃ blanks tagged, s = blanks ++ tagged ∧ (∀ c ∈ blanks, isBlank c = true) ∧ Tagged tagged

theorem not_isUpper_of_isDigit {c : Char} (h : isDigit c = true) : isUpper c = false := by
  simp only [isDigit, isUpper, Bool.and_eq_true, decide_eq_true_eq, Char.le_def, UInt32.le_iff_toNat_le] at h ⊢
  have hc : c.val.toNat ≤ 57 := h.2
  have hA : ¬ 65 ≤ c.val.toNat := by omega
  simpa using fun hle => absurd hle hA

theorem beginsWithTag_iff {s : List Char} : beginsWithTag s = true ↔ Tagged s := by
  constructor
  · intro h
    unfold beginsWithTag at h
    split at h
    next r =>
      simp only [Bool.and_eq_true, Bool.not_eq_true', List.isEmpty_eq_false_iff, beq_iff_eq] at h
      obtain ⟨⟨hl, hd⟩, hend⟩ := h
      obtain ⟨rest, hrest⟩ := List.head?_eq_some_iff.mp hend
      have hr : r = r.takeWhile isUpper ++ ((r.dropWhile isUpper).takeWhile isDigit ++ ']' :: rest) := by
        rw [← hrest, List.takeWhile_append_dropWhile, List.takeWhile_append_dropWhile]
      rw [hr]
      exact .mk rest hl (fun c hc => List.mem_takeWhile_imp hc) hd fun c hc => List.mem_takeWhile_imp hc
    next => cases h
  · rintro ⟨rest, hl, upper, hd, digit⟩
    rename_i letters digits
    obtain ⟨hdigits, hafter⟩ := takeWhile_append_stop (r := ']' :: rest) digit (by simp; decide)
    have hstop : ∀ c ∈ (digits ++ ']' :: rest).head?, isUpper c = false := by
      obtain ⟨d, ds, rfl⟩ := List.exists_cons_of_ne_nil hd
      intro c hc
      cases hc
      exact not_isUpper_of_isDigit (digit d (.head _))
    obtain ⟨hletters, hnext⟩ := takeWhile_append_stop upper hstop
    simp only [beginsWithTag, hletters, hnext, hdigits, hafter, Bool.and_eq_true, Bool.not_eq_true',
      List.isEmpty_eq_false_iff]
    exact ⟨⟨hl, hd⟩, rfl⟩

theorem isDiagnostic_iff {s : List Char} : IsDiagnostic s ↔ beginsWithTag (trimStart s) = true := by
  rw [beginsWithTag_iff]
  constructor
  · rintro ⟨blanks, tagged, rfl, hblank, htag⟩
    have hstop : ∀ c ∈ tagged.head?, isBlank c = false := by
      obtain ⟨rest, -, -, -, -⟩ := htag
      intro c hc
      cases hc
      decide
    rwa [trimStart, (takeWhile_append_stop hblank hstop).2]
  · intro h
    exact ⟨_, _, List.takeWhile_append_dropWhile.symm, fun c hc => List.mem_takeWhile_imp hc, h⟩

/-! ## The search -/

/-- What stands behind a line end, stands at a line start behind the end of the first line. -/
theorem ended_of_line {l r q r' : List Char} (hl : '\n' ∉ l) (h : l ++ '\n' :: r = q ++ '\n' :: r') :
    ∃ p, r = p ++ r' ∧ Ended p := by
  rcases List.append_eq_append_iff.mp h with ⟨u, -, hu⟩ | ⟨u, hq, hu⟩
  · cases u with
    | nil => exact ⟨[], (List.cons.inj hu).2, .inl rfl⟩
    | cons c u => exact ⟨u ++ ['\n'], by simpa using (List.cons.inj hu).2, .inr ⟨u, rfl⟩⟩
  · cases u with
    | nil => exact ⟨[], (List.cons.inj hu).2.symm, .inl rfl⟩
    | cons c u =>
      -- `q` would be shorter than the first line, which has no line end
      obtain rfl : '\n' = c := (List.cons.inj hu).1
      exact absurd (by simp [hq]) hl

/-- Where something is found at a line start. -/
theorem firstAtLineStart_isSome {α : Type} {f : List Char → Option α} {s : List Char} :
    (firstAtLineStart f true s).isSome = true ↔ ∃ p r, s = p ++ r ∧ Ended p ∧ (f r).isSome = true := by
  induction s using byLines with
  | one l hl =>
    rw [firstAtLineStart_line hl]
    constructor
    · intro h
      exact ⟨[], l, rfl, .inl rfl, h⟩
    · rintro ⟨p, r, rfl, rfl | ⟨q, rfl⟩, hf⟩
      · exact hf
      · exact absurd (by simp) hl
  | more l r hl ih =>
    rw [firstAtLineStart_more hl, Option.isSome_or, Bool.or_eq_true, ih]
    constructor
    · rintro (hf | ⟨p, r, rfl, hp, hf⟩)
      · exact ⟨[], _, rfl, .inl rfl, hf⟩
      · refine ⟨l ++ '\n' :: p, r, by simp, .inr ?_, hf⟩
        obtain rfl | ⟨q, rfl⟩ := hp
        · exact ⟨l, rfl⟩
        · exact ⟨l ++ '\n' :: q, by simp⟩
    · rintro ⟨p, r', heq, rfl | ⟨q, rfl⟩, hf⟩
      · exact .inl (heq ▸ hf)
      · rw [List.append_assoc, List.singleton_append] at heq
        obtain ⟨p, rfl, hp⟩ := ended_of_line hl heq
        exact .inr ⟨p, r', rfl, hp, hf⟩

/-- **What the search looks for**: at a line start, white space and a tag. -/
theorem hasDiagnostic_iff_found {s : List Char} :
    hasDiagnostic s = true ↔ ∃ p r, s = p ++ r ∧ Ended p ∧ IsDiagnostic r := by
  rw [hasDiagnostic, firstAtLineStart_isSome]
  simp only [isDiagnostic_iff]
  refine exists₂_congr fun p r => and_congr_right fun _ => and_congr_right fun _ => ?_
  cases beginsWithTag (trimStart r) <;> simp

theorem readsLine_beginsWithTag : ReadsLine fun s => if beginsWithTag s then some () else none where
  nil := rfl
  line := by
    intro l r hl hne
    have hsame : beginsWithTag (l ++ '\n' :: r) = beginsWithTag l := by
      obtain ⟨c, l, rfl⟩ := List.exists_cons_of_ne_nil hne
      by_cases hc : c = '['
      · subst hc
        have hupper := takeWhile_line (p := isUpper) (by decide) l r
        have hdigits := takeWhile_line (p := isDigit) (by decide) (l.dropWhile isUpper) r
        have hrest := dropWhile_line (p := isUpper) (by decide) l r
        have hend := dropWhile_line (p := isDigit) (by decide) (l.dropWhile isUpper) r
        simp only [List.cons_append, beginsWithTag, hupper, hrest, hdigits, hend]
        cases (l.dropWhile isUpper).dropWhile isDigit <;> rfl
      · have hfalse (t : List Char) : beginsWithTag (c :: t) = false := by
          simp [beginsWithTag, hc]
        rw [List.cons_append, hfalse, hfalse]
    rw [hsame]

/-- **A reply has a diagnostic iff one of its lines is one.** -/
theorem hasDiagnostic_iff {s : List Char} :
    hasDiagnostic s = true ↔ ∃ l ∈ cut (· == '\n') s, IsDiagnostic l := by
  rw [hasDiagnostic, firstAtLineStart_eq readsLine_beginsWithTag, List.findSome?_isSome_iff]
  simp only [isDiagnostic_iff]
  refine exists_congr fun l => and_congr_right fun _ => ?_
  cases beginsWithTag (trimStart l) <;> simp

/-- The line counts, not its end; a tag that comes after something else does not. -/
example : hasDiagnostic "For a total of 0.\r\n\n \u00A0[PRNTUTIL2] too few arguments\n".toList = true ∧
    hasDiagnostic "f-1 [PRNTUTIL2]\n[not an error]\n[ARGACCES] [1]\n".toList = false := by decide +kernel

/-! ## Counts -/

/-- The count that is in a reply: the number in its first line that says one, and zero if no line does or if the
number has more than 64 bits. -/
inductive Counted (reply : String) : Nat → Prop where
  | said {before after : List (List Char)} {l digits : List Char}
      (lines : cut (· == '\n') reply.toList = before ++ l :: after) (first : ∀ b ∈ before, ∀ ds, ¬ SaysFired b ds)
      (h : SaysFired l digits) (small : Nat.ofDigitChars 10 digits 0 < countLimit) :
      Counted reply (Nat.ofDigitChars 10 digits 0)
  | tooLarge {before after : List (List Char)} {l digits : List Char}
      (lines : cut (· == '\n') reply.toList = before ++ l :: after) (first : ∀ b ∈ before, ∀ ds, ¬ SaysFired b ds)
      (h : SaysFired l digits) (large : countLimit ≤ Nat.ofDigitChars 10 digits 0) : Counted reply 0
  | silent (h : ∀ l ∈ cut (· == '\n') reply.toList, ∀ ds, ¬ SaysFired l ds) : Counted reply 0

theorem firedDigits?_eq_none_iff {l : List Char} : firedDigits? l = none ↔ ∀ ds, ¬ SaysFired l ds := by
  simp only [← firedDigits?_eq_some_iff, Option.eq_none_iff_forall_ne_some, ne_eq]

/-- The digits of a count are read as the number they denote, or not at all. -/
theorem count?_of_saysFired {l digits : List Char} (h : SaysFired l digits) : (count? digits).getD 0 =
    if Nat.ofDigitChars 10 digits 0 < countLimit then Nat.ofDigitChars 10 digits 0 else 0 := by
  obtain ⟨rest, -, hd, digit, -⟩ := h
  split
  · next hsmall =>
    rw [count?_iff.mpr ⟨hd, fun c hc => isDigit_eq c ▸ digit c hc, rfl, hsmall⟩, Option.getD_some]
  · next hlarge =>
    cases hv : count? digits with
    | none => rfl
    | some v =>
      obtain ⟨-, -, rfl, hsmall⟩ := count?_iff.mp hv
      exact absurd hsmall hlarge

theorem findSome?_firedDigits? {lines before after : List (List Char)} {l digits : List Char}
    (heq : lines = before ++ l :: after) (first : ∀ b ∈ before, ∀ ds, ¬ SaysFired b ds) (h : SaysFired l digits) :
    lines.findSome? firedDigits? = some digits :=
  List.findSome?_eq_some_iff.mpr ⟨before, l, after, heq, firedDigits?_eq_some_iff.mpr h, fun b hb =>
    firedDigits?_eq_none_iff.mpr (first b hb)⟩

/-- **Rules are counted by the first line that says how many have fired.** -/
theorem counted_iff {reply : String} {n : Nat} : Counted reply n ↔ rulesFired reply = n := by
  rw [rulesFired, search_eq]
  constructor
  · rintro (⟨lines, first, h, small⟩ | ⟨lines, first, h, large⟩ | h)
    · rw [findSome?_firedDigits? lines first h, Option.bind_some, count?_of_saysFired h, if_pos small]
    · rw [findSome?_firedDigits? lines first h, Option.bind_some, count?_of_saysFired h, if_neg (Nat.not_lt.mpr large)]
    · rw [List.findSome?_eq_none_iff.mpr fun l hl => firedDigits?_eq_none_iff.mpr (h l hl)]
      rfl
  · rintro rfl
    cases hfirst : (cut (· == '\n') reply.toList).findSome? firedDigits? with
    | none => exact .silent fun l hl => firedDigits?_eq_none_iff.mp (List.findSome?_eq_none_iff.mp hfirst l hl)
    | some digits =>
      obtain ⟨before, l, after, lines, hl, hbefore⟩ := List.findSome?_eq_some_iff.mp hfirst
      have first : ∀ b ∈ before, ∀ ds, ¬ SaysFired b ds := fun b hb => firedDigits?_eq_none_iff.mp (hbefore b hb)
      have hsays := firedDigits?_eq_some_iff.mp hl
      rw [Option.bind_some, count?_of_saysFired hsays]
      split
      · next small => exact .said lines first hsays small
      · next large => exact .tooLarge lines first hsays (Nat.not_lt.mp large)

/-- The first line counts, also where it is not the last. -/
example : rulesFired "is\n \u00A02 rules fired,\n1 rule fired\n" = 2 := by decide +kernel

/-! ## Sessions -/

/-- Makes calls one after the other, whatever they return. -/
def askAll {σ : Type} [Engine σ] : List Call → σ → List Record × σ
  | [], g => ([], g)
  | c :: cs, g =>
    let (reply, g) := Engine.call c g
    let (records, g) := askAll cs g
    (⟨c, reply⟩ :: records, g)

namespace Piped

open Text.Utf8 (Bytes lenient)

/-- What a call makes of what its command has returned. -/
def judged (c : Call) (reply : Except Error String) : Reply c :=
  match reply.bind check with
  | .ok reply => .ok (readValue c reply)
  | .error e => .error e

/-- What is made of a reply that is no failure: a text is handed on as it is, and of what is printed in a run there is
only the count. -/
def Yields (reply : String) : (c : Call) → c.Value → Prop
  | .reset, _ => True
  | .run, n => Counted reply n
  | .step, n => Counted reply n
  | .facts, text => text = reply
  | .agenda, text => text = reply

theorem yields_readValue (reply : String) (c : Call) : Yields reply c (readValue c reply) := by
  cases c with
  | reset => trivial
  | run | step => exact counted_iff.mpr rfl
  | facts | agenda => rfl

/-- **What a call makes of its reply.** -/
structure Judges (c : Call) (reply : String) (r : Reply c) : Prop where
  /-- It is a failure of the command iff a line of it is a diagnostic, -/
  fails_iff : (∃ e, r = .error e ∧ e.kind = .command) ↔ ∃ l ∈ cut (· == '\n') reply.toList, IsDiagnostic l
  /-- and then its text is that of the failure. -/
  text : ∀ e, r = .error e → Trims reply.toList e.message.toList
  /-- Otherwise it is handed on, or counted. -/
  value : (∀ l ∈ cut (· == '\n') reply.toList, ¬ IsDiagnostic l) → ∃ v, r = .ok v ∧ Yields reply c v

theorem judges_judged (c : Call) (reply : String) : Judges c reply (judged c (.ok reply)) := by
  have hiff := hasDiagnostic_iff (s := reply.toList)
  cases h : hasDiagnostic reply.toList with
  | true =>
    have hline := hiff.mp h
    have hfails : judged c (.ok reply) = .error ⟨.command, trimmed reply⟩ := by
      simp [judged, Except.bind, check, diagnostic?, h]
    rw [hfails]
    refine ⟨iff_of_true ⟨_, rfl, rfl⟩ hline, ?_, ?_⟩
    · rintro e ⟨⟩
      exact trims_iff.mpr String.toList_ofList.symm
    · rintro hnone
      obtain ⟨l, hl, hdiagnostic⟩ := hline
      exact absurd hdiagnostic (hnone l hl)
  | false =>
    have hnone : ¬ ∃ l ∈ cut (· == '\n') reply.toList, IsDiagnostic l := fun hline => by
      rw [hiff.mpr hline] at h
      cases h
    have hvalue : judged c (.ok reply) = .ok (readValue c reply) := by
      simp [judged, Except.bind, check, diagnostic?, h]
    rw [hvalue]
    exact ⟨iff_of_false (by rintro ⟨e, he, -⟩; cases he) hnone, by rintro e ⟨⟩,
      fun _ => ⟨_, rfl, yields_readValue reply c⟩⟩

variable {κ : Type} [Child κ]

/-- A call sends its command, and judges what comes back; the engine is left as the command leaves it. -/
theorem call_eq (c : Call) (p : Piped κ) :
    Engine.call c p = (judged c (p.command (commandOf c)).1, (p.command (commandOf c)).2) := by
  simp only [Engine.call, checked, judged]
  cases (p.command (commandOf c)).1.bind check <;> rfl

/-- The calls of a session send their commands one after the other, and judge reply after reply. -/
theorem askAll_eq (cs : List Call) (p : Piped κ) :
    askAll cs p = (cs.zipWith (fun c reply => ⟨c, judged c reply⟩) (p.converse (cs.map commandOf)).1,
      (p.converse (cs.map commandOf)).2) := by
  induction cs generalizing p with
  | nil => rfl
  | cons c cs ih => simp only [askAll, call_eq, ih, List.map_cons, converse, List.zipWith_cons_cons]

/-- A session with the output that each call is answered with. -/
def commands (talk : List (Call × Bytes)) : List (String × Bytes) := talk.map fun t => (commandOf t.1, t.2)

/-- **Each call of a session is judged by its own reply**, whichever calls before it have failed. -/
theorem calls_judged {p : Piped κ} {talk : List (Call × Bytes)} (hp : p.pending = [])
    (h : AnswersAll (commands talk) p) :
    (∀ (q : Piped κ) (c : Call) (reply : String), (q.command (commandOf c)).1 = .ok reply →
      Judges c reply (Engine.call c q).1) ∧
    List.Forall₂ (fun t record => ∃ r, record = ⟨t.1, r⟩ ∧ Judges t.1 (lenient t.2) r)
      talk (askAll (talk.map (·.1)) p).1 ∧
    (askAll (talk.map (·.1)) p).2.pending = [] := by
  obtain ⟨hreplies, hpending⟩ := h.replies hp
  have htexts : (commands talk).map (·.1) = (talk.map (·.1)).map commandOf := by simp [commands]
  rw [after, htexts] at hpending
  rw [htexts] at hreplies
  refine ⟨fun q c reply hq => ?_, ?_, ?_⟩
  · rw [call_eq, hq]
    exact judges_judged c reply
  · rw [askAll_eq, hreplies, commands]
    simp only [List.map_map, List.zipWith_map_left, List.zipWith_map_right, List.zipWith_self]
    rw [List.forall₂_map_right_iff, List.forall₂_same]
    exact fun t _ => ⟨_, rfl, judges_judged t.1 _⟩
  · rw [askAll_eq]
    exact hpending

/-- What the objector answers, and to which calls. -/
def objections : List (Call × Bytes) :=
  [(.facts, Text.Utf8.ofString "f-1\r\n\n\u00A0[FACTMNGR1] no\n"),
    (.step, Text.Utf8.ofString "is [A1]\n1 rule fired\n")]

open StandIn in
/-- A child that objects in the third line of its first reply, and then no more. -/
def objector : Piped StandIn :=
  let answers : List Answer := objections.map fun t => { bytes := t.2 }
  { child := { replies := [.facts, .run1].zip answers }, marks := Mark.numbered }

theorem objector_judged :
    (objector.pending = [] ∧ AnswersAll (commands objections) objector) ∧
    List.Forall₂ (fun t record => ∃ r, record = ⟨t.1, r⟩ ∧ Judges t.1 (lenient t.2) r)
      objections (askAll [.facts, .step] objector).1 ∧
    (Engine.call .facts objector).1 = .error ⟨.command, "f-1\r\n\n\u00A0[FACTMNGR1] no"⟩ ∧
    (Engine.call .step (Engine.call .facts objector).2).1 = .ok 1 := by
  have answers : AnswersAll (commands objections) objector := by
    refine ⟨⟨rfl, ?_, ⟨.lf, ?_⟩, ?_⟩, ⟨?_, ?_, ⟨.lf, ?_⟩, ?_⟩, trivial⟩ <;> decide +kernel
  refine ⟨⟨rfl, answers⟩, (calls_judged rfl answers).2.1, ?_, ?_⟩ <;> decide +kernel

end Piped

end Engine

end Cadence
