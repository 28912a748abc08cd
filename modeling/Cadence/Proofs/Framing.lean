import Cadence.Engine.StandIn
import Mathlib.Data.List.Infix

/-!
# Cadence.Proofs.Framing — a reply ends at its own mark

A child answers a command with any bytes, then the prompt, the mark of the command on a line of its own, and the
prompt.  The pieces in which this arrives are cut anywhere.

* `mark_at`: the mark stands in a framed reply once, whatever comes before it.
* `split?_framed`, `split?_early`: a framed reply is complete, and none of its beginnings is.
* `gather_framed`, `gather_early`: the same for the pieces, one by one.
* `converse_orderly`: in a talk of any length each command has its own reply, whole and alone.
-/

namespace Cadence.Engine

open Text.Utf8 (Bytes lenient encode ofString)

/-! ### Marks -/

/-- What ends a line. -/
inductive LineEnd where
  | lf
  | crlf
deriving DecidableEq, Repr

def LineEnd.bytes : LineEnd → Bytes
  | .lf => [0x0A]
  | .crlf => [0x0D, 0x0A]

/-- What is printed for a command: the output, the prompt, the mark on a line of its own, the prompt. -/
def framed (out : Bytes) (m : Mark) (e : LineEnd) : Bytes :=
  out ++ prompt ++ (m.bytes ++ (e.bytes ++ prompt))

variable {m : Mark} {e : LineEnd} {out arrived : Bytes}

theorem prompt_eq : prompt = [67, 76, 73, 80, 83, 62, 32] := by decide

theorem Mark.bytes_eq (m : Mark) :
    m.bytes = [60, 60, 101, 110, 100, 32] ++ encode m.digits ++ [62, 62] := by
  have hopen : encode "<<end ".toList = [60, 60, 101, 110, 100, 32] := by decide
  have hclose : encode ">>".toList = [62, 62] := by decide
  simp only [Mark.bytes, Mark.text, ofString, String.toList_append, String.toList_ofList]
  rw [← hopen, ← hclose]
  simp only [encode, List.flatMap_append]

/-- The bytes of a digit are neither the one a mark begins with nor the one a prompt begins with. -/
theorem byte_of_isHexDigit {c : Char} {b : UInt8} (hc : isHexDigit c = true)
    (hb : b ∈ String.utf8EncodeChar c) : b ≠ 60 ∧ b ≠ 67 := by
  have hall : ∀ n < 103, isHexDigit (Char.ofNat n) = true →
      ∀ x ∈ String.utf8EncodeChar (Char.ofNat n), x ≠ 60 ∧ x ≠ 67 := by
    decide +kernel
  have hle : c ≤ 'f' := by
    simp only [isHexDigit, Bool.or_eq_true, Bool.and_eq_true, decide_eq_true_eq] at hc
    rcases hc with ⟨-, h⟩ | ⟨-, h⟩
    · exact Char.le_trans h (by decide)
    · exact h
  have hlt : c.toNat < 103 := by
    have h : c.toNat ≤ 'f'.toNat := hle
    exact Nat.lt_succ_of_le h
  rw [← Char.ofNat_toNat c] at hc hb
  exact hall c.toNat hlt hc b hb

theorem Mark.digit_bytes (m : Mark) : (60 : UInt8) ∉ encode m.digits ∧ (67 : UInt8) ∉ encode m.digits := by
  have hdigit : ∀ b ∈ encode m.digits, b ≠ 60 ∧ b ≠ 67 := by
    intro b hb
    obtain ⟨c, hc, hb⟩ := List.mem_flatMap.mp hb
    exact byte_of_isHexDigit (List.all_eq_true.mp m.isHex c hc) hb
  exact ⟨fun h => (hdigit _ h).1 rfl, fun h => (hdigit _ h).2 rfl⟩

theorem Mark.not_mem_bytes (m : Mark) : (67 : UInt8) ∉ m.bytes := by
  rw [m.bytes_eq]
  simp [m.digit_bytes.2]

theorem Mark.count_bytes (m : Mark) : m.bytes.count 60 = 2 := by
  have hdigits : (encode m.digits).count 60 = 0 := List.count_eq_zero.mpr m.digit_bytes.1
  rw [m.bytes_eq, List.count_append, List.count_append, hdigits]
  decide

theorem Mark.bytes_cons (m : Mark) : ∃ r, m.bytes = 60 :: r := ⟨_, m.bytes_eq⟩

/-- A mark does not begin again inside itself, nor in what follows it. -/
theorem Mark.not_infix_tail (m : Mark) (e : LineEnd) {r : Bytes} (hr : m.bytes = 60 :: r) :
    ¬ m.bytes <:+: r ++ (e.bytes ++ prompt) := by
  intro h
  have htwo : 2 ≤ (r ++ (e.bytes ++ prompt)).count 60 := by
    rw [← m.count_bytes]
    exact h.sublist.count_le 60
  have hone : r.count 60 = 1 := by
    have hm := m.count_bytes
    rw [hr, List.count_cons_self] at hm
    omega
  have hzero : (e.bytes ++ prompt).count 60 = 0 := by
    cases e <;> decide
  rw [List.count_append] at htwo
  omega

/-- Neither does it begin in the output or in the prompt before it. -/
theorem Mark.not_early {before start after rest : Bytes} (ho : ¬ m.bytes <:+: out)
    (hb : out ++ prompt = before ++ start) (hc : m.bytes ++ after = start ++ rest) : start = [] := by
  by_contra hne
  rcases List.append_eq_append_iff.mp hb with ⟨d, -, hp⟩ | ⟨d, hd, hp⟩
  · -- in the prompt, which has no byte that a mark begins with
    obtain ⟨x, t, rfl⟩ := List.exists_cons_of_ne_nil hne
    obtain ⟨r, hr⟩ := m.bytes_cons
    rw [hr, List.cons_append, List.cons_append, List.cons.injEq] at hc
    have hx : (60 : UInt8) ∈ prompt := by
      rw [hp, hc.1]
      simp
    exact absurd hx (by decide)
  · rw [hp, List.append_assoc] at hc
    rcases List.append_eq_append_iff.mp hc with ⟨x, hx, -⟩ | ⟨x, hx, hrest⟩
    · -- in the output, and in it to its end
      exact ho ⟨before, x, by rw [hd, hx, List.append_assoc]⟩
    · cases x with
      | nil => exact ho ⟨before, [], by rw [hd, hx]; simp⟩
      | cons y x =>
        -- into the prompt, whose first byte is in no mark
        have hy : (67 : UInt8) = y := by
          simp only [prompt_eq, List.cons_append, List.cons.injEq] at hrest
          exact hrest.1
        have hmem : (67 : UInt8) ∈ m.bytes := by
          rw [hx, ← hy]
          simp
        exact absurd hmem m.not_mem_bytes

theorem mark_at {before after : Bytes} (ho : ¬ m.bytes <:+: out)
    (h : framed out m e = before ++ (m.bytes ++ after)) : before = out ++ prompt := by
  rcases List.append_eq_append_iff.mp h with ⟨c, hb, hc⟩ | ⟨c, hb, hc⟩
  · cases c with
    | nil => simpa using hb
    | cons x c =>
      obtain ⟨r, hr⟩ := m.bytes_cons
      rw [hr, List.cons_append, List.cons_append, List.cons.injEq, ← hr] at hc
      exact absurd ⟨c, after, by rw [List.append_assoc, hc.2]⟩ (m.not_infix_tail e hr)
  · have hnil : c = [] := m.not_early ho hb hc
    rw [hb, hnil, List.append_nil]

/-! ### Replies -/

theorem splitLast?_sound {mark s before after : Bytes} (h : splitLast? mark s = some (before, after)) :
    s = before ++ (mark ++ after) := by
  induction s generalizing before with
  | nil => cases h
  | cons b r ih =>
    rw [splitLast?] at h
    split at h
    next before' after' hrest =>
      obtain ⟨rfl, rfl⟩ := Prod.mk.inj (Option.some.inj h)
      rw [ih hrest, List.cons_append]
    next =>
      split at h
      next hpre =>
        obtain ⟨rfl, rfl⟩ := Prod.mk.inj (Option.some.inj h)
        obtain ⟨t, ht⟩ := List.isPrefixOf_iff_prefix.mp hpre
        rw [← ht, List.drop_left, List.nil_append]
      next => cases h

theorem splitLast?_of_mem {mark : Bytes} (hm : mark ≠ []) (before after : Bytes) :
    ∃ b a, splitLast? mark (before ++ (mark ++ after)) = some (b, a) := by
  induction before with
  | nil =>
    obtain ⟨x, r, rfl⟩ := List.exists_cons_of_ne_nil hm
    have hpre : (x :: r).isPrefixOf (x :: (r ++ after)) = true :=
      List.isPrefixOf_iff_prefix.mpr ⟨after, rfl⟩
    rw [List.nil_append, List.cons_append, splitLast?]
    cases splitLast? (x :: r) (r ++ after) with
    | some found => exact ⟨_, _, rfl⟩
    | none => simp only [hpre, if_true]; exact ⟨_, _, rfl⟩
  | cons b before ih =>
    obtain ⟨b', a', h⟩ := ih
    rw [List.cons_append, splitLast?, h]
    exact ⟨_, _, rfl⟩

theorem dropSuffix?_append (s suffix : Bytes) : dropSuffix? suffix (s ++ suffix) = some s := by
  have h : suffix.isSuffixOf (s ++ suffix) = true :=
    List.isSuffixOf_iff_suffix.mpr (List.suffix_append s suffix)
  rw [dropSuffix?, if_pos h, List.length_append, Nat.add_sub_cancel, List.take_left]

theorem dropSuffix?_sound {suffix s r : Bytes} (h : dropSuffix? suffix s = some r) :
    s = r ++ suffix := by
  rw [dropSuffix?] at h
  split at h
  next hsuf =>
    obtain ⟨t, rfl⟩ := List.isSuffixOf_iff_suffix.mp hsuf
    rw [List.length_append, Nat.add_sub_cancel, List.take_left] at h
    rw [Option.some.inj h]
  next => cases h

theorem split?_framed (ho : ¬ m.bytes <:+: out) : split? (framed out m e) m.bytes = some (lenient out) := by
  have hm : m.bytes ≠ [] := by
    obtain ⟨r, hr⟩ := m.bytes_cons
    simp [hr]
  have hend : prompt.isSuffixOf (framed out m e) = true := by
    refine List.isSuffixOf_iff_suffix.mpr ⟨out ++ prompt ++ (m.bytes ++ e.bytes), ?_⟩
    simp only [framed, List.append_assoc]
  have hblank : e.bytes.all Text.isAsciiBlank = true := by
    cases e <;> rfl
  obtain ⟨b, a, hsplit⟩ := splitLast?_of_mem hm (out ++ prompt) (e.bytes ++ prompt)
  have hwhole : framed out m e = b ++ (m.bytes ++ a) := splitLast?_sound hsplit
  obtain rfl : b = out ++ prompt := mark_at ho hwhole
  obtain rfl : e.bytes ++ prompt = a := by
    exact List.append_cancel_left (List.append_cancel_left hwhole)
  have hsplit : splitLast? m.bytes (framed out m e) = some (out ++ prompt, e.bytes ++ prompt) := hsplit
  rw [split?, if_pos hend]
  simp only [hsplit, dropSuffix?_append, hblank, if_true, Option.getD_some]

/-- A reply that looks complete is a mark, white space and the prompt at its end. -/
theorem split?_shape {mark : Bytes} {reply : String} (h : split? arrived mark = some reply) :
    ∃ head tail, arrived = head ++ (mark ++ (tail ++ prompt)) ∧ tail.all Text.isAsciiBlank = true := by
  rw [split?] at h
  split at h
  next =>
    split at h
    next => cases h
    next head after hsplit =>
      split at h
      next => cases h
      next tail htail =>
        split at h
        next hblank =>
          rw [splitLast?_sound hsplit, dropSuffix?_sound htail]
          exact ⟨head, tail, rfl, hblank⟩
        next => cases h
  next => cases h

/-- White space and a prompt at the beginning of a line end and a prompt are all of it. -/
theorem blank_of_beginning {tail : Bytes} (hblank : tail.all Text.isAsciiBlank = true)
    (h : tail ++ prompt <+: e.bytes ++ prompt) : tail = e.bytes := by
  obtain ⟨t, ht⟩ := h
  rw [List.append_assoc] at ht
  rcases List.append_eq_append_iff.mp ht with ⟨c, he, hc⟩ | ⟨c, ht', hc⟩
  · cases c with
    | nil => simpa using he.symm
    | cons x c =>
      -- a prompt cannot begin inside a line end
      have hx : x = 67 := by
        simp only [prompt_eq, List.cons_append, List.cons.injEq] at hc
        exact hc.1.symm
      have hmem : (67 : UInt8) ∈ e.bytes := by
        rw [he, hx]
        simp
      cases e <;> exact absurd hmem (by decide)
  · cases c with
    | nil => simpa using ht'
    | cons x c =>
      -- the tail cannot reach into the prompt
      have hx : x = 67 := by
        simp only [prompt_eq, List.cons_append, List.cons.injEq] at hc
        exact hc.1.symm
      have hmem : (67 : UInt8) ∈ tail := by
        rw [ht', hx]
        simp
      exact absurd (List.all_eq_true.mp hblank 67 hmem) (by decide)

theorem split?_early (ho : ¬ m.bytes <:+: out) (h : arrived <+: framed out m e)
    (hne : arrived ≠ framed out m e) : split? arrived m.bytes = none := by
  cases hs : split? arrived m.bytes with
  | none => rfl
  | some reply =>
    obtain ⟨head, tail, rfl, hblank⟩ := split?_shape hs
    obtain ⟨t, ht⟩ := h
    have hcut : framed out m e = head ++ (m.bytes ++ (tail ++ prompt ++ t)) := by
      rw [← ht]
      simp only [List.append_assoc]
    obtain rfl : head = out ++ prompt := mark_at ho hcut
    have hrest : e.bytes ++ prompt = tail ++ prompt ++ t :=
      List.append_cancel_left (List.append_cancel_left hcut)
    have htail : tail = e.bytes := blank_of_beginning hblank ⟨t, hrest.symm⟩
    refine absurd ?_ hne
    rw [htail, framed]

/-! ### Pieces -/

namespace Piped

theorem gather_early {pieces : List Bytes} (ho : ¬ m.bytes <:+: out)
    (h : arrived ++ pieces.flatten <+: framed out m e)
    (hne : arrived ++ pieces.flatten ≠ framed out m e) :
    gather m.bytes arrived pieces = (.error outputClosed, []) := by
  induction pieces generalizing arrived with
  | nil => rfl
  | cons piece rest ih =>
    rw [List.flatten_cons, ← List.append_assoc] at h hne
    have hpre : arrived ++ piece <+: framed out m e := (List.prefix_append _ _).trans h
    have hproper : arrived ++ piece ≠ framed out m e := by
      intro heq
      rw [heq] at h hne
      obtain ⟨t, ht⟩ := h
      rw [List.append_assoc, List.append_right_eq_self] at ht
      have hnil : rest.flatten = [] := (List.append_eq_nil_iff.mp ht).1
      exact hne (by rw [hnil, List.append_nil])
    rw [gather, split?_early ho hpre hproper]
    exact ih h hne

/-- The last piece of a framed reply completes it; what comes after it is left. -/
theorem gather_framed {pieces later : List Bytes} (ho : ¬ m.bytes <:+: out)
    (hcut : ∀ piece ∈ pieces, piece ≠ []) (hsome : pieces ≠ [])
    (h : arrived ++ pieces.flatten = framed out m e) :
    gather m.bytes arrived (pieces ++ later) = (.ok (lenient out), later) := by
  induction pieces generalizing arrived with
  | nil => exact absurd rfl hsome
  | cons piece rest ih =>
    rw [List.flatten_cons, ← List.append_assoc] at h
    rw [List.cons_append, gather]
    by_cases hlast : rest = []
    · rw [hlast, List.flatten_nil, List.append_nil] at h
      rw [h, split?_framed ho, hlast]
      rfl
    · have hpiece : rest.flatten ≠ [] := by
        obtain ⟨x, r, rfl⟩ := List.exists_cons_of_ne_nil hlast
        have hx : x ≠ [] := hcut x (by simp)
        simp [hx]
      have hproper : arrived ++ piece ≠ framed out m e := by
        intro heq
        rw [heq, List.append_right_eq_self] at h
        exact hpiece h
      rw [split?_early ho ⟨rest.flatten, h⟩ hproper]
      exact ih (fun x hx => hcut x (List.mem_cons_of_mem _ hx)) hlast h

/-! ### Talks -/

variable {κ : Type} [Child κ]

/-- The mark of the next command. -/
def mark (p : Piped κ) : Mark := p.marks p.used

/-- The pieces in which the child answers a command. -/
def heard (p : Piped κ) (text : String) : List Bytes :=
  (Child.write (text ++ "\n" ++ p.mark.command ++ "\n") p.child).1

/-- Sends commands one after the other. -/
def converse : List String → Piped κ → List (Except Error String) × Piped κ
  | [], p => ([], p)
  | text :: texts, p =>
    let (reply, p) := p.command text
    let (replies, p) := converse texts p
    (reply :: replies, p)

/-- The child answers a command with `out` and the frame, cut into pieces. -/
structure Answers (p : Piped κ) (text : String) (out : Bytes) : Prop where
  listens : Child.isDeaf p.child = false
  unmarked : ¬ p.mark.bytes <:+: out
  framed : ∃ e, (p.heard text).flatten = framed out p.mark e
  cut : ∀ piece ∈ p.heard text, piece ≠ []

/-- The output of the child ends inside its answer. -/
structure BreaksOff (p : Piped κ) (text : String) (out : Bytes) : Prop where
  unmarked : ¬ p.mark.bytes <:+: out
  early : ∃ e, (p.heard text).flatten <+: Engine.framed out p.mark e ∧
    (p.heard text).flatten ≠ Engine.framed out p.mark e

/-- The child answers each command of a talk in turn. -/
def AnswersAll : List (String × Bytes) → Piped κ → Prop
  | [], _ => True
  | (text, out) :: talk, p => p.Answers text out ∧ AnswersAll talk (p.command text).2

/-- The engine after a talk. -/
def after (p : Piped κ) (talk : List (String × Bytes)) : Piped κ := (p.converse (talk.map (·.1))).2

variable {p : Piped κ} {text : String} {talk : List (String × Bytes)}

theorem command_of_listens (p : Piped κ) (text : String) (h : Child.isDeaf p.child = false) :
    (p.command text).1 = (gather p.mark.bytes [] (p.pending ++ p.heard text)).1 ∧
      (p.command text).2.pending = (gather p.mark.bytes [] (p.pending ++ p.heard text)).2 := by
  simp only [command, h, heard, mark]
  exact ⟨rfl, rfl⟩

/-- One command: its reply is the output, and nothing is left. -/
theorem Answers.command (ha : p.Answers text out) (hp : p.pending = []) :
    (p.command text).1 = .ok (lenient out) ∧ (p.command text).2.pending = [] := by
  obtain ⟨e, hframed⟩ := ha.framed
  have hsome : p.heard text ≠ [] := by
    intro hnil
    rw [hnil, List.flatten_nil, Engine.framed, prompt_eq] at hframed
    simp at hframed
  have hg : gather p.mark.bytes [] (p.heard text ++ []) = (.ok (lenient out), []) :=
    gather_framed ha.unmarked ha.cut hsome hframed
  rw [List.append_nil] at hg
  obtain ⟨h1, h2⟩ := p.command_of_listens text ha.listens
  rw [hp, List.nil_append, hg] at h1 h2
  exact ⟨h1, h2⟩

theorem Answers.waits (ha : p.Answers text out) {early : List Bytes}
    (h : early.flatten <+: (p.heard text).flatten) (hne : early.flatten ≠ (p.heard text).flatten) :
    gather p.mark.bytes [] early = (.error outputClosed, []) := by
  obtain ⟨e, hframed⟩ := ha.framed
  rw [hframed] at h hne
  exact gather_early ha.unmarked h hne

theorem BreaksOff.command (hb : p.BreaksOff text out) (hp : p.pending = []) :
    ∃ error, (p.command text).1 = .error error ∧ error.kind = .io := by
  cases hd : Child.isDeaf p.child with
  | true =>
    refine ⟨inputClosed, ?_, rfl⟩
    simp [Piped.command, hd]
  | false =>
    obtain ⟨e, hpre, hne⟩ := hb.early
    have hg : gather p.mark.bytes [] (p.heard text) = (.error outputClosed, []) :=
      gather_early hb.unmarked hpre hne
    refine ⟨outputClosed, ?_, rfl⟩
    rw [(p.command_of_listens text hd).1, hp, List.nil_append, hg]

theorem AnswersAll.append {talk' : List (String × Bytes)} (h : AnswersAll (talk ++ talk') p) :
    AnswersAll talk p ∧ AnswersAll talk' (p.after talk) := by
  induction talk generalizing p with
  | nil => exact ⟨trivial, h⟩
  | cons t talk ih =>
    obtain ⟨h1, h2⟩ := h
    exact ⟨⟨h1, (ih h2).1⟩, (ih h2).2⟩

theorem AnswersAll.replies (h : AnswersAll talk p) (hp : p.pending = []) :
    (p.converse (talk.map (·.1))).1 = talk.map (fun t => .ok (lenient t.2)) ∧
      (p.after talk).pending = [] := by
  induction talk generalizing p with
  | nil => exact ⟨rfl, hp⟩
  | cons t talk ih =>
    obtain ⟨h1, h2⟩ := h
    obtain ⟨hreply, hpending⟩ := h1.command hp
    obtain ⟨hreplies, hafter⟩ := ih h2 hpending
    refine ⟨?_, hafter⟩
    simp only [List.map_cons, converse, hreply, hreplies]

end Piped

end Cadence.Engine
