import Cadence.Wire
import Cadence.Proofs.Firing

/-!
# Cadence.Proofs.Rendering — what is written is read back

The writer escapes what the reader would not take in a string, and puts nothing between tokens, so
the reader gets back the value that was written, whatever the characters of its strings.  What is
written holds no character below U+0020 and is therefore one line of a longer output.
-/

namespace Cadence

namespace Json

/-! ### Strings -/

/-- Four hexadecimal digits are read as the code unit that they were written for. -/
theorem unit?_hex4 {n : Nat} (hn : n < 0x10000) :
    ∃ a b c d, hex4 n = [a, b, c, d] ∧ unit? a b c d = some n := by
  have digit : ∀ k < 16, hexDigit? (Nat.digitChar k) = some k := by decide
  have hd (k : Nat) : hexDigit? (Nat.digitChar (k % 16)) = some (k % 16) :=
    digit _ (Nat.mod_lt _ (by decide))
  refine ⟨_, _, _, _, rfl, ?_⟩
  simp only [unit?, hd, Option.bind_eq_bind, Option.bind_some, Option.some.injEq]
  omega

/-- **A written character is read back**, whichever way it was written. -/
theorem readString_stringChar (c : Char) (r : List Char) :
    readString none (stringChar c ++ r) = consChar c (readString none r) := by
  by_cases hq : c = '"' ∨ c = '\\'
  · rcases hq with rfl | rfl <;> rfl
  · obtain ⟨hq, hb⟩ := not_or.mp hq
    by_cases hlow : c.toNat < 0x20
    · by_cases hs : c.toNat = 8 ∨ c = '\t' ∨ c = '\n' ∨ c.toNat = 12 ∨ c = '\r'
      · have back : Char.ofNat c.toNat = c := Char.ofNat_toNat c
        rcases hs with h | rfl | rfl | h | rfl
        · obtain rfl : c = '\x08' := by rw [← back, h]
          rfl
        · rfl
        · rfl
        · obtain rfl : c = '\x0c' := by rw [← back, h]
          rfl
        · rfl
      · simp only [not_or] at hs
        obtain ⟨a, b, d, e, ht, hu⟩ := unit?_hex4 (n := c.toNat) (by omega)
        have hw : stringChar c = ['\\', 'u', a, b, d, e] := by
          simp [stringChar, hq, hb, hlow, hs, ht]
        have hc : unit16 none c.toNat = .char c := by
          have h1 : ¬ (0xD800 ≤ c.toNat ∧ c.toNat ≤ 0xDBFF) := by omega
          have h2 : ¬ (0xDC00 ≤ c.toNat ∧ c.toNat ≤ 0xDFFF) := by omega
          simp only [unit16, if_neg h1, if_neg h2, Char.ofNat_toNat]
        rw [hw]
        simp only [List.cons_append, List.nil_append, readString, hu, hc]
    · have hw : stringChar c = [c] := by simp [stringChar, hq, hb, hlow]
      rw [hw, List.singleton_append, readString]
      · simp [hlow]
      all_goals simp_all

/-- **A written string is read back**, up to its closing quote. -/
theorem readString_written (s r : List Char) :
    readString none (s.flatMap stringChar ++ '"' :: r) = some (s, r) := by
  induction s with
  | nil => rfl
  | cons c s ih =>
    rw [List.flatMap_cons, List.append_assoc, readString_stringChar, ih]
    rfl

/-! ### Items -/

/-- The items of an array are written with commas between them. -/
theorem renderItems_eq (items : List Json) :
    renderItems items = List.intercalate [','] (items.map renderChars) := by
  induction items with
  | nil => rfl
  | cons v rest ih =>
    cases rest with
    | nil => simp [renderItems, List.intercalate]
    | cons v' rest =>
      rw [renderItems, ih]
      · simp [List.intercalate]
      · simp

/-- How a member of an object is written. -/
def memberChars (m : String × Json) : List Char := renderString m.1 ++ ':' :: renderChars m.2

/-- The members of an object are written with commas between them. -/
theorem renderMembers_eq (members : List (String × Json)) :
    renderMembers members = List.intercalate [','] (members.map memberChars) := by
  induction members with
  | nil => rfl
  | cons m rest ih =>
    cases rest with
    | nil => simp [renderMembers, memberChars, List.intercalate]
    | cons m' rest =>
      rw [renderMembers, ih]
      · simp [memberChars, List.intercalate]
      · simp

/-- **Items with commas between them are read back**, by a reader that reads each of them. -/
theorem readItems_written {α : Type} {item : Reader α} {write : α → List Char} {close : Char}
    (hc : isSpace close = false) (hne : close ≠ ',') (a : α) (as : List α)
    (hread : ∀ b ∈ a :: as, ∀ r, item (write b ++ r) = some (b, r)) (bound : Nat)
    (hb : as.length < bound) (r : List Char) :
    readItems item close bound (List.intercalate [','] ((a :: as).map write) ++ close :: r) =
      some (a :: as, r) := by
  induction as generalizing a bound with
  | nil =>
    obtain ⟨bound, rfl⟩ : ∃ b, bound = b + 1 := ⟨bound - 1, by omega⟩
    have hs : skip (close :: r) = close :: r := by simp [skip, hc]
    simp [readItems, hread a, hs, hne]
  | cons a' as ih =>
    obtain ⟨bound, rfl⟩ : ∃ b, bound = b + 1 := ⟨bound - 1, by omega⟩
    have later := ih a' (fun b hb => hread b (.tail _ hb)) bound
      (by simp only [List.length_cons] at hb; omega)
    have hw : List.intercalate [','] ((a :: a' :: as).map write) ++ close :: r =
        write a ++ ',' :: (List.intercalate [','] ((a' :: as).map write) ++ close :: r) := by
      simp [List.intercalate]
    have hs (t : List Char) : skip (',' :: t) = ',' :: t := by simp [skip, isSpace]
    rw [hw, readItems, hread a (.head _)]
    simp only [hs, if_true, later, Option.map_some]

/-- What a writer puts first is neither white space nor a closing bracket. -/
def Leads {α : Type} (write : α → List Char) (a : α) : Prop :=
  ∃ c r, write a = c :: r ∧ isSpace c = false ∧ c ≠ ']' ∧ c ≠ '\x7d'

theorem leads_member (m : String × Json) : Leads memberChars m := ⟨'"', _, rfl, by decide⟩

/-- Each item is written with one character at least, so the text is no shorter than their number. -/
theorem length_le_written {α : Type} {write : α → List Char} (as : List α)
    (hlead : ∀ b ∈ as, Leads write b) :
    as.length ≤ (List.intercalate [','] (as.map write)).length := by
  induction as with
  | nil => simp
  | cons a as ih =>
    obtain ⟨c, t, ht, -⟩ := hlead a (.head _)
    have hrest := ih fun b hb => hlead b (.tail _ hb)
    cases as with
    | nil => simp [List.intercalate, ht]
    | cons a' as =>
      simp only [List.intercalate, List.map_cons, List.intersperse, List.flatten_cons,
        List.length_append, List.length_cons, List.length_nil] at hrest ⊢
      simp only [ht, List.length_cons]
      omega

/-- What is between two brackets is read back. -/
theorem readInside_written {α : Type} {item : Reader α} {write : α → List Char} {close : Char}
    (hc : close = ']' ∨ close = '\x7d') (as : List α) (hlead : ∀ b ∈ as, Leads write b)
    (hread : ∀ b ∈ as, ∀ r, item (write b ++ r) = some (b, r)) (r : List Char) :
    readInside item close (List.intercalate [','] (as.map write) ++ close :: r) = some (as, r) := by
  have hspace : isSpace close = false := by rcases hc with rfl | rfl <;> decide
  cases as with
  | nil =>
    have hs : skip (close :: r) = close :: r := by simp [skip, hspace]
    simp [readInside, List.intercalate, hs]
  | cons a as =>
    obtain ⟨c, t, ht, hcs, hc1, hc2⟩ := hlead a (.head _)
    have hcc : c ≠ close := by rcases hc with rfl | rfl <;> assumption
    have hne : close ≠ ',' := by rcases hc with rfl | rfl <;> decide
    obtain ⟨t', ht'⟩ : ∃ t', List.intercalate [','] ((a :: as).map write) = c :: t' := by
      cases as with
      | nil => exact ⟨t, by simp [List.intercalate, ht]⟩
      | cons a' as => exact ⟨t ++ _, by simp [List.intercalate, ht]; rfl⟩
    have hlen := length_le_written (a :: as) hlead
    have hs : skip (c :: (t' ++ close :: r)) = c :: (t' ++ close :: r) := by simp [skip, hcs]
    have hall := readItems_written hspace hne a as hread ((t' ++ close :: r).length + 1)
      (by rw [ht'] at hlen; simp only [List.length_cons, List.length_append] at hlen ⊢; omega) r
    rw [ht', List.cons_append] at hall ⊢
    simp only [readInside, hs, if_neg hcc, hall]

/-! ### Values -/

/-- A value without numbers, with at most so many arrays and objects inside one another. -/
def Fits : Nat → Json → Prop
  | _, null => True
  | _, bool _ => True
  | _, string _ => True
  | _, number _ => False
  | 0, array _ => False
  | 0, object _ => False
  | depth + 1, array items => ∀ v ∈ items, Fits depth v
  | depth + 1, object members => ∀ m ∈ members, Fits depth m.2

/-- The characters that a value can begin with. -/
theorem leads_of_fits {depth : Nat} {v : Json} (h : Fits depth v) : Leads renderChars v := by
  cases v with
  | null => exact ⟨'n', _, rfl, by decide⟩
  | bool b => cases b with
    | false => exact ⟨'f', _, rfl, by decide⟩
    | true => exact ⟨'t', _, rfl, by decide⟩
  | number n => cases depth <;> exact h.elim
  | string s => exact ⟨'"', _, rfl, by decide⟩
  | array items => exact ⟨'[', _, rfl, by decide⟩
  | object members => exact ⟨'\x7b', _, rfl, by decide⟩

theorem readScalar_string (s : String) (r : List Char) :
    readScalar (renderString s ++ r) = some (.string s, r) := by
  have h := readString_written s.toList r
  simp [renderString, readScalar, skip, isSpace, List.append_assoc, h]

theorem readMember_written {value : Reader Json} {m : String × Json}
    (h : ∀ r, value (renderChars m.2 ++ r) = some (m.2, r)) (r : List Char) :
    readMember value (memberChars m ++ r) = some (m, r) := by
  have hk := readString_written m.1.toList (':' :: (renderChars m.2 ++ r))
  simp [memberChars, renderString, readMember, skip, isSpace, List.append_assoc, hk, h]

/-- **A written value is read back**, and what follows it is left. -/
theorem readValue_written (depth : Nat) :
    ∀ (v : Json), Fits depth v → ∀ r, readValue depth (v.renderChars ++ r) = some (v, r) := by
  induction depth with
  | zero =>
    intro v h r
    cases v with
    | null => rfl
    | bool b => cases b <;> rfl
    | number n => exact h.elim
    | string s => exact readScalar_string s r
    | array items => exact h.elim
    | object members => exact h.elim
  | succ depth ih =>
    intro v h r
    cases v with
    | null => rfl
    | bool b => cases b <;> rfl
    | number n => exact h.elim
    | string s => exact readScalar_string s r
    | array items =>
      have hi := readInside_written (.inl rfl) items (fun b hb => leads_of_fits (h b hb))
        (fun b hb => ih b (h b hb)) r
      simp [readValue, renderChars, renderItems_eq, skip, isSpace, List.append_assoc, hi]
    | object members =>
      have hi := readInside_written (.inr rfl) members (fun m _ => leads_member m)
        (fun m hm => readMember_written (ih m.2 (h m hm))) r
      simp [readValue, renderChars, renderMembers_eq, skip, isSpace, List.append_assoc, hi]

/-- **Reading undoes writing.** -/
theorem read_render {v : Json} (h : Fits maxDepth v) : Json.read v.render = some v := by
  have hv := readValue_written maxDepth v h []
  rw [List.append_nil] at hv
  simp [Json.read, render, hv, skip]

/-! ### Characters -/

/-- A text without control characters below U+0020. -/
def Printable (s : List Char) : Prop := ∀ c ∈ s, 0x20 ≤ c.toNat

theorem printable_singleton {c : Char} (h : 0x20 ≤ c.toNat) : Printable [c] := by
  intro d hd
  rw [List.mem_singleton] at hd
  rwa [hd]

theorem Printable.append {s t : List Char} (hs : Printable s) (ht : Printable t) :
    Printable (s ++ t) := by
  intro c hc
  rcases List.mem_append.mp hc with hc | hc
  · exact hs c hc
  · exact ht c hc

theorem printable_hex4 (n : Nat) : Printable (hex4 n) := by
  have digit : ∀ k < 16, 0x20 ≤ (Nat.digitChar k).toNat := by decide
  intro c hc
  obtain ⟨k, -, rfl⟩ := List.mem_map.mp hc
  exact digit _ (Nat.mod_lt _ (by decide))

/-- One character of a string is written without control characters. -/
theorem printable_stringChar (c : Char) : Printable (stringChar c) := by
  have escaped {d : Char} (hd : 0x20 ≤ d.toNat) : Printable ['\\', d] :=
    (printable_singleton (by decide)).append (printable_singleton hd)
  by_cases hq : c = '"' ∨ c = '\\'
  · rw [stringChar, if_pos hq]
    refine escaped ?_
    rcases hq with rfl | rfl <;> decide
  rw [stringChar, if_neg hq]
  by_cases hlow : c.toNat < 0x20
  · rw [if_pos hlow]
    split
    · exact escaped (by decide)
    split
    · exact escaped (by decide)
    split
    · exact escaped (by decide)
    split
    · exact escaped (by decide)
    split
    · exact escaped (by decide)
    · exact (escaped (by decide)).append (printable_hex4 _)
  · rw [if_neg hlow]
    exact printable_singleton (Nat.le_of_not_lt hlow)

theorem printable_string (s : String) : Printable (renderString s) := by
  have inside : Printable (s.toList.flatMap stringChar) := by
    intro c hc
    obtain ⟨d, -, hd⟩ := List.mem_flatMap.mp hc
    exact printable_stringChar d c hd
  have quote : Printable ['"'] := printable_singleton (by decide)
  exact (quote.append inside).append quote

/-- Texts without control characters have none with commas between them. -/
theorem printable_intercalate {ts : List (List Char)} (h : ∀ t ∈ ts, Printable t) :
    Printable (List.intercalate [','] ts) := by
  induction ts with
  | nil => exact fun c hc => nomatch hc
  | cons t ts ih =>
    have hrest := ih fun t' ht' => h t' (.tail _ ht')
    cases ts with
    | nil => simpa [List.intercalate] using h t (.head _)
    | cons t' ts =>
      have hw : List.intercalate [','] (t :: t' :: ts) =
          t ++ ([','] ++ List.intercalate [','] (t' :: ts)) := by
        simp [List.intercalate]
      have comma : Printable [','] := printable_singleton (by decide)
      rw [hw]
      exact (h t (.head _)).append (comma.append hrest)

/-- **An object is written without control characters**, if the values of its members are. -/
theorem printable_object {members : List (String × Json)}
    (h : ∀ m ∈ members, Printable m.2.renderChars) : Printable (object members).renderChars := by
  have each : ∀ t ∈ members.map memberChars, Printable t := by
    intro t ht
    obtain ⟨m, hm, rfl⟩ := List.mem_map.mp ht
    have colon : Printable [':'] := printable_singleton (by decide)
    exact (printable_string m.1).append (colon.append (h m hm))
  have opening : Printable ['\x7b'] := printable_singleton (by decide)
  have closing : Printable ['\x7d'] := printable_singleton (by decide)
  rw [renderChars, renderMembers_eq]
  exact (opening.append (printable_intercalate each)).append closing

end Json

/-! ### Lines -/

namespace Text

theorem endLines_append (pieces : List (List Char)) {later : List (List Char)} (h : later ≠ []) :
    endLines (pieces ++ later) = pieces.map dropReturn ++ endLines later := by
  induction pieces with
  | nil => rfl
  | cons piece pieces ih =>
    obtain ⟨next, rest, hrest⟩ : ∃ q qs, pieces ++ later = q :: qs :=
      List.exists_cons_of_ne_nil (by simp [h])
    rw [List.cons_append, hrest, endLines, ← hrest, ih]
    · rfl
    · simp

/-- What is printed and ended does not touch what is printed later. -/
theorem lines_ended (s later : List Char) :
    lines (s ++ '\n' :: later) = (cut (· == '\n') s).map dropReturn ++ lines later := by
  rw [lines, cut_append s later (by decide), endLines_append _ (cut_ne_nil _ _), lines]

/-- **A text without control characters is one line** of an output that goes on. -/
theorem lines_printable {s : List Char} (h : Json.Printable s) (later : List Char) :
    lines (s ++ '\n' :: later) = s :: lines later := by
  have hlf : '\n' ∉ s := fun hm => absurd (h _ hm) (by decide)
  have hcr : dropReturn s = s := by
    rw [dropReturn]
    split
    · next r hr =>
      have hmem : '\r' ∈ s := by
        rw [← List.mem_reverse, hr]
        exact .head _
      exact absurd (h _ hmem) (by decide)
    · rfl
  rw [lines_ended, cut_of_none (ne_lf hlf), List.map_singleton, hcr, List.singleton_append]

end Text

/-! ## Modes, states and notifications -/

namespace Wire

theorem fits_plain (tag : String) : (plain tag).Fits Json.maxDepth := by
  intro m hm
  obtain rfl := List.mem_singleton.mp hm
  trivial

theorem fits_withMessage (tag message : String) : (withMessage tag message).Fits Json.maxDepth := by
  intro m hm
  simp only [List.mem_cons, List.not_mem_nil, or_false] at hm
  rcases hm with rfl | rfl <;> trivial

theorem printable_plain (tag : String) : Json.Printable (plain tag).renderChars := by
  refine Json.printable_object fun m hm => ?_
  obtain rfl := List.mem_singleton.mp hm
  exact Json.printable_string tag

theorem printable_withMessage (tag message : String) :
    Json.Printable (withMessage tag message).renderChars := by
  refine Json.printable_object fun m hm => ?_
  simp only [List.mem_cons, List.not_mem_nil, or_false] at hm
  rcases hm with rfl | rfl
  · exact Json.printable_string tag
  · exact Json.printable_string message

/-- What a tag without a message is read as. -/
theorem untag_plain (tag : String) : untag (plain tag) = some (tag, .named []) := by
  simp [untag, plain]

/-- What a tag with a message is read as. -/
theorem untag_withMessage (tag message : String) :
    untag (withMessage tag message) = some (tag, .named [("message", .string message)]) := by
  simp [untag, withMessage]

/-- **A text conveys a value**: it is read back as that value, it holds no control character below
U+0020, and in an output it is exactly one line. -/
structure Conveys {α : Type} (ofJson? : Json → Option α) (a : α) (text : String) : Prop where
  readBack : (Json.read text).bind ofJson? = some a
  printable : ∀ c ∈ text.toList, 0x20 ≤ c.toNat
  oneLine (later : List Char) :
    Text.lines (text.toList ++ '\n' :: later) = text.toList :: Text.lines later

/-- A value conveys what it is understood as, if it can be read and has no control characters. -/
theorem conveys_render {α : Type} {ofJson? : Json → Option α} {a : α} {v : Json}
    (hfits : v.Fits Json.maxDepth) (hprint : Json.Printable v.renderChars) (hv : ofJson? v = some a) :
    Conveys ofJson? a v.render where
  readBack := by rw [Json.read_render hfits, Option.bind_some, hv]
  printable := by rwa [Json.render, String.toList_ofList]
  oneLine := by
    rw [Json.render, String.toList_ofList]
    exact Text.lines_printable hprint

end Wire

open Wire

theorem Mode.ofJson?_toJson (m : Mode) : ofJson? m.toJson = some m := by
  cases m <;> decide

theorem State.ofJson?_toJson (s : State) : ofJson? s.toJson = some s := by
  cases s with
  | failed message =>
    simp [toJson, ofJson?, untag_withMessage, Body.message?]
  | _ => simp only [toJson, ofJson?, untag_plain]; decide

theorem Notification.ofJson?_toJson (n : Notification) : ofJson? n.toJson = some n := by
  cases n with
  | error message =>
    simp [toJson, ofJson?, untag_withMessage, Body.message?]
  | _ => simp only [toJson, ofJson?, untag_plain]; decide

/-- The text of a mode conveys it. -/
theorem Mode.conveyed (m : Mode) : Conveys ofJson? m m.toJson.render :=
  conveys_render trivial (Json.printable_string m.tag) m.ofJson?_toJson

/-- The text of a state conveys it, whatever the message of a failure is. -/
theorem State.conveyed (s : State) : Conveys ofJson? s s.toJson.render := by
  refine conveys_render ?_ ?_ s.ofJson?_toJson
  · cases s with
    | failed message => exact fits_withMessage _ _
    | _ => exact fits_plain _
  · cases s with
    | failed message => exact printable_withMessage _ _
    | _ => exact printable_plain _

/-- The text of a notification conveys it, whatever the message of an error is. -/
theorem Notification.conveyed (n : Notification) : Conveys ofJson? n n.toJson.render := by
  refine conveys_render ?_ ?_ n.ofJson?_toJson
  · cases n with
    | error message => exact fits_withMessage _ _
    | _ => exact fits_plain _
  · cases n with
    | error message => exact printable_withMessage _ _
    | _ => exact printable_plain _

example : (Notification.error "say \"hi\"\n\x01").toJson.render =
    "\x7b\"type\":\"ERROR\",\"message\":\"say \\\"hi\\\"\\n\\u0001\"\x7d" := by decide

/-- **Every state, notification and mode is conveyed by its text**: it is read back as it was, for
every message, and its text is exactly one line without control characters. -/
theorem conveyed_by_text :
    (∀ s : State, Conveys State.ofJson? s s.toJson.render) ∧
      (∀ n : Notification, Conveys Notification.ofJson? n n.toJson.render) ∧
      ∀ m : Mode, Conveys Mode.ofJson? m m.toJson.render :=
  ⟨State.conveyed, Notification.conveyed, Mode.conveyed⟩

end Cadence
