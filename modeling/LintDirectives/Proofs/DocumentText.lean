import LintDirectives.JsonDocument
import Mathlib.Data.Char

/-!
# The text of a document determines the document

Two documents with the same text are the same. Numbers are the only values whose end is told by what
follows them, so each statement speaks of a value and of the text behind it.
-/

namespace LintDirectives

namespace Text

/-- The text does not go on with a digit. -/
def EndsNumber (t : Text) : Prop :=
  t.takeWhile Char.isDigit = []

theorem endsNumber_cons {c : Char} (hc : c.isDigit = false) (t : Text) : EndsNumber (c :: t) := by
  rw [EndsNumber, List.takeWhile_cons, hc]
  rfl

variable {s t : Text}

theorem isDigit_of_mem_ofNat {n : ℕ} {c : Char} (hc : c ∈ ofNat n) : c.isDigit = true :=
  Nat.isDigit_of_mem_toDigits (by decide) (by decide) hc

theorem takeWhile_ofNat_append (n : ℕ) (hs : EndsNumber s) :
    (ofNat n ++ s).takeWhile Char.isDigit = ofNat n := by
  rw [List.takeWhile_append_of_pos fun c => isDigit_of_mem_ofNat, hs, List.append_nil]

theorem ofNat_append_inj {m n : ℕ} (hs : EndsNumber s) (ht : EndsNumber t)
    (h : ofNat m ++ s = ofNat n ++ t) : m = n ∧ s = t := by
  have hdigits : ofNat m = ofNat n := by
    rw [← takeWhile_ofNat_append m hs, h, takeWhile_ofNat_append n ht]
  have hnumber := congrArg (Nat.ofDigitChars 10 · 0) hdigits
  simp only [ofNat, Nat.ofDigitChars_ten_toDigits] at hnumber
  rw [hdigits] at h
  exact ⟨hnumber, List.append_cancel_left h⟩

theorem exists_ofNat_eq (n : ℕ) : ∃ c digits, ofNat n = c :: digits ∧ c.isDigit = true := by
  obtain ⟨c, digits, hdigits⟩ := List.exists_cons_of_ne_nil (Nat.toDigits_ne_nil (b := 10) (n := n))
  exact ⟨c, digits, hdigits, isDigit_of_mem_ofNat (n := n) (by simp [ofNat, hdigits])⟩

theorem ofNat_append_ne_minus (n : ℕ) : ofNat n ++ s ≠ '-' :: t := by
  intro h
  obtain ⟨c, digits, hdigits, hc⟩ := exists_ofNat_eq n
  rw [hdigits, List.cons_append, List.cons.injEq] at h
  rw [h.1] at hc
  exact absurd hc (by decide)

theorem ofInt_append_inj {m n : ℤ} (hs : EndsNumber s) (ht : EndsNumber t)
    (h : ofInt m ++ s = ofInt n ++ t) : m = n ∧ s = t := by
  rw [ofInt, ofInt] at h
  split at h <;> split at h
  · obtain ⟨habs, hrest⟩ := ofNat_append_inj hs ht (List.cons.inj h).2
    exact ⟨by omega, hrest⟩
  · exact absurd h.symm (ofNat_append_ne_minus _)
  · exact absurd h (ofNat_append_ne_minus _)
  · obtain ⟨habs, hrest⟩ := ofNat_append_inj hs ht h
    exact ⟨by omega, hrest⟩

end Text

namespace Json

/-! ## Texts -/

def digitValue (c : Char) : ℕ :=
  if c.isDigit then c.toNat - 48 else c.toNat - 87

def hexValue (t : Text) : ℕ :=
  t.foldl (fun n c => 16 * n + digitValue c) 0

theorem hexValue_hex (width n : ℕ) : hexValue (QuotedText.hex width n) = n := by
  have hdigit : ∀ d < 16, digitValue d.digitChar = d := by decide
  have hzeros (k : ℕ) : (List.replicate k '0').foldl (fun n c => 16 * n + digitValue c) 0 = 0 := by
    induction k with
    | zero => rfl
    | succ k ih => exact ih
  rw [hexValue, QuotedText.hex, List.foldl_append, hzeros]
  induction n using Nat.strong_induction_on with
  | _ n ih =>
    rw [Nat.toDigits_eq_if (by decide)]
    split
    · rename_i hn
      simp [hdigit n hn]
    · rw [List.foldl_append, ih (n / 16) (by omega), List.foldl_cons, List.foldl_nil,
        hdigit _ (Nat.mod_lt _ (by decide))]
      omega

theorem length_hex {n : ℕ} (hn : n < 0x10000) : (QuotedText.hex 4 n).length = 4 := by
  have hlength : (Nat.toDigits 16 n).length ≤ 4 :=
    (Nat.length_toDigits_le_iff (by decide) (by decide)).mpr hn
  rw [QuotedText.hex, List.length_append, List.length_replicate]
  omega

def named : Char → Char
  | 'n' => '\n'
  | 'r' => '\r'
  | 't' => '\t'
  | 'f' => '\x0c'
  | 'b' => '\x08'
  | c => c

/-- The character that begins with a UTF-16 unit, and the text behind it. A unit of the first half of the
surrogates takes the next unit with it. -/
def readUnits (unit : ℕ) (rest : Text) : Char × Text :=
  if 0xD800 ≤ unit ∧ unit < 0xDC00 then
    (Char.ofNat (0x10000 + (unit - 0xD800) * 1024 + (hexValue ((rest.drop 2).take 4) - 0xDC00)),
      rest.drop 6)
  else (Char.ofNat unit, rest)

/-- The first character of the inside of a quoted text, and the text behind it. -/
def readChar? : Text → Option (Char × Text)
  | '\\' :: 'u' :: rest => some (readUnits (hexValue (rest.take 4)) (rest.drop 4))
  | '\\' :: c :: rest => some (named c, rest)
  | c :: rest => some (c, rest)
  | [] => none

theorem readChar?_unitEscape {n : ℕ} (hn : n < 0x10000) (s : Text) :
    readChar? (unitEscape n ++ s) = some (readUnits n s) := by
  rw [unitEscape, List.cons_append, List.cons_append, readChar?, List.take_left' (length_hex hn),
    List.drop_left' (length_hex hn), hexValue_hex]

theorem readChar?_plain {c : Char} (hc : c ≠ '\\') (s : Text) : readChar? (c :: s) = some (c, s) := by
  rw [readChar?]
  · exact fun _ h => absurd h hc
  · exact fun _ _ h => absurd h hc

theorem readUnits_unitEscape {n : ℕ} (hlow : 0x10000 ≤ n) (hhigh : n < 0x110000) (s : Text) :
    readUnits (0xD800 + (n - 0x10000) / 1024) (unitEscape (0xDC00 + (n - 0x10000) % 1024) ++ s) =
      (Char.ofNat n, s) := by
  have hunit : 0xDC00 + (n - 0x10000) % 1024 < 0x10000 := by omega
  have hvalue : 0x10000 + (0xD800 + (n - 0x10000) / 1024 - 0xD800) * 1024 +
      (0xDC00 + (n - 0x10000) % 1024 - 0xDC00) = n := by omega
  have hlength := length_hex hunit
  rw [readUnits, if_pos ⟨by omega, by omega⟩, unitEscape, List.cons_append, List.cons_append]
  simp only [List.drop_succ_cons, List.drop_zero]
  rw [List.take_left' hlength, List.drop_left' hlength, hexValue_hex, hvalue]

theorem readChar?_escaped (c : Char) (s : Text) : readChar? (escaped c ++ s) = some (c, s) := by
  by_cases hspecial : c ∈ ['"', '\\', '\n', '\r', '\t', '\x0c', '\x08']
  · simp only [List.mem_cons, List.not_mem_nil, or_false] at hspecial
    obtain rfl | rfl | rfl | rfl | rfl | rfl | rfl := hspecial <;> rfl
  simp only [List.mem_cons, List.not_mem_nil, or_false, not_or] at hspecial
  obtain ⟨hquote, hslash, hfeed, hreturn, htab, hform, hback⟩ := hspecial
  have hformCode : c.toNat ≠ 12 := fun heq => hform (Char.toNat_inj.mp heq)
  have hbackCode : c.toNat ≠ 8 := fun heq => hback (Char.toNat_inj.mp heq)
  have hvalid : c.toNat < 0xD800 ∨ 0xDFFF < c.toNat ∧ c.toNat < 0x110000 := c.valid
  simp only [escaped, beq_iff_eq, hquote, hslash, hfeed, hreturn, htab, hformCode,
    hbackCode, if_false]
  split
  · exact readChar?_plain hslash s
  split
  · rename_i hunit
    rw [readChar?_unitEscape hunit, readUnits, if_neg (by omega), Char.ofNat_toNat]
  · rename_i hunit
    rw [List.append_assoc, readChar?_unitEscape (by omega), readUnits_unitEscape (by omega) (by omega),
      Char.ofNat_toNat]

/-- The text does not begin with the quotation mark that ends a quoted text. -/
theorem escaped_append_ne_quote (c : Char) (s t : Text) : escaped c ++ s ≠ '"' :: t := by
  intro h
  have hread := readChar?_escaped c s
  rw [h, readChar?_plain (by decide), Option.some.injEq, Prod.mk.injEq] at hread
  obtain ⟨rfl, -⟩ := hread
  exact absurd (List.cons.inj h).1 (by decide)

theorem quotedText_append_inj {a b s t : Text} (h : quotedText a ++ s = quotedText b ++ t) :
    a = b ∧ s = t := by
  simp only [quotedText, List.cons_append, List.append_assoc, List.cons.injEq, true_and] at h
  induction a generalizing b with
  | nil =>
    cases b with
    | nil => exact ⟨rfl, (List.cons.inj h).2⟩
    | cons d b =>
      rw [List.flatMap_cons, List.append_assoc] at h
      exact absurd h.symm (escaped_append_ne_quote _ _ _)
  | cons c a ih =>
    rw [List.flatMap_cons, List.append_assoc] at h
    cases b with
    | nil => exact absurd h (escaped_append_ne_quote _ _ _)
    | cons d b =>
      rw [List.flatMap_cons, List.append_assoc] at h
      have hread := congrArg readChar? h
      rw [readChar?_escaped, readChar?_escaped, Option.some.injEq, Prod.mk.injEq] at hread
      obtain ⟨rfl, hrest⟩ := hread
      obtain ⟨rfl, rfl⟩ := ih hrest
      exact ⟨rfl, rfl⟩

/-! ## Items between brackets -/

/-- What stands behind the first of some items between brackets. -/
def behindFirst (level : ℕ) (closing : Char) (rest : List Text) : Text :=
  rest.flatMap (',' :: newline (level + 1) ++ ·) ++ newline level ++ [closing]

theorem bracketed_cons (level : ℕ) (opening closing : Char) (item : Text) (rest : List Text) :
    bracketed level opening closing (item :: rest) =
      opening :: newline (level + 1) ++ (item ++ behindFirst level closing rest) := by
  have hjoin : Text.join (',' :: newline (level + 1)) (item :: rest) =
      item ++ rest.flatMap (',' :: newline (level + 1) ++ ·) := by
    induction rest generalizing item with
    | nil => simp
    | cons next rest ih => rw [Text.join_cons_cons, ih, List.flatMap_cons, List.append_assoc]
  rw [bracketed, hjoin, behindFirst]
  simp

section Items

variable {α : Type*} {write : α → Text} {level : ℕ} {opening closing : Char}

/-- What is written for a value, followed by what does not go on with a digit, is what is written for
no other value. -/
def TellsApart (write : α → Text) (a : α) : Prop :=
  ∀ {b : α} {s t : Text}, Text.EndsNumber s → Text.EndsNumber t → write a ++ s = write b ++ t →
    a = b ∧ s = t

theorem endsNumber_behindFirst (rest : List Text) (s : Text) :
    Text.EndsNumber (behindFirst level closing rest ++ s) := by
  cases rest <;> exact Text.endsNumber_cons (by decide) _

theorem behindFirst_append_inj {items : List α}
    (hitems : ∀ a ∈ items, TellsApart write a) {items' : List α} {s t : Text}
    (h : behindFirst level closing (items.map write) ++ s =
      behindFirst level closing (items'.map write) ++ t) : items = items' ∧ s = t := by
  induction items generalizing items' with
  | nil =>
    cases items' with
    | nil => exact ⟨rfl, List.append_cancel_left h⟩
    | cons b bs => exact absurd (List.cons.inj h).1 (by decide)
  | cons a as ih =>
    cases items' with
    | nil => exact absurd (List.cons.inj h).1 (by decide)
    | cons b bs =>
      have hcons (c : α) (cs : List α) (u : Text) :
          behindFirst level closing ((c :: cs).map write) ++ u =
            (',' :: newline (level + 1)) ++ (write c ++ (behindFirst level closing (cs.map write) ++ u)) := by
        simp [behindFirst]
      rw [hcons, hcons] at h
      obtain ⟨rfl, hrest⟩ := hitems a List.mem_cons_self (endsNumber_behindFirst _ _)
        (endsNumber_behindFirst _ _) (List.append_cancel_left h)
      obtain ⟨rfl, rfl⟩ := ih (fun c hc => hitems c (List.mem_cons_of_mem _ hc)) hrest
      exact ⟨rfl, rfl⟩

theorem bracketed_append_inj {items : List α} (hclosing : closing ≠ '\n')
    (hitems : ∀ a ∈ items, TellsApart write a) {items' : List α} {s t : Text}
    (h : bracketed level opening closing (items.map write) ++ s =
      bracketed level opening closing (items'.map write) ++ t) : items = items' ∧ s = t := by
  cases items with
  | nil =>
    cases items' with
    | nil => exact ⟨rfl, List.append_cancel_left h⟩
    | cons b bs =>
      rw [List.map_cons, bracketed_cons] at h
      exact absurd (List.cons.inj (List.cons.inj h).2).1 hclosing
  | cons a as =>
    cases items' with
    | nil =>
      rw [List.map_cons, bracketed_cons] at h
      exact absurd (List.cons.inj (List.cons.inj h).2).1.symm hclosing
    | cons b bs =>
      rw [List.map_cons, List.map_cons, bracketed_cons, bracketed_cons, List.append_assoc,
        List.append_assoc, List.append_assoc, List.append_assoc] at h
      obtain ⟨rfl, hrest⟩ := hitems a List.mem_cons_self (endsNumber_behindFirst _ _)
        (endsNumber_behindFirst _ _) (List.append_cancel_left h)
      obtain ⟨rfl, rfl⟩ := behindFirst_append_inj
        (fun c hc => hitems c (List.mem_cons_of_mem _ hc)) hrest
      exact ⟨rfl, rfl⟩

end Items

/-! ## Documents -/

theorem renderItems_eq (level : ℕ) (items : List Json) :
    renderItems level items = items.map (render level) := by
  induction items with
  | nil => rfl
  | cons v rest ih => rw [renderItems, ih, List.map_cons]

def fieldText (level : ℕ) (field : Text × Json) : Text :=
  quotedText field.1 ++ ": " ++ render level field.2

theorem renderFields_eq (level : ℕ) (fields : List (Text × Json)) :
    renderFields level fields = fields.map (fieldText level) := by
  induction fields with
  | nil => rfl
  | cons field rest ih => rw [renderFields, ih, List.map_cons, fieldText]

theorem tellsApart_fieldText (k : Text) {v : Json} {level : ℕ} (h : TellsApart (render level) v) :
    TellsApart (fieldText level) (k, v) := by
  intro (k', v') s t hs ht heq
  simp only [fieldText, List.append_assoc] at heq
  obtain ⟨rfl, hvalue⟩ := quotedText_append_inj heq
  obtain ⟨rfl, hrest⟩ := h hs ht (List.append_cancel_left hvalue)
  exact ⟨rfl, hrest⟩

/-- The first character of the text of a value, unless it is that of a number. -/
def opener? : Json → Option Char
  | null => some 'n'
  | bool true => some 't'
  | bool false => some 'f'
  | int _ => none
  | text _ => some '"'
  | array _ => some '['
  | object _ => some '\x7b'

theorem opener?_eq (v : Json) (level : ℕ) (s : Text) :
    (render level v ++ s).head?.filter (fun c => !(c.isDigit || c == '-')) = v.opener? := by
  cases v with
  | null => rfl
  | bool b => cases b <;> rfl
  | int n =>
    obtain ⟨c, digits, hdigits, hc⟩ := Text.exists_ofNat_eq n.natAbs
    simp only [render, Text.ofInt]
    split
    · rfl
    · simp [hdigits, hc, opener?]
  | text t => rfl
  | array items => cases items <;> rfl
  | object fields => cases fields <;> rfl

theorem opener?_eq_of_append {v w : Json} {level : ℕ} {s t : Text}
    (h : render level v ++ s = render level w ++ t) : v.opener? = w.opener? := by
  rw [← opener?_eq v level s, h, opener?_eq]

theorem tellsApart_render (v : Json) (level : ℕ) : TellsApart (render level) v := by
  intro w s t
  by_cases hopener : v.opener? = w.opener?
  · -- Values of different kinds begin with different characters, so only equal kinds are left.
    match v, w with
    | null, null => exact fun _ _ h => ⟨rfl, List.append_cancel_left h⟩
    | bool true, bool true => exact fun _ _ h => ⟨rfl, List.append_cancel_left h⟩
    | bool false, bool false => exact fun _ _ h => ⟨rfl, List.append_cancel_left h⟩
    | int m, int n =>
      intro hs ht h
      obtain ⟨rfl, hrest⟩ := Text.ofInt_append_inj hs ht h
      exact ⟨rfl, hrest⟩
    | text a, text b =>
      intro _ _ h
      obtain ⟨rfl, hrest⟩ := quotedText_append_inj h
      exact ⟨rfl, hrest⟩
    | array items, array items' =>
      intro _ _ h
      rw [render, render, renderItems_eq, renderItems_eq] at h
      obtain ⟨rfl, hrest⟩ := bracketed_append_inj (by decide)
        (fun v hv => tellsApart_render v (level + 1)) h
      exact ⟨rfl, hrest⟩
    | object fields, object fields' =>
      intro _ _ h
      rw [render, render, renderFields_eq, renderFields_eq] at h
      obtain ⟨rfl, hrest⟩ := bracketed_append_inj (by decide)
        (fun (k, v) hv => tellsApart_fieldText k (tellsApart_render v (level + 1))) h
      exact ⟨rfl, hrest⟩
  · exact fun _ _ h => absurd (opener?_eq_of_append h) hopener
termination_by v
decreasing_by
  · have hsize := List.sizeOf_lt_of_mem hv
    simp only [array.sizeOf_spec]
    omega
  · have hsize := List.sizeOf_lt_of_mem hv
    simp only [object.sizeOf_spec, Prod.mk.sizeOf_spec] at hsize ⊢
    omega

theorem render_injective (level : ℕ) : Function.Injective (render level) := fun v w h =>
  (tellsApart_render v level (s := []) (t := []) rfl rfl (by rw [h])).1

end Json

end LintDirectives
