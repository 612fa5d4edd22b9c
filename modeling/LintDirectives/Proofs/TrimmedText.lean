import LintDirectives.Blank
import LintDirectives.Proofs.TextSearch
import Mathlib.Data.List.DropRight

/-!
# Trimmed texts and lists of items

Trimming drops the blanks on both sides and nothing else, and it is monotone for initial parts.
The items of a comma-separated list are found piece by piece: a comma splits them, and a piece
without a comma is at most one item.
-/

namespace LintDirectives.Text

def AllBlank (t : Text) : Prop := ∀ c ∈ t, isBlank c

theorem allBlank_nil : AllBlank [] := by simp [AllBlank]

theorem AllBlank.append {a b : Text} (ha : AllBlank a) (hb : AllBlank b) : AllBlank (a ++ b) := by
  intro c hc
  rcases List.mem_append.mp hc with hc | hc
  · exact ha c hc
  · exact hb c hc

/-! ## The start of a text -/

theorem exists_trimStart (t : Text) : ∃ blanks, AllBlank blanks ∧ t = blanks ++ trimStart t :=
  ⟨t.takeWhile isBlank, fun _ hc => List.mem_takeWhile_imp hc,
    List.takeWhile_append_dropWhile.symm⟩

theorem trimStart_append {blanks : Text} (h : AllBlank blanks) (t : Text) :
    trimStart (blanks ++ t) = trimStart t :=
  List.dropWhile_append_of_pos h

@[simp] theorem trimStart_cons {c : Char} (hc : isBlank c = false) (t : Text) :
    trimStart (c :: t) = c :: t :=
  List.dropWhile_cons_of_neg (by simp [hc])

theorem isBlank_of_trimStart {t rest : Text} {c : Char} (h : trimStart t = c :: rest) :
    isBlank c = false := by
  have hhead := List.head?_dropWhile_not isBlank t
  rw [show t.dropWhile isBlank = c :: rest from h] at hhead
  simpa using hhead

/-! ## The end of a text -/

theorem exists_trimEnd (t : Text) : ∃ blanks, AllBlank blanks ∧ t = trimEnd t ++ blanks :=
  ⟨t.rtakeWhile isBlank, fun _ hc => List.mem_rtakeWhile_imp hc,
    List.rdropWhile_append_rtakeWhile.symm⟩

theorem trimEnd_isPrefix (t : Text) : trimEnd t <+: t :=
  ⟨t.rtakeWhile isBlank, List.rdropWhile_append_rtakeWhile⟩

@[simp] theorem trimEnd_nil : trimEnd [] = [] := rfl

theorem trimEnd_append_blanks (t : Text) {blanks : Text} (h : AllBlank blanks) :
    trimEnd (t ++ blanks) = trimEnd t := by
  have hrev : ∀ c ∈ blanks.reverse, isBlank c := fun c hc => h c (List.mem_reverse.mp hc)
  simp only [trimEnd, dropEndWhile, List.reverse_append]
  rw [List.dropWhile_append_of_pos hrev]

/-- Whatever stands up to a character that is no blank is kept. -/
theorem trimEnd_append_cons (x : Text) {c : Char} (hc : isBlank c = false) (y : Text) :
    trimEnd (x ++ c :: y) = x ++ c :: trimEnd y := by
  have hdrop : (y.reverse ++ c :: x.reverse).dropWhile isBlank =
      y.reverse.dropWhile isBlank ++ c :: x.reverse := by
    rw [List.dropWhile_append]
    split
    · next hnil => simp [List.isEmpty_iff.mp hnil, hc]
    · rfl
  simp [trimEnd, dropEndWhile, hdrop]

theorem exists_of_trimEnd_ne_nil {t : Text} (h : trimEnd t ≠ []) :
    ∃ x c, isBlank c = false ∧ trimEnd t = x ++ [c] := by
  refine ⟨(trimEnd t).dropLast, (trimEnd t).getLast h, ?_, (List.dropLast_append_getLast h).symm⟩
  exact Bool.eq_false_iff.mpr (List.rdropWhile_last_not isBlank t h)

theorem trimEnd_cons_of_not_allBlank {c : Char} {t : Text} (h : ¬ AllBlank (c :: t)) :
    trimEnd (c :: t) = c :: trimEnd t := by
  obtain ⟨blanks, hblanks, ht⟩ := exists_trimEnd t
  by_cases hnil : trimEnd t = []
  · rw [hnil, List.nil_append] at ht
    have hc : isBlank c = false := by
      by_contra hc
      exact h fun d hd => (List.mem_cons.mp hd).elim (fun e => by simpa [e] using hc)
        fun hd => hblanks d (ht ▸ hd)
    exact trimEnd_append_cons [] hc t
  · obtain ⟨x, d, hd, hx⟩ := exists_of_trimEnd_ne_nil hnil
    have hend := trimEnd_append_cons (c :: x) hd []
    rw [trimEnd_nil, List.cons_append, ← hx] at hend
    conv_lhs => rw [ht, ← List.cons_append, trimEnd_append_blanks _ hblanks, hend]

/-! ## Both sides -/

theorem trim_eq_trimEnd {c : Char} (hc : isBlank c = false) (t : Text) :
    trim (c :: t) = trimEnd (c :: t) := by
  rw [trim, trimStart_cons hc]

theorem trim_append_left {blanks : Text} (h : AllBlank blanks) (t : Text) :
    trim (blanks ++ t) = trim t := by
  rw [trim, trimStart_append h, trim]

theorem trim_append_right (t : Text) {blanks : Text} (h : AllBlank blanks) :
    trim (t ++ blanks) = trim t := by
  obtain ⟨left, hleft, ht⟩ := exists_trimStart t
  rw [ht, List.append_assoc, trim_append_left hleft, trim_append_left hleft]
  cases hstart : trimStart t with
  | nil =>
    have hnil : trimStart blanks = [] := by simpa [trimStart, AllBlank] using h
    simp [trim, hnil, show trimStart [] = [] from rfl]
  | cons c rest =>
    have hc := isBlank_of_trimStart hstart
    rw [List.cons_append, trim_eq_trimEnd hc, trim_eq_trimEnd hc, ← List.cons_append,
      trimEnd_append_blanks _ h]

theorem eq_append_trim (t : Text) : ∃ left right, AllBlank left ∧ AllBlank right ∧
    t = left ++ trim t ++ right := by
  obtain ⟨left, hleft, hl⟩ := exists_trimStart t
  obtain ⟨right, hright, hr⟩ := exists_trimEnd (trimStart t)
  refine ⟨left, right, hleft, hright, ?_⟩
  rw [List.append_assoc, trim, ← hr, ← hl]

theorem trim_isInfix (t : Text) : trim t <:+: t := by
  obtain ⟨left, right, -, -, ht⟩ := eq_append_trim t
  exact ⟨left, right, ht.symm⟩

theorem isBlank_head_of_trim {t rest : Text} {c : Char} (h : trim t = c :: rest) :
    isBlank c = false := by
  obtain ⟨more, hmore⟩ := trimEnd_isPrefix (trimStart t)
  have hstart : trimStart t = c :: (rest ++ more) := by
    rw [← hmore, show trimEnd (trimStart t) = c :: rest from h]
    rfl
  exact isBlank_of_trimStart hstart

theorem trimEnd_isPrefix_trimEnd {p s : Text} (h : p <+: s) : trimEnd p <+: trimEnd s := by
  by_cases hnil : trimEnd p = []
  · rw [hnil]
    exact List.nil_prefix
  · obtain ⟨x, c, hc, hx⟩ := exists_of_trimEnd_ne_nil hnil
    obtain ⟨r, hr⟩ := (trimEnd_isPrefix p).trans h
    rw [← hr, hx, List.append_assoc, List.singleton_append, trimEnd_append_cons x hc]
    exact ⟨trimEnd r, by simp⟩

/-- Trimming keeps the order of initial parts. -/
theorem trim_isPrefix_trim {p s : Text} (h : p <+: s) : trim p <+: trim s := by
  obtain ⟨blanks, hblanks, hp⟩ := exists_trimStart p
  obtain ⟨r, hr⟩ := h
  cases hstart : trimStart p with
  | nil => simp [trim, hstart]
  | cons c rest =>
    have hc := isBlank_of_trimStart hstart
    have hs : trimStart s = c :: (rest ++ r) := by
      rw [← hr, hp, hstart, List.append_assoc, trimStart_append hblanks, List.cons_append,
        trimStart_cons hc]
    rw [trim, trim, hstart, hs]
    exact trimEnd_isPrefix_trimEnd ⟨r, rfl⟩

theorem trim_trimEnd (t : Text) : trim (trimEnd t) = trim t := by
  obtain ⟨blanks, hblanks, ht⟩ := exists_trimEnd t
  conv_rhs => rw [ht, trim_append_right _ hblanks]

structure PlainEnds (t : Text) : Prop where
  ne_nil : t ≠ []
  head : ∀ c y, t = c :: y → isBlank c = false
  last : ∀ x c, t = x ++ [c] → isBlank c = false

theorem plainEnds_trim {t : Text} (h : trim t ≠ []) : PlainEnds (trim t) where
  ne_nil := h
  head := fun _ _ hc => isBlank_head_of_trim hc
  last := by
    intro x c hx
    obtain ⟨y, d, hd, hy⟩ := exists_of_trimEnd_ne_nil (t := trimStart t) h
    obtain ⟨-, hcd⟩ := List.append_inj' (hx.symm.trans hy) rfl
    rwa [(List.cons.inj hcd).1]

theorem PlainEnds.trim_eq {t : Text} (h : PlainEnds t) : trim t = t := by
  obtain ⟨c, y, hc⟩ := List.exists_cons_of_ne_nil h.ne_nil
  obtain ⟨x, d, hd⟩ := (List.eq_nil_or_concat' t).resolve_left h.ne_nil
  have hend := trimEnd_append_cons x (h.last x d hd) []
  rw [trimEnd_nil, ← hd] at hend
  rw [hc, trim_eq_trimEnd (h.head c y hc), ← hc, hend]

@[simp] theorem trim_trim (t : Text) : trim (trim t) = trim t := by
  by_cases hnil : trim t = []
  · rw [hnil]
    rfl
  · exact (plainEnds_trim hnil).trim_eq

/-- Trimming leaves every part with plain ends. -/
theorem PlainEnds.infix_trim {part t : Text} (h : PlainEnds part) (hin : part <:+: t) :
    part <:+: trim t := by
  obtain ⟨left, right, hleft, hright, ht⟩ := eq_append_trim t
  obtain ⟨c, y, hc⟩ := List.exists_cons_of_ne_nil h.ne_nil
  obtain ⟨x, d, hd⟩ := (List.eq_nil_or_concat' part).resolve_left h.ne_nil
  have hcleft : c ∉ left := fun hm => by simpa [hleft c hm] using h.head c y hc
  have hdright : d ∉ right.reverse := fun hm => by
    simpa [hright d (List.mem_reverse.mp hm)] using h.last x d hd
  rw [ht, List.append_assoc, hc] at hin
  have hbehind := infix_append_of_not_mem hcleft hin
  rw [← hc, ← List.reverse_infix, List.reverse_append, hd, List.reverse_append,
    List.reverse_singleton, List.singleton_append] at hbehind
  have hinside := infix_append_of_not_mem hdright hbehind
  rw [← List.reverse_infix, hd, List.reverse_append, List.reverse_singleton]
  exact hinside

/-! ## Items between commas -/

theorem commaItems_append_comma (a b : Text) :
    commaItems (a ++ ',' :: b) = commaItems a ++ commaItems b := by
  simp [commaItems, List.splitOn_append_cons_self]

theorem commaItems_of_not_mem {u : Text} (h : ',' ∉ u) :
    commaItems u = if trim u = [] then [] else [trim u] := by
  by_cases hu : trim u = [] <;> simp [commaItems, List.splitOn_eq_singleton h, hu]

@[simp] theorem commaItems_nil : commaItems [] = [] := by
  simp [commaItems_of_not_mem, trim, trimStart]

/-- The first comma splits a text, unless it has none. -/
theorem comma_not_mem_or_split (t : Text) :
    ',' ∉ t ∨ ∃ u rest, ',' ∉ u ∧ t = u ++ ',' :: rest := by
  by_cases h : ',' ∈ t
  · obtain ⟨u, rest, rfl, hu⟩ := List.eq_append_cons_of_mem h
    exact .inr ⟨u, rest, hu, rfl⟩
  · exact .inl h

/-- Blanks behind a list add nothing to its items. -/
theorem commaItems_append_blanks (t : Text) {blanks : Text} (h : AllBlank blanks) :
    commaItems (t ++ blanks) = commaItems t := by
  have hcomma : ',' ∉ blanks := fun hm => by simpa using h ',' hm
  induction hn : t.length using Nat.strong_induction_on generalizing t with
  | _ n ih =>
    rcases comma_not_mem_or_split t with ht | ⟨u, rest, -, rfl⟩
    · rw [commaItems_of_not_mem (by simp [ht, hcomma]), commaItems_of_not_mem ht,
        trim_append_right t h]
    · rw [List.append_assoc, List.cons_append, commaItems_append_comma, commaItems_append_comma,
        ih rest.length (by simp at hn; omega) rest rfl]

theorem filter_trim {p : Char → Bool} (hp : ∀ c, isBlank c → p c = false) (t : Text) :
    (trim t).filter p = t.filter p := by
  have hnone {blanks : Text} (h : AllBlank blanks) : blanks.filter p = [] :=
    List.filter_eq_nil_iff.mpr fun c hc => by simp [hp c (h c hc)]
  obtain ⟨left, right, hleft, hright, ht⟩ := eq_append_trim t
  conv_rhs => rw [ht]
  simp [hnone hleft, hnone hright]

/-- The items hold all characters of a list but blanks and commas. -/
theorem filter_flatten_commaItems {p : Char → Bool} (hp : ∀ c, isBlank c → p c = false)
    (hcomma : p ',' = false) (t : Text) : (commaItems t).flatten.filter p = t.filter p := by
  induction hn : t.length using Nat.strong_induction_on generalizing t with
  | _ n ih =>
    rcases comma_not_mem_or_split t with ht | ⟨u, rest, -, rfl⟩
    · rw [commaItems_of_not_mem ht, ← filter_trim hp t]
      split
      · next hnil => simp [hnil]
      · simp
    · rw [commaItems_append_comma, List.flatten_append, List.filter_append,
        ih u.length (by simp at hn; omega) u rfl, ih rest.length (by simp at hn; omega) rest rfl]
      simp [hcomma]

/-- Where the comma-separated piece of an item stands: behind a comma or at the start. -/
def AtItemStart (a : Text) : Prop := a = [] ∨ ∃ b, a = b ++ [',']

/-- Where the comma-separated piece of an item ends: before a comma or at the end. -/
def AtItemEnd (b : Text) : Prop := b = [] ∨ ∃ c, b = ',' :: c

theorem commaItems_append {a : Text} (h : AtItemStart a) (b : Text) :
    commaItems (a ++ b) = commaItems a ++ commaItems b := by
  rcases h with rfl | ⟨a', rfl⟩
  · simp
  · rw [List.append_assoc, List.singleton_append, commaItems_append_comma,
      show a' ++ [','] = a' ++ ',' :: [] from rfl, commaItems_append_comma]
    simp

theorem commaItems_append_of_atItemEnd (u : Text) {b : Text} (h : AtItemEnd b) :
    commaItems (u ++ b) = commaItems u ++ commaItems b := by
  rcases h with rfl | ⟨c, rfl⟩
  · simp
  · have hhead := commaItems_append_comma [] c
    rw [List.nil_append, commaItems_nil, List.nil_append] at hhead
    rw [commaItems_append_comma, hhead]

theorem AtItemStart.append_comma {a : Text} (h : AtItemStart a) (u : Text) :
    AtItemStart (u ++ ',' :: a) := by
  rcases h with rfl | ⟨b, rfl⟩
  · exact .inr ⟨u, rfl⟩
  · exact .inr ⟨u ++ ',' :: b, by simp⟩

/-- Every item has its own piece of the text, and the items before it stand before that piece. -/
theorem exists_piece_of_commaItems {t : Text} {before after : List Text} {item : Text}
    (h : commaItems t = before ++ item :: after) :
    ∃ a u b, t = a ++ u ++ b ∧ AtItemStart a ∧ commaItems a = before ∧ ',' ∉ u ∧
      trim u = item ∧ AtItemEnd b := by
  induction hn : t.length using Nat.strong_induction_on generalizing t before with
  | _ n ih =>
    rcases comma_not_mem_or_split t with hcomma | ⟨u, rest, hu, rfl⟩
    · rw [commaItems_of_not_mem hcomma] at h
      split at h
      · simp at h
      · obtain ⟨rfl, hitem⟩ : before = [] ∧ trim t = item := by
          cases before <;> simp_all
        exact ⟨[], t, [], by simp, .inl rfl, by simp, hcomma, hitem, .inl rfl⟩
    · -- the item is found in the rest, unless it is the first piece itself
      have hrest {before' : List Text} (hb : commaItems rest = before' ++ item :: after) :
          ∃ a v b, u ++ ',' :: rest = a ++ v ++ b ∧ AtItemStart a ∧
            commaItems a = commaItems u ++ before' ∧ ',' ∉ v ∧ trim v = item ∧ AtItemEnd b := by
        obtain ⟨a, v, b, hab, hstart, ha, hv, htrim, hend⟩ :=
          ih rest.length (by simp at hn; omega) hb rfl
        exact ⟨u ++ ',' :: a, v, b, by simp [hab], hstart.append_comma u,
          by rw [commaItems_append_comma, ha], hv, htrim, hend⟩
      rw [commaItems_append_comma] at h
      by_cases htrim : trim u = []
      · have hnone : commaItems u = [] := by simp [commaItems_of_not_mem hu, htrim]
        rw [hnone, List.nil_append] at h
        simpa [hnone] using hrest h
      · have hone : commaItems u = [trim u] := by simp [commaItems_of_not_mem hu, htrim]
        rw [hone, List.singleton_append] at h
        cases before with
        | nil =>
          exact ⟨[], u, ',' :: rest, by simp, .inl rfl, by simp, hu, (List.cons.inj h).1,
            .inr ⟨rest, rfl⟩⟩
        | cons first before =>
          obtain ⟨hfirst, htail⟩ := List.cons.inj h
          simpa [hone, hfirst] using hrest htail

theorem infix_of_mem_commaItems {t item : Text} (h : item ∈ commaItems t) : item <:+: t := by
  obtain ⟨before, after, hitems⟩ := List.append_of_mem h
  obtain ⟨a, u, b, rfl, -, -, -, rfl, -⟩ := exists_piece_of_commaItems hitems
  exact (trim_isInfix u).trans ⟨a, b, rfl⟩

theorem comma_not_mem_of_mem_commaItems {t item : Text} (h : item ∈ commaItems t) : ',' ∉ item := by
  obtain ⟨before, after, hitems⟩ := List.append_of_mem h
  obtain ⟨a, u, b, -, -, -, hu, rfl, -⟩ := exists_piece_of_commaItems hitems
  exact fun hm => hu ((trim_isInfix u).subset hm)

theorem plainEnds_of_mem_commaItems {t item : Text} (h : item ∈ commaItems t) :
    PlainEnds item := by
  obtain ⟨hmap, hne⟩ := List.mem_filter.mp h
  obtain ⟨u, -, rfl⟩ := List.mem_map.mp hmap
  exact plainEnds_trim (by simpa using hne)

/-- A part with plain ends and without a comma lies in one of the items. -/
theorem PlainEnds.exists_mem_commaItems {part t : Text} (h : PlainEnds part) (hcomma : ',' ∉ part)
    (hin : part <:+: t) : ∃ item ∈ commaItems t, part <:+: item := by
  induction hn : t.length using Nat.strong_induction_on generalizing t with
  | _ n ih =>
    rcases comma_not_mem_or_split t with ht | ⟨u, rest, hu, rfl⟩
    · have htrim := h.infix_trim hin
      have hne : trim t ≠ [] := by
        intro hnil
        rw [hnil] at htrim
        exact h.ne_nil (List.infix_nil.mp htrim)
      exact ⟨trim t, by simp [commaItems_of_not_mem ht, hne], htrim⟩
    · rw [commaItems_append_comma]
      rcases (infix_append_cons_iff hcomma).mp hin with hin | hin
      · obtain ⟨item, hitem, hm⟩ := ih u.length (by simp at hn; omega) hin rfl
        exact ⟨item, List.mem_append_left _ hitem, hm⟩
      · obtain ⟨item, hitem, hm⟩ := ih rest.length (by simp at hn; omega) hin rfl
        exact ⟨item, List.mem_append_right _ hitem, hm⟩

end LintDirectives.Text
