import LintDirectives.Proofs.GluedCodes

/-!
# The repaired form of a glued code

A glued code is cut at its first separator: the first note mark with all blanks around it, or the
first run of blanks where there is no note mark. A repair puts one space on each side of a note mark
there and leaves every other character. The repaired code is malformed in its turn, since its note is
part of it, and its first separator is the one that was put in, so a second repair changes nothing.
-/

namespace LintDirectives

open Text DirectiveGrammar

/-! ## Separators -/

/-- The leftmost part of a text with a property, and the longest one of those that start there. -/
structure FirstMatch (IsMatch : Text → Prop) (t before part after : Text) : Prop where
  eq : t = before ++ (part ++ after)
  isMatch : IsMatch part
  leftmost : ∀ x part' y, t = x ++ (part' ++ y) → IsMatch part' → before.length ≤ x.length
  longest : ∀ part' y, t = before ++ (part' ++ y) → IsMatch part' → part'.length ≤ part.length

def IsMarkBehindBlanks (s : Text) : Prop := ∃ left, AllBlank left ∧ s = left ++ noteMark

/-- What separates a note from its code: a note mark with any blanks on both sides, or else one or
more blanks. -/
def GlueKind.IsSeparator : GlueKind → Text → Prop
  | .malformed, s => ∃ left right, AllBlank left ∧ AllBlank right ∧ s = left ++ (noteMark ++ right)
  | .missing, s => s ≠ [] ∧ AllBlank s

def withoutBlanks (t : Text) : Text := t.filter (!isBlank ·)

@[simp] theorem withoutBlanks_append (a b : Text) :
    withoutBlanks (a ++ b) = withoutBlanks a ++ withoutBlanks b := List.filter_append ..

theorem withoutBlanks_eq_nil {t : Text} (h : AllBlank t) : withoutBlanks t = [] :=
  List.filter_eq_nil_iff.mpr fun c hc => by simp [h c hc]

namespace GlueKind.IsSeparator

variable {kind : GlueKind} {s blanks : Text}

theorem append_blanks (h : kind.IsSeparator s) (hblanks : AllBlank blanks) :
    kind.IsSeparator (s ++ blanks) := by
  cases kind with
  | malformed =>
    obtain ⟨left, right, hleft, hright, rfl⟩ := h
    exact ⟨left, right ++ blanks, hleft, hright.append hblanks, by simp⟩
  | missing => exact ⟨by simp [h.1], h.2.append hblanks⟩

theorem blanks_append (h : kind.IsSeparator s) (hblanks : AllBlank blanks) :
    kind.IsSeparator (blanks ++ s) := by
  cases kind with
  | malformed =>
    obtain ⟨left, right, hleft, hright, rfl⟩ := h
    exact ⟨blanks ++ left, right, hblanks.append hleft, hright, by simp⟩
  | missing => exact ⟨by simp [h.1], hblanks.append h.2⟩

theorem withoutBlanks_malformed (h : IsSeparator .malformed s) : withoutBlanks s = noteMark := by
  obtain ⟨left, right, hleft, hright, rfl⟩ := h
  simp only [withoutBlanks_append, withoutBlanks_eq_nil hleft, withoutBlanks_eq_nil hright]
  decide +kernel

end GlueKind.IsSeparator

namespace FirstMatch

variable {kind : GlueKind} {t before s after : Text}

/-- A separator takes in the blanks before it. -/
theorem trimEnd_before (h : FirstMatch kind.IsSeparator t before s after) :
    trimEnd before = before := by
  obtain ⟨blanks, hblanks, hbefore⟩ := exists_trimEnd before
  have ht : t = trimEnd before ++ ((blanks ++ s) ++ after) := by
    conv_lhs => rw [h.eq, hbefore]
    simp
  have hle := h.leftmost _ _ _ ht (h.isMatch.blanks_append hblanks)
  exact (trimEnd_isPrefix before).eq_of_length_le hle

/-- A separator takes in the blanks behind it. -/
theorem trimStart_after (h : FirstMatch kind.IsSeparator t before s after) :
    trimStart after = after := by
  obtain ⟨blanks, hblanks, hafter⟩ := exists_trimStart after
  have ht : t = before ++ ((s ++ blanks) ++ trimStart after) := by
    conv_lhs => rw [h.eq, hafter]
    simp
  have hle := h.longest _ _ ht (h.isMatch.append_blanks hblanks)
  have hnil : blanks = [] := by
    rw [List.length_append] at hle
    exact List.eq_nil_of_length_eq_zero (by omega)
  rw [hnil, List.nil_append] at hafter
  exact hafter.symm

theorem not_noteMark_before (h : FirstMatch (GlueKind.IsSeparator .malformed) t before s after) :
    ¬ noteMark <:+: before := by
  rintro ⟨x, y, hxy⟩
  have ht : t = x ++ (noteMark ++ (y ++ (s ++ after))) := by
    rw [h.eq, ← hxy]
    simp
  have hle := h.leftmost _ _ _ ht ⟨[], [], allBlank_nil, allBlank_nil, rfl⟩
  have hlen := congrArg List.length hxy
  simp only [noteMark, List.length_append, List.length_cons, List.length_nil] at hlen
  omega

end FirstMatch

/-! ## The first separator of a glued code -/

private theorem length_trimStart_le {blanks : Text} (h : AllBlank blanks) (y : Text) :
    (trimStart (blanks ++ y)).length ≤ y.length := by
  rw [trimStart_append h]
  exact (List.dropWhile_suffix isBlank).length_le

section Cut

variable {text w rest : Text}

/-- The first note mark has the code, and maybe blanks, in front of it. -/
private theorem exists_blanks_of_cut? (hcut : cut? noteMark text = some (w, rest)) :
    ∃ blanks, AllBlank blanks ∧ text = trimEnd w ++ (blanks ++ (noteMark ++ rest)) := by
  obtain ⟨blanks, hblanks, hw⟩ := exists_trimEnd w
  refine ⟨blanks, hblanks, ?_⟩
  conv_lhs => rw [eq_append_of_cut? hcut, hw]
  simp

/-- No note mark with blanks before it starts in front of the first note mark and its blanks. -/
private theorem length_trimEnd_le (hcut : cut? noteMark text = some (w, rest)) {x left y : Text}
    (hleft : AllBlank left) (h : text = x ++ (left ++ (noteMark ++ y))) :
    (trimEnd w).length ≤ x.length := by
  have hocc : (x ++ left) ++ noteMark <+: text := ⟨y, by simp [h]⟩
  have hw : w <+: text := ⟨noteMark ++ rest, by rw [eq_append_of_cut? hcut]; simp⟩
  have hpre : w <+: x ++ left := List.prefix_of_prefix_length_le hw
    ((List.prefix_append _ noteMark).trans hocc) (length_le_of_cut? hcut hocc)
  have htrim := trimEnd_isPrefix_trimEnd hpre
  rw [trimEnd_append_blanks x hleft] at htrim
  exact htrim.length_le.trans (trimEnd_isPrefix x).length_le

private theorem eq_behind_noteMark {left left' y y' : Text} (hleft : AllBlank left)
    (hleft' : AllBlank left') (h : left ++ (noteMark ++ y) = left' ++ (noteMark ++ y')) : y = y' := by
  have hstart (z : Text) : trimStart (noteMark ++ z) = noteMark ++ z := trimStart_cons (by simp) _
  have htrim := congrArg trimStart h
  rwa [trimStart_append hleft, trimStart_append hleft', hstart, hstart,
    List.append_cancel_left_eq] at htrim

/-- The code ends where the first note mark with blanks before it starts. -/
theorem exists_firstMatch_markBehindBlanks (hcut : cut? noteMark text = some (w, rest)) :
    ∃ s, FirstMatch IsMarkBehindBlanks text (trimEnd w) s rest := by
  obtain ⟨blanks, hblanks, htext⟩ := exists_blanks_of_cut? hcut
  refine ⟨blanks ++ noteMark, by simpa using htext, ⟨blanks, hblanks, rfl⟩, ?_, ?_⟩
  · rintro x - y h ⟨left, hleft, rfl⟩
    exact length_trimEnd_le hcut hleft (by simpa using h)
  · rintro - y h ⟨left, hleft, rfl⟩
    rw [htext, List.append_cancel_left_eq, List.append_assoc] at h
    have hrest := eq_behind_noteMark hblanks hleft h
    have hlen := congrArg List.length h
    simp only [List.length_append, hrest] at hlen ⊢
    omega

/-- The code and the note stand on both sides of the first note mark and its blanks. -/
theorem exists_firstMatch_malformed (hcut : cut? noteMark text = some (w, rest)) :
    ∃ s, FirstMatch (GlueKind.IsSeparator .malformed) text (trimEnd w) s (trimStart rest) := by
  obtain ⟨blanks, hblanks, htext⟩ := exists_blanks_of_cut? hcut
  obtain ⟨gap, hgap, hrest⟩ := exists_trimStart rest
  refine ⟨blanks ++ (noteMark ++ gap), ?_, ⟨blanks, gap, hblanks, hgap, rfl⟩, ?_, ?_⟩
  · rw [htext, List.append_assoc, List.append_assoc, ← hrest]
  · rintro x - y h ⟨left, right, hleft, -, rfl⟩
    exact length_trimEnd_le hcut hleft (y := right ++ y) (by simpa using h)
  · rintro - y h ⟨left, right, hleft, hright, rfl⟩
    rw [htext, List.append_cancel_left_eq, List.append_assoc, List.append_assoc] at h
    -- behind the mark the blanks of the other match are among those that were dropped
    have hbehind : rest = right ++ y := eq_behind_noteMark hblanks hleft h
    have hshort : (trimStart rest).length ≤ y.length := hbehind ▸ length_trimStart_le hright y
    have hlen := congrArg List.length h
    have hsplit := congrArg List.length hrest
    have hsplit' := congrArg List.length hbehind
    simp only [List.length_append] at hlen hsplit hsplit' ⊢
    omega

end Cut

/-- Without a note mark the code and the note stand on both sides of the first blanks. -/
theorem exists_firstMatch_missing {code rest : Text} {b : Char} (hb : isBlank b)
    (hplain : ∀ c ∈ code, isBlank c = false) :
    ∃ s, FirstMatch (GlueKind.IsSeparator .missing) (code ++ b :: rest) code s
      (trimStart (b :: rest)) := by
  obtain ⟨blanks, hblanks, hrest⟩ := exists_trimStart (b :: rest)
  have hne : blanks ≠ [] := by
    rintro rfl
    simpa [hb] using isBlank_of_trimStart hrest.symm
  refine ⟨blanks, by rw [← hrest], ⟨hne, hblanks⟩, ?_, ?_⟩
  · rintro x part y h ⟨hpart, hall⟩
    by_contra hlt
    obtain ⟨c, part', rfl⟩ := List.exists_cons_of_ne_nil hpart
    have hocc : x ++ [c] <+: code ++ b :: rest := ⟨part' ++ y, by simp [h]⟩
    have hx : x ++ [c] <+: code := List.prefix_of_prefix_length_le hocc
      (List.prefix_append code (b :: rest)) (by simp; omega)
    have hc := hplain c (hx.subset (by simp))
    simp [hall c (by simp)] at hc
  · rintro part y h ⟨-, hall⟩
    rw [List.append_cancel_left_eq] at h
    have hshort : (trimStart (b :: rest)).length ≤ y.length := h ▸ length_trimStart_le hall y
    have hlen := congrArg List.length h
    have hsplit := congrArg List.length hrest
    simp only [List.length_append] at hlen hsplit
    omega

namespace GluedCode

variable {g : GluedCode}

/-- A glued code is its code proper and its note with the first separator between them. -/
theorem exists_firstMatch (h : ofCode? g.text = some g) :
    ∃ s, FirstMatch g.kind.IsSeparator g.text g.code s g.note := by
  cases hkind : g.kind with
  | malformed =>
    obtain ⟨w, rest, hcut, hsplit⟩ := exists_split?_malformed h hkind
    rw [code_of_split? hsplit, note_of_split? hsplit]
    exact exists_firstMatch_malformed hcut
  | missing =>
    have hblank := ((ofCode?_eq_some_iff.mp h).2.2.resolve_left (by simp [hkind])).2.2
    obtain ⟨code, b, rest, htext, hb, hplain, hsplit⟩ := exists_split?_missing hblank
    have hg : g = ⟨g.text, .missing⟩ := by rw [← hkind]
    rw [← hg] at hsplit
    rw [code_of_split? hsplit, note_of_split? hsplit, htext]
    exact exists_firstMatch_missing hb hplain

theorem not_noteMark_code (h : ofCode? g.text = some g) : ¬ noteMark <:+: g.code := by
  obtain ⟨s, hs⟩ := exists_firstMatch h
  cases hkind : g.kind with
  | malformed =>
    rw [hkind] at hs
    exact hs.not_noteMark_before
  | missing =>
    have hnone := ((ofCode?_eq_some_iff.mp h).2.2.resolve_left (by simp [hkind])).2.1
    have hcode : g.code <:+: g.text := by
      conv_rhs => rw [hs.eq]
      exact (List.prefix_append _ _).isInfix
    exact fun hm => hnone (hm.trans hcode)

/-! ## Repairing again -/

theorem repaired_eq (h : ofCode? g.text = some g) : g.repaired = g.code ++ " -- " ++ g.note := by
  obtain ⟨mid, d, hsplit, -⟩ := exists_split? h
  rw [repaired_of_split? hsplit]
  simp

/-- The note mark that a repair puts in is the first one. -/
theorem split?_spaced {code note : Text} (hmark : ¬ noteMark <:+: code)
    (hcode : trimEnd code = code) (hnote : trimStart note = note) :
    (GluedCode.mk (code ++ " -- " ++ note) .malformed).split? = some (code, note) := by
  have hspace : AllBlank [' '] := by simp [AllBlank]
  have htext : code ++ " -- " ++ note = (code ++ [' ']) ++ noteMark ++ (' ' :: note) := by
    simp [noteMark]
  have hcut : cut? noteMark ((code ++ [' ']) ++ noteMark ++ (' ' :: note)) =
      some (code ++ [' '], ' ' :: note) := by
    refine cut?_append fun x hx => ?_
    by_contra hlt
    have hpre : x ++ noteMark <+: code ++ ' ' :: ['-'] :=
      List.prefix_of_prefix_length_le hx ⟨'-' :: ' ' :: note, by simp [noteMark]⟩
        (by simp [noteMark] at hlt ⊢; omega)
    have hin := (List.suffix_append x noteMark).isInfix.trans hpre.isInfix
    rcases (infix_append_cons_iff (by decide)).mp hin with hin | hin
    · exact hmark hin
    · exact absurd hin (by decide)
  have hafter : trimStart (' ' :: note) = note := (trimStart_append hspace note).trans hnote
  rw [htext, split?_malformed hcut, trimEnd_append_blanks code hspace, hcode, hafter]

theorem split?_repaired (h : ofCode? g.text = some g) :
    (GluedCode.mk g.repaired .malformed).split? = some (g.code, g.note) := by
  obtain ⟨s, hs⟩ := exists_firstMatch h
  rw [repaired_eq h]
  exact split?_spaced (not_noteMark_code h) hs.trimEnd_before hs.trimStart_after

theorem repaired_repaired (h : ofCode? g.text = some g) :
    (GluedCode.mk g.repaired .malformed).repaired = g.repaired := by
  obtain ⟨mid, d, hsplit, -⟩ := exists_split? h
  rw [repaired_of_split? (split?_repaired h), repaired_of_split? hsplit]

theorem ofCode?_repaired (h : ofCode? g.text = some g) :
    ofCode? g.repaired = some ⟨g.repaired, .malformed⟩ := by
  have hmark : noteMark <:+: g.repaired := by
    rw [repaired_eq h]
    exact ⟨g.code ++ [' '], ' ' :: g.note, by simp [noteMark]⟩
  have hwild : g.repaired ≠ wildcard := by
    intro heq
    rw [heq] at hmark
    exact absurd hmark (by decide)
  exact ofCode?_eq_some_iff.mpr ⟨rfl, hwild, .inl ⟨rfl, hmark⟩⟩

theorem withoutBlanks_repaired (h : ofCode? g.text = some g) :
    withoutBlanks g.repaired = withoutBlanks g.code ++ (noteMark ++ withoutBlanks g.note) := by
  have hmark : withoutBlanks " -- " = noteMark := by decide +kernel
  rw [repaired_eq h, withoutBlanks_append, withoutBlanks_append, hmark, List.append_assoc]

theorem withoutBlanks_text_of_malformed (h : ofCode? g.text = some g) (hkind : g.kind = .malformed) :
    withoutBlanks g.text = withoutBlanks g.code ++ (noteMark ++ withoutBlanks g.note) := by
  obtain ⟨s, hs⟩ := exists_firstMatch h
  rw [hkind] at hs
  conv_lhs => rw [hs.eq]
  rw [withoutBlanks_append, withoutBlanks_append, hs.isMatch.withoutBlanks_malformed]

theorem withoutBlanks_text_of_missing (h : ofCode? g.text = some g) (hkind : g.kind = .missing) :
    withoutBlanks g.text = withoutBlanks g.code ++ withoutBlanks g.note := by
  obtain ⟨s, hs⟩ := exists_firstMatch h
  rw [hkind] at hs
  conv_lhs => rw [hs.eq]
  rw [withoutBlanks_append, withoutBlanks_append, withoutBlanks_eq_nil hs.isMatch.2, List.nil_append]

end GluedCode

theorem Directive.ofCode?_of_mem_gluedCodes {d : Directive} {g : GluedCode} (h : g ∈ d.gluedCodes) :
    GluedCode.ofCode? g.text = some g := by
  obtain ⟨code, -, hcode⟩ := List.mem_filterMap.mp h
  rwa [(GluedCode.ofCode?_eq_some_iff.mp hcode).1]

/-- A repair puts the canonical note mark in the place of the first separator, where the code ends by
either of the two ways to cut it, and changes no other character but blanks. The repaired code is
malformed and stays as it is when it is repaired again. -/
theorem repaired_form_is_canonical {d : Directive} {g : GluedCode} (h : g ∈ d.gluedCodes) :
    (∃ s, FirstMatch g.kind.IsSeparator g.text g.code s g.note) ∧
    (g.kind = .malformed → ∃ s rest, FirstMatch IsMarkBehindBlanks g.text g.code s rest) ∧
    g.repaired = g.code ++ " -- " ++ g.note ∧
    (g.kind = .malformed → withoutBlanks g.repaired = withoutBlanks g.text) ∧
    (g.kind = .missing →
      withoutBlanks g.repaired = withoutBlanks (g.code ++ noteMark ++ g.note) ∧
      withoutBlanks g.text = withoutBlanks (g.code ++ g.note)) ∧
    ({ d with codes := [g.repaired] } : Directive).gluedCodes = [⟨g.repaired, .malformed⟩] ∧
    (GluedCode.mk g.repaired .malformed).repaired = g.repaired := by
  have hglued := Directive.ofCode?_of_mem_gluedCodes h
  refine ⟨GluedCode.exists_firstMatch hglued, ?_, GluedCode.repaired_eq hglued, ?_, ?_, ?_,
    GluedCode.repaired_repaired hglued⟩
  · intro hkind
    obtain ⟨w, rest, hcut, hsplit⟩ := GluedCode.exists_split?_malformed hglued hkind
    rw [GluedCode.code_of_split? hsplit]
    obtain ⟨s, hs⟩ := exists_firstMatch_markBehindBlanks hcut
    exact ⟨s, rest, hs⟩
  · intro hkind
    rw [GluedCode.withoutBlanks_repaired hglued,
      GluedCode.withoutBlanks_text_of_malformed hglued hkind]
  · intro hkind
    have hmark : withoutBlanks noteMark = noteMark := by decide +kernel
    rw [GluedCode.withoutBlanks_repaired hglued,
      GluedCode.withoutBlanks_text_of_missing hglued hkind]
    simp [hmark]
  · simp [Directive.gluedCodes, GluedCode.ofCode?_repaired hglued]

private def twiceGlued : Directive where
  comment := { kind := .ignore, line := 1, column := 1, index := 0, raw := "# lint:ignore A--- -b -- c" }
  isBare := false
  codes := ["A--- -b", "*", "B\u2003 c"]

/-- A note that starts with a hyphen after a note mark of three, and a note behind two blanks. -/
theorem third_hyphen_goes_to_note :
    twiceGlued.gluedCodes = [⟨"A--- -b", .malformed⟩, ⟨"B\u2003 c", .missing⟩] ∧
    (GluedCode.mk "A--- -b" .malformed).repaired = "A -- - -b" ∧
    (∃ s rest, FirstMatch IsMarkBehindBlanks "A--- -b" ['A'] s rest) ∧
    withoutBlanks "A -- - -b" = withoutBlanks "A--- -b" ∧
    (GluedCode.mk "A -- - -b" .malformed).repaired = "A -- - -b" ∧
    (GluedCode.mk "B\u2003 c" .missing).repaired = "B -- c" ∧
    withoutBlanks "B\u2003 c" = withoutBlanks "Bc" := by
  have hcodes : twiceGlued.gluedCodes = [⟨"A--- -b", .malformed⟩, ⟨"B\u2003 c", .missing⟩] := by
    decide +kernel
  have hmarked : ⟨"A--- -b", .malformed⟩ ∈ twiceGlued.gluedCodes := by simp [hcodes]
  have hblank : ⟨"B\u2003 c", .missing⟩ ∈ twiceGlued.gluedCodes := by simp [hcodes]
  obtain ⟨-, hcut, -, hkept, -, -, hagain⟩ := repaired_form_is_canonical hmarked
  obtain ⟨-, -, hrepaired, -, hrest, -, -⟩ := repaired_form_is_canonical hblank
  have hcode : (GluedCode.mk "A--- -b" .malformed).code = ['A'] := by decide +kernel
  have hform : (GluedCode.mk "A--- -b" .malformed).repaired = "A -- - -b" := by decide +kernel
  have hparts : (GluedCode.mk "B\u2003 c" .missing).code = ['B'] ∧
      (GluedCode.mk "B\u2003 c" .missing).note = ['c'] := by decide +kernel
  have hfirst := hcut rfl
  have hsame := hkept rfl
  have htext := (hrest rfl).2
  rw [hcode] at hfirst
  rw [hform] at hsame hagain
  rw [hparts.1, hparts.2] at hrepaired htext
  exact ⟨hcodes, hform, hfirst, hsame, hagain, hrepaired, htext⟩

end LintDirectives
