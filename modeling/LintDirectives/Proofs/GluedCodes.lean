import LintDirectives.NoteSeparator
import LintDirectives.Proofs.DirectiveLayout

/-!
# Glued codes in their comments

A code that holds a note is the code proper, blanks or a note mark, and the note. The only such code
of a directive has its own piece in the list of codes, and the codes before it are clean. So a
comment with one of them is laid out around it.
-/

namespace LintDirectives

open Text CommentText DirectiveGrammar

/-- Up to one hyphen behind the first note mark's place there is no note mark. -/
theorem not_noteMark_of_cut? {text w rest : Text}
    (hcut : cut? noteMark text = some (w, rest)) : ¬ noteMark <:+: w ++ ['-'] := by
  rintro ⟨x, y, hxy⟩
  have hpre : x ++ noteMark <+: text := by
    rw [eq_append_of_cut? hcut]
    exact (List.IsPrefix.trans ⟨y, hxy⟩ ⟨'-' :: rest, by simp [noteMark]⟩)
  have hle := length_le_of_cut? hcut hpre
  have hlen := congrArg List.length hxy
  simp only [noteMark, List.length_append, List.length_cons, List.length_nil] at hlen
  omega

namespace GluedCode

/-! ## Codes with and without a note -/

theorem ofCode?_eq (code : Text) : ofCode? code =
    if code = wildcard then none
    else if noteMark <:+: code then some ⟨code, .malformed⟩
    else if ' ' ∈ code ∨ '\t' ∈ code then some ⟨code, .missing⟩
    else none := by
  have hany : (code.any fun c => c == ' ' || c == '\t') = true ↔ ' ' ∈ code ∨ '\t' ∈ code := by
    simp only [List.any_eq_true, Bool.or_eq_true, beq_iff_eq]
    constructor
    · rintro ⟨c, hc, rfl | rfl⟩
      · exact .inl hc
      · exact .inr hc
    · rintro (h | h)
      · exact ⟨_, h, .inl rfl⟩
      · exact ⟨_, h, .inr rfl⟩
  simp only [ofCode?, beq_iff_eq, hany, occursIn_iff]

theorem ofCode?_eq_none_iff {code : Text} : ofCode? code = none ↔
    code = wildcard ∨ (¬ noteMark <:+: code ∧ ' ' ∉ code ∧ '\t' ∉ code) := by
  rw [ofCode?_eq]
  split
  · simp_all
  · split
    · simp_all
    · split
      · next h => rcases h with h | h <;> simp_all
      · simp_all

theorem ofCode?_eq_some_iff {code : Text} {g : GluedCode} : ofCode? code = some g ↔
    g.text = code ∧ code ≠ wildcard ∧
      (g.kind = .malformed ∧ noteMark <:+: code ∨
        g.kind = .missing ∧ ¬ noteMark <:+: code ∧ (' ' ∈ code ∨ '\t' ∈ code)) := by
  obtain ⟨text, kind⟩ := g
  rw [ofCode?_eq]
  split
  · simp_all
  · split
    · cases kind <;> simp_all [eq_comm]
    · split
      · cases kind <;> simp_all [eq_comm]
      · simp_all

@[simp] theorem ofCode?_wildcard : ofCode? wildcard = none :=
  ofCode?_eq_none_iff.mpr (.inl rfl)

/-- A part of a code without a note has no note either. -/
theorem ofCode?_eq_none_of_isInfix {p code : Text} (h : ofCode? code = none) (hp : p <:+: code) :
    ofCode? p = none := by
  rw [ofCode?_eq_none_iff] at h ⊢
  rcases h with rfl | ⟨hmark, hspace, htab⟩
  · have hshort : p = [] ∨ p = wildcard := by
      rcases List.infix_cons_iff.mp hp with hp | hp
      · rcases List.prefix_cons_iff.mp hp with rfl | ⟨q, rfl, hq⟩
        · exact .inl rfl
        · rw [List.prefix_nil.mp hq]
          exact .inr rfl
      · exact .inl (List.infix_nil.mp hp)
    rcases hshort with rfl | rfl
    · exact .inr (by decide)
    · exact .inl rfl
  · exact .inr ⟨fun hm => hmark (hm.trans hp), fun hm => hspace (hp.subset hm),
      fun hm => htab (hp.subset hm)⟩

/-! ## What a repair writes -/

theorem split?_malformed {text before after : Text} (h : cut? noteMark text = some (before, after)) :
    (GluedCode.mk text .malformed).split? = some (trimEnd before, trimStart after) := by
  simp [split?, h]

/-- A malformed code is cut at its first note mark. -/
theorem exists_split?_malformed {g : GluedCode} (h : ofCode? g.text = some g)
    (hkind : g.kind = .malformed) : ∃ w note, cut? noteMark g.text = some (w, note) ∧
      g.split? = some (trimEnd w, trimStart note) := by
  have hin : noteMark <:+: g.text := by
    simpa [hkind] using (ofCode?_eq_some_iff.mp h).2.2
  obtain ⟨⟨w, note⟩, hcut⟩ := Option.isSome_iff_exists.mp (cut?_isSome_of_isInfix hin)
  obtain ⟨text, kind⟩ := g
  subst hkind
  exact ⟨w, note, hcut, split?_malformed hcut⟩

/-- A code without a note mark is cut at its first blank. -/
theorem exists_split?_missing {text : Text} (hblank : ' ' ∈ text ∨ '\t' ∈ text) :
    ∃ code b rest, text = code ++ b :: rest ∧ isBlank b ∧ (∀ c ∈ code, isBlank c = false) ∧
      (GluedCode.mk text .missing).split? = some (code, trimStart (b :: rest)) := by
  have hplain : ∀ c ∈ text.takeWhile (!isBlank ·), isBlank c = false := by
    intro c hc
    simpa using List.mem_takeWhile_imp hc
  have hne : text.dropWhile (!isBlank ·) ≠ [] := by
    intro hnil
    have heq : text.takeWhile (!isBlank ·) = text := by
      conv_rhs => rw [← List.takeWhile_append_dropWhile (p := (!isBlank ·)) (l := text), hnil]
      simp
    rw [heq] at hplain
    rcases hblank with hb | hb
    · exact absurd (hplain _ hb) (by simp)
    · exact absurd (hplain _ hb) (by simp)
  obtain ⟨b, rest, hdrop⟩ := List.exists_cons_of_ne_nil hne
  have hb : isBlank b = true := by
    have := List.head?_dropWhile_not (!isBlank ·) text
    simpa [hdrop] using this
  refine ⟨text.takeWhile (!isBlank ·), b, rest, ?_, hb, hplain, ?_⟩
  · rw [← hdrop, List.takeWhile_append_dropWhile]
  · simp [split?, cutBlank?, hdrop]

variable {g : GluedCode} {before after : Text}

theorem code_of_split? (h : g.split? = some (before, after)) : g.code = before := by
  simp [code, h]

theorem note_of_split? (h : g.split? = some (before, after)) : g.note = after := by
  simp [note, h]

/-- The blanks before the first note mark are all there is before it where the text starts with
blanks and a note mark. -/
theorem afterSpacedMark?_eq {text w rest : Text} (hcut : cut? noteMark text = some (w, rest)) :
    (AllBlank w → afterSpacedMark? text = some (trimStart rest)) ∧
      (¬ AllBlank w → afterSpacedMark? text = none) := by
  have htext := eq_append_of_cut? hcut
  constructor
  · intro hw
    have hmark : trimStart text = noteMark ++ rest := by
      rw [htext, List.append_assoc, trimStart_append hw]
      exact trimStart_cons isBlank_hyphen _
    simp [afterSpacedMark?, hmark]
  · intro hw
    obtain ⟨blanks, hblanks, hstart⟩ := exists_trimStart text
    rw [afterSpacedMark?, Option.map_eq_none_iff, isPrefixOf?_eq_none_iff]
    rintro ⟨more, hmore⟩
    -- a mark behind the blanks is not before the first one, so that only blanks precede that one
    have hpre : blanks ++ noteMark <+: text := ⟨more, by rw [List.append_assoc, hmore, ← hstart]⟩
    have hshort : w <+: blanks := List.prefix_of_prefix_length_le ⟨noteMark ++ rest, by simp [htext]⟩
      ⟨trimStart text, hstart.symm⟩ (length_le_of_cut? hcut hpre)
    exact hw fun c hc => hblanks c (hshort.subset hc)

theorem spaceFirstMark_of_cut? {text w rest : Text} (hcut : cut? noteMark text = some (w, rest)) :
    spaceFirstMark text = trimEnd w ++ ' ' :: '-' :: '-' :: ' ' :: trimStart rest := by
  induction text generalizing w with
  | nil => simp [cut?, noteMark] at hcut
  | cons c t ih =>
    obtain ⟨hall, hnone⟩ := afterSpacedMark?_eq hcut
    by_cases hw : AllBlank w
    · have hnil : trimEnd w = [] := by simpa using trimEnd_append_blanks [] hw
      simp [spaceFirstMark, hall hw, hnil]
    · rw [spaceFirstMark, hnone hw]
      rw [cut?] at hcut
      split at hcut
      · cases hcut
        exact absurd (by simp [AllBlank]) hw
      · obtain ⟨⟨b, a⟩, hrest, heq⟩ := Option.map_eq_some_iff.mp hcut
        cases heq
        simp [ih hrest, trimEnd_cons_of_not_allBlank hw]

theorem repaired_of_split? (h : g.split? = some (before, after)) :
    g.repaired = before ++ ' ' :: '-' :: '-' :: ' ' :: after := by
  obtain ⟨text, kind⟩ := g
  cases kind with
  | malformed =>
    obtain ⟨⟨w, rest⟩, hcut, heq⟩ := Option.map_eq_some_iff.mp h
    obtain ⟨rfl, rfl⟩ := Prod.mk.inj heq
    exact spaceFirstMark_of_cut? hcut
  | missing => simp [repaired, code_of_split? h, note_of_split? h]

/-- A glued code is its code and its note, with blanks and possibly a note mark between them. -/
theorem exists_split? (h : ofCode? g.text = some g) :
    ∃ mid d, g.split? = some (g.code, g.note) ∧ g.text = g.code ++ (mid ++ d :: g.note) ∧
      (isBlank d = true ∨ d = '-') ∧ ∀ c y, g.note = c :: y → isBlank c = false := by
  have hkind := (ofCode?_eq_some_iff.mp h).2.2
  obtain ⟨text, kind⟩ := g
  cases kind with
  | malformed =>
    obtain ⟨w, n, hcut, hsplit⟩ := exists_split?_malformed h rfl
    have htext := eq_append_of_cut? hcut
    obtain ⟨right, -, hw⟩ := exists_trimEnd w
    obtain ⟨left, hleft, hn⟩ := exists_trimStart n
    rw [code_of_split? hsplit, note_of_split? hsplit]
    have hhead : ∀ c y, trimStart n = c :: y → isBlank c = false :=
      fun _ _ hc => isBlank_of_trimStart hc
    rcases List.eq_nil_or_concat' left with rfl | ⟨x, d, rfl⟩
    · refine ⟨right ++ ['-'], '-', hsplit, ?_, .inr rfl, hhead⟩
      rw [List.nil_append] at hn
      conv_lhs => rw [htext, hw, hn]
      simp [noteMark]
    · refine ⟨right ++ noteMark ++ x, d, hsplit, ?_, .inl (hleft d (by simp)), hhead⟩
      conv_lhs => rw [htext, hw, hn]
      simp
  | missing =>
    obtain ⟨code, b, rest, htext, hb, -, hsplit⟩ :=
      exists_split?_missing (hkind.resolve_left (by simp)).2.2
    obtain ⟨blanks, hblanks, hrest⟩ := exists_trimStart rest
    have hfirst : AllBlank [b] := by simpa [AllBlank] using hb
    have hnote : trimStart (b :: rest) = trimStart rest := trimStart_append hfirst rest
    rw [hnote] at hsplit
    rw [code_of_split? hsplit, note_of_split? hsplit]
    have hhead : ∀ c y, trimStart rest = c :: y → isBlank c = false :=
      fun _ _ hc => isBlank_of_trimStart hc
    rcases List.eq_nil_or_concat' blanks with rfl | ⟨x, d, rfl⟩
    · refine ⟨[], b, hsplit, ?_, .inl hb, hhead⟩
      rw [List.nil_append] at hrest
      rw [← hrest]
      exact htext
    · refine ⟨b :: x, d, hsplit, ?_, .inl (hblanks d (by simp)), hhead⟩
      conv_lhs => rw [htext, hrest]
      simp

end GluedCode

/-! ## Where a glued code stands -/

theorem hyphen_not_mem_of_allBlank {b : Text} (hb : AllBlank b) : '-' ∉ b :=
  fun hm => by simpa using hb _ hm

theorem plainEnds_noteMark : PlainEnds noteMark where
  ne_nil := by decide
  head := by
    intro c y h
    rw [← (List.cons.inj h).1]
    exact isBlank_hyphen
  last := by
    intro x c h
    have hmark : ['-'] ++ ['-'] = x ++ [c] := h
    obtain ⟨-, hc⟩ := List.append_inj' hmark rfl
    rw [← (List.cons.inj hc).1]
    exact isBlank_hyphen

/-- Codes of which none holds a note. -/
def Clean (codes : List Text) : Prop := codes.filterMap GluedCode.ofCode? = []

theorem clean_iff {codes : List Text} : Clean codes ↔ ∀ c ∈ codes, GluedCode.ofCode? c = none :=
  List.filterMap_eq_nil_iff

/-- A glued code occurs in no text with clean items. -/
theorem Clean.not_infix {t code : Text} {g : GluedCode} (h : Clean (commaItems t))
    (hglued : GluedCode.ofCode? code = some g) (hplain : PlainEnds code) (hcomma : ',' ∉ code) :
    ¬ code <:+: t := by
  intro hin
  obtain ⟨item, hitem, hcode⟩ := hplain.exists_mem_commaItems hcomma hin
  have hnone := GluedCode.ofCode?_eq_none_of_isInfix (clean_iff.mp h item hitem) hcode
  rw [hnone] at hglued
  exact absurd hglued (by simp)

theorem Clean.not_noteMark {t : Text} (h : Clean (commaItems t)) : ¬ noteMark <:+: t :=
  h.not_infix (g := ⟨noteMark, .malformed⟩) (by decide) plainEnds_noteMark (by decide)

theorem Clean.listedCodes {p : Text} (h : Clean (commaItems p)) (kind : DirectiveKind) :
    Clean (listedCodes kind p) := by
  unfold DirectiveGrammar.listedCodes
  split
  · simp [Clean]
  · exact h

/-- The only glued code among the listed ones has its own piece of the text, and the codes before
it are clean. -/
theorem exists_piece_of_glued {kind : DirectiveKind} {codePart : Text} {g : GluedCode}
    (h : (listedCodes kind codePart).filterMap GluedCode.ofCode? = [g]) :
    GluedCode.ofCode? g.text = some g ∧ ∃ a gap rest, codePart = a ++ (gap ++ (g.text ++ rest)) ∧
      AtItemStart a ∧ Clean (commaItems a) ∧ AllBlank gap ∧ ',' ∉ gap ++ g.text ∧
      PlainEnds g.text ∧ ∃ blanks b, rest = blanks ++ b ∧ AllBlank blanks ∧ AtItemEnd b := by
  have hitems : listedCodes kind codePart = commaItems codePart := by
    unfold DirectiveGrammar.listedCodes at h ⊢
    split
    · next hnil => simp [hnil] at h
    · rfl
  rw [hitems] at h
  obtain ⟨before, code, after, hcodes, hbefore, hcode, -⟩ := List.filterMap_eq_cons_iff.mp h
  have htext := (GluedCode.ofCode?_eq_some_iff.mp hcode).1
  subst htext
  have hplain : PlainEnds g.text := plainEnds_of_mem_commaItems (t := codePart) (by simp [hcodes])
  obtain ⟨a, u, b, rfl, hstart, ha, hu, htrim, hend⟩ := exists_piece_of_commaItems hcodes
  obtain ⟨left, right, hleft, hright, hleftRight⟩ := eq_append_trim u
  refine ⟨hcode, a, left, right ++ b, ?_, hstart, ?_, hleft, ?_, hplain, right, b, rfl, hright, hend⟩
  · rw [htrim] at hleftRight
    conv_lhs => rw [hleftRight]
    simp only [List.append_assoc]
  · rw [ha]
    exact List.filterMap_eq_nil_iff.mpr hbefore
  · intro hm
    rw [hleftRight, htrim] at hu
    exact hu (List.mem_append_left _ hm)

/-- The layout of a comment around its only glued code: the opening mark and blanks, the keyword and
blanks, clean codes and blanks, and then the code. What follows the code up to the next comma is
blank, and the closing delimiter stands behind all codes. -/
structure GluedLayout (docComments : Bool) (form : CommentForm) (t : Text) (kind : DirectiveKind)
    (g : GluedCode) (mark lead gap a gap' rest more : Text) : Prop where
  eq : t = mark ++ (lead ++ (kind.keyword ++ (gap ++ (a ++ (gap' ++ (g.text ++ (rest ++ more)))))))
  openMark : OpenMark docComments form mark
  lead_blank : AllBlank lead
  keyword : kind ∈ keywordKinds
  codePart : IsCodePart gap (a ++ (gap' ++ (g.text ++ rest)))
  atStart : AtItemStart a
  clean : Clean (commaItems a)
  gap_blank : AllBlank gap'
  comma : ',' ∉ gap' ++ g.text
  glued : GluedCode.ofCode? g.text = some g
  plainEnds : PlainEnds g.text
  atEnd : ∃ blanks b, rest = blanks ++ b ∧ AllBlank blanks ∧ AtItemEnd b
  kept : kind.keyword ++ (gap ++ (a ++ (gap' ++ (g.text ++ rest)))) <+:
    ending form (kind.keyword ++ (gap ++ (a ++ (gap' ++ (g.text ++ (rest ++ more))))))

variable {docComments : Bool} {form : CommentForm} {t : Text}

theorem exists_gluedLayout {d : WrittenDirective} {g : GluedCode}
    (hform : CommentForm.ofText docComments t = form) (hdoc : form ≠ .doc)
    (hread : read? (body form t) = some d)
    (hglued : d.codes.filterMap GluedCode.ofCode? = [g]) :
    ∃ mark lead gap a gap' rest more, d.codes = listedCodes d.kind (a ++ (gap' ++ (g.text ++ rest))) ∧
      GluedLayout docComments form t d.kind g mark lead gap a gap' rest more := by
  obtain ⟨hkind, mark, lead, gap, codePart, more, ht, hmark, hlead, hpart, hcodes, hkept⟩ :=
    exists_layout_of_read? hform hdoc hread
  rw [hcodes] at hglued
  obtain ⟨hcode, a, gap', rest, rfl, hstart, hclean, hgap', hcomma, hplain, hend⟩ :=
    exists_piece_of_glued hglued
  refine ⟨mark, lead, gap, a, gap', rest, more, hcodes, ?_, hmark, hlead, hkind, hpart, hstart,
    hclean, hgap', hcomma, hcode, hplain, hend, ?_⟩
  · simpa only [List.append_assoc] using ht
  · simpa only [List.append_assoc] using hkept

end LintDirectives
