import LintDirectives.Proofs.GluedCodes

/-!
# The first occurrence of a glued code

A repair looks for the code from the start of the comment. A code with a note mark is found where it
stands, since no note mark occurs before it. Any other code is found where it stands if it is found
behind the keyword at all; otherwise its first occurrence ends in the opening mark, in the keyword, or
in the blanks behind one of them. A repair where the code stands leaves a directive with the codes
before it, the code without its note, and the note. A repair further in front leaves no directive, or
one without codes.
-/

namespace LintDirectives

open Text CommentText DirectiveGrammar

/-- A text is found for the first time behind the keyword of a kind. -/
def FoundBehindKeyword (kind : DirectiveKind) (code t : Text) : Prop :=
  ∃ before after, cut? code t = some (before, after) ∧ kind.keyword <:+: before

instance (kind : DirectiveKind) (code t : Text) : Decidable (FoundBehindKeyword kind code t) :=
  match hcut : cut? code t with
  | some (before, after) => decidable_of_iff (kind.keyword <:+: before)
      ⟨fun h => ⟨before, after, hcut, h⟩, by rintro ⟨x, y, hxy, h⟩; simp_all⟩
  | none => isFalse (by rintro ⟨x, y, hxy, -⟩; simp_all)

/-! ## Pieces of a layout -/

/-- An initial part that a blank follows reaches to the end of any text without blanks that it
ends in. -/
private theorem eq_of_blank_follows {q s r more : Text} {b : Char} (hq : q <+: s)
    (hplain : ∀ c ∈ s, isBlank c = false) (hb : isBlank b) (h : q ++ b :: more = s ++ r) :
    q = s := by
  obtain ⟨z, rfl⟩ := hq
  cases z with
  | nil => simp
  | cons c z =>
    rw [List.append_assoc, List.append_cancel_left_eq, List.cons_append] at h
    have hc := hplain c (by simp)
    rw [← (List.cons.inj h).1] at hc
    exact absurd hb (by simp [hc])

/-- Where the text up to a repaired code ends: in the blanks behind the opening mark, in those
behind the keyword, or in the codes. -/
private theorem cut_cases {mark lead keyword gap v q r more : Text} {b : Char}
    (hmark : ∀ c ∈ mark, isBlank c = false) (hlead : AllBlank lead)
    (hkeyword : ∀ c ∈ keyword, isBlank c = false) (hb : isBlank b)
    (ht : q ++ b :: more = mark ++ (lead ++ (keyword ++ r)))
    (hq : q <+: mark ++ (lead ++ (keyword ++ (gap ++ v)))) :
    (∃ x, AllBlank x ∧ q = mark ++ x) ∨
      (∃ x, x <+: gap ∧ q = mark ++ (lead ++ (keyword ++ x))) ∨
      (∃ x, q = mark ++ (lead ++ (keyword ++ (gap ++ x)))) := by
  rcases isPrefix_append_cases hq with hq | ⟨q₁, hq₁, rfl⟩
  · exact .inl ⟨[], allBlank_nil, by simp [eq_of_blank_follows hq hmark hb ht]⟩
  rw [List.append_assoc, List.append_cancel_left_eq] at ht
  rcases isPrefix_append_cases hq₁ with hq | ⟨q₂, hq₂, rfl⟩
  · exact .inl ⟨q₁, fun c hc => hlead c (hq.subset hc), rfl⟩
  rw [List.append_assoc, List.append_cancel_left_eq] at ht
  rcases isPrefix_append_cases hq₂ with hq | ⟨q₃, hq₃, rfl⟩
  · exact .inr (.inl ⟨[], List.nil_prefix, by simp [eq_of_blank_follows hq hkeyword hb ht]⟩)
  rcases isPrefix_append_cases hq₃ with hq | ⟨q₄, -, rfl⟩
  · exact .inr (.inl ⟨q₃, hq, rfl⟩)
  · exact .inr (.inr ⟨q₄, rfl⟩)

/-- An initial part with the keyword reaches behind it, if nothing else starts like the keyword. -/
private theorem exists_behind_keyword {before keyword tail s x : Text} {c : Char}
    (hkeyword : keyword = c :: tail) (hc : c ∉ before) (hx : x <+: before ++ (keyword ++ s))
    (hin : keyword <:+: x) : ∃ z, z <+: s ∧ x = before ++ (keyword ++ z) := by
  rcases isPrefix_append_cases hx with hx | ⟨q, hq, rfl⟩
  · have hmem : c ∈ x := hin.subset (by simp [hkeyword])
    exact absurd (hx.subset hmem) hc
  · rw [hkeyword] at hin
    have hqin := infix_append_of_not_mem hc hin
    rw [← hkeyword] at hqin
    rcases isPrefix_append_cases hq with hq | ⟨z, hz, rfl⟩
    · have heq : q = keyword := hq.eq_of_length (le_antisymm hq.length_le hqin.length_le)
      exact ⟨[], List.nil_prefix, by simp [heq]⟩
    · exact ⟨z, hz, rfl⟩

/-- What is no blank starts behind the blanks. -/
private theorem exists_behind_blanks {blanks s r z y : Text} {c : Char} (hblanks : AllBlank blanks)
    (hc : isBlank c = false) (hz : z <+: blanks ++ s) (h : z ++ c :: y <+: blanks ++ r) :
    ∃ z', z' <+: s ∧ z = blanks ++ z' := by
  rcases isPrefix_append_cases hz with ⟨w, rfl⟩ | hz
  · cases w with
    | nil => exact ⟨[], List.nil_prefix, by simp⟩
    | cons d w =>
      rw [List.append_assoc, List.prefix_append_right_inj, List.cons_append] at h
      have hd : isBlank d = true := hblanks d (by simp)
      rw [← (List.cons_prefix_cons.mp h).1, hc] at hd
      exact absurd hd (by simp)
  · exact hz

/-- A glued code does not start in the clean codes before it. -/
private theorem exists_behind_clean {a s r z code : Text} {g : GluedCode} (hstart : AtItemStart a)
    (hclean : Clean (commaItems a)) (hglued : GluedCode.ofCode? code = some g)
    (hplain : PlainEnds code) (hcomma : ',' ∉ code) (hz : z <+: a ++ s)
    (h : z ++ code <+: a ++ r) : ∃ z', z' <+: s ∧ z = a ++ z' := by
  rcases hstart with rfl | ⟨b, rfl⟩
  · exact ⟨z, hz, rfl⟩
  rcases isPrefix_append_cases hz with hz | hz
  · rcases List.prefix_concat_iff.mp hz with rfl | hzb
    · exact ⟨[], List.nil_prefix, by simp⟩
    · exfalso
      rw [List.append_assoc, List.singleton_append] at h
      rcases isPrefix_append_cases h with hin | ⟨q, hq, heq⟩
      · have hcode : code <:+: b ++ [','] :=
          (List.suffix_append z code).isInfix.trans (hin.isInfix.trans (List.prefix_append b _).isInfix)
        exact hclean.not_infix hglued hplain hcomma hcode
      · obtain ⟨w, rfl⟩ := hzb
        rw [List.append_assoc, List.append_cancel_left_eq] at heq
        cases q with
        | nil =>
          have hcode : code <:+: z ++ w ++ [','] := by
            rw [heq, List.append_nil]
            exact (List.suffix_append z w).isInfix.trans (List.prefix_append _ _).isInfix
          exact hclean.not_infix hglued hplain hcomma hcode
        | cons d q =>
          have hd : d = ',' := (List.cons_prefix_cons.mp hq).1
          exact hcomma (by simp [heq, hd])
  · exact hz

/-- Clean codes and blanks bring no note mark in front of a text. -/
private theorem not_noteMark_append {a gap z : Text} (hstart : AtItemStart a)
    (hclean : Clean (commaItems a)) (hgap : AllBlank gap) (hz : ¬ noteMark <:+: z) :
    ¬ noteMark <:+: a ++ (gap ++ z) := by
  have hright : ¬ noteMark <:+: gap ++ z := fun h =>
    hz (infix_append_of_not_mem (hyphen_not_mem_of_allBlank hgap) h)
  rcases hstart with rfl | ⟨b, rfl⟩
  · exact hright
  · intro h
    rw [List.append_assoc, List.singleton_append] at h
    rcases (infix_append_cons_iff (by decide)).mp h with h | h
    · exact hclean.not_noteMark (h.trans (List.prefix_append b [',']).isInfix)
    · exact hright h

/-- The keywords of kinds whose codes are examined have no hyphen. -/
private theorem hyphen_not_mem_keyword {kind : DirectiveKind} (h : kind ≠ .ignoreFile) :
    '-' ∉ kind.keyword := by
  cases kind with
  | ignoreFile => exact absurd rfl h
  | _ => decide

/-- A code is found where it stands in the list if no note mark precedes the one in it. -/
private theorem cut?_of_noteMark {text w rest before : Text}
    (hcut : cut? noteMark text = some (w, rest)) (h : ¬ noteMark <:+: before ++ (w ++ ['-']))
    (after : Text) : cut? text (before ++ text ++ after) = some (before, after) := by
  refine cut?_append fun x hx => ?_
  by_contra hlt
  have htext := eq_append_of_cut? hcut
  have hleft : x ++ (w ++ noteMark) <+: before ++ text ++ after := by
    refine List.IsPrefix.trans ?_ hx
    exact ⟨rest, by simp [htext]⟩
  have hright : before ++ (w ++ ['-']) <+: before ++ text ++ after :=
    ⟨'-' :: rest ++ after, by simp [htext, noteMark]⟩
  have hpre := List.prefix_of_prefix_length_le hleft hright (by simp [noteMark]; omega)
  exact h (List.IsInfix.trans ⟨x ++ w, [], by simp⟩ hpre.isInfix)

/-! ## Where a glued code is found -/

section Layout

variable {kind : DirectiveKind} {g : GluedCode} {mark lead gap a gap' rest more x y : Text}

theorem GluedCode.repairIn_of_cut? (hglued : ofCode? g.text = some g)
    (hcut : cut? g.text t = some (x, y)) :
    g.repairIn t = x ++ (g.code ++ ' ' :: '-' :: '-' :: ' ' :: (g.note ++ y)) := by
  obtain ⟨mid, d, hsplit, -⟩ := exists_split? hglued
  simp only [repairIn, replaceFirst, hcut, repaired_of_split? hsplit]
  simp

theorem foundBehindKeyword_of_cut? {code z y : Text}
    (hcut : cut? code t = some (mark ++ (lead ++ (kind.keyword ++ z)), y)) :
    FoundBehindKeyword kind code t := by
  refine ⟨_, _, hcut, ?_⟩
  exact ⟨mark ++ lead, z, by simp⟩

namespace GluedLayout

variable (h : GluedLayout docComments form t kind g mark lead gap a gap' rest more)

include h

theorem eq_append : t = mark ++ (lead ++ (kind.keyword ++ (gap ++ (a ++ gap')))) ++ g.text ++
    (rest ++ more) := by
  simpa only [List.append_assoc] using h.eq

/-- The first occurrence of the code does not start behind the piece of the code in the list. -/
theorem exists_cut? : ∃ x y, cut? g.text t = some (x, y) ∧
    x <+: mark ++ (lead ++ (kind.keyword ++ (gap ++ (a ++ gap')))) := by
  have hplace : mark ++ (lead ++ (kind.keyword ++ (gap ++ (a ++ gap')))) ++ g.text <+: t :=
    ⟨rest ++ more, h.eq_append.symm⟩
  have hin : g.text <:+: t := (List.suffix_append _ g.text).isInfix.trans hplace.isInfix
  obtain ⟨⟨x, y⟩, hcut⟩ := Option.isSome_iff_exists.mp (cut?_isSome_of_isInfix hin)
  have hx : x <+: t := ⟨g.text ++ y, by rw [eq_append_of_cut? hcut]; simp⟩
  refine ⟨x, y, hcut, ?_⟩
  exact List.prefix_of_prefix_length_le hx ((List.prefix_append _ g.text).trans hplace)
    (length_le_of_cut? hcut hplace)

/-- A code without a note mark has no blank before its note. -/
theorem plain_code (hmissing : g.kind = .missing) : (∀ c ∈ g.code, isBlank c = false) ∧
    EndsPlain g.code ∧ ∃ b behind, g.text = g.code ++ b :: behind ∧ isBlank b := by
  have hglued := (GluedCode.ofCode?_eq_some_iff.mp h.glued).2.2
  have hhead := h.plainEnds.head
  obtain ⟨text, glueKind⟩ := g
  subst hmissing
  obtain ⟨code, b, behind, htext, hb, hplain, hsplit⟩ :=
    GluedCode.exists_split?_missing (hglued.resolve_left (by simp)).2.2
  rw [GluedCode.code_of_split? hsplit]
  refine ⟨hplain, ?_, b, behind, htext, hb⟩
  rcases List.eq_nil_or_concat' code with rfl | ⟨w, c, rfl⟩
  · exact absurd hb (by simp [hhead b behind htext])
  · exact ⟨w, c, rfl, hplain c (by simp)⟩

theorem not_noteMark {w note : Text} (hcut : cut? noteMark g.text = some (w, note)) :
    ¬ noteMark <:+: a ++ (gap' ++ (w ++ ['-'])) :=
  not_noteMark_append h.atStart h.clean h.gap_blank (not_noteMark_of_cut? hcut)

theorem exists_cut?_noteMark (hmalformed : g.kind = .malformed) :
    ∃ w note, cut? noteMark g.text = some (w, note) ∧ g.code = trimEnd w := by
  obtain ⟨w, note, hcut, hsplit⟩ := GluedCode.exists_split?_malformed h.glued hmalformed
  exact ⟨w, note, hcut, GluedCode.code_of_split? hsplit⟩

/-- A malformed code is found where it stands: the first note mark of the comment is the one in
it. -/
theorem cut?_of_malformed (hmalformed : g.kind = .malformed) (hfile : kind ≠ .ignoreFile) :
    cut? g.text t =
      some (mark ++ (lead ++ (kind.keyword ++ (gap ++ (a ++ gap')))), rest ++ more) := by
  obtain ⟨w, note, hcut, -⟩ := h.exists_cut?_noteMark hmalformed
  have hfirst : ¬ noteMark <:+: mark ++ (lead ++ (kind.keyword ++ (gap ++ (a ++ gap')))) ++
      (w ++ ['-']) := by
    intro hm
    simp only [List.append_assoc] at hm
    have hmark : '-' ∉ mark := fun hm => by simpa using h.openMark.mem hm
    exact h.not_noteMark hcut (infix_append_of_not_mem (hyphen_not_mem_of_allBlank h.codePart.gap_blank)
      (infix_append_of_not_mem (hyphen_not_mem_keyword hfile)
        (infix_append_of_not_mem (hyphen_not_mem_of_allBlank h.lead_blank)
          (infix_append_of_not_mem hmark hm))))
  have hplace := cut?_of_noteMark hcut hfirst (rest ++ more)
  rwa [← h.eq_append] at hplace

/-- A code that is found behind the keyword is found where it stands in the list. -/
theorem cut?_of_foundBehindKeyword (hfound : FoundBehindKeyword kind g.text t) :
    cut? g.text t =
      some (mark ++ (lead ++ (kind.keyword ++ (gap ++ (a ++ gap')))), rest ++ more) := by
  obtain ⟨x, y, hcut, hkeyword⟩ := hfound
  obtain ⟨x', y', hcut', hx⟩ := h.exists_cut?
  obtain ⟨rfl, rfl⟩ : x = x' ∧ y = y' := by simpa [hcut] using hcut'
  obtain ⟨tail, htail⟩ := keyword_head kind
  have hletter : 'l' ∉ mark ++ lead := by
    intro hm
    rcases List.mem_append.mp hm with hm | hm
    · simpa using h.openMark.mem hm
    · simpa using h.lead_blank _ hm
  rw [← List.append_assoc] at hx
  obtain ⟨z, hz, rfl⟩ := exists_behind_keyword htail hletter hx hkeyword
  have hocc : z ++ g.text <+: gap ++ (a ++ (gap' ++ (g.text ++ (rest ++ more)))) := by
    refine ⟨y, ?_⟩
    have ht := eq_append_of_cut? hcut
    rw [h.eq] at ht
    simpa only [List.append_assoc, List.append_cancel_left_eq] using ht.symm
  obtain ⟨c, code, hcode⟩ := List.exists_cons_of_ne_nil h.plainEnds.ne_nil
  have hc := h.plainEnds.head c code hcode
  have hcomma : ',' ∉ g.text := fun hm => h.comma (List.mem_append_right _ hm)
  -- the occurrence is pushed behind the gap, the clean codes, and the blanks in front of the code
  obtain ⟨z₁, hz₁, rfl⟩ := exists_behind_blanks h.codePart.gap_blank hc hz (hcode ▸ hocc)
  rw [List.append_assoc, List.prefix_append_right_inj] at hocc
  obtain ⟨z₂, hz₂, rfl⟩ :=
    exists_behind_clean h.atStart h.clean h.glued h.plainEnds hcomma hz₁ hocc
  rw [List.append_assoc, List.prefix_append_right_inj] at hocc
  rw [← List.append_nil gap'] at hz₂
  obtain ⟨z₃, hz₃, rfl⟩ := exists_behind_blanks h.gap_blank hc hz₂ (hcode ▸ hocc)
  obtain rfl := List.prefix_nil.mp hz₃
  have ht := eq_append_of_cut? hcut
  rw [h.eq] at ht
  have hy : y = rest ++ more := by simpa using ht.symm
  rw [hcut, hy]
  simp only [List.append_assoc, List.append_nil]

/-- A code that is not found behind the keyword is cut off in the blanks behind the opening mark or
behind the keyword. -/
theorem cut_cases_of_missed (hmissing : g.kind = .missing)
    (hmissed : ¬ FoundBehindKeyword kind g.text t) (hcut : cut? g.text t = some (x, y))
    (hx : x <+: mark ++ (lead ++ (kind.keyword ++ (gap ++ (a ++ gap'))))) :
    (∃ z, AllBlank z ∧ x ++ g.code = mark ++ z) ∨
      (∃ z, z <+: gap ∧ x ++ g.code = mark ++ (lead ++ (kind.keyword ++ z))) := by
  obtain ⟨hplain, -, b, behind, htext, hb⟩ := h.plain_code hmissing
  have ht : (x ++ g.code) ++ b :: (behind ++ y) = t := by
    rw [eq_append_of_cut? hcut, htext]
    simp
  have hcode : x ++ g.code <+: mark ++ (lead ++ (kind.keyword ++ (gap ++ (a ++ gap')))) ++ g.code := by
    have hleft : x ++ g.code <+: t := ⟨_, ht⟩
    have hright : mark ++ (lead ++ (kind.keyword ++ (gap ++ (a ++ gap')))) ++ g.code <+: t :=
      ⟨b :: behind ++ (rest ++ more), by rw [h.eq_append, htext]; simp⟩
    refine List.prefix_of_prefix_length_le hleft hright ?_
    rw [List.length_append, List.length_append]
    exact Nat.add_le_add_right hx.length_le _
  simp only [List.append_assoc] at hcode
  rcases cut_cases (fun c hc => h.openMark.not_blank hc) h.lead_blank
    (fun c hc => not_blank_of_mem_keyword hc) hb (ht.trans h.eq) hcode with hz | hz | ⟨z, hq⟩
  · exact .inl hz
  · exact .inr hz
  · -- the code has no blanks, so it would start behind the gap
    exfalso
    have hgap : gap ≠ [] := h.codePart.gap_ne_nil.resolve_left (by simp [h.plainEnds.ne_nil])
    obtain ⟨d, blanks, rfl⟩ := List.exists_cons_of_ne_nil hgap
    have hd : isBlank d = true := h.codePart.gap_blank d (by simp)
    simp only [← List.append_assoc] at hq
    rw [List.append_assoc _ (d :: blanks) z] at hq
    rcases List.append_eq_append_iff.mp hq with ⟨w, -, hw⟩ | ⟨w, rfl, -⟩
    · have hnone := hplain d (by simp [hw])
      rw [hd] at hnone
      exact absurd hnone (by simp)
    · simp only [List.append_assoc] at hcut
      exact hmissed (foundBehindKeyword_of_cut? hcut)

omit h

end GluedLayout

/-! ## Reading a repaired comment -/

/-- What stands before the note mark in a code ends plainly. A code may be nothing but its note,
which then follows a comma or the keyword. -/
private theorem endsPlain_before_noteMark {a gap' w more : Text} (hstart : AtItemStart a)
    (hgap' : AllBlank gap') (hfree : NoteFree (a ++ (gap' ++ (w ++ noteMark ++ more))))
    (hhead : ∀ c y, w ++ noteMark ++ more = c :: y → isBlank c = false) :
    a ++ (gap' ++ trimEnd w) = [] ∨ EndsPlain (a ++ (gap' ++ trimEnd w)) := by
  by_cases hnil : trimEnd w = []
  · have hw : w = [] := by
      cases w with
      | nil => rfl
      | cons c w =>
        have hplain := hhead c (w ++ noteMark ++ more) rfl
        have hkept := trimEnd_append_cons [] hplain w
        rw [List.nil_append, hnil] at hkept
        exact absurd hkept (by simp)
    have hgapNil : gap' = [] := by
      rcases List.eq_nil_or_concat' gap' with h | ⟨g, b, rfl⟩
      · exact h
      · refine absurd ?_ (hfree.behind (a ++ g) b (noteMark ++ more) ?_ (hgap' b (by simp)))
        · exact List.prefix_append noteMark more
        · simp [hw]
    rcases hstart with rfl | ⟨b, rfl⟩
    · exact .inl (by simp [hnil, hgapNil])
    · exact .inr ⟨b, ',', by simp [hnil, hgapNil], by simp⟩
  · obtain ⟨x, c, hc, hx⟩ := exists_of_trimEnd_ne_nil hnil
    exact .inr ⟨a ++ (gap' ++ x), c, by simp [hx], hc⟩

namespace GluedLayout

variable (h : GluedLayout docComments form t kind g mark lead gap a gap' rest more)

include h

theorem endsPlain_code :
    a ++ (gap' ++ g.code) = [] ∨ EndsPlain (a ++ (gap' ++ g.code)) := by
  cases hkind : g.kind with
  | malformed =>
    obtain ⟨w, note, hcut, hcode⟩ := h.exists_cut?_noteMark hkind
    have htext := eq_append_of_cut? hcut
    have hfree := h.codePart.noteFree
    have hhead := h.plainEnds.head
    rw [htext] at hfree hhead
    rw [hcode]
    exact endsPlain_before_noteMark h.atStart h.gap_blank
      (hfree.of_isPrefix ⟨rest, by simp only [List.append_assoc]⟩) hhead
  | missing =>
    obtain ⟨-, ⟨w, c, hw, hc⟩, -⟩ := h.plain_code hkind
    exact .inr ⟨a ++ (gap' ++ w), c, by simp [hw], hc⟩

theorem code_isPrefix : a ++ (gap' ++ g.code) <+: a ++ (gap' ++ (g.text ++ rest)) := by
  obtain ⟨mid, d, -, htext, -⟩ := GluedCode.exists_split? h.glued
  rw [List.prefix_append_right_inj, List.prefix_append_right_inj]
  refine ⟨mid ++ d :: g.note ++ rest, ?_⟩
  conv_rhs => rw [htext]
  simp

/-- The code without its note has no blanks at its ends. -/
theorem trim_code : trim g.code = g.code := by
  by_cases hnil : g.code = []
  · rw [hnil]
    rfl
  · obtain ⟨mid, d, -, htext, -⟩ := GluedCode.exists_split? h.glued
    have hends : EndsPlain (a ++ (gap' ++ g.code)) := h.endsPlain_code.resolve_left (by simp [hnil])
    rw [← List.append_assoc] at hends
    obtain ⟨w, e, hw, he⟩ := hends.of_append hnil
    refine PlainEnds.trim_eq ⟨hnil, ?_, ?_⟩
    · intro c y hc
      rw [hc, List.cons_append] at htext
      exact h.plainEnds.head c _ htext
    · intro x c hx
      obtain ⟨-, hce⟩ := List.append_inj' (hx.symm.trans hw) rfl
      rwa [(List.cons.inj hce).1]

theorem commaItems_code : commaItems (a ++ (gap' ++ g.code)) =
    commaItems a ++ if g.code = [] then [] else [g.code] := by
  obtain ⟨mid, d, -, htext, -⟩ := GluedCode.exists_split? h.glued
  have hcomma : ',' ∉ gap' ++ g.code := by
    intro hm
    refine h.comma ?_
    rw [htext, ← List.append_assoc]
    exact List.mem_append_left _ hm
  rw [commaItems_append h.atStart, commaItems_of_not_mem hcomma, trim_append_left h.gap_blank,
    h.trim_code]

/-- A code that is repaired where it stands leaves the codes before it, itself, and the note. -/
theorem read?_repairIn (hplace : cut? g.text t =
      some (mark ++ (lead ++ (kind.keyword ++ (gap ++ (a ++ gap')))), rest ++ more)) :
    CommentForm.ofText docComments (g.repairIn t) = form ∧
      read? (body form (g.repairIn t)) = some ⟨kind, listedCodes kind (a ++ (gap' ++ g.code)),
        some (trim (firstLine (ending form (' ' :: (g.note ++ (rest ++ more))))))⟩ := by
  have hnew : g.repairIn t = mark ++ (lead ++ (kind.keyword ++ (gap ++ ((a ++ (gap' ++ g.code)) ++
      ' ' :: '-' :: '-' :: (' ' :: (g.note ++ (rest ++ more))))))) := by
    rw [GluedCode.repairIn_of_cut? h.glued hplace]
    simp only [List.append_assoc]
  rw [hnew]
  exact read?_of_layout h.openMark h.lead_blank h.keyword (h.codePart.of_isPrefix h.code_isPrefix)
    h.endsPlain_code _

/-- A repair before the end of the keyword leaves no directive, or one without codes. -/
theorem read?_of_missed (hmissing : g.kind = .missing)
    (hmissed : ¬ FoundBehindKeyword kind g.text t) :
    CommentForm.ofText docComments (g.repairIn t) = form ∧
      (noteMark <+: body form (g.repairIn t) ∧ read? (body form (g.repairIn t)) = none ∨
        g.code ≠ wildcard ∧ ∃ note, read? (body form (g.repairIn t)) =
          some ⟨kind, listedCodes kind [], note⟩) := by
  obtain ⟨x, y, hcut, hx⟩ := h.exists_cut?
  have hnew : g.repairIn t = (x ++ g.code) ++ ' ' :: '-' :: '-' :: (' ' :: (g.note ++ y)) := by
    rw [GluedCode.repairIn_of_cut? h.glued hcut, List.append_assoc]
  rw [hnew]
  rcases h.cut_cases_of_missed hmissing hmissed hcut hx with ⟨z, hz, hq⟩ | ⟨z, hz, hq⟩
  · have hspace : AllBlank (z ++ [' ']) := hz.append (by simp [AllBlank])
    obtain ⟨hform, hbody, hread⟩ := read?_of_noteMark h.openMark hspace (' ' :: (g.note ++ y))
    rw [hq]
    simp only [List.append_assoc, List.singleton_append] at hform hbody hread ⊢
    exact ⟨hform, .inl ⟨hbody, hread⟩⟩
  · have hcode : g.code ≠ wildcard := by
      intro hstar
      obtain ⟨w, c, hw⟩ := (List.eq_nil_or_concat' (kind.keyword ++ z)).resolve_left (by
        obtain ⟨tail, htail⟩ := keyword_head kind
        simp [htail])
      rw [hstar, hw, ← List.append_assoc, ← List.append_assoc] at hq
      obtain ⟨-, hc⟩ := List.append_inj' hq rfl
      have hmem : '*' ∈ kind.keyword ++ z := by
        rw [hw, ← hc]
        exact List.mem_append_right _ (by decide)
      rcases List.mem_append.mp hmem with hm | hm
      · cases kind <;> exact absurd hm (by decide)
      · simpa using h.codePart.gap_blank _ (hz.subset hm)
    obtain ⟨hform, hread⟩ := read?_of_layout h.openMark h.lead_blank h.keyword
      (h.codePart.of_gap_isPrefix hz) (.inl rfl) (' ' :: (g.note ++ y))
    rw [hq]
    simp only [List.append_assoc, List.nil_append] at hform hread ⊢
    exact ⟨hform, .inr ⟨hcode, _, hread⟩⟩

omit h

end GluedLayout

end Layout

end LintDirectives
