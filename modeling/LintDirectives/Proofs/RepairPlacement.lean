import LintDirectives.Proofs.CommentConvergence

/-!
# Where a repair lands

A repair rewrites the first occurrence of the glued code in the whole comment. If that occurrence
stands behind the keyword, it is the code itself: the new comment has the codes before it, the code
without its note, and a note that starts with the glued one and goes on with the codes behind it.
If it stands before, in the opening mark or in the keyword, the repair misses the code. This happens
to codes without a note mark only.
-/

namespace LintDirectives

open Text CommentText DirectiveGrammar

/-! ## The codes and the note of a repaired comment -/

section Layout

variable {docComments : Bool} {form : CommentForm} {t : Text} {kind : DirectiveKind} {g : GluedCode}
  {mark lead gap a gap' rest more : Text}

namespace GluedLayout

variable (h : GluedLayout docComments form t kind g mark lead gap a gap' rest more)

include h

/-- The codes before and behind the glued one are those of the texts before and behind it. -/
theorem exists_listedCodes : ∃ b, b <:+ rest ∧
    listedCodes kind (a ++ (gap' ++ (g.text ++ rest))) = commaItems a ++ g.text :: commaItems b := by
  obtain ⟨blanks, b, hrest, hblanks, hend⟩ := h.atEnd
  refine ⟨b, ⟨blanks, hrest.symm⟩, ?_⟩
  have hcomma : ',' ∉ gap' ++ g.text ++ blanks := by
    intro hm
    rcases List.mem_append.mp hm with hm | hm
    · exact h.comma hm
    · simpa using hblanks _ hm
  have htrim : trim (gap' ++ g.text ++ blanks) = g.text := by
    rw [trim_append_right _ hblanks, trim_append_left h.gap_blank, h.plainEnds.trim_eq]
  have hpiece : commaItems (gap' ++ g.text ++ blanks) = [g.text] := by
    rw [commaItems_of_not_mem hcomma, htrim, if_neg h.plainEnds.ne_nil]
  have hitems : commaItems (a ++ (gap' ++ (g.text ++ rest))) =
      commaItems a ++ g.text :: commaItems b := by
    have hsplit : gap' ++ (g.text ++ rest) = gap' ++ g.text ++ blanks ++ b := by simp [hrest]
    rw [commaItems_append h.atStart, hsplit, commaItems_append_of_atItemEnd _ hend, hpiece]
    rfl
  simp [listedCodes, hitems]

/-- The glued note stands at the start of the note of the repaired comment, and what follows the
code in the list stands in it. -/
theorem trim_isPrefix_note : trim (' ' :: (g.note ++ rest)) <+:
    trim (firstLine (ending form (' ' :: (g.note ++ (rest ++ more))))) := by
  obtain ⟨mid, d, -, htext, hd, -⟩ := GluedCode.exists_split? h.glued
  have hpieces : ∀ y : Text, kind.keyword ++ (gap ++ (a ++ (gap' ++ (g.text ++ y)))) =
      kind.keyword ++ (gap ++ (a ++ (gap' ++ (g.code ++ mid)))) ++ d :: (g.note ++ y) := by
    intro y
    conv_lhs => rw [htext]
    simp
  have hline : '\n' ∉ g.text ++ rest := by
    intro hm
    exact h.codePart.oneLine (List.mem_append_right _ (List.mem_append_right _ hm))
  have hdmem : d ∈ g.text := by
    rw [htext]
    simp
  have hlf : d ≠ '\n' := by
    rintro rfl
    exact hline (List.mem_append_left _ hdmem)
  have hstar : d ≠ '*' := by
    rintro rfl
    simp at hd
  have hslash : d ≠ '/' := by
    rintro rfl
    simp at hd
  -- the closing delimiter stands behind the codes, with and without the text in front of the note
  have hkept : g.note ++ rest <+: withoutClose form (g.note ++ (rest ++ more)) := by
    have hwhole := h.kept
    rw [hpieces, hpieces, ending_eq,
      withoutClose_append_cons form _ hstar hslash hlf] at hwhole
    have hbehind := hwhole.trans (trimEnd_isPrefix _)
    rw [List.prefix_append_right_inj] at hbehind
    exact (List.cons_prefix_cons.mp hbehind).2
  have hspace : withoutClose form (' ' :: (g.note ++ (rest ++ more))) =
      ' ' :: withoutClose form (g.note ++ (rest ++ more)) :=
    withoutClose_append_cons form [] (by decide) (by decide) (by decide) _
  rw [ending_eq, trim_firstLine_trimEnd, hspace]
  obtain ⟨y, hy⟩ := hkept
  have hfirst : '\n' ∉ ' ' :: (g.note ++ rest) := by
    intro hm
    rcases List.mem_cons.mp hm with hm | hm
    · exact absurd hm (by decide)
    · refine hline ?_
      rw [htext]
      rcases List.mem_append.mp hm with hm | hm
      · simp [hm]
      · simp [hm]
  have hline' := firstLine_append hfirst y
  rw [List.cons_append] at hline'
  rw [← hy, hline']
  exact trim_isPrefix_trim (List.prefix_append _ _)

theorem note_isPrefix : g.note <+: trim (' ' :: (g.note ++ rest)) := by
  by_cases hnil : g.note = []
  · rw [hnil]
    exact List.nil_prefix
  · obtain ⟨mid, d, -, htext, -, hhead⟩ := GluedCode.exists_split? h.glued
    have hplain : PlainEnds g.note := by
      refine ⟨hnil, hhead, ?_⟩
      intro x c hx
      refine h.plainEnds.last (g.code ++ (mid ++ d :: x)) c ?_
      rw [htext, hx]
      simp
    have hspace : AllBlank [' '] := by simp [AllBlank]
    have htrim : trim (' ' :: g.note) = g.note :=
      (trim_append_left hspace g.note).trans hplain.trim_eq
    calc g.note = trim (' ' :: g.note) := htrim.symm
      _ <+: trim (' ' :: (g.note ++ rest)) := trim_isPrefix_trim (List.prefix_append (' ' :: g.note) rest)

omit h

end GluedLayout

end Layout

/-! ## Comments with one glued code -/

/-- A comment text that is read as a directive with codes, exactly one of which is glued. -/
structure GluedOnce (docComments : Bool) (t : Text) (r : CommentReading) (before : List Text)
    (g : GluedCode) (after : List Text) : Prop where
  read : CommentReading.ofText? docComments t = some r
  kind : r.kind = .ignore ∨ r.kind = .disable ∨ r.kind = .enable
  codes : r.codes = some (before ++ g.text :: after)
  glued : (before ++ g.text :: after).filterMap GluedCode.ofCode? = [g]

/-- The codes of a directive one of which has lost its note: those before it, and the code itself
if anything is left of it. -/
def repairedCodes (kind : DirectiveKind) (before : List Text) (code : Text) : List Text :=
  let codes := before ++ if code = [] then [] else [code]
  if codes.isEmpty && kind = .ignore then [wildcard] else codes

theorem listedCodes_of_commaItems {kind : DirectiveKind} {p code : Text} {before : List Text}
    (h : commaItems p = before ++ if code = [] then [] else [code]) :
    listedCodes kind p = repairedCodes kind before code := by
  simp only [listedCodes, repairedCodes, h]

theorem mem_repairedCodes {kind : DirectiveKind} {before : List Text} {c : Text} (h : c ∈ before)
    (code : Text) : c ∈ repairedCodes kind before code := by
  have hne : before ≠ [] := List.ne_nil_of_mem h
  simp [repairedCodes, hne, h]

/-- The new text of a comment is a directive of the same kind with the codes before the glued one
and the code without its note, and its note starts with the glued one. -/
def RepairLands (docComments : Bool) (t : Text) (kind : DirectiveKind) (before : List Text)
    (g : GluedCode) : Prop :=
  ∃ t' r note, rewrite? docComments t = some t' ∧ CommentReading.ofText? docComments t' = some r ∧
    r.kind = kind ∧ r.codes = some (repairedCodes kind before g.code) ∧ r.note = some note ∧
    g.note <+: note

theorem Directive.proposal?_of_glued {d : Directive} {g : GluedCode}
    (hkind : d.kind = .ignore ∨ d.kind = .disable ∨ d.kind = .enable) (hbare : d.isBare = false)
    (hglued : d.gluedCodes = [g]) : d.proposal? = some (g.repairIn d.comment.raw) := by
  have hglue : d.glueFindings.findSome? (·.newText) = some (g.repairIn d.comment.raw) := by
    simp only [glueFindings, hglued]
    cases g.kind <;> simp [finding]
  rw [proposal?_eq, ownFindings, hbare]
  rcases hkind with hkind | hkind | hkind
  · simpa [hkind] using hglue
  · simpa [hkind] using hglue
  · simpa [hkind] using hglue

namespace GluedOnce

variable {docComments : Bool} {t : Text} {r : CommentReading} {before after : List Text}
  {g : GluedCode}

theorem kind_ne_legacy (h : GluedOnce docComments t r before g after) : r.kind ≠ .legacy := by
  rcases h.kind with hkind | hkind | hkind <;> simp [hkind]

theorem kind_ne_ignoreFile (h : GluedOnce docComments t r before g after) :
    r.kind ≠ .ignoreFile := by
  rcases h.kind with hkind | hkind | hkind <;> simp [hkind]

/-- A repair is proposed for the comment. -/
theorem rewrite?_eq (h : GluedOnce docComments t r before g after) :
    rewrite? docComments t = some (g.repairIn t) := by
  have hbare : Directive.bareCodes (before ++ g.text :: after) = false := by
    rw [Bool.eq_false_iff]
    intro hbare
    have hglued := h.glued
    simp only [Directive.bareCodes, Bool.or_eq_true, beq_iff_eq] at hbare
    rcases hbare with hnil | hall
    · simp at hnil
    · simp [hall] at hglued
  obtain ⟨a, ha⟩ : ∃ a, (PlacedComment.atStart t).recognize? docComments 0 = some a := by
    rw [← Option.isSome_iff_exists, PlacedComment.recognize?_isSome]
    exact Option.isSome_iff_exists.mpr ⟨r, h.read⟩
  obtain ⟨r', hr', hkind, -, hcodes, hraw, -⟩ := PlacedComment.exists_reading_of_recognize? ha
  obtain rfl : r' = r := by
    have hread : CommentReading.ofText? docComments t = some r' := hr'
    exact Option.some.inj (hread.symm.trans h.read)
  have hlegacy : a.kind ≠ .legacy := hkind ▸ h.kind_ne_legacy
  have hproposal : (Directive.classify a).proposal? =
      some (g.repairIn (Directive.classify a).comment.raw) := by
    apply Directive.proposal?_of_glued
    · rw [Directive.kind, Directive.classify_comment, hkind]
      exact h.kind
    · rw [Directive.isBare_classify_of_codes hlegacy (hcodes.trans h.codes), hbare]
    · rw [Directive.gluedCodes, Directive.classify_of_codes hlegacy (hcodes.trans h.codes)]
      exact h.glued
  rw [Directive.classify_comment, hraw] at hproposal
  rw [rewrite?, PlacedComment.rewrite?, ha]
  exact hproposal

theorem exists_layout (h : GluedOnce docComments t r before g after) :
    ∃ form mark lead gap a gap' rest more b, form ≠ .doc ∧
      GluedLayout docComments form t r.kind g mark lead gap a gap' rest more ∧
      b <:+ rest ∧ before = commaItems a ∧ after = commaItems b := by
  rcases CommentReading.ofText?_cases h.read with
    ⟨-, hkind, -⟩ | ⟨form, hform, hdoc, -, ⟨-, hkind⟩ | ⟨d, hread, hkind, hcodes⟩⟩
  · exact absurd hkind h.kind_ne_legacy
  · exact absurd hkind h.kind_ne_legacy
  · have hd : d.codes = before ++ g.text :: after := Option.some.inj (hcodes.symm.trans h.codes)
    obtain ⟨mark, lead, gap, a, gap', rest, more, hlist, hlayout⟩ :=
      exists_gluedLayout hform hdoc hread (hd ▸ h.glued)
    obtain ⟨b, hb, hsplit⟩ := hlayout.exists_listedCodes
    -- the glued code occurs once in the list, which fixes the codes on both sides of it
    have hone : before.filterMap GluedCode.ofCode? = [] ∧ after.filterMap GluedCode.ofCode? = [] := by
      have hglued := h.glued
      rw [List.filterMap_append, List.filterMap_cons_some hlayout.glued] at hglued
      cases hbefore : before.filterMap GluedCode.ofCode? with
      | nil => simpa [hbefore] using hglued
      | cons c cs => simp [hbefore] at hglued
    have hnot {codes : List Text} (hclean : codes.filterMap GluedCode.ofCode? = []) :
        g.text ∉ codes := by
      intro hm
      have hnone := clean_iff.mp hclean g.text hm
      rw [hlayout.glued] at hnone
      exact absurd hnone (by simp)
    have heq : before ++ g.text :: after = commaItems a ++ g.text :: commaItems b :=
      hd.symm.trans (hlist.trans hsplit)
    obtain ⟨hbefore, -, hafter⟩ :=
      (List.append_cons_inj_of_notMem (hnot hone.1) (hnot hone.2)).mp heq
    rw [hkind]
    exact ⟨form, mark, lead, gap, a, gap', rest, more, b, hdoc, hlayout, hb, hbefore, hafter⟩

/-- A code with a note mark is found behind the keyword. -/
theorem foundBehindKeyword_of_malformed (h : GluedOnce docComments t r before g after)
    (hmalformed : g.kind = .malformed) : FoundBehindKeyword r.kind g.text t := by
  obtain ⟨form, mark, lead, gap, a, gap', rest, more, b, -, hlayout, -⟩ := h.exists_layout
  exact foundBehindKeyword_of_cut? (hlayout.cut?_of_malformed hmalformed h.kind_ne_ignoreFile)

/-- What is read after a repair of the code itself. -/
theorem exists_reading_of_found (h : GluedOnce docComments t r before g after)
    (hfound : FoundBehindKeyword r.kind g.text t) :
    ∃ r' note, CommentReading.ofText? docComments (g.repairIn t) = some r' ∧ r'.kind = r.kind ∧
      r'.codes = some (repairedCodes r.kind before g.code) ∧ r'.note = some note ∧
      g.note <+: note ∧ ∀ c ∈ after, c <:+: note := by
  obtain ⟨form, mark, lead, gap, a, gap', rest, more, b, hdoc, hlayout, hb, rfl, rfl⟩ :=
    h.exists_layout
  obtain ⟨hform, hread⟩ := hlayout.read?_repairIn (hlayout.cut?_of_foundBehindKeyword hfound)
  have hnote := hlayout.trim_isPrefix_note
  refine ⟨_, _, CommentReading.ofText?_of_read? hform hdoc hread, rfl, ?_, rfl, ?_, ?_⟩
  · rw [listedCodes_of_commaItems hlayout.commaItems_code]
  · exact hlayout.note_isPrefix.trans hnote
  · intro c hc
    have hin : c <:+: ' ' :: (g.note ++ rest) := by
      refine (infix_of_mem_commaItems hc).trans (hb.isInfix.trans ?_)
      exact List.infix_cons (List.suffix_append g.note rest).isInfix
    exact ((plainEnds_of_mem_commaItems hc).infix_trim hin).trans hnote.isInfix

theorem repairLands_of_found (h : GluedOnce docComments t r before g after)
    (hfound : FoundBehindKeyword r.kind g.text t) : RepairLands docComments t r.kind before g := by
  obtain ⟨r', note, hread, hkind, hcodes, hnote, hpre, -⟩ := h.exists_reading_of_found hfound
  exact ⟨_, r', note, h.rewrite?_eq, hread, hkind, hcodes, hnote, hpre⟩

/-- A repair of something else does not leave the code that it should. -/
theorem not_repairLands_of_missed (h : GluedOnce docComments t r before g after)
    (hmissed : ¬ FoundBehindKeyword r.kind g.text t) :
    ¬ RepairLands docComments t r.kind before g := by
  rintro ⟨t', r', note, hrewrite, hread', hkind, hcodes, -, -⟩
  obtain rfl : g.repairIn t = t' := Option.some.inj (h.rewrite?_eq.symm.trans hrewrite)
  have hmissing : g.kind = .missing := by
    cases hglue : g.kind with
    | malformed => exact absurd (h.foundBehindKeyword_of_malformed hglue) hmissed
    | missing => rfl
  obtain ⟨form, mark, lead, gap, a, gap', rest, more, b, hdoc, hlayout, -⟩ := h.exists_layout
  obtain ⟨hform, ⟨-, hread⟩ | ⟨hcode, note', hread⟩⟩ := hlayout.read?_of_missed hmissing hmissed
  · rcases CommentReading.ofText?_cases hread' with
      ⟨-, hlegacy, -⟩ | ⟨form', hform', -, -, ⟨-, hlegacy⟩ | ⟨d, hd, -⟩⟩
    · exact h.kind_ne_legacy (hkind.symm.trans hlegacy)
    · exact h.kind_ne_legacy (hkind.symm.trans hlegacy)
    · obtain rfl : form = form' := hform.symm.trans hform'
      rw [hread] at hd
      exact absurd hd (by simp)
  · rw [CommentReading.ofText?_of_read? hform hdoc hread] at hread'
    obtain rfl := Option.some.inj hread'
    obtain ⟨-, ⟨w, c, hw, -⟩, -⟩ := hlayout.plain_code hmissing
    have hne : g.code ≠ [] := by simp [hw]
    have hnone : listedCodes r.kind [] = before ++ [g.code] := by
      simpa [repairedCodes, hne] using hcodes
    unfold listedCodes at hnone
    split at hnone
    · have hlast := (List.append_inj' (show [] ++ [wildcard] = before ++ [g.code] from hnone) rfl).2
      exact hcode (List.cons.inj hlast).1.symm
    · simp at hnone

end GluedOnce

/-! ## Which repairs are right -/

variable {docComments : Bool} {t : Text} {r : CommentReading} {before after : List Text}
  {g : GluedCode}

/-- A repair lands on the glued code exactly if the first occurrence of that code stands behind the
keyword, as it does for every code with a note mark. -/
theorem repair_lands_iff_found_behind_keyword (h : GluedOnce docComments t r before g after) :
    (RepairLands docComments t r.kind before g ↔ FoundBehindKeyword r.kind g.text t) ∧
      (g.kind = .malformed → RepairLands docComments t r.kind before g) := by
  constructor
  · constructor
    · intro hlands
      by_contra hmissed
      exact h.not_repairLands_of_missed hmissed hlands
    · exact h.repairLands_of_found
  · intro hmalformed
    exact h.repairLands_of_found (h.foundBehindKeyword_of_malformed hmalformed)

/-- A code between two others is repaired in place. -/
theorem repair_lands_between_codes :
    GluedOnce true "/* lint:ignore A, B c, D */"
        { kind := .ignore, form := .block, codes := some ["A", "B c", "D"] }
        ["A"] ⟨"B c", .missing⟩ ["D"] ∧
      FoundBehindKeyword .ignore "B c" "/* lint:ignore A, B c, D */" ∧
      RepairLands true "/* lint:ignore A, B c, D */" .ignore ["A"] ⟨"B c", .missing⟩ := by
  have hglued : GluedOnce true "/* lint:ignore A, B c, D */"
      { kind := .ignore, form := .block, codes := some ["A", "B c", "D"] }
      ["A"] ⟨"B c", .missing⟩ ["D"] :=
    ⟨by decide +kernel, .inl rfl, rfl, by decide +kernel⟩
  have hfound : FoundBehindKeyword .ignore "B c" "/* lint:ignore A, B c, D */" := by
    decide +kernel
  exact ⟨hglued, hfound, (repair_lands_iff_found_behind_keyword hglued).1.mpr hfound⟩

/-- A code that starts like the end of the keyword is taken for it: the repair cuts the keyword off
from its code, and no code is left. -/
theorem repair_misses_code_like_keyword :
    GluedOnce false "# lint:disable e e"
        { kind := .disable, form := .line, codes := some ["e e"] } [] ⟨"e e", .missing⟩ [] ∧
      rewrite? false "# lint:disable e e" = some "# lint:disable -- e e" ∧
      CommentReading.ofText? false "# lint:disable -- e e" =
        some { kind := .disable, form := .line, codes := some [], note := some "e e" } ∧
      ¬ RepairLands false "# lint:disable e e" .disable [] ⟨"e e", .missing⟩ := by
  have hglued : GluedOnce false "# lint:disable e e"
      { kind := .disable, form := .line, codes := some ["e e"] } [] ⟨"e e", .missing⟩ [] :=
    ⟨by decide +kernel, .inr (.inl rfl), rfl, by decide +kernel⟩
  have hmissed : ¬ FoundBehindKeyword .disable "e e" "# lint:disable e e" := by decide +kernel
  exact ⟨hglued, by decide +kernel, by decide +kernel, hglued.not_repairLands_of_missed hmissed⟩

/-- A repair that lands on the glued code keeps the kind and all codes before that code; the codes
behind it become part of the note. -/
theorem repair_keeps_earlier_codes (h : GluedOnce docComments t r before g after)
    (hfound : g.kind = .missing → FoundBehindKeyword r.kind g.text t) :
    ∃ t' r' codes note, rewrite? docComments t = some t' ∧
      CommentReading.ofText? docComments t' = some r' ∧ r'.kind = r.kind ∧
      r'.codes = some codes ∧ (∀ c ∈ before, c ∈ codes) ∧
      r'.note = some note ∧ ∀ c ∈ after, c <:+: note := by
  have hplace : FoundBehindKeyword r.kind g.text t := by
    cases hkind : g.kind with
    | malformed => exact h.foundBehindKeyword_of_malformed hkind
    | missing => exact hfound hkind
  obtain ⟨r', note, hread, hkind, hcodes, hnote, -, hafter⟩ := h.exists_reading_of_found hplace
  refine ⟨_, r', _, note, h.rewrite?_eq, hread, hkind, hcodes, ?_, hnote, hafter⟩
  intro c hc
  exact mem_repairedCodes hc g.code

/-- The code before the glued one is kept, and the one behind it goes into the note. -/
theorem repair_keeps_code_before_glued :
    GluedOnce false "// lint:enable A, B c, D"
        { kind := .enable, form := .line, codes := some ["A", "B c", "D"] }
        ["A"] ⟨"B c", .missing⟩ ["D"] ∧
      FoundBehindKeyword .enable "B c" "// lint:enable A, B c, D" ∧
      ∃ t' r' codes note, rewrite? false "// lint:enable A, B c, D" = some t' ∧
        CommentReading.ofText? false t' = some r' ∧ r'.kind = .enable ∧
        r'.codes = some codes ∧ (∀ c ∈ [['A']], c ∈ codes) ∧
        r'.note = some note ∧ ∀ c ∈ [['D']], c <:+: note := by
  have hglued : GluedOnce false "// lint:enable A, B c, D"
      { kind := .enable, form := .line, codes := some ["A", "B c", "D"] }
      ["A"] ⟨"B c", .missing⟩ ["D"] :=
    ⟨by decide +kernel, .inr (.inr rfl), rfl, by decide +kernel⟩
  have hfound : FoundBehindKeyword .enable "B c" "// lint:enable A, B c, D" := by decide +kernel
  exact ⟨hglued, hfound, repair_keeps_earlier_codes hglued fun _ => hfound⟩

/-- A code behind the glued one is no code any more after the repair. -/
theorem repair_drops_later_code :
    GluedOnce false "# lint:disable A b, C"
        { kind := .disable, form := .line, codes := some ["A b", "C"] }
        [] ⟨"A b", .missing⟩ ["C"] ∧
      GluedCode.ofCode? "C" = none ∧
      rewrite? false "# lint:disable A b, C" = some "# lint:disable A -- b, C" ∧
      CommentReading.ofText? false "# lint:disable A -- b, C" =
        some { kind := .disable, form := .line, codes := some ["A"], note := some "b, C" } ∧
      ['C'] ∉ [['A']] := by
  refine ⟨⟨by decide +kernel, .inr (.inl rfl), rfl, by decide +kernel⟩, ?_⟩
  decide +kernel

end LintDirectives
