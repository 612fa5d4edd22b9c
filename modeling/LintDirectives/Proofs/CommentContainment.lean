import LintDirectives.Proofs.CommentConvergence

/-!
# New texts stay inside their comments

A line comment must stay on its line, and a block comment must close at its end and nowhere before.
Each of the three kinds of rewriting keeps that: the content of a tag line has lost its closing
delimiter, a keyword brings no part of a delimiter, and a repair puts spaces and hyphens between two
parts of the comment, of which the second one still ends in the closing delimiter.
-/

namespace LintDirectives

open Text CommentText DirectiveGrammar

/-! ## Well-formed comments -/

/-- A comment on a single line, with the mark that opens it. -/
structure IsLineComment (opener t : Text) : Prop where
  isOpener : opener = ['#'] ∨ opener = ['/', '/']
  opens : opener <+: t
  oneLine : '\n' ∉ t

/-- A comment between delimiters, with no closing delimiter behind the opening one but the last. -/
structure IsBlockComment (t : Text) : Prop where
  opens : ['/', '*'] <+: t
  closes : ['*', '/'] <:+ t
  noOther : ∀ x y, t = x ++ ['*', '/'] ++ y → 2 ≤ x.length → y = []

/-- No closing delimiter stands before the end of a text. -/
def ClosesOnlyAtEnd (t : Text) : Prop := ∀ s, '*' :: '/' :: s <:+ t → s = []

instance (t : Text) : Decidable (ClosesOnlyAtEnd t) :=
  decidable_of_iff (∀ p ∈ t.tails, ['*', '/'] <+: p → p = ['*', '/']) <| by
    simp only [List.mem_tails]
    constructor
    · intro h s hs
      simpa using h _ hs ⟨s, rfl⟩
    · rintro h _ hp ⟨s, rfl⟩
      rw [h s hp]
      rfl

theorem isBlockComment_iff {t : Text} : IsBlockComment t ↔
    ['/', '*'] <+: t ∧ ['*', '/'] <:+ t ∧ ClosesOnlyAtEnd (t.drop 2) := by
  constructor
  · rintro ⟨⟨b, rfl⟩, hcloses, hother⟩
    refine ⟨⟨b, rfl⟩, hcloses, ?_⟩
    rintro s ⟨w, hw⟩
    have hb : w ++ '*' :: '/' :: s = b := hw
    exact hother ('/' :: '*' :: w) s (by simp [← hb]) (by simp)
  · rintro ⟨⟨b, rfl⟩, hcloses, hend⟩
    refine ⟨⟨b, rfl⟩, hcloses, ?_⟩
    intro x y hxy hlen
    refine hend y ⟨x.drop 2, ?_⟩
    have hdrop := congrArg (List.drop 2) hxy
    rw [List.append_assoc, List.drop_append_of_le_length hlen] at hdrop
    exact hdrop.symm

instance (t : Text) : Decidable (IsBlockComment t) :=
  decidable_of_iff _ isBlockComment_iff.symm

theorem ClosesOnlyAtEnd.of_infix {s t : Text} (h : ClosesOnlyAtEnd t) (hin : s <:+: t) :
    ClosesOnlyAtEnd s := by
  obtain ⟨u, v, rfl⟩ := hin
  rintro y ⟨x, rfl⟩
  have hend := h (y ++ v) ⟨u ++ x, by simp⟩
  exact (List.append_eq_nil_iff.mp hend).1

/-- What is left of a text without its closing delimiter has none. -/
theorem ClosesOnlyAtEnd.not_infix_dropBlockClose {t : Text} (h : ClosesOnlyAtEnd t) :
    ¬ ['*', '/'] <:+: dropBlockClose t := by
  intro hin
  rcases dropBlockClose_cases t with ⟨r, rfl⟩ | ⟨r, rfl⟩ | ⟨hnot, hnot'⟩
  · rw [dropBlockClose_star_slash] at hin
    obtain ⟨x, y, rfl⟩ := hin.trans (List.rdropWhile_prefix _ r).isInfix
    have hend := h (y ++ ['*', '/']) ⟨x, by simp⟩
    simp at hend
  · have hend := h ['\n'] ⟨r, rfl⟩
    simp at hend
  · rw [dropBlockClose_of_not_suffix hnot hnot'] at hin
    obtain ⟨x, y, rfl⟩ := hin
    obtain rfl := h y ⟨x, by simp⟩
    exact hnot ⟨x, by simp⟩

/-- A character of no delimiter keeps a closing delimiter on one side. -/
theorem ClosesOnlyAtEnd.append_cons {a b : Text} {c : Char} (ha : ¬ ['*', '/'] <:+: a)
    (hstar : c ≠ '*') (hslash : c ≠ '/') (hb : ClosesOnlyAtEnd b) :
    ClosesOnlyAtEnd (a ++ c :: b) := by
  rintro s ⟨w, hw⟩
  rcases List.append_eq_append_iff.mp hw with ⟨u, rfl, hu⟩ | ⟨u, rfl, hu⟩
  · match u with
    | [] => exact absurd (List.cons.inj hu).1.symm hstar
    | [d] =>
      have hbehind := (List.cons.inj hu).2
      exact absurd (List.cons.inj hbehind).1.symm hslash
    | d :: e :: u =>
      obtain ⟨rfl, hbehind⟩ := List.cons.inj hu
      obtain ⟨rfl, -⟩ := List.cons.inj hbehind
      exact absurd ⟨w, u, by simp⟩ ha
  · cases u with
    | nil => exact absurd (List.cons.inj hu).1 hstar
    | cons d u => exact hb s ⟨u, (List.cons.inj hu).2.symm⟩

/-! ## Migrated documentation comments -/

theorem DocComment.not_infix_of_mem_contents {raw content : Text} (h : ClosesOnlyAtEnd raw)
    (hcontent : content ∈ contents raw) : ¬ ['*', '/'] <:+: content ∧ '\n' ∉ content := by
  obtain ⟨line, hline, opened, hopened, hin⟩ := exists_opened_of_mem_contents hcontent
  obtain ⟨hraw, hlf⟩ := infix_of_mem_splitOn hline
  have hend : ClosesOnlyAtEnd opened := h.of_infix (hopened.trans hraw)
  constructor
  · intro hclose
    exact hend.not_infix_dropBlockClose (hclose.trans hin)
  · intro hm
    exact hlf (hopened.subset (dropBlockClose_subset opened (hin.subset hm)))

/-- The directive of a tag line has what the content of the line has, and nothing of a delimiter. -/
theorem Migration.not_infix_ofTagLine {tag : DocComment.TagLine}
    (hclose : ¬ ['*', '/'] <:+: tag.content) (hlf : '\n' ∉ tag.content) :
    ¬ ['*', '/'] <:+: ofTagLine tag ∧ '\n' ∉ ofTagLine tag := by
  obtain ⟨rest, hrest, heq⟩ : ∃ rest, rest <:+: tag.content ∧
      ofTagLine tag = trim (tag.marker.modern ++ rest) := by
    unfold ofTagLine
    split
    · next before after hcut =>
      refine ⟨after, ?_, rfl⟩
      rw [eq_append_of_cut? hcut]
      exact (List.suffix_append _ after).isInfix
    · exact ⟨[], List.nil_infix, rfl⟩
  have hmodern : '*' ∉ tag.marker.modern ∧ '\n' ∉ tag.marker.modern := by
    cases tag.marker <;> decide
  rw [heq]
  constructor
  · intro hin
    have hbehind := infix_append_of_not_mem hmodern.1 (hin.trans (trim_isInfix _))
    exact hclose (hbehind.trans hrest)
  · intro hm
    rcases List.mem_append.mp ((trim_isInfix _).subset hm) with hm | hm
    · exact hmodern.2 hm
    · exact hlf (hrest.subset hm)

theorem isBlockComment_of_doc {docComments : Bool} {t : Text} {migration : Migration}
    (hform : CommentForm.ofText docComments t = .doc) (h : IsBlockComment t)
    (hmigration : Migration.ofComment? .doc t = some migration) :
    IsBlockComment migration.text ∧ '\n' ∉ migration.text := by
  obtain ⟨tag, htag, rfl⟩ := Option.map_eq_some_iff.mp hmigration
  obtain ⟨-, rest, rfl, -⟩ := ofText_eq_doc_iff.mp hform
  have hdrop : ClosesOnlyAtEnd ('*' :: rest) := (isBlockComment_iff.mp h).2.2
  -- the two opening stars are no part of a closing delimiter
  have hend : ClosesOnlyAtEnd ('/' :: '*' :: '*' :: rest) := by
    intro s hs
    rcases List.suffix_cons_iff.mp hs with hs | hs
    · exact absurd (List.cons.inj hs).1 (by decide)
    · rcases List.suffix_cons_iff.mp hs with hs | hs
      · have hbehind := (List.cons.inj hs).2
        exact absurd (List.cons.inj hbehind).1 (by decide)
      · exact hdrop s hs
  obtain ⟨hcontent, hcontent'⟩ :=
    DocComment.not_infix_of_mem_contents hend (DocComment.mem_of_tagLineFrom? htag)
  obtain ⟨hclose, hlf⟩ := Migration.not_infix_ofTagLine hcontent hcontent'
  have htext : "/* ".toList ++ Migration.ofTagLine tag ++ " */".toList =
      '/' :: '*' :: (' ' :: Migration.ofTagLine tag ++ ' ' :: ['*', '/']) := by simp
  rw [htext]
  constructor
  · refine isBlockComment_iff.mpr ⟨⟨_, rfl⟩, ?_, ?_⟩
    · exact ⟨'/' :: '*' :: (' ' :: Migration.ofTagLine tag ++ [' ']), by simp⟩
    · refine ClosesOnlyAtEnd.append_cons ?_ (by decide) (by decide) (by decide)
      intro hin
      exact hclose (infix_append_of_not_mem (a := [' ']) (by decide) hin)
  · simp [hlf]

/-! ## Replaced markers -/

namespace LegacyMarker

theorem star_not_mem (m : LegacyMarker) : '*' ∉ m.text ∧ '*' ∉ m.modern := by
  cases m <;> decide

theorem count_lineFeed_replaceAll (m : LegacyMarker) (t : Text) :
    (replaceAll m.text m.modern t).count '\n' = t.count '\n' := by
  have hmodern : '\n' ∉ m.modern := by cases m <;> decide
  exact count_replaceAll m.text_ne_nil m.lineFeed_not_mem_text hmodern t

/-- A closing delimiter in the new text was there before, with what follows it. -/
theorem exists_suffix_of_replaceAll (m : LegacyMarker) {s t : Text}
    (h : '*' :: '/' :: s <:+ replaceAll m.text m.modern t) :
    ∃ s₀, '*' :: '/' :: s₀ <:+ t ∧ replaceAll m.text m.modern s₀ = s := by
  induction t using replaceAll_induction m.text_ne_nil with
  | nil => simp at h
  | mark rest ih =>
    rw [replaceAll_append_mark m.text_ne_nil] at h
    obtain ⟨s₀, hs₀, heq⟩ := ih (suffix_append_of_not_mem m.star_not_mem.2 h)
    exact ⟨s₀, hs₀.trans (List.suffix_append _ _), heq⟩
  | char c rest hm ih =>
    rw [replaceAll_cons_of_not_isPrefix _ hm] at h
    rcases List.suffix_cons_iff.mp h with h | h
    · obtain ⟨rfl, hrest⟩ := List.cons.inj h
      obtain ⟨s₀, rfl, heq⟩ := exists_cons_of_replaceAll m (by decide) hrest.symm
      exact ⟨s₀, List.suffix_rfl, heq⟩
    · obtain ⟨s₀, hs₀, heq⟩ := ih h
      exact ⟨s₀, hs₀.trans (List.suffix_cons c rest), heq⟩

theorem closesOnlyAtEnd_replaceAll (m : LegacyMarker) {t : Text} (h : ClosesOnlyAtEnd t) :
    ClosesOnlyAtEnd (replaceAll m.text m.modern t) := by
  intro s hs
  obtain ⟨s₀, hs₀, rfl⟩ := m.exists_suffix_of_replaceAll hs
  rw [h s₀ hs₀]
  rfl

theorem isLineComment_replaceAll (m : LegacyMarker) {opener t : Text}
    (h : IsLineComment opener t) : IsLineComment opener (replaceAll m.text m.modern t) where
  isOpener := h.isOpener
  opens := by
    obtain ⟨s, rfl⟩ := h.opens
    have hsign : '@' ∉ opener := by
      rcases h.isOpener with rfl | rfl <;> decide
    rw [replaceAll_append_of_not_mem m.text_eq_cons m.modern hsign]
    exact List.prefix_append _ _
  oneLine := by
    have hcount := m.count_lineFeed_replaceAll t
    rw [List.count_eq_zero.mpr h.oneLine] at hcount
    exact List.count_eq_zero.mp hcount

theorem isBlockComment_replaceAll (m : LegacyMarker) {t : Text} (h : IsBlockComment t) :
    IsBlockComment (replaceAll m.text m.modern t) := by
  obtain ⟨⟨b, rfl⟩, ⟨r, hr⟩, hend⟩ := isBlockComment_iff.mp h
  have hopen := replaceAll_append_of_not_mem m.text_eq_cons m.modern
    (show '@' ∉ ['/', '*'] by decide) b
  have hslash : replaceAll m.text m.modern ['/'] = ['/'] :=
    replaceAll_append_of_not_mem m.text_eq_cons m.modern (show '@' ∉ ['/'] by decide) []
  have hclose := replaceAll_append_cons m.text_ne_nil m.modern m.star_not_mem.1 r ['/']
  rw [hslash, hr] at hclose
  refine isBlockComment_iff.mpr ⟨⟨_, hopen.symm⟩, ⟨_, hclose.symm⟩, ?_⟩
  rw [hopen]
  exact m.closesOnlyAtEnd_replaceAll hend

end LegacyMarker

/-! ## Repaired notes -/

section Repair

variable {docComments : Bool} {form : CommentForm} {t : Text} {kind : DirectiveKind} {g : GluedCode}
  {mark lead gap a gap' rest more : Text}

namespace GluedLayout

variable (h : GluedLayout docComments form t kind g mark lead gap a gap' rest more)

include h

/-- No repair reaches into the opening mark. -/
theorem openMark_isPrefix (hfile : kind ≠ .ignoreFile) {x y : Text}
    (hcut : cut? g.text t = some (x, y))
    (hx : x <+: mark ++ (lead ++ (kind.keyword ++ (gap ++ (a ++ gap'))))) :
    mark <+: x ++ g.code := by
  have hplace : cut? g.text t = some (mark ++ (lead ++ (kind.keyword ++ (gap ++ (a ++ gap')))),
      rest ++ more) → mark <+: x ++ g.code := by
    intro hplace
    rw [hplace] at hcut
    obtain ⟨rfl, -⟩ := Prod.mk.inj (Option.some.inj hcut)
    rw [List.append_assoc]
    exact List.prefix_append _ _
  cases hkind : g.kind with
  | malformed => exact hplace (h.cut?_of_malformed hkind hfile)
  | missing =>
    by_cases hfound : FoundBehindKeyword kind g.text t
    · exact hplace (h.cut?_of_foundBehindKeyword hfound)
    · rcases h.cut_cases_of_missed hkind hfound hcut hx with ⟨z, -, hq⟩ | ⟨z, -, hq⟩
      · exact ⟨z, hq.symm⟩
      · exact ⟨_, hq.symm⟩

/-- A repair replaces a part of one line behind the opening mark and before the end of the
codes. -/
theorem exists_repair (hfile : kind ≠ .ignoreFile) : ∃ left mid right,
    t = left ++ (mid ++ right) ∧ g.repairIn t = left ++ ' ' :: '-' :: '-' :: ' ' :: right ∧
      mark <+: left ∧ mid ≠ [] ∧ '\n' ∉ mid ∧ more <:+ right := by
  obtain ⟨x, y, hcut, hx⟩ := h.exists_cut?
  obtain ⟨mid, d, -, htext, -⟩ := GluedCode.exists_split? h.glued
  have ht := eq_append_of_cut? hcut
  refine ⟨x ++ g.code, mid ++ [d], g.note ++ y, ?_, ?_, h.openMark_isPrefix hfile hcut hx, by simp,
    ?_, ?_⟩
  · conv_lhs => rw [ht, htext]
    simp
  · rw [GluedCode.repairIn_of_cut? h.glued hcut]
    simp
  · intro hm
    refine h.codePart.oneLine ?_
    rw [htext]
    simp only [List.mem_append, List.mem_cons, List.mem_nil_iff, or_false] at hm ⊢
    tauto
  · have hlen := hx.length_le
    have hmore : more <:+ t := ⟨_, by rw [h.eq_append, ← List.append_assoc]⟩
    have hy : y <:+ t := ⟨_, ht.symm⟩
    have htotal := congrArg List.length (ht.symm.trans h.eq_append)
    simp only [List.length_append] at hlen htotal
    have hle : more.length ≤ y.length := by omega
    exact (List.suffix_of_suffix_length_le hmore hy hle).trans (List.suffix_append _ _)

/-- The closing delimiter of a block comment stands behind the codes. -/
theorem close_isSuffix (hblock : form = .block) (hclose : ['*', '/'] <:+ t) :
    ['*', '/'] <:+ more := by
  have hkept := h.kept
  obtain ⟨codes, hcodes⟩ : ∃ codes, codes =
    kind.keyword ++ (gap ++ (a ++ (gap' ++ (g.text ++ rest)))) := ⟨_, rfl⟩
  have hall : kind.keyword ++ (gap ++ (a ++ (gap' ++ (g.text ++ (rest ++ more))))) =
      codes ++ more := by
    rw [hcodes]
    simp only [List.append_assoc]
  have hlen : 2 ≤ codes.length := by
    have hkeyword : 2 ≤ kind.keyword.length := by cases kind <;> decide
    rw [hcodes, List.length_append]
    omega
  have hsuffix : codes ++ more <:+ t := by
    refine ⟨mark ++ lead, ?_⟩
    rw [← hall, h.eq]
    simp only [List.append_assoc]
  obtain ⟨r, hr⟩ := List.suffix_of_suffix_length_le hclose hsuffix (by simp; omega)
  have hending : ending .block (r ++ ['*', '/']) = trimEnd (r.rdropWhile (· == '*')) := by
    rw [← dropBlockClose_star_slash]
    rfl
  rw [← hcodes, hall, ← hr, hblock, hending] at hkept
  obtain ⟨w, rfl⟩ := hkept.trans ((trimEnd_isPrefix _).trans (List.rdropWhile_prefix _ r))
  rw [List.append_assoc, List.append_cancel_left_eq] at hr
  exact ⟨w, hr⟩

theorem isLineComment_repairIn (hfile : kind ≠ .ignoreFile) {opener : Text}
    (hline : IsLineComment opener t) : IsLineComment opener (g.repairIn t) := by
  obtain ⟨left, mid, right, ht, hnew, hmark, -, -, -⟩ := h.exists_repair hfile
  obtain ⟨tail, htail⟩ := keyword_head kind
  have hopener : opener <+: mark := by
    have hopens := hline.opens
    rw [h.eq, htail] at hopens
    exact h.openMark.lineOpen_isPrefix h.lead_blank isPlain_l hline.isOpener hopens
  have hlf := hline.oneLine
  rw [ht] at hlf
  simp only [List.mem_append, not_or] at hlf
  rw [hnew]
  refine ⟨hline.isOpener, hopener.trans (hmark.trans (List.prefix_append _ _)), ?_⟩
  simp [hlf.1, hlf.2.2]

theorem count_lineFeed_repairIn (hfile : kind ≠ .ignoreFile) :
    (g.repairIn t).count '\n' = t.count '\n' := by
  obtain ⟨left, mid, right, ht, hnew, -, -, hmid, -⟩ := h.exists_repair hfile
  rw [hnew, ht]
  simp [List.count_append, List.count_eq_zero.mpr hmid]

theorem isBlockComment_repairIn (hfile : kind ≠ .ignoreFile) (hblock : form = .block)
    (hcomment : IsBlockComment t) : IsBlockComment (g.repairIn t) := by
  obtain ⟨left, mid, right, ht, hnew, hmark, hmid, -, hmore⟩ := h.exists_repair hfile
  obtain ⟨-, hcloses, hend⟩ := isBlockComment_iff.mp hcomment
  have hright : ['*', '/'] <:+ right := (h.close_isSuffix hblock hcloses).trans hmore
  obtain ⟨stars, rfl⟩ : ∃ stars, left = '/' :: '*' :: stars := by
    have hopen := h.openMark
    rw [hblock] at hopen
    cases hopen with
    | block n hn =>
      obtain ⟨z, rfl⟩ := hmark
      exact ⟨List.replicate n '*' ++ z, rfl⟩
  rw [ht] at hend
  have hend : ClosesOnlyAtEnd (stars ++ (mid ++ right)) := hend
  -- a closing delimiter before the replaced part would not be the last one
  have hleft : ¬ ['*', '/'] <:+: stars := by
    rintro ⟨u, v, rfl⟩
    have hnil := hend (v ++ (mid ++ right)) ⟨u, by simp⟩
    exact hmid (List.append_eq_nil_iff.mp (List.append_eq_nil_iff.mp hnil).2).1
  have hbehind : ClosesOnlyAtEnd right :=
    hend.of_infix ((List.suffix_append mid right).trans (List.suffix_append stars _)).isInfix
  rw [hnew]
  refine isBlockComment_iff.mpr ⟨⟨_, rfl⟩, ?_, ?_⟩
  · exact hright.trans ⟨('/' :: '*' :: stars) ++ [' ', '-', '-', ' '], by simp⟩
  · refine ClosesOnlyAtEnd.append_cons hleft (by decide) (by decide) ?_
    exact ClosesOnlyAtEnd.append_cons (a := ['-', '-']) (by decide) (by decide) (by decide) hbehind

omit h

end GluedLayout

end Repair

/-! ## All rewritings -/

theorem IsBlockComment.ofText_ne_line {t : Text} (h : IsBlockComment t) (docComments : Bool) :
    CommentForm.ofText docComments t ≠ .line := by
  obtain ⟨b, rfl⟩ := h.opens
  intro hline
  unfold CommentForm.ofText at hline
  split at hline
  · split at hline <;> simp at hline
  · simp at hline
  · next hnot => exact hnot b rfl

theorem IsBlockComment.ofText_eq_block {t : Text} (h : IsBlockComment t) {docComments : Bool}
    (hdoc : CommentForm.ofText docComments t ≠ .doc) :
    CommentForm.ofText docComments t = .block := by
  have hline := h.ofText_ne_line docComments
  cases hform : CommentForm.ofText docComments t with
  | line => exact absurd hform hline
  | block => rfl
  | doc => exact absurd hform hdoc

theorem IsLineComment.ofText_ne_doc {opener t : Text} (h : IsLineComment opener t)
    (docComments : Bool) : CommentForm.ofText docComments t ≠ .doc := by
  intro hdoc
  obtain ⟨-, rest, rfl, -⟩ := ofText_eq_doc_iff.mp hdoc
  have hopens := h.opens
  rcases h.isOpener with rfl | rfl
  · exact absurd (List.cons_prefix_cons.mp hopens).1 (by decide)
  · have hbehind := (List.cons_prefix_cons.mp hopens).2
    exact absurd (List.cons_prefix_cons.mp hbehind).1 (by decide)

/-- The new text of a comment is a comment again, wherever it stands and whether or not the language
has documentation comments. A line comment keeps its opener and stays on its line. A block comment
gets no other form and keeps its line feeds. A documentation comment becomes a block comment on one
line. -/
theorem rewriting_stays_in_comment {docComments : Bool} {index : ℕ} {c : PlacedComment} {t : Text}
    (h : c.rewrite? docComments index = some t) :
    (∀ opener, IsLineComment opener c.text → IsLineComment opener t) ∧
      (IsBlockComment c.text → IsBlockComment t ∧ CommentForm.ofText docComments t = .block ∧
        (CommentForm.ofText docComments c.text = .block → t.count '\n' = c.text.count '\n') ∧
        (CommentForm.ofText docComments c.text = .doc → '\n' ∉ t)) := by
  rw [PlacedComment.rewrite?_eq] at h
  rcases rewrite?_cases h with ⟨hform, migration, hmigration, rfl⟩ |
    ⟨form, hform, hdoc, ⟨-, m, -, rfl⟩ | ⟨d, hread, hfile, g, hg, rfl⟩⟩
  · constructor
    · intro opener hline
      exact absurd hform (hline.ofText_ne_doc docComments)
    · intro hblock
      obtain ⟨hcomment, hlf⟩ := isBlockComment_of_doc hform hblock hmigration
      refine ⟨hcomment, Migration.ofText_doc hmigration docComments, ?_, fun _ => hlf⟩
      intro hblockForm
      rw [hform] at hblockForm
      exact absurd hblockForm (by decide)
  · have hne : CommentForm.ofText docComments c.text ≠ .doc := hform ▸ hdoc
    constructor
    · intro opener hline
      exact m.isLineComment_replaceAll hline
    · intro hblock
      have hcomment := m.isBlockComment_replaceAll hblock
      refine ⟨hcomment, hcomment.ofText_eq_block (ofText_replaceAll_ne_doc m hne),
        fun _ => m.count_lineFeed_replaceAll c.text, fun hdocForm => absurd hdocForm hne⟩
  · have hne : CommentForm.ofText docComments c.text ≠ .doc := hform ▸ hdoc
    obtain ⟨mark, lead, gap, a, gap', rest, more, -, hlayout⟩ :=
      exists_gluedLayout hform hdoc hread hg
    constructor
    · intro opener hline
      exact hlayout.isLineComment_repairIn hfile hline
    · intro hblock
      have hblockForm : form = .block := hform.symm.trans (hblock.ofText_eq_block hne)
      have hkept := (repairIn_lowers hform hdoc hread hfile hg).1
      exact ⟨hlayout.isBlockComment_repairIn hfile hblockForm hblock, hkept.trans hblockForm,
        fun _ => hlayout.count_lineFeed_repairIn hfile, fun hdocForm => absurd hdocForm hne⟩

/-- A documentation comment on three lines becomes a block comment on one. -/
theorem tag_line_becomes_block_comment :
    IsBlockComment "/**\n * @legacy-ignore-start A\n */".toList ∧
      (PlacedComment.atStart "/**\n * @legacy-ignore-start A\n */".toList).rewrite? true 0 =
        some "/* lint:disable A */".toList ∧
      IsBlockComment "/* lint:disable A */".toList ∧
      CommentForm.ofText true "/* lint:disable A */".toList = .block ∧
      '\n' ∉ "/* lint:disable A */".toList := by
  have hblock : IsBlockComment "/**\n * @legacy-ignore-start A\n */".toList := by decide +kernel
  have hrewrite : (PlacedComment.atStart "/**\n * @legacy-ignore-start A\n */".toList).rewrite?
      true 0 = some "/* lint:disable A */".toList := by decide +kernel
  have hdoc : CommentForm.ofText true "/**\n * @legacy-ignore-start A\n */".toList = .doc := by
    decide +kernel
  obtain ⟨hcomment, hform, -, hlf⟩ := (rewriting_stays_in_comment hrewrite).2 hblock
  exact ⟨hblock, hrewrite, hcomment, hform, hlf hdoc⟩

end LintDirectives
