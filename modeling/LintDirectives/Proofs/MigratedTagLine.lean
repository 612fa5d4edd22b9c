import LintDirectives.Proofs.CommentContainment
import LintDirectives.Proofs.DirectiveRoundTrip

/-!
# Directives made of tag lines

A documentation comment gives way to a block comment with the modern keyword and what follows the
marker on the tag line. Between its delimiters stands exactly this text, so it is read as the
directive written by it. That is a directive of the kind of the marker if the keyword ends where the
marker did. A marker is found in front of any character, though, and a keyword is not: behind one
with further characters no directive is read, or one for the whole file.
-/

namespace LintDirectives

open Text CommentText DirectiveGrammar

/-! ## Tag lines -/

namespace DocComment

/-- A tag line is the first one of a comment that starts with a tag and has a marker in it, and its
marker is the first of these by the order of markers. -/
structure TagLine.IsFirstIn (lines : List Text) (tag : TagLine) : Prop where
  line : lines[tag.offset]? = some tag.content
  tagged : tag.content.head? = some '@'
  marked : LegacyMarker.find? tag.content = some tag.marker
  first : ∀ i < tag.offset, ∀ content, lines[i]? = some content → content.head? = some '@' →
    LegacyMarker.find? content = none

variable {raw content : Text} {tag : TagLine}

theorem isFirstIn_of_tagLineFrom? {lines : List Text} {start : ℕ}
    (h : tagLineFrom? start lines = some tag) :
    ∃ k, tag.offset = start + k ∧ TagLine.IsFirstIn lines { tag with offset := k } := by
  induction lines generalizing start with
  | nil => exact nomatch h
  | cons content rest ih =>
    rw [tagLineFrom?] at h
    split at h
    · next marker hmarker =>
      obtain rfl := Option.some.inj h
      obtain ⟨htagged, hmarked⟩ := Option.ite_none_right_eq_some.mp hmarker
      exact ⟨0, rfl, rfl, htagged, hmarked, fun i hi => absurd hi (Nat.not_lt_zero i)⟩
    · next hnone =>
      obtain ⟨k, hk, hline, htagged, hmarked, hfirst⟩ := ih h
      refine ⟨k + 1, by omega, hline, htagged, hmarked, fun i hi content' hcontent' htag => ?_⟩
      cases i with
      | zero =>
        obtain rfl := Option.some.inj hcontent'
        rwa [if_pos htag] at hnone
      | succ i => exact hfirst i (Nat.lt_of_succ_lt_succ hi) content' hcontent' htag

theorem isFirstIn_of_tagLine? (h : tagLine? raw = some tag) :
    TagLine.IsFirstIn (contents raw) tag := by
  obtain ⟨k, hk, hfirst⟩ := isFirstIn_of_tagLineFrom? h
  obtain rfl : k = tag.offset := by omega
  exact hfirst

theorem plainEnds_of_mem_contents (h : content ∈ contents raw) (hne : content ≠ []) :
    PlainEnds content := by
  have hline (first : Bool) (line : Text) (hne : lineContent first line ≠ []) :
      PlainEnds (lineContent first line) := plainEnds_trim hne
  unfold contents at h
  split at h
  · simp at h
  · rcases List.mem_cons.mp h with rfl | h
    · exact hline true _ hne
    · obtain ⟨line, -, rfl⟩ := List.mem_map.mp h
      exact hline false line hne

end DocComment

/-! ## The block comment -/

theorem LegacyMarker.plainEnds_modern (m : LegacyMarker) : PlainEnds m.modern where
  ne_nil := by cases m <;> decide
  head c y h := by
    have hmem : c ∈ m.modern := h ▸ List.mem_cons_self
    exact not_blank_of_mem_keyword hmem
  last x c h := by
    have hmem : c ∈ m.modern := h ▸ List.mem_append_right x List.mem_cons_self
    exact not_blank_of_mem_keyword hmem

/-- A text keeps plain ends with another beginning. -/
theorem Text.PlainEnds.append_of_suffix {a x b : Text} (ha : PlainEnds a)
    (h : PlainEnds (x ++ b)) : PlainEnds (a ++ b) where
  ne_nil := by simp [ha.ne_nil]
  head c y hc := by
    obtain ⟨c', y', rfl⟩ := List.exists_cons_of_ne_nil ha.ne_nil
    obtain ⟨rfl, -⟩ := List.cons.inj hc
    exact ha.head c' y' rfl
  last u c hc := by
    rcases List.eq_nil_or_concat' b with rfl | ⟨v, d, rfl⟩
    · exact ha.last u c (by simpa using hc)
    · rw [← List.append_assoc] at hc
      obtain ⟨-, hlast⟩ := List.append_inj' hc rfl
      obtain ⟨rfl, -⟩ := List.cons.inj hlast
      exact h.last (x ++ v) d (by simp)

/-- A keyword and a rest are what their block comment has between its delimiters. -/
theorem LegacyMarker.body_modern (m : LegacyMarker) {rest : Text}
    (h : PlainEnds (m.modern ++ rest)) :
    body .block ("/* " ++ (m.modern ++ rest) ++ " */") = m.modern ++ rest := by
  obtain ⟨z, hz⟩ := m.modern_head
  rw [hz, List.cons_append] at h ⊢
  have hmem : (.block, "/* " ++ ('l' :: (z ++ rest)) ++ " */") ∈
      spacedComments ('l' :: (z ++ rest)) := by simp [spacedComments]
  obtain ⟨hbody, -⟩ := body_of_mem_spacedComments isPlain_l hmem
  rw [hbody, ← trim_eq_trimEnd isPlain_l.not_blank, h.trim_eq]

/-- The directive of a tag line is the keyword and all that follows the marker. -/
theorem Migration.ofTagLine_eq {tag : DocComment.TagLine} {before rest : Text}
    (hcut : cut? tag.marker.text tag.content = some (before, rest))
    (h : PlainEnds (tag.marker.modern ++ rest)) : ofTagLine tag = tag.marker.modern ++ rest := by
  simp only [ofTagLine, hcut, h.trim_eq]

/-! ## How it is read -/

/-- A comment text is read as the directive written by the keyword of a marker and a rest, and this
is one of the kind of the marker. -/
def ReadsAsMarked (docComments : Bool) (t : Text) (m : LegacyMarker) (rest : Text) : Prop :=
  ∃ d, read? (m.modern ++ rest) = some d ∧ d.kind = m.kind ∧
    CommentReading.ofText? docComments t =
      some { kind := d.kind, form := .block, codes := some d.codes, note := d.note }

theorem LegacyMarker.kind_mem_keywordKinds (m : LegacyMarker) : m.kind ∈ keywordKinds := by
  cases m <;> decide

/-- A keyword with a rest is read as a directive of its kind exactly if it ends where the rest
starts. -/
theorem LegacyMarker.exists_read?_modern_iff (m : LegacyMarker) (rest : Text) :
    (∃ d, read? (m.modern ++ rest) = some d ∧ d.kind = m.kind) ↔ endsKeyword rest := by
  constructor
  · rintro ⟨d, hread, hkind⟩
    obtain ⟨⟨kind, rest'⟩, hsplit, rfl⟩ := Option.map_eq_some_iff.mp hread
    obtain rfl : kind = m.kind := hkind
    obtain ⟨-, heq, hends⟩ := splitKeyword?_eq_some_iff.mp hsplit
    rwa [List.append_cancel_left (show m.kind.keyword ++ rest = m.kind.keyword ++ rest' from heq)]
  · intro hends
    have hsplit := splitKeyword?_eq_some_iff.mpr ⟨m.kind_mem_keywordKinds, rfl, hends⟩
    exact ⟨_, Option.map_eq_some_iff.mpr ⟨_, hsplit, rfl⟩, rfl⟩

/-- Every documentation comment that is taken for a deprecated one has a first tag line with a
marker. It gives way to a block comment that has the keyword and what follows the marker between its
delimiters, and that is read as the directive written by these, if they write one. This is a
directive of the kind of the marker exactly if nothing, or a blank, follows the marker. -/
theorem tag_line_reads_as_marked_iff {docComments : Bool} {raw : Text} {r : CommentReading}
    (h : CommentReading.ofText? docComments raw = some r) (hdoc : r.form = .doc) :
    r.kind = .legacy ∧ ∃ tag before rest migration,
      DocComment.tagLine? raw = some tag ∧
      DocComment.TagLine.IsFirstIn (DocComment.contents raw) tag ∧
      cut? tag.marker.text tag.content = some (before, rest) ∧
      Migration.ofComment? r.form raw = some migration ∧
      migration = ⟨tag.marker, "/* " ++ (tag.marker.modern ++ rest) ++ " */"⟩ ∧
      (∀ d, read? (tag.marker.modern ++ rest) = some d →
        CommentReading.ofText? docComments migration.text =
          some { kind := d.kind, form := .block, codes := some d.codes, note := d.note }) ∧
      (ReadsAsMarked docComments migration.text tag.marker rest ↔ endsKeyword rest) := by
  rcases CommentReading.ofText?_cases h with ⟨hform, hkind, -⟩ | ⟨form, -, hne, hrform, -⟩
  · refine ⟨hkind, ?_⟩
    simp only [CommentReading.ofText?, hform] at h
    obtain ⟨tag, htag, rfl⟩ := Option.map_eq_some_iff.mp h
    have hfirst := DocComment.isFirstIn_of_tagLine? htag
    obtain ⟨⟨before, rest⟩, hcut⟩ := Option.isSome_iff_exists.mp
      (cut?_isSome_of_isInfix (LegacyMarker.infix_of_find? hfirst.marked))
    have hcontent : PlainEnds tag.content := by
      refine DocComment.plainEnds_of_mem_contents (List.mem_of_getElem? hfirst.line) fun hnil => ?_
      simpa [hnil] using hfirst.tagged
    rw [eq_append_of_cut? hcut] at hcontent
    have hplain := tag.marker.plainEnds_modern.append_of_suffix hcontent
    have hmigration : Migration.ofComment? .doc raw =
        some ⟨tag.marker, "/* " ++ (tag.marker.modern ++ rest) ++ " */"⟩ := by
      rw [← Migration.ofTagLine_eq hcut hplain]
      exact Option.map_eq_some_iff.mpr ⟨tag, htag, rfl⟩
    have hread (d : WrittenDirective) (hd : read? (tag.marker.modern ++ rest) = some d) :
        CommentReading.ofText? docComments ("/* " ++ (tag.marker.modern ++ rest) ++ " */") =
          some { kind := d.kind, form := .block, codes := some d.codes, note := d.note } := by
      refine CommentReading.ofText?_of_read? (Migration.ofText_doc hmigration docComments)
        (by decide) ?_
      rw [tag.marker.body_modern hplain, hd]
    refine ⟨tag, before, rest, _, htag, hfirst, hcut, hmigration, rfl, hread, ?_⟩
    rw [← tag.marker.exists_read?_modern_iff rest]
    constructor
    · rintro ⟨d, hd, hkind, -⟩
      exact ⟨d, hd, hkind⟩
    · rintro ⟨d, hd, hkind⟩
      exact ⟨d, hd, hkind, hread d hd⟩
  · exact absurd (hrform.symm.trans hdoc) hne

/-- The codes and the note of a tag line below other text are those of the directive. -/
theorem tag_line_with_note_reads_as_marked :
    CommentReading.ofText? true "/**\n * Helper.\n * @legacy-ignore-start A, B -- generated\n */" =
        some { kind := .legacy, form := .doc, lineOffset := 2 } ∧
      endsKeyword " A, B -- generated" ∧
      ReadsAsMarked true "/* lint:disable A, B -- generated */" .ignoreStart
        " A, B -- generated" := by
  have hlegacy : CommentReading.ofText? true
      "/**\n * Helper.\n * @legacy-ignore-start A, B -- generated\n */" =
        some { kind := .legacy, form := .doc, lineOffset := 2 } := by decide +kernel
  have hends : endsKeyword " A, B -- generated" := by decide +kernel
  obtain ⟨-, tag, before, rest, _, htag, -, hcut, -, rfl, -, hreads⟩ :=
    tag_line_reads_as_marked_iff hlegacy rfl
  have hfound : DocComment.tagLine?
      "/**\n * Helper.\n * @legacy-ignore-start A, B -- generated\n */" =
        some ⟨2, "@legacy-ignore-start A, B -- generated", .ignoreStart⟩ := by decide +kernel
  obtain rfl := Option.some.inj (hfound.symm.trans htag)
  have hbehind : cut? LegacyMarker.ignoreStart.text "@legacy-ignore-start A, B -- generated" =
      some ([], " A, B -- generated".toList) := by decide +kernel
  obtain ⟨rfl, rfl⟩ := Prod.mk.inj (Option.some.inj (hbehind.symm.trans hcut))
  exact ⟨hlegacy, hends, hreads.mpr hends⟩

/-- A marker with more letters behind it is a marker all the same, and its keyword may grow into
another one: what asked to ignore one line ignores the whole file. -/
theorem line_marker_becomes_whole_file :
    IsBlockComment "/** @legacy-ignore-line-file A */" ∧
      CommentReading.ofText? true "/** @legacy-ignore-line-file A */" =
        some { kind := .legacy, form := .doc } ∧
      DocComment.tagLine? "/** @legacy-ignore-line-file A */" =
        some ⟨0, "@legacy-ignore-line-file A", .ignoreLine⟩ ∧
      cut? LegacyMarker.ignoreLine.text "@legacy-ignore-line-file A" = some ([], "-file A".toList) ∧
      Migration.ofComment? .doc "/** @legacy-ignore-line-file A */" =
        some ⟨.ignoreLine, "/* lint:ignore-file A */"⟩ ∧
      CommentReading.ofText? true "/* lint:ignore-file A */" =
        some { kind := .ignoreFile, form := .block, codes := some ["A"] } ∧
      ¬ ReadsAsMarked true "/* lint:ignore-file A */" .ignoreLine "-file A" := by
  refine ⟨by decide +kernel, by decide +kernel, by decide +kernel, by decide +kernel,
    by decide +kernel, by decide +kernel, ?_⟩
  rintro ⟨d, hread, hkind, -⟩
  have hends := (LegacyMarker.ignoreLine.exists_read?_modern_iff "-file A").mp ⟨d, hread, hkind⟩
  exact absurd hends (by decide +kernel)

end LintDirectives
