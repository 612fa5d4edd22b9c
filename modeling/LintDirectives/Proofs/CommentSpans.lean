import LintDirectives.SourceComments
import Mathlib.Data.List.Infix

/-!
# Ranges of comments

Comments have non-empty ranges inside their source, one behind the other. A scanner finds such
ranges whenever no comment is longer than what is left of the source. That holds for the scanners
of Python and Go.
-/

namespace LintDirectives

/-- Non-empty ranges of a source, in its order, no two of which share a byte. -/
structure Source.OrderedSpans (source : Bytes) (spans : List Span) : Prop where
  ordered : spans.Pairwise fun a b => a.stop ≤ b.start
  nonempty : ∀ span ∈ spans, span.start < span.stop
  inside : ∀ span ∈ spans, span.stop ≤ source.length

instance (source : Bytes) (spans : List Span) : Decidable (Source.OrderedSpans source spans) :=
  decidable_of_iff ((spans.Pairwise fun a b => a.stop ≤ b.start) ∧
      (∀ span ∈ spans, span.start < span.stop) ∧ ∀ span ∈ spans, span.stop ≤ source.length)
    ⟨fun h => ⟨h.1, h.2.1, h.2.2⟩, fun h => ⟨h.ordered, h.nonempty, h.inside⟩⟩

namespace CommentScanner

/-! ## Scanning -/

/-- A scanner whose comments have at least one byte and no more than are left. -/
def FitsSource {σ : Type} (next : σ → Bytes → Lexeme σ) : Prop :=
  ∀ s b rest, (next s (b :: rest)).isComment →
    0 < (next s (b :: rest)).length ∧ (next s (b :: rest)).length ≤ (b :: rest).length

/-- The comments that are found stand in order behind what is passed first. -/
theorem scan_spec {σ : Type} {next : σ → Bytes → Lexeme σ} (h : FitsSource next) (s : σ)
    (offset k : ℕ) (source : Bytes) :
    ((scan next s offset k source).Pairwise fun a b => a.stop ≤ b.start) ∧
      ∀ span ∈ scan next s offset k source,
        offset + k ≤ span.start ∧ span.start < span.stop ∧ span.stop ≤ offset + source.length := by
  induction source generalizing s offset k with
  | nil => simp [scan]
  | cons b rest ih =>
    cases k with
    | succ k =>
      obtain ⟨hordered, hspans⟩ := ih s (offset + 1) k
      rw [scan]
      refine ⟨hordered, fun span hspan => ?_⟩
      have := hspans span hspan
      rw [List.length_cons]
      omega
    | zero =>
      obtain ⟨hordered, hspans⟩ := ih (next s (b :: rest)).state (offset + 1)
        ((next s (b :: rest)).length - 1)
      rw [scan]
      split
      · next hcomment =>
        obtain ⟨hpos, hle⟩ := h s b rest hcomment
        constructor
        · refine List.pairwise_cons.mpr ⟨fun span hspan => ?_, hordered⟩
          have := hspans span hspan
          show offset + (next s (b :: rest)).length ≤ span.start
          omega
        · intro span hspan
          rcases List.mem_cons.mp hspan with rfl | hspan
          · exact ⟨le_rfl, Nat.lt_add_of_pos_right hpos, Nat.add_le_add_left hle offset⟩
          · have := hspans span hspan
            rw [List.length_cons]
            omega
      · refine ⟨hordered, fun span hspan => ?_⟩
        have := hspans span hspan
        rw [List.length_cons]
        omega

theorem orderedSpans_scan {σ : Type} {next : σ → Bytes → Lexeme σ} (h : FitsSource next) (s : σ)
    (source : Bytes) : Source.OrderedSpans source (scan next s 0 0 source) := by
  obtain ⟨hordered, hspans⟩ := scan_spec h s 0 0 source
  refine ⟨hordered, fun span hspan => (hspans span hspan).2.1, fun span hspan => ?_⟩
  have := hspans span hspan
  omega

/-! ## Lengths of comments -/

theorem length_le_of_startsWith {t : Text} {source : Bytes} (h : startsWith t source) :
    t.length ≤ source.length := by
  have hlen := (List.isPrefixOf_iff_prefix.mp h).length_le
  rwa [List.length_map] at hlen

theorem restOfLine_le (source : Bytes) : restOfLine source ≤ source.length :=
  (List.takeWhile_prefix _).length_le

theorem restOfLine_pos {c : Char} {t : Text} {source : Bytes} (h : startsWith (c :: t) source)
    (hc : byte c ≠ Source.lineFeed) : 0 < restOfLine source := by
  obtain ⟨rest, hrest⟩ := List.isPrefixOf_iff_prefix.mp h
  rw [← hrest, restOfLine, List.map_cons, List.cons_append,
    List.takeWhile_cons_of_pos (by simpa using hc)]
  simp

theorem through_le (mark : Text) (source : Bytes) : through mark source ≤ source.length := by
  induction source with
  | nil => simp [through]
  | cons b rest ih =>
    rw [through]
    split
    · next h => exact length_le_of_startsWith h
    · rw [List.length_cons]
      omega

theorem blockComment_le {source : Bytes} (h : startsWith "/*" source) :
    blockComment source ≤ source.length := by
  have hlen : 2 ≤ source.length := length_le_of_startsWith h
  have hrest := through_le "*/" (source.drop 2)
  rw [List.length_drop] at hrest
  rw [blockComment]
  omega

end CommentScanner

open CommentScanner

/-! ## Python and Go -/

namespace PythonComments

theorem isComment_codeNext (s : State) (source : Bytes) :
    (codeNext s source).isComment = startsWith "#" source := by
  unfold codeNext
  by_cases hhash : startsWith "#" source
  · rw [if_pos hhash, hhash]
  · rw [if_neg hhash, Bool.eq_false_iff.mpr hhash]
    repeat' split
    all_goals rfl

theorem isComment_textNext (quote : Text) (formatted raw : Bool) (outer : State) (source : Bytes) :
    (textNext quote formatted raw outer source).isComment = false := by
  unfold textNext
  repeat' split
  all_goals rfl

theorem isComment_formatNext (outer : State) (source : Bytes) :
    (formatNext outer source).isComment = false := by
  unfold formatNext
  repeat' split
  all_goals rfl

/-- A comment goes from a number sign to the end of its line. -/
theorem fitsSource_next : FitsSource next := by
  intro s b rest hcomment
  unfold next at hcomment ⊢
  split at hcomment
  · simp [isComment_textNext] at hcomment
  · simp [isComment_formatNext] at hcomment
  · rw [isComment_codeNext] at hcomment
    simp only [codeNext, hcomment, if_true]
    exact ⟨restOfLine_pos hcomment (by decide), restOfLine_le _⟩

end PythonComments

theorem GoComments.fitsSource_next : FitsSource next := by
  intro s b rest hcomment
  unfold next at hcomment ⊢
  by_cases hline : startsWith "//" (b :: rest)
  · rw [if_pos hline]
    exact ⟨restOfLine_pos hline (by decide), restOfLine_le _⟩
  by_cases hblock : startsWith "/*" (b :: rest)
  · rw [if_neg hline, if_pos hblock]
    refine ⟨?_, blockComment_le hblock⟩
    show 0 < 2 + through "*/" ((b :: rest).drop 2)
    omega
  · rw [if_neg hline, if_neg hblock] at hcomment
    repeat' split at hcomment
    all_goals exact nomatch hcomment

/-- The comments of Python and Go sources have non-empty ranges one behind the other. -/
theorem orderedSpans_commentSpans {language : Language}
    (h : language = .python ∨ language = .go) (path : Text) (source : Bytes) :
    Source.OrderedSpans source (commentSpans language path source) := by
  rcases h with rfl | rfl
  · exact orderedSpans_scan PythonComments.fitsSource_next [] source
  · exact orderedSpans_scan GoComments.fitsSource_next () source

end LintDirectives
