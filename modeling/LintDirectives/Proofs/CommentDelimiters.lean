import LintDirectives.CommentText
import LintDirectives.Proofs.TrimmedText

/-!
# Delimiters around the body of a comment

A comment text is an opening mark, a gap of blanks, and the rest. The form of the comment
depends on the mark alone, as long as the rest starts with a plain character, and the body is
the rest without its ending. An ending never reaches beyond the last plain character.
-/

namespace LintDirectives.CommentText

open Text

/-- A character that is no blank and belongs to no delimiter of a comment. -/
structure IsPlain (c : Char) : Prop where
  not_blank : isBlank c = false
  ne_slash : c ≠ '/'
  ne_star : c ≠ '*'
  ne_hash : c ≠ '#'

theorem isPlain_l : IsPlain 'l' := ⟨by simp, by decide, by decide, by decide⟩

theorem isPlain_hyphen : IsPlain '-' := ⟨by simp, by decide, by decide, by decide⟩

theorem IsPlain.ne_lineFeed {c : Char} (h : IsPlain c) : c ≠ '\n' := by
  rintro rfl
  exact absurd h.not_blank (by simp)

/-! ## Endings -/

/-- A text without the closing delimiter and the blanks at its end. -/
def ending (form : CommentForm) (t : Text) : Text :=
  match form with
  | .line => trimEnd t
  | _ => trimEnd (dropBlockClose t)

/-- A text without the closing delimiter of a form at its end. -/
def withoutClose (form : CommentForm) (t : Text) : Text :=
  match form with
  | .line => t
  | _ => dropBlockClose t

theorem ending_eq (form : CommentForm) (t : Text) : ending form t = trimEnd (withoutClose form t) := by
  cases form <;> rfl

theorem dropBlockClose_star_slash (r : Text) :
    dropBlockClose (r ++ ['*', '/']) = r.rdropWhile (· == '*') := by
  simp [dropBlockClose, List.rdropWhile]

theorem dropBlockClose_star_slash_lineFeed (r : Text) :
    dropBlockClose (r ++ ['*', '/', '\n']) = r.rdropWhile (· == '*') ++ ['\n'] := by
  simp [dropBlockClose, List.rdropWhile]

theorem dropBlockClose_of_not_suffix {t : Text} (h : ¬ ['*', '/'] <:+ t)
    (h' : ¬ ['*', '/', '\n'] <:+ t) : dropBlockClose t = t := by
  unfold dropBlockClose
  split
  · next rest hrev =>
    exact absurd ⟨rest.reverse, by rw [← List.reverse_reverse t, hrev]; simp⟩ h
  · next rest hrev =>
    exact absurd ⟨rest.reverse, by rw [← List.reverse_reverse t, hrev]; simp⟩ h'
  · rfl

/-- A text ends in a closing delimiter, possibly with a line feed, or loses nothing. -/
theorem dropBlockClose_cases (t : Text) :
    (∃ r, t = r ++ ['*', '/']) ∨ (∃ r, t = r ++ ['*', '/', '\n']) ∨
      (¬ ['*', '/'] <:+ t ∧ ¬ ['*', '/', '\n'] <:+ t) := by
  by_cases h : ['*', '/'] <:+ t
  · obtain ⟨r, rfl⟩ := h
    exact .inl ⟨r, rfl⟩
  · by_cases h' : ['*', '/', '\n'] <:+ t
    · obtain ⟨r, rfl⟩ := h'
      exact .inr (.inl ⟨r, rfl⟩)
    · exact .inr (.inr ⟨h, h'⟩)

theorem suffix_of_suffix_append_cons {s x y : Text} {c : Char} (hc : c ∉ s)
    (h : s <:+ x ++ c :: y) : s <:+ y := by
  rcases List.suffix_or_suffix_of_suffix h (List.suffix_append x (c :: y)) with h | h
  · rcases List.suffix_cons_iff.mp h with rfl | h
    · simp at hc
    · exact h
  · exact absurd (h.subset (by simp)) hc

private theorem rdropWhile_star_append_cons (x : Text) {c : Char} (hc : c ≠ '*') (r : Text) :
    (x ++ c :: r).rdropWhile (· == '*') = x ++ c :: r.rdropWhile (· == '*') := by
  have hdrop : (r.reverse ++ c :: x.reverse).dropWhile (· == '*') =
      r.reverse.dropWhile (· == '*') ++ c :: x.reverse := by
    rw [List.dropWhile_append]
    split
    · next hnil => simp [List.isEmpty_iff.mp hnil, hc]
    · rfl
  simp [List.rdropWhile, hdrop]

/-- A character that no closing delimiter has stops the search for it. -/
theorem dropBlockClose_append_of_ne (x : Text) {c : Char} (hstar : c ≠ '*') (hslash : c ≠ '/')
    (hlf : c ≠ '\n') (y : Text) : dropBlockClose (x ++ c :: y) = x ++ c :: dropBlockClose y := by
  rcases dropBlockClose_cases y with ⟨r, rfl⟩ | ⟨r, rfl⟩ | ⟨h, h'⟩
  · rw [← List.cons_append, ← List.append_assoc, dropBlockClose_star_slash,
      dropBlockClose_star_slash, rdropWhile_star_append_cons x hstar]
  · rw [← List.cons_append, ← List.append_assoc, dropBlockClose_star_slash_lineFeed,
      dropBlockClose_star_slash_lineFeed, rdropWhile_star_append_cons x hstar]
    simp
  · rw [dropBlockClose_of_not_suffix h h', dropBlockClose_of_not_suffix]
    · exact fun hs => h (suffix_of_suffix_append_cons (by simp [hstar, hslash]) hs)
    · exact fun hs => h' (suffix_of_suffix_append_cons (by simp [hstar, hslash, hlf]) hs)

theorem dropBlockClose_append_cons (x : Text) {c : Char} (hc : IsPlain c) (y : Text) :
    dropBlockClose (x ++ c :: y) = x ++ c :: dropBlockClose y :=
  dropBlockClose_append_of_ne x hc.ne_star hc.ne_slash hc.ne_lineFeed y

theorem ending_append_cons (form : CommentForm) (x : Text) {c : Char} (hc : IsPlain c) (y : Text) :
    ending form (x ++ c :: y) = x ++ c :: ending form y := by
  cases form with
  | line => exact trimEnd_append_cons x hc.not_blank y
  | block => simp only [ending, dropBlockClose_append_cons x hc, trimEnd_append_cons x hc.not_blank]
  | doc => simp only [ending, dropBlockClose_append_cons x hc, trimEnd_append_cons x hc.not_blank]

theorem withoutClose_append_cons (form : CommentForm) (x : Text) {c : Char} (hstar : c ≠ '*')
    (hslash : c ≠ '/') (hlf : c ≠ '\n') (y : Text) :
    withoutClose form (x ++ c :: y) = x ++ c :: withoutClose form y := by
  cases form with
  | line => rfl
  | block => exact dropBlockClose_append_of_ne x hstar hslash hlf y
  | doc => exact dropBlockClose_append_of_ne x hstar hslash hlf y

/-- Dropping a closing delimiter leaves an initial part, up to a line feed. -/
theorem dropBlockClose_isPrefix (t : Text) :
    ∃ p, p <+: t ∧ (dropBlockClose t = p ∨ dropBlockClose t = p ++ ['\n']) := by
  rcases dropBlockClose_cases t with ⟨r, rfl⟩ | ⟨r, rfl⟩ | ⟨h, h'⟩
  · exact ⟨_, ( List.rdropWhile_prefix _ r).trans (List.prefix_append r _),
      .inl (dropBlockClose_star_slash r)⟩
  · exact ⟨_, ( List.rdropWhile_prefix _ r).trans (List.prefix_append r _),
      .inr (dropBlockClose_star_slash_lineFeed r)⟩
  · exact ⟨t, List.prefix_rfl, .inl (dropBlockClose_of_not_suffix h h')⟩

theorem dropBlockClose_subset (t : Text) : dropBlockClose t ⊆ t := by
  intro c hc
  rcases dropBlockClose_cases t with ⟨r, rfl⟩ | ⟨r, rfl⟩ | ⟨h, h'⟩
  · rw [dropBlockClose_star_slash] at hc
    exact List.mem_append_left _ ((List.rdropWhile_prefix _ r).subset hc)
  · rw [dropBlockClose_star_slash_lineFeed] at hc
    rcases List.mem_append.mp hc with hc | hc
    · exact List.mem_append_left _ ((List.rdropWhile_prefix _ r).subset hc)
    · rw [List.mem_singleton.mp hc]
      simp
  · rwa [dropBlockClose_of_not_suffix h h'] at hc

theorem allBlank_lineFeed : AllBlank ['\n'] := by
  intro c hc
  obtain rfl := List.mem_singleton.mp hc
  simp

theorem ending_isPrefix (form : CommentForm) (t : Text) : ending form t <+: t := by
  have hblock : trimEnd (dropBlockClose t) <+: t := by
    obtain ⟨p, hp, h | h⟩ := dropBlockClose_isPrefix t
    · rw [h]
      exact (trimEnd_isPrefix p).trans hp
    · rw [h, trimEnd_append_blanks p allBlank_lineFeed]
      exact (trimEnd_isPrefix p).trans hp
  cases form with
  | line => exact trimEnd_isPrefix t
  | block => exact hblock
  | doc => exact hblock

/-! ## Openings -/

/-- The marks that open a comment of a form. A line comment may lack a mark; a block comment may
open with further stars where these do not make it a documentation comment. -/
inductive OpenMark (docComments : Bool) : CommentForm → Text → Prop where
  | bare : OpenMark docComments .line []
  | hash : OpenMark docComments .line ['#']
  | slashes : OpenMark docComments .line ['/', '/']
  | block (stars : ℕ) (h : docComments = true → stars = 0) :
    OpenMark docComments .block ('/' :: '*' :: List.replicate stars '*')

variable {docComments : Bool} {form : CommentForm} {mark gap : Text}

theorem OpenMark.mem (h : OpenMark docComments form mark) {c : Char} (hc : c ∈ mark) :
    c = '/' ∨ c = '*' ∨ c = '#' := by
  cases h with
  | bare => simp at hc
  | hash => simp_all
  | slashes => simp_all
  | block stars h =>
    simp only [List.mem_cons, List.mem_replicate] at hc
    tauto

theorem OpenMark.not_blank (h : OpenMark docComments form mark) {c : Char} (hc : c ∈ mark) :
    isBlank c = false := by
  rcases h.mem hc with rfl | rfl | rfl <;> simp

/-- A gap in front of a plain character starts with neither of the delimiters. -/
private theorem exists_cons_of_gap (hgap : AllBlank gap) {c : Char} (hc : IsPlain c) (z : Text) :
    ∃ d rest, gap ++ c :: z = d :: rest ∧ d ≠ '/' ∧ d ≠ '*' ∧ d ≠ '#' := by
  cases gap with
  | nil => exact ⟨c, z, rfl, hc.ne_slash, hc.ne_star, hc.ne_hash⟩
  | cons d gap =>
    have hd : isBlank d := hgap d (by simp)
    refine ⟨d, gap ++ c :: z, rfl, ?_, ?_, ?_⟩ <;> rintro rfl <;> simp at hd

theorem dropWhile_replicate_gap (n : ℕ) (hgap : AllBlank gap) {c : Char} (hc : IsPlain c)
    (z : Text) : (List.replicate n '*' ++ (gap ++ c :: z)).dropWhile (· == '*') = gap ++ c :: z := by
  obtain ⟨d, rest, heq, -, hd, -⟩ := exists_cons_of_gap hgap hc z
  rw [List.dropWhile_append_of_pos (by simp), heq]
  exact List.dropWhile_cons_of_neg (by simpa using hd)

/-- The form of a comment can be read off its opening mark. -/
theorem OpenMark.ofText (h : OpenMark docComments form mark) (hgap : AllBlank gap) {c : Char}
    (hc : IsPlain c) (z : Text) :
    CommentForm.ofText docComments (mark ++ (gap ++ c :: z)) = form := by
  obtain ⟨d, rest, heq, hslash, hstar, -⟩ := exists_cons_of_gap hgap hc z
  rw [heq]
  cases h with
  | bare => simp [CommentForm.ofText, hslash]
  | hash => simp [CommentForm.ofText]
  | slashes => simp [CommentForm.ofText]
  | block stars h =>
    cases stars with
    | zero => simp [CommentForm.ofText, hstar]
    | succ n =>
      have hdocs : docComments = false := by
        cases docComments
        · rfl
        · exact absurd (h rfl) (by simp)
      simp [CommentForm.ofText, List.replicate_succ, hdocs]

/-- The opener of a line comment is its opening mark. -/
theorem OpenMark.lineOpen_isPrefix (h : OpenMark docComments form mark) (hgap : AllBlank gap)
    {c : Char} (hc : IsPlain c) {z opener : Text} (hopener : opener = ['#'] ∨ opener = ['/', '/'])
    (hp : opener <+: mark ++ (gap ++ c :: z)) : opener <+: mark := by
  obtain ⟨d, rest, heq, hslash, -, hhash⟩ := exists_cons_of_gap hgap hc z
  rw [heq] at hp
  cases h with
  | bare =>
    rcases hopener with rfl | rfl
    · exact absurd (List.cons_prefix_cons.mp hp).1.symm hhash
    · exact absurd (List.cons_prefix_cons.mp hp).1.symm hslash
  | hash =>
    rcases hopener with rfl | rfl
    · exact List.prefix_rfl
    · exact absurd (List.cons_prefix_cons.mp hp).1 (by decide)
  | slashes =>
    rcases hopener with rfl | rfl
    · exact absurd (List.cons_prefix_cons.mp hp).1 (by decide)
    · exact List.prefix_rfl
  | block stars h =>
    rcases hopener with rfl | rfl
    · exact absurd (List.cons_prefix_cons.mp hp).1 (by decide)
    · have hbehind := (List.cons_prefix_cons.mp hp).2
      exact absurd (List.cons_prefix_cons.mp hbehind).1 (by decide)

/-- The body is what stands between the gap and the ending. -/
theorem OpenMark.body (h : OpenMark docComments form mark) (hgap : AllBlank gap) {c : Char}
    (hc : IsPlain c) (z : Text) : body form (mark ++ (gap ++ c :: z)) = ending form (c :: z) := by
  obtain ⟨d, rest, heq, hslash, -, hhash⟩ := exists_cons_of_gap hgap hc z
  have hline : trim (gap ++ c :: z) = trimEnd (c :: z) := by
    rw [trim_append_left hgap, trim_eq_trimEnd hc.not_blank]
  cases h with
  | bare =>
    have hopen : dropLineOpen (gap ++ c :: z) = gap ++ c :: z := by
      rw [heq]
      simp [dropLineOpen, hslash, hhash]
    simpa only [CommentText.body, ending, List.nil_append, hopen] using hline
  | hash => simpa [CommentText.body, ending, dropLineOpen] using hline
  | slashes => simpa [CommentText.body, ending, dropLineOpen] using hline
  | block stars h =>
    simp only [CommentText.body, ending, dropBlockOpen, List.cons_append,
      dropWhile_replicate_gap stars hgap hc]
    have hclose := dropBlockClose_append_cons [] hc z
    rw [List.nil_append, List.nil_append] at hclose
    rw [dropBlockClose_append_cons gap hc, trim_append_left hgap, trim_eq_trimEnd hc.not_blank,
      hclose]

private theorem exists_gap_of_trim {t b : Text} {c : Char} (h : trim t = c :: b) :
    ∃ gap z, AllBlank gap ∧ t = gap ++ c :: z := by
  obtain ⟨left, right, hleft, -, ht⟩ := eq_append_trim t
  exact ⟨left, b ++ right, hleft, by simpa [h] using ht⟩

private theorem exists_gap_of_dropBlockClose {t b : Text} {c : Char}
    (h : trim (dropBlockClose t) = c :: b) : ∃ gap z, AllBlank gap ∧ t = gap ++ c :: z := by
  obtain ⟨p, ⟨r, rfl⟩, hp⟩ := dropBlockClose_isPrefix t
  have htrim : trim p = c :: b := by
    rcases hp with hp | hp
    · rwa [hp] at h
    · rwa [hp, trim_append_right p allBlank_lineFeed] at h
  obtain ⟨gap, z, hgap, rfl⟩ := exists_gap_of_trim htrim
  exact ⟨gap, z ++ r, hgap, by simp⟩

/-- A comment whose body starts with a plain character has an opening mark, a gap, and a rest that
is the body up to its ending. -/
theorem exists_openMark {t b : Text} {c : Char} (hform : CommentForm.ofText docComments t = form)
    (hdoc : form ≠ .doc) (hbody : CommentText.body form t = c :: b) (hc : IsPlain c) :
    ∃ mark gap z, t = mark ++ (gap ++ c :: z) ∧ OpenMark docComments form mark ∧ AllBlank gap := by
  cases form with
  | doc => exact absurd rfl hdoc
  | line =>
    simp only [CommentText.body] at hbody
    obtain ⟨gap, z, hgap, hz⟩ := exists_gap_of_trim hbody
    refine Exists.elim (?_ : ∃ mark, t = mark ++ dropLineOpen t ∧
      OpenMark docComments .line mark) fun mark hmark =>
        ⟨mark, gap, z, hz ▸ hmark.1, hmark.2, hgap⟩
    unfold dropLineOpen
    split
    · exact ⟨_, rfl, .slashes⟩
    · exact ⟨_, rfl, .hash⟩
    · exact ⟨_, rfl, .bare⟩
  | block =>
    obtain ⟨rest, rfl⟩ : ∃ rest, t = '/' :: '*' :: rest := by
      unfold CommentForm.ofText at hform
      split at hform
      · exact ⟨_, rfl⟩
      · exact ⟨_, rfl⟩
      · simp at hform
    simp only [CommentText.body, dropBlockOpen] at hbody
    obtain ⟨gap, z, hgap, hz⟩ := exists_gap_of_dropBlockClose hbody
    obtain ⟨n, hn⟩ : ∃ n, rest.takeWhile (· == '*') = List.replicate n '*' :=
      ⟨_, List.eq_replicate_of_mem fun d hd => by simpa using List.mem_takeWhile_imp hd⟩
    have hrest : rest = List.replicate n '*' ++ (gap ++ c :: z) := by
      rw [← hn, ← hz, List.takeWhile_append_dropWhile]
    refine ⟨'/' :: '*' :: List.replicate n '*', gap, z, by simp [hrest], .block n ?_, hgap⟩
    rintro rfl
    obtain ⟨d, more, heq, hslash, -, -⟩ := exists_cons_of_gap hgap hc z
    -- two stars that no slash follows would make this a documentation comment
    match n with
    | 0 => rfl
    | 1 => simp [hrest, heq, CommentForm.ofText, hslash] at hform
    | n + 2 => simp [hrest, List.replicate_succ, CommentForm.ofText] at hform

end LintDirectives.CommentText
