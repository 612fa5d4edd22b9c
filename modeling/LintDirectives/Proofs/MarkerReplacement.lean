import LintDirectives.LegacyMarker
import LintDirectives.Proofs.CommentDelimiters
import LintDirectives.Proofs.TextSearch

/-!
# Replacing deprecated markers

A deprecated marker starts with a sign that occurs nowhere else in the markers and in no modern
keyword, and no end of a marker fits on the start of a keyword. So a replacement removes its
marker and makes no new one, neither inside the keyword nor across its borders.
-/

namespace LintDirectives

open Text CommentText

namespace LegacyMarker

/-! ## Markers and keywords -/

theorem mem_all (m : LegacyMarker) : m ∈ all := by
  cases m <;> decide

theorem text_eq_cons (m : LegacyMarker) : m.text = '@' :: m.text.tail := by
  cases m <;> rfl

theorem text_ne_nil (m : LegacyMarker) : m.text ≠ [] := by
  rw [text_eq_cons]
  exact List.cons_ne_nil _ _

theorem sign_not_mem_modern (m : LegacyMarker) : '@' ∉ m.modern := by
  cases m <;> decide

theorem space_not_mem_text (m : LegacyMarker) : ' ' ∉ m.text := by
  cases m <;> decide

theorem lineFeed_not_mem_text (m : LegacyMarker) : '\n' ∉ m.text := by
  cases m <;> decide

theorem modern_head (m : LegacyMarker) : ∃ rest, m.modern = 'l' :: rest := by
  cases m <;> exact ⟨_, rfl⟩

/-- No end of a marker, its sign apart, fits on a modern keyword. -/
theorem not_isPrefix_of_isSuffix (m m' : LegacyMarker) {u : Text} (h : u <:+ m'.text.tail)
    (hu : u ≠ []) : ¬ u <+: m.modern ∧ ¬ m.modern <+: u := by
  have hall : ∀ m ∈ all, ∀ m' ∈ all, ∀ u ∈ m'.text.tail.tails, u ≠ [] →
      ¬ u <+: m.modern ∧ ¬ m.modern <+: u := by decide +kernel
  exact hall m m.mem_all m' m'.mem_all u ((List.mem_tails _ _).mpr h) hu

/-! ## Replacing one marker -/

private theorem isPrefix_of_isPrefix_replaceAll (m : LegacyMarker) {p t : Text}
    (hp : ∀ u, u <:+ p → u ≠ [] → ¬ u <+: m.modern ∧ ¬ m.modern <+: u)
    (h : p <+: replaceAll m.text m.modern t) : p <+: t := by
  induction p generalizing t with
  | nil => exact List.nil_prefix
  | cons c p ih =>
    by_cases hm : m.text <+: t
    · -- the part would begin with the keyword, or inside it
      obtain ⟨rest, rfl⟩ := hm
      rw [replaceAll_append_mark m.text_ne_nil] at h
      obtain ⟨hleft, hright⟩ := hp (c :: p) List.suffix_rfl (List.cons_ne_nil c p)
      rcases List.prefix_or_prefix_of_prefix h (List.prefix_append _ _) with h | h
      · exact absurd h hleft
      · exact absurd h hright
    · cases t with
      | nil => exact h
      | cons d t =>
        rw [replaceAll_cons_of_not_isPrefix _ hm] at h
        obtain ⟨rfl, htail⟩ := List.cons_prefix_cons.mp h
        exact List.cons_prefix_cons.mpr
          ⟨rfl, ih (fun u hu => hp u (hu.trans (List.suffix_cons c p))) htail⟩

/-- Replacing a marker removes it and makes no other one. -/
theorem infix_of_infix_replaceAll (m m' : LegacyMarker) {t : Text}
    (h : m'.text <:+: replaceAll m.text m.modern t) : m'.text <:+: t ∧ m' ≠ m := by
  induction t using replaceAll_induction m.text_ne_nil with
  | nil => exact absurd (List.infix_nil.mp h) m'.text_ne_nil
  | mark rest ih =>
    rw [replaceAll_append_mark m.text_ne_nil, m'.text_eq_cons] at h
    have hrest := infix_append_of_not_mem m.sign_not_mem_modern h
    rw [← m'.text_eq_cons] at hrest
    obtain ⟨hin, hne⟩ := ih hrest
    exact ⟨List.infix_append_of_infix_right hin, hne⟩
  | char c rest hm ih =>
    rw [replaceAll_cons_of_not_isPrefix _ hm] at h
    rcases List.infix_cons_iff.mp h with h | h
    · rw [m'.text_eq_cons] at h
      obtain ⟨rfl, htail⟩ := List.cons_prefix_cons.mp h
      have hwhole : m'.text <+: '@' :: rest := by
        rw [m'.text_eq_cons]
        exact List.cons_prefix_cons.mpr ⟨rfl, isPrefix_of_isPrefix_replaceAll m
          (fun u hu hne => not_isPrefix_of_isSuffix m m' hu hne) htail⟩
      exact ⟨hwhole.isInfix, fun e => hm (e ▸ hwhole)⟩
    · obtain ⟨hin, hne⟩ := ih h
      exact ⟨List.infix_cons hin, hne⟩

theorem infix_of_find? {t : Text} {m : LegacyMarker} (h : find? t = some m) : m.text <:+: t := by
  have hfound := List.find?_some (p := fun m : LegacyMarker => occursIn m.text t) h
  exact occursIn_iff.mp hfound

/-! ## How many markers are left -/

/-- How many of the markers occur in a text. -/
def countIn (t : Text) : ℕ :=
  all.countP fun m => occursIn m.text t

theorem countIn_le (t : Text) : countIn t ≤ 3 :=
  List.countP_le_length

theorem countIn_mono {t t' : Text} (h : ∀ m : LegacyMarker, m.text <:+: t' → m.text <:+: t) :
    countIn t' ≤ countIn t :=
  List.countP_mono_left fun m _ hm => occursIn_iff.mpr (h m (occursIn_iff.mp hm))

theorem countIn_lt {t t' : Text} (h : ∀ m : LegacyMarker, m.text <:+: t' → m.text <:+: t)
    {m : LegacyMarker} (hm : m.text <:+: t) (hm' : ¬ m.text <:+: t') : countIn t' < countIn t := by
  obtain ⟨before, after, hall⟩ := List.append_of_mem m.mem_all
  have hmono (ms : List LegacyMarker) : ms.countP (fun m => occursIn m.text t') ≤
      ms.countP (fun m => occursIn m.text t) :=
    List.countP_mono_left fun m _ hm => occursIn_iff.mpr (h m (occursIn_iff.mp hm))
  have hbefore := hmono before
  have hafter := hmono after
  have hin : occursIn m.text t = true := occursIn_iff.mpr hm
  have hout : occursIn m.text t' = false := Bool.eq_false_iff.mpr fun e => hm' (occursIn_iff.mp e)
  simp only [countIn, hall, List.countP_append, List.countP_cons, hin, hout]
  simp only [Bool.false_eq_true, if_false, if_true]
  omega

end LegacyMarker

/-! ## Markers in documentation comments -/

namespace DocComment

variable {raw part : Text}

private theorem dropOpen_isSuffix (t : Text) : dropOpen t <:+ t := by
  unfold dropOpen
  split
  · exact (List.dropWhile_suffix _).trans ⟨['/', '*', '*'], rfl⟩
  · exact List.suffix_rfl

private theorem dropGutter_isSuffix (t : Text) : dropGutter t <:+ t := by
  have hstart : trimStart t <:+ t := List.dropWhile_suffix _
  unfold dropGutter
  split
  · next rest h => exact (List.suffix_cons '*' rest).trans (h ▸ hstart)
  · exact hstart

/-- The content of a line is part of that line, without the opening delimiter and what closes the
rest. -/
theorem exists_opened_of_mem_contents {content : Text} (h : content ∈ contents raw) :
    ∃ line ∈ raw.splitOn '\n', ∃ opened, opened <:+: line ∧
      content <:+: dropBlockClose opened := by
  have hline (first : Bool) (line : Text) : ∃ opened, opened <:+: line ∧
      lineContent first line <:+: dropBlockClose opened := by
    refine ⟨if first then dropOpen (trim line) else trim line, ?_, ?_⟩
    · refine List.IsInfix.trans ?_ (trim_isInfix line)
      cases first with
      | true => exact (dropOpen_isSuffix _).isInfix
      | false => exact List.infix_rfl
    · exact (trim_isInfix _).trans (dropGutter_isSuffix _).isInfix
  unfold contents at h
  split at h
  · simp at h
  · next first rest hlines =>
    rcases List.mem_cons.mp h with rfl | h
    · exact ⟨first, by simp [hlines], hline true first⟩
    · obtain ⟨line, hmem, rfl⟩ := List.mem_map.mp h
      exact ⟨line, by simp [hlines, hmem], hline false line⟩

private theorem infix_of_mem_contents (hpart : '\n' ∉ part) {content : Text}
    (hcontent : content ∈ contents raw) (h : part <:+: content) : part <:+: raw := by
  obtain ⟨line, hline, opened, hopened, hin⟩ := exists_opened_of_mem_contents hcontent
  refine List.IsInfix.trans ?_ (hopened.trans (infix_of_mem_splitOn hline).1)
  obtain ⟨p, hp, hclose | hclose⟩ := dropBlockClose_isPrefix opened
  · rw [hclose] at hin
    exact (h.trans hin).trans hp.isInfix
  · rw [hclose] at hin
    rcases (infix_append_cons_iff hpart).mp (h.trans hin) with hclosed | hclosed
    · exact hclosed.trans hp.isInfix
    · rw [List.infix_nil.mp hclosed]
      exact List.nil_infix

theorem mem_of_tagLineFrom? {tag : TagLine} {offset : ℕ} {lines : List Text}
    (h : tagLineFrom? offset lines = some tag) : tag.content ∈ lines := by
  induction lines generalizing offset with
  | nil => simp [tagLineFrom?] at h
  | cons content rest ih =>
    rw [tagLineFrom?] at h
    split at h
    · obtain rfl := Option.some.inj h
      exact List.mem_cons_self
    · exact List.mem_cons_of_mem content (ih h)

end DocComment

namespace Migration

private theorem infix_of_infix_ofTagLine {tag : DocComment.TagLine} (m : LegacyMarker)
    (h : m.text <:+: ofTagLine tag) : m.text <:+: tag.content := by
  have hall := h.trans (trim_isInfix _)
  rw [m.text_eq_cons] at hall
  have hrest := infix_append_of_not_mem tag.marker.sign_not_mem_modern hall
  rw [← m.text_eq_cons] at hrest
  split at hrest
  · next before after hcut =>
    rw [eq_append_of_cut? hcut]
    exact List.infix_append_of_infix_right hrest
  · exact absurd (List.infix_nil.mp hrest) m.text_ne_nil

/-- The block comment that replaces a documentation comment has no marker that was not there. -/
theorem infix_of_infix_doc {raw : Text} {migration : Migration}
    (hmigration : ofComment? .doc raw = some migration) (m : LegacyMarker)
    (h : m.text <:+: migration.text) : m.text <:+: raw := by
  obtain ⟨tag, htag, rfl⟩ := Option.map_eq_some_iff.mp hmigration
  have hopen : m.text <:+: ['/', '*', ' '] ++ (ofTagLine tag ++ ' ' :: ['*', '/']) := by
    simpa using h
  rw [m.text_eq_cons] at hopen
  have hclose := infix_append_of_not_mem (by decide) hopen
  rw [← m.text_eq_cons] at hclose
  have htagLine : m.text <:+: ofTagLine tag := by
    rcases (infix_append_cons_iff m.space_not_mem_text).mp hclose with hin | hin
    · exact hin
    · rw [m.text_eq_cons] at hin
      exact absurd (hin.subset List.mem_cons_self) (by decide)
  exact DocComment.infix_of_mem_contents m.lineFeed_not_mem_text
    (DocComment.mem_of_tagLineFrom? htag) (infix_of_infix_ofTagLine m htagLine)

theorem ofText_doc {raw : Text} {migration : Migration}
    (hmigration : ofComment? .doc raw = some migration) (docComments : Bool) :
    CommentForm.ofText docComments migration.text = .block := by
  obtain ⟨tag, -, rfl⟩ := Option.map_eq_some_iff.mp hmigration
  rfl

end Migration

/-! ## The form of a comment with a replaced marker -/

variable {docComments : Bool} {form : CommentForm}

/-- A character at the start that no keyword starts with was there before the replacement. -/
theorem exists_cons_of_replaceAll (m : LegacyMarker) {t rest : Text} {c : Char}
    (hc : c ≠ 'l') (h : replaceAll m.text m.modern t = c :: rest) :
    ∃ t', t = c :: t' ∧ replaceAll m.text m.modern t' = rest := by
  by_cases hm : m.text <+: t
  · obtain ⟨more, rfl⟩ := hm
    obtain ⟨tail, htail⟩ := m.modern_head
    rw [replaceAll_append_mark m.text_ne_nil, htail] at h
    exact absurd (List.cons.inj h).1.symm hc
  · cases t with
    | nil => simp at h
    | cons d t =>
      rw [replaceAll_cons_of_not_isPrefix _ hm] at h
      obtain ⟨rfl, hrest⟩ := List.cons.inj h
      exact ⟨t, rfl, hrest⟩

theorem ofText_eq_doc_iff {t : Text} : CommentForm.ofText docComments t = .doc ↔
    docComments = true ∧ ∃ rest, t = '/' :: '*' :: '*' :: rest ∧ rest.head? ≠ some '/' := by
  unfold CommentForm.ofText
  split
  · split
    · next h => simpa using h
    · next h => simpa using h
  · next h => simpa using fun _ rest hrest => absurd hrest (h rest)
  · next h => simpa using fun _ rest hrest => absurd hrest (h ('*' :: rest))

/-- No comment becomes a documentation comment by a replacement. -/
theorem ofText_replaceAll_ne_doc (m : LegacyMarker) {t : Text}
    (h : CommentForm.ofText docComments t ≠ .doc) :
    CommentForm.ofText docComments (replaceAll m.text m.modern t) ≠ .doc := by
  intro hdoc
  obtain ⟨hdocs, rest, hrest, hhead⟩ := ofText_eq_doc_iff.mp hdoc
  obtain ⟨t₁, rfl, h₁⟩ := exists_cons_of_replaceAll m (by decide) hrest
  obtain ⟨t₂, rfl, h₂⟩ := exists_cons_of_replaceAll m (by decide) h₁
  obtain ⟨t₃, rfl, h₃⟩ := exists_cons_of_replaceAll m (by decide) h₂
  refine h (ofText_eq_doc_iff.mpr ⟨hdocs, t₃, rfl, fun hslash => hhead ?_⟩)
  obtain ⟨t₄, rfl⟩ := List.head?_eq_some_iff.mp hslash
  have hno : ¬ m.text <+: '/' :: t₄ := by
    rw [m.text_eq_cons, List.cons_prefix_cons]
    exact fun h => absurd h.1 (by decide)
  rw [← h₃, replaceAll_cons_of_not_isPrefix _ hno]
  rfl

end LintDirectives
