import LintDirectives.Proofs.DirectiveRoundTrip

/-!
# What is read from comment bodies

Only the first line of a comment body is read. Its codes are trimmed and have no commas, and no note
mark stands behind a blank in them, because the note would begin there; the note is a trimmed line.
Nothing else is common to all directives that are read: whatever is of this shape is read from the
line that has a comma before each code, so that even a code that starts with a note mark is kept.
-/

namespace LintDirectives

open Text

namespace DirectiveGrammar

/-- No note mark stands behind a blank. -/
def BeginsNoNote (t : Text) : Prop := ∀ x c y, t = x ++ c :: y → isBlank c → ¬ noteMark <+: y

/-- A code that can be listed. It may have blanks in it and, at any place but behind a blank, note
marks. -/
structure IsListedCode (code : Text) : Prop where
  ne_nil : code ≠ []
  trimmed : trim code = code
  comma : ',' ∉ code
  oneLine : '\n' ∉ code
  noteMark : BeginsNoNote code

/-- A directive as it comes out of a comment body. An `ignore` always has a code. -/
structure IsReadable (d : WrittenDirective) : Prop where
  kind : d.kind ∈ keywordKinds
  codes : ∀ code ∈ d.codes, IsListedCode code
  named : d.kind = .ignore → d.codes ≠ []
  note : ∀ note ∈ d.note, IsNote note

/-! ## Lines behind the first one -/

theorem lineFeed_not_mem_keyword (kind : DirectiveKind) : '\n' ∉ kind.keyword :=
  fun h => by simpa using not_blank_of_mem_keyword h

theorem endsKeyword_append_lineFeed (rest b : Text) :
    endsKeyword (rest ++ '\n' :: b) = endsKeyword rest := by
  cases rest <;> simp [endsKeyword]

/-- A keyword lies in the first line and ends there. -/
theorem splitKeyword?_append_lineFeed (a b : Text) (kind : DirectiveKind) (after : Text) :
    splitKeyword? (a ++ '\n' :: b) = some (kind, after) ↔
      ∃ rest, splitKeyword? a = some (kind, rest) ∧ after = rest ++ '\n' :: b := by
  simp only [splitKeyword?_eq_some_iff]
  constructor
  · rintro ⟨hkind, heq, hends⟩
    have hpre : kind.keyword <+: a :=
      isPrefix_of_append_cons (lineFeed_not_mem_keyword kind) ⟨after, heq.symm⟩
    obtain ⟨rest, rfl⟩ := hpre
    rw [List.append_assoc, List.append_cancel_left_eq] at heq
    rw [← heq, endsKeyword_append_lineFeed] at hends
    exact ⟨rest, ⟨hkind, rfl, hends⟩, heq.symm⟩
  · rintro ⟨rest, ⟨hkind, rfl, hends⟩, rfl⟩
    exact ⟨hkind, by simp, by rwa [endsKeyword_append_lineFeed]⟩

/-- What follows the first line is not read. -/
theorem read?_append_lineFeed {a : Text} (ha : '\n' ∉ a) (b : Text) :
    read? (a ++ '\n' :: b) = read? a := by
  have hiff := splitKeyword?_append_lineFeed a b
  cases hsplit : splitKeyword? a with
  | none =>
    have hnone : splitKeyword? (a ++ '\n' :: b) = none := by
      rw [Option.eq_none_iff_forall_not_mem]
      rintro ⟨kind, after⟩ hsome
      obtain ⟨rest, hrest, -⟩ := (hiff kind after).mp hsome
      simp [hsplit] at hrest
    simp only [read?, hsplit, hnone]
  | some split =>
    obtain ⟨kind, rest⟩ := split
    have hlong := (hiff kind _).mpr ⟨rest, hsplit, rfl⟩
    have hrest : '\n' ∉ rest := by
      rw [(splitKeyword?_eq_some_iff.mp hsplit).2.1] at ha
      exact fun hm => ha (List.mem_append_right _ hm)
    simp only [read?, hsplit, hlong, Option.map_some, firstLine_append_lineFeed hrest,
      firstLine_eq_self hrest]

/-! ## The shape of what is read -/

variable {kind : DirectiveKind} {codes : List Text} {code gap p : Text} {d : WrittenDirective}

theorem IsListedCode.plainEnds (h : IsListedCode code) : PlainEnds code := by
  have hne : trim code ≠ [] := by
    rw [h.trimmed]
    exact h.ne_nil
  rw [← h.trimmed]
  exact plainEnds_trim hne

theorem isListedCode_wildcard : IsListedCode wildcard where
  ne_nil := by decide
  trimmed := by decide +kernel
  comma := by decide
  oneLine := by decide
  noteMark := by
    intro x c y hxy hc
    have hmem : c ∈ wildcard := by simp [hxy]
    obtain rfl : c = '*' := List.mem_singleton.mp hmem
    simp at hc

/-- Every listed code is cut out between commas of the part without a note. -/
theorem isListedCode_of_mem_listedCodes (h : IsCodePart gap p) (hcode : code ∈ listedCodes kind p) :
    IsListedCode code := by
  unfold listedCodes at hcode
  split at hcode
  · rw [List.mem_singleton.mp hcode]
    exact isListedCode_wildcard
  · have hplain := plainEnds_of_mem_commaItems hcode
    have hin := infix_of_mem_commaItems hcode
    refine ⟨hplain.ne_nil, hplain.trim_eq, comma_not_mem_of_mem_commaItems hcode,
      fun hm => h.oneLine (hin.subset hm), ?_⟩
    rintro x c y rfl hc hm
    obtain ⟨left, right, rfl⟩ := hin
    exact h.noteFree.behind (left ++ x) c (y ++ right) (by simp) hc (hm.trans (List.prefix_append _ _))

theorem listedCodes_ignore_ne_nil (p : Text) : listedCodes .ignore p ≠ [] := by
  unfold listedCodes
  split
  · exact List.cons_ne_nil _ _
  · next hitems => simpa using hitems

/-- The note is cut off the trimmed first line. -/
theorem isNote_of_read? {body note : Text} (h : read? body = some d) (hnote : note ∈ d.note) :
    IsNote note := by
  obtain ⟨⟨kind, rest⟩, -, rfl⟩ := Option.map_eq_some_iff.mp h
  obtain ⟨after, hafter, rfl⟩ := Option.map_eq_some_iff.mp hnote
  have hin : trim after <:+: firstLine rest :=
    (trim_isInfix after).trans ((splitNote_isSuffix hafter).isInfix.trans (trim_isInfix _))
  exact ⟨trim_trim after, fun hm => lineFeed_not_mem_firstLine rest (hin.subset hm)⟩

theorem isReadable_of_read? {body : Text} (h : read? body = some d) : IsReadable d := by
  obtain ⟨hkind, gap, p, rest, -, hpart, hcodes⟩ := exists_codePart_of_read? h
  refine ⟨hkind, ?_, ?_, fun note hnote => isNote_of_read? h hnote⟩
  · intro code hcode
    rw [hcodes] at hcode
    exact isListedCode_of_mem_listedCodes hpart hcode
  · intro hignore
    rw [hcodes, hignore]
    exact listedCodes_ignore_ne_nil p

/-! ## A line for each directive of this shape -/

/-- The codes in a row, each behind a comma of its own. -/
def listing (codes : List Text) : Text := codes.flatMap (',' :: ·)

theorem listing_cons (code : Text) (codes : List Text) :
    listing (code :: codes) = ',' :: (code ++ listing codes) := rfl

theorem atItemEnd_listing (codes : List Text) : AtItemEnd (listing codes) := by
  cases codes with
  | nil => exact .inl rfl
  | cons code codes => exact .inr ⟨code ++ listing codes, rfl⟩

theorem commaItems_listing (h : ∀ code ∈ codes, IsListedCode code) :
    commaItems (listing codes) = codes := by
  induction codes with
  | nil => exact commaItems_nil
  | cons code codes ih =>
    have hcode := h code List.mem_cons_self
    have hone : commaItems code = [code] := by
      rw [commaItems_of_not_mem hcode.comma, hcode.trimmed, if_neg hcode.ne_nil]
    have hhead := commaItems_append_comma [] (code ++ listing codes)
    rw [List.nil_append, commaItems_nil, List.nil_append] at hhead
    rw [listing_cons, hhead, commaItems_append_of_atItemEnd code (atItemEnd_listing codes), hone,
      ih fun c hc => h c (List.mem_cons_of_mem code hc), List.singleton_append]

/-- A comma keeps a note mark away from the blanks before it. -/
theorem BeginsNoNote.append_comma {a b : Text} (ha : BeginsNoNote a) (hb : BeginsNoNote b) :
    BeginsNoNote (a ++ ',' :: b) := by
  intro x c y hxy hc
  rcases List.append_eq_append_iff.mp hxy with ⟨w, -, hw⟩ | ⟨w, hw, hy⟩
  · cases w with
    | nil =>
      rw [← (List.cons.inj hw).1] at hc
      simp at hc
    | cons e w => exact hb w c y (List.cons.inj hw).2 hc
  · cases w with
    | nil =>
      rw [(List.cons.inj hy).1] at hc
      simp at hc
    | cons e w =>
      obtain ⟨rfl, rfl⟩ := List.cons.inj hy
      exact fun hm => ha x c w hw hc (isPrefix_of_append_cons (by decide) hm)

theorem beginsNoNote_append_listing {a : Text} (ha : BeginsNoNote a)
    (h : ∀ code ∈ codes, IsListedCode code) : BeginsNoNote (a ++ listing codes) := by
  induction codes generalizing a with
  | nil => simpa [listing] using ha
  | cons code codes ih =>
    have hfirst := ha.append_comma (h code List.mem_cons_self).noteMark
    have hall := ih hfirst fun c hc => h c (List.mem_cons_of_mem code hc)
    rwa [List.append_assoc, List.cons_append, ← listing_cons] at hall

theorem endsPlain_listing (h : ∀ code ∈ codes, IsListedCode code) :
    listing codes = [] ∨ EndsPlain (listing codes) := by
  rcases List.eq_nil_or_concat' codes with rfl | ⟨front, code, rfl⟩
  · exact .inl rfl
  · have hcode := (h code (by simp)).plainEnds
    obtain ⟨x, c, rfl⟩ := (List.eq_nil_or_concat' code).resolve_left hcode.ne_nil
    exact .inr ⟨listing front ++ ',' :: x, c, by simp [listing], hcode.last x c rfl⟩

theorem noteFree_listing (h : ∀ code ∈ codes, IsListedCode code) : NoteFree (listing codes) := by
  have hnone : BeginsNoNote [] := by simp [BeginsNoNote]
  refine ⟨fun hm => ?_, beginsNoNote_append_listing hnone h⟩
  cases codes with
  | nil => exact absurd (List.prefix_nil.mp hm) (by decide)
  | cons code codes => exact absurd (List.cons_prefix_cons.mp hm).1 (by decide)

theorem isCodePart_listing (h : ∀ code ∈ codes, IsListedCode code) :
    IsCodePart [' '] (listing codes) where
  gap_blank := by simp [AllBlank]
  gap_oneLine := by simp
  oneLine := by
    intro hm
    obtain ⟨code, hcode, hm⟩ := List.mem_flatMap.mp hm
    simp [(h code hcode).oneLine] at hm
  noteFree := noteFree_listing h
  head := by
    intro c y hy
    cases codes with
    | nil => simp [listing] at hy
    | cons code codes => simp [← (List.cons.inj hy).1]
  gap_ne_nil := .inr (List.cons_ne_nil _ _)

theorem listedCodes_listing (h : ∀ code ∈ codes, IsListedCode code)
    (hnamed : kind = .ignore → codes ≠ []) : listedCodes kind (listing codes) = codes := by
  rw [listedCodes, commaItems_listing h, if_neg]
  simpa [and_comm] using hnamed

theorem exists_line_of_isReadable (h : IsReadable d) : ∃ line, '\n' ∉ line ∧ read? line = some d := by
  obtain ⟨kind, codes, note⟩ := d
  have hpart := isCodePart_listing h.codes
  have hplain := endsPlain_listing h.codes
  have hlist : listedCodes kind (listing codes) = codes := listedCodes_listing h.codes h.named
  have hkeyword := lineFeed_not_mem_keyword kind
  have hline := hpart.oneLine
  cases note with
  | none =>
    have hread := read?_of_codes h.kind hpart hplain
    rw [hlist] at hread
    exact ⟨_, by simp [hkeyword, hline], hread⟩
  | some note =>
    have hnote := h.note note rfl
    have hread := read?_of_codePart h.kind hpart hplain (' ' :: note)
    rw [hlist, hnote.trim_firstLine] at hread
    exact ⟨_, by simp [hkeyword, hline, hnote.oneLine], hread⟩

/-- What follows the first line of a body is not read, every directive that is read has this shape,
and each directive of this shape is read from some line. -/
theorem readable_directives_from_first_line :
    (∀ a b : Text, '\n' ∉ a → read? (a ++ '\n' :: b) = read? a) ∧
    (∀ body d, read? body = some d → IsReadable d) ∧
    ∀ d, IsReadable d → ∃ line, '\n' ∉ line ∧ read? line = some d :=
  ⟨fun _ b ha => read?_append_lineFeed ha b, fun _ _ h => isReadable_of_read? h,
    fun _ h => exists_line_of_isReadable h⟩

/-- A code that starts with a note mark, one with a blank in it, and a note, all before a second
line. -/
theorem marked_code_read_from_first_line :
    '\n' ∉ ("lint:ignore ,--A b, C -- see, below" : Text) ∧
    read? "lint:ignore ,--A b, C -- see, below\nD -- other" =
      some ⟨.ignore, ["--A b", "C"], some "see, below"⟩ ∧
    IsReadable ⟨.ignore, ["--A b", "C"], some "see, below"⟩ ∧
    ∃ line, '\n' ∉ line ∧ read? line = some ⟨.ignore, ["--A b", "C"], some "see, below"⟩ := by
  obtain ⟨hfirst, hshape, hline⟩ := readable_directives_from_first_line
  have hone : '\n' ∉ ("lint:ignore ,--A b, C -- see, below" : Text) := by decide
  have hread : read? "lint:ignore ,--A b, C -- see, below" =
      some ⟨.ignore, ["--A b", "C"], some "see, below"⟩ := by decide +kernel
  have hbody := (hfirst _ "D -- other" hone).trans hread
  have hreadable := hshape _ _ hbody
  exact ⟨hone, hbody, hreadable, hline _ hreadable⟩

end DirectiveGrammar

end LintDirectives
