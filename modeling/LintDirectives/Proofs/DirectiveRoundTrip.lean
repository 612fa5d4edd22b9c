import LintDirectives.Proofs.DirectiveLayout

/-!
# Written directives are read back

A directive whose codes are plain words, without a note mark in them, and whose note is a trimmed
line is read back from its written form, alone or in a comment. The first note mark of the written
form is the one in front of the note, because the codes and the commas between them have none; so
the note may hold commas, further note marks and delimiters of comments.
-/

namespace LintDirectives

open Text CommentText

namespace Text

/-- Blanks before a list add nothing to its items. -/
theorem commaItems_append_left {blanks : Text} (h : AllBlank blanks) (t : Text) :
    commaItems (blanks ++ t) = commaItems t := by
  have hcomma : ',' ∉ blanks := fun hm => by simpa using h ',' hm
  rcases comma_not_mem_or_split t with ht | ⟨u, rest, hu, rfl⟩
  · rw [commaItems_of_not_mem (by simp [ht, hcomma]), commaItems_of_not_mem ht,
      trim_append_left h]
  · rw [← List.append_assoc, commaItems_append_comma, commaItems_append_comma,
      commaItems_of_not_mem (by simp [hu, hcomma]), commaItems_of_not_mem hu, trim_append_left h]

end Text

/-- The directive that a written one stands for: an `ignore` without codes means all rules. -/
def WrittenDirective.meant (d : WrittenDirective) : WrittenDirective :=
  { d with codes := if d.codes.isEmpty && d.kind = .ignore then [wildcard] else d.codes }

namespace DirectiveGrammar

/-- A code that can be written: a word without commas and note marks. -/
structure IsCode (code : Text) : Prop where
  ne_nil : code ≠ []
  not_blank : ∀ c ∈ code, isBlank c = false
  comma : ',' ∉ code
  noteMark : ¬ noteMark <:+: code

/-- A note that can be written: a line without blanks at its ends. -/
structure IsNote (note : Text) : Prop where
  trimmed : trim note = note
  oneLine : '\n' ∉ note

theorem IsNote.trim_firstLine {note : Text} (h : IsNote note) :
    trim (firstLine (' ' :: note)) = note := by
  have hline : '\n' ∉ ' ' :: note := by simp [h.oneLine]
  have hspace : AllBlank [' '] := by simp [AllBlank]
  rw [firstLine_eq_self hline]
  exact (trim_append_left hspace note).trans h.trimmed

/-! ## The list of codes -/

variable {codes : List Text} {code p : Text}

theorem IsCode.trim_eq (h : IsCode code) : trim code = code := by
  apply PlainEnds.trim_eq
  refine ⟨h.ne_nil, ?_, ?_⟩
  · rintro c y rfl
    exact h.not_blank c (by simp)
  · rintro x c rfl
    exact h.not_blank c (by simp)

theorem commaItems_join (h : ∀ code ∈ codes, IsCode code) :
    commaItems (join ", " codes) = codes := by
  induction codes with
  | nil => simp
  | cons code codes ih =>
    have hcode := h code List.mem_cons_self
    have hone : commaItems code = [code] := by
      rw [commaItems_of_not_mem hcode.comma, hcode.trim_eq, if_neg hcode.ne_nil]
    cases codes with
    | nil => rw [join_singleton, hone]
    | cons next rest =>
      have hrest := ih fun c hc => h c (List.mem_cons_of_mem code hc)
      have hspace : AllBlank [' '] := by simp [AllBlank]
      have hjoin : join ", " (code :: next :: rest) =
          code ++ ',' :: ([' '] ++ join ", " (next :: rest)) := join_cons_cons _ _ _ _
      rw [hjoin, commaItems_append_comma, hone, commaItems_append_left hspace, hrest,
        List.singleton_append]

theorem not_noteMark_join (h : ∀ code ∈ codes, IsCode code) :
    ¬ noteMark <:+: join ", " codes := by
  induction codes with
  | nil => simp [noteMark]
  | cons code codes ih =>
    have hcode := h code List.mem_cons_self
    cases codes with
    | nil =>
      rw [join_singleton]
      exact hcode.noteMark
    | cons next rest =>
      have hrest := ih fun c hc => h c (List.mem_cons_of_mem code hc)
      have hjoin : join ", " (code :: next :: rest) =
          code ++ ',' :: ([] ++ ' ' :: join ", " (next :: rest)) := join_cons_cons _ _ _ _
      rw [hjoin, infix_append_cons_iff (by decide), infix_append_cons_iff (by decide)]
      rintro (hin | hin | hin)
      · exact hcode.noteMark hin
      · exact absurd (List.infix_nil.mp hin) (by decide)
      · exact hrest hin

theorem lineFeed_not_mem_join (h : ∀ code ∈ codes, IsCode code) : '\n' ∉ join ", " codes := by
  induction codes with
  | nil => simp
  | cons code codes ih =>
    have hcode : '\n' ∉ code := fun hm => by
      simpa using (h code List.mem_cons_self).not_blank '\n' hm
    cases codes with
    | nil => rwa [join_singleton]
    | cons next rest =>
      have hrest := ih fun c hc => h c (List.mem_cons_of_mem code hc)
      rw [join_cons_cons, List.mem_append, List.mem_append, not_or, not_or]
      exact ⟨hcode, by decide, hrest⟩

theorem join_head (h : ∀ code ∈ codes, IsCode code) {c : Char} {y : Text}
    (hy : join ", " codes = c :: y) : isBlank c = false := by
  cases codes with
  | nil => exact nomatch hy
  | cons code codes =>
    have hcode := h code List.mem_cons_self
    obtain ⟨d, x, rfl⟩ := List.exists_cons_of_ne_nil hcode.ne_nil
    have hd : isBlank d = false := hcode.not_blank d (by simp)
    cases codes with
    | nil =>
      rw [join_singleton] at hy
      rwa [← (List.cons.inj hy).1]
    | cons next rest =>
      rw [join_cons_cons] at hy
      rwa [← (List.cons.inj hy).1]

theorem endsPlain_join (hne : codes ≠ []) (h : ∀ code ∈ codes, IsCode code) :
    EndsPlain (join ", " codes) := by
  induction codes with
  | nil => exact absurd rfl hne
  | cons code codes ih =>
    have hcode := h code List.mem_cons_self
    cases codes with
    | nil =>
      obtain ⟨x, c, rfl⟩ := (List.eq_nil_or_concat' code).resolve_left hcode.ne_nil
      exact ⟨x, c, join_singleton _ _, hcode.not_blank c (by simp)⟩
    | cons next rest =>
      obtain ⟨x, c, hx, hc⟩ := ih (by simp) fun c hc => h c (List.mem_cons_of_mem code hc)
      refine ⟨code ++ (", ".toList ++ x), c, ?_, hc⟩
      rw [join_cons_cons, hx]
      simp

/-- The codes with a space before them, or nothing at all. -/
theorem isCodePart_join (h : ∀ code ∈ codes, IsCode code) :
    IsCodePart (if codes.isEmpty then [] else [' ']) (join ", " codes) where
  gap_blank := by split <;> simp [AllBlank]
  gap_oneLine := by split <;> simp
  oneLine := lineFeed_not_mem_join h
  noteFree := noteFree_of_not_occurs (not_noteMark_join h)
  head := fun _ _ => join_head h
  gap_ne_nil := by cases codes <;> simp

/-! ## Reading what was written -/

/-- Codes that nothing follows are read back. -/
theorem read?_of_codes {kind : DirectiveKind} (hkind : kind ∈ keywordKinds) {gap : Text}
    (h : IsCodePart gap p) (hp : p = [] ∨ EndsPlain p) :
    read? (kind.keyword ++ (gap ++ p)) = some ⟨kind, listedCodes kind p, none⟩ := by
  have hends : endsKeyword (gap ++ p) := by
    cases gap with
    | nil =>
      obtain rfl : p = [] := h.gap_ne_nil.resolve_right (by simp)
      simp [endsKeyword]
    | cons c gap => simpa [endsKeyword] using h.gap_blank c (by simp)
  have hsplit := splitKeyword?_eq_some_iff.mpr ⟨hkind, rfl, hends⟩
  have hfirst : firstLine (gap ++ p) = gap ++ p := by
    rw [firstLine_append h.gap_oneLine, firstLine_eq_self h.oneLine]
  have htrim : trim (gap ++ p) = p := by
    rw [trim_append_left h.gap_blank]
    rcases hp with rfl | ⟨x, c, rfl, hc⟩
    · rfl
    · refine PlainEnds.trim_eq ⟨by simp, h.head, ?_⟩
      intro y d hd
      have hlast := (List.append_inj' hd rfl).2
      rwa [← (List.cons.inj hlast).1]
  simp only [read?, hsplit, Option.map_some, hfirst, htrim, splitNote_eq_self h.noteFree,
    listedCodes, Option.map_none]

theorem listedCodes_join (kind : DirectiveKind) (h : ∀ code ∈ codes, IsCode code) :
    listedCodes kind (join ", " codes) =
      if codes.isEmpty && kind = .ignore then [wildcard] else codes := by
  rw [listedCodes, commaItems_join h]

/-- Reading inverts writing. -/
theorem read?_write {d : WrittenDirective} (hkind : d.kind ∈ keywordKinds)
    (hcodes : ∀ code ∈ d.codes, IsCode code) (hnote : ∀ note ∈ d.note, IsNote note) :
    read? (write d) = some d.meant := by
  obtain ⟨kind, codes, note⟩ := d
  have hpart := isCodePart_join hcodes
  have hplain : join ", " codes = [] ∨ EndsPlain (join ", " codes) := by
    by_cases hnil : codes = []
    · exact .inl (by rw [hnil, join_nil])
    · exact .inr (endsPlain_join hnil hcodes)
  have hlist : (if codes.isEmpty then [] else ' ' :: join ", " codes) =
      (if codes.isEmpty then [] else [' ']) ++ join ", " codes := by
    cases codes <;> rfl
  cases note with
  | none =>
    have hread := read?_of_codes hkind hpart hplain
    simp only [write, hlist, List.append_nil]
    rw [hread, listedCodes_join kind hcodes]
    rfl
  | some note =>
    have hread := read?_of_codePart hkind hpart hplain (' ' :: note)
    have hsame := (hnote note rfl).trim_firstLine
    simp only [write, hlist, List.append_assoc]
    rw [listedCodes_join kind hcodes, hsame] at hread
    exact hread

/-- Blanks at the end of a body are not read. -/
theorem read?_trimEnd {body : Text} {d : WrittenDirective} (h : read? body = some d) :
    read? (trimEnd body) = some d := by
  obtain ⟨⟨kind, rest⟩, hsplit, rfl⟩ := Option.map_eq_some_iff.mp h
  obtain ⟨hkind, rfl, hends⟩ := splitKeyword?_eq_some_iff.mp hsplit
  have hends' : endsKeyword (trimEnd rest) := by
    obtain ⟨more, hmore⟩ := trimEnd_isPrefix rest
    cases hrest : trimEnd rest with
    | nil => rfl
    | cons c y =>
      rw [← hmore, hrest] at hends
      exact hends
  have hsplit' := splitKeyword?_eq_some_iff.mpr ⟨hkind, rfl, hends'⟩
  rw [trimEnd_keyword_append]
  simp only [read?, hsplit', Option.map_some, trim_firstLine_trimEnd]

/-! ## Written directives in comments -/

/-- The comments that hold a text, with a space on each side of it. -/
def spacedComments (t : Text) : List (CommentForm × Text) :=
  [(.line, "# " ++ t), (.line, "// " ++ t), (.block, "/* " ++ t ++ " */")]

/-- A text that starts with a plain character is the body of its comments. -/
theorem body_of_mem_spacedComments {c : Char} (hc : IsPlain c) {z : Text} {form : CommentForm}
    {comment : Text} (h : (form, comment) ∈ spacedComments (c :: z)) :
    body form comment = trimEnd (c :: z) ∧
      ∀ docComments, CommentForm.ofText docComments comment = form := by
  have hspace : AllBlank [' '] := by simp [AllBlank]
  simp only [spacedComments, List.mem_cons, List.not_mem_nil, or_false, Prod.mk.injEq] at h
  rcases h with ⟨rfl, rfl⟩ | ⟨rfl, rfl⟩ | ⟨rfl, rfl⟩
  · have hmark (docs : Bool) : OpenMark docs .line ['#'] := .hash
    exact ⟨(hmark false).body hspace hc z, fun docs => (hmark docs).ofText hspace hc z⟩
  · have hmark (docs : Bool) : OpenMark docs .line ['/', '/'] := .slashes
    exact ⟨(hmark false).body hspace hc z, fun docs => (hmark docs).ofText hspace hc z⟩
  · have hmark (docs : Bool) : OpenMark docs .block ['/', '*'] := .block 0 fun _ => rfl
    have hbody := (hmark false).body hspace hc (z ++ [' ', '*', '/'])
    have hending : ending .block (c :: (z ++ [' ', '*', '/'])) = trimEnd (c :: z) := by
      have hclose := dropBlockClose_star_slash (c :: z ++ [' '])
      rw [List.rdropWhile_concat_neg _ _ _ (by decide)] at hclose
      have htext : c :: (z ++ [' ', '*', '/']) = c :: z ++ [' '] ++ ['*', '/'] := by simp
      rw [← trimEnd_append_blanks (c :: z) hspace, ← hclose, ← htext]
      rfl
    have hform (docs : Bool) := (hmark docs).ofText hspace hc (z ++ [' ', '*', '/'])
    rw [hending] at hbody
    exact ⟨hbody, hform⟩

/-- A directive is read back from its written form, and from the line and block comments that hold
it, with its kind, its codes and its note. -/
theorem written_directive_read_back {d : WrittenDirective} (hkind : d.kind ∈ keywordKinds)
    (hcodes : ∀ code ∈ d.codes, IsCode code) (hnote : ∀ note ∈ d.note, IsNote note) :
    read? (write d) = some d.meant ∧
    ∀ form comment, (form, comment) ∈ spacedComments (write d) →
      read? (body form comment) = some d.meant ∧
        ∀ docComments, CommentForm.ofText docComments comment = form := by
  have hread := read?_write hkind hcodes hnote
  refine ⟨hread, fun form comment hmem => ?_⟩
  obtain ⟨tail, htail⟩ := keyword_head d.kind
  obtain ⟨z, hz⟩ : ∃ z, write d = 'l' :: z := by
    rw [write, htail]
    exact ⟨_, rfl⟩
  rw [hz] at hmem
  obtain ⟨hbody, hform⟩ := body_of_mem_spacedComments isPlain_l hmem
  refine ⟨?_, hform⟩
  rw [hbody, ← hz]
  exact read?_trimEnd hread

private def deceptive : WrittenDirective where
  kind := .ignore
  codes := ["-", "A*/"]
  note := some "-- b, /* c */"

/-- Codes of dashes and delimiters and a note that looks like codes and a further note. -/
theorem deceptive_directive_read_back :
    deceptive.kind ∈ keywordKinds ∧ (∀ code ∈ deceptive.codes, IsCode code) ∧
    (∀ note ∈ deceptive.note, IsNote note) ∧
    read? "lint:ignore -, A*/ -- -- b, /* c */" = some deceptive ∧
    read? (body .block "/* lint:ignore -, A*/ -- -- b, /* c */ */") = some deceptive := by
  have hkind : deceptive.kind ∈ keywordKinds := by decide
  have hcodes : ∀ code ∈ deceptive.codes, IsCode code := by
    have hplain : ∀ code ∈ deceptive.codes, code ≠ [] ∧ code.any isBlank = false ∧
        ',' ∉ code ∧ ¬Text.occursIn noteMark code := by decide +kernel
    intro code hcode
    obtain ⟨hne, hblank, hcomma, hmark⟩ := hplain code hcode
    exact ⟨hne, fun c hc => by simpa using List.any_eq_false.mp hblank c hc, hcomma,
      fun h => hmark (Text.occursIn_iff.mpr h)⟩
  have hnote : ∀ note ∈ deceptive.note, IsNote note := by
    rintro note hnote
    obtain rfl := Option.some.inj hnote
    exact ⟨by decide +kernel, by decide⟩
  obtain ⟨hread, hcomments⟩ := written_directive_read_back hkind hcodes hnote
  exact ⟨hkind, hcodes, hnote, hread, (hcomments .block _ (by decide +kernel)).1⟩

end DirectiveGrammar

end LintDirectives
