import LintDirectives.CommentReading
import LintDirectives.Proofs.CommentDelimiters
import LintDirectives.Proofs.TextSearch

/-!
# The layout of a directive comment

A comment that is read as a directive consists of an opening mark, blanks, the keyword, blanks,
the part with the codes, and a rest. The part with the codes has no note mark at its start or
behind a blank. Conversely, a comment of this layout whose codes are followed by a blank and a
note mark is read as a directive with exactly these codes, whatever follows the note mark.
-/

namespace LintDirectives

open Text CommentText

namespace DirectiveGrammar

/-! ## Keywords -/

theorem keyword_head (kind : DirectiveKind) : ∃ rest, kind.keyword = 'l' :: rest := by
  cases kind <;> exact ⟨_, rfl⟩

theorem not_blank_of_mem_keyword {kind : DirectiveKind} {c : Char} (hc : c ∈ kind.keyword) :
    isBlank c = false := by
  have hall : (DirectiveKind.all.all fun k => k.keyword.all fun c => !isBlank c) = true := by
    decide +kernel
  have hkind := List.all_eq_true.mp hall kind (by cases kind <;> decide)
  simpa using List.all_eq_true.mp hkind c hc

theorem trimEnd_keyword_append (kind : DirectiveKind) (v : Text) :
    trimEnd (kind.keyword ++ v) = kind.keyword ++ trimEnd v := by
  obtain ⟨tail, htail⟩ := keyword_head kind
  obtain ⟨x, c, hx⟩ := (List.eq_nil_or_concat' kind.keyword).resolve_left (by simp [htail])
  have hmem : c ∈ kind.keyword := by simp [hx]
  have hc : isBlank c = false := not_blank_of_mem_keyword hmem
  simpa [hx] using trimEnd_append_cons x hc v

/-- Keywords of kinds with different initials exclude each other. -/
private theorem isPrefixOf?_keyword_eq_none {k kind : DirectiveKind} (rest : Text)
    (h : (k.name.head?).isSome ∧ (kind.name.head?).isSome ∧ k.name.head? ≠ kind.name.head?) :
    k.keyword.isPrefixOf? (kind.keyword ++ rest) = none := by
  obtain ⟨hk, hkind, hne⟩ := h
  obtain ⟨lint, hlint⟩ : ∃ lint, ∀ kind : DirectiveKind, kind.keyword = lint ++ kind.name :=
    ⟨"lint:", fun _ => rfl⟩
  rw [isPrefixOf?_eq_none_iff, hlint, hlint, List.append_assoc, List.prefix_append_right_inj]
  intro hp
  obtain ⟨a, ha⟩ := Option.isSome_iff_exists.mp hk
  obtain ⟨b, hb⟩ := Option.isSome_iff_exists.mp hkind
  obtain ⟨x, hx⟩ := List.head?_eq_some_iff.mp ha
  obtain ⟨y, hy⟩ := List.head?_eq_some_iff.mp hb
  rw [hx, hy, List.cons_append, List.cons_prefix_cons] at hp
  exact hne (by rw [ha, hb, hp.1])

/-- The keyword for whole files extends another one by a hyphen, where no keyword may end. -/
private theorem isPrefixOf?_ignoreFile_eq_none {rest : Text} (hends : endsKeyword rest) :
    DirectiveKind.ignoreFile.keyword.isPrefixOf? (DirectiveKind.ignore.keyword ++ rest) = none := by
  have hlonger : DirectiveKind.ignoreFile.keyword =
      DirectiveKind.ignore.keyword ++ ['-', 'f', 'i', 'l', 'e'] := by decide
  rw [isPrefixOf?_eq_none_iff]
  intro hp
  rw [hlonger] at hp
  obtain ⟨more, rfl⟩ := (List.prefix_append_right_inj _).mp hp
  simp [endsKeyword] at hends

/-- The keyword at the start of a body, which ends at a blank or at the end, tells the kind. -/
theorem splitKeyword?_eq_some_iff {body rest : Text} {kind : DirectiveKind} :
    splitKeyword? body = some (kind, rest) ↔
      kind ∈ keywordKinds ∧ body = kind.keyword ++ rest ∧ endsKeyword rest := by
  constructor
  · intro h
    obtain ⟨k, hk, hsome⟩ := List.exists_of_findSome?_eq_some h
    split at hsome
    · next after hafter =>
      split at hsome
      · next hends =>
        obtain ⟨rfl, rfl⟩ := Prod.mk.inj (Option.some.inj hsome)
        exact ⟨hk, isPrefixOf?_eq_some_iff.mp hafter, hends⟩
      · simp at hsome
    · simp at hsome
  · rintro ⟨hk, rfl, hends⟩
    have hself := isPrefixOf?_append_self kind.keyword rest
    simp only [keywordKinds, List.mem_cons, List.not_mem_nil, or_false] at hk
    rcases hk with rfl | rfl | rfl | rfl
    · simp only [splitKeyword?, keywordKinds, List.findSome?_cons, hself, hends, if_true]
    · simp only [splitKeyword?, keywordKinds, List.findSome?_cons, hself, hends, if_true,
        isPrefixOf?_ignoreFile_eq_none hends]
    · have hfile : DirectiveKind.ignoreFile.keyword.isPrefixOf?
          (DirectiveKind.disable.keyword ++ rest) = none := isPrefixOf?_keyword_eq_none rest (by decide)
      have hignore : DirectiveKind.ignore.keyword.isPrefixOf?
          (DirectiveKind.disable.keyword ++ rest) = none := isPrefixOf?_keyword_eq_none rest (by decide)
      simp only [splitKeyword?, keywordKinds, List.findSome?_cons, hself, hends, if_true, hfile,
        hignore]
    · have hother : ∀ k ∈ [DirectiveKind.ignoreFile, .ignore, .disable], k.keyword.isPrefixOf?
          (DirectiveKind.enable.keyword ++ rest) = none := by
        intro k hk
        exact isPrefixOf?_keyword_eq_none rest (by revert hk; cases k <;> decide)
      simp only [splitKeyword?, keywordKinds, List.findSome?_cons, hself, hends, if_true,
        hother .ignoreFile (by simp), hother .ignore (by simp), hother .disable (by simp)]

/-! ## Where the note starts -/

/-- A text without a note mark at its start or behind a blank. -/
structure NoteFree (t : Text) : Prop where
  start : ¬ noteMark <+: t
  behind : ∀ x c y, t = x ++ c :: y → isBlank c → ¬ noteMark <+: y

theorem noteFree_nil : NoteFree [] :=
  ⟨by decide, by simp⟩

theorem noteFree_of_not_occurs {t : Text} (h : ¬ noteMark <:+: t) : NoteFree t := by
  refine ⟨fun hp => h hp.isInfix, ?_⟩
  rintro x c y rfl - hp
  exact h (hp.isInfix.trans ⟨x ++ [c], [], by simp⟩)

theorem NoteFree.of_isPrefix {p t : Text} (h : NoteFree t) (hp : p <+: t) : NoteFree p := by
  obtain ⟨r, rfl⟩ := hp
  refine ⟨fun hm => h.start (hm.trans (List.prefix_append p r)), ?_⟩
  rintro x c y rfl hc hm
  exact h.behind x c (y ++ r) (by simp) hc (hm.trans (List.prefix_append y r))

theorem splitBlankNote_isPrefix (t : Text) : (splitBlankNote t).1 <+: t := by
  induction t with
  | nil => simp [splitBlankNote]
  | cons c rest ih =>
    rw [splitBlankNote]
    split
    · exact List.nil_prefix
    · exact List.cons_prefix_cons.mpr ⟨rfl, ih⟩

/-- If no note mark stands behind a blank, none stands behind the first run of blanks. -/
theorem not_noteMark_trimStart {c : Char} {rest : Text} (hc : isBlank c)
    (h : ∀ x d y, c :: rest = x ++ d :: y → isBlank d → ¬ noteMark <+: y) :
    ¬ noteMark <+: trimStart rest := by
  obtain ⟨blanks, hblanks, hrest⟩ := exists_trimStart rest
  rcases List.eq_nil_or_concat' blanks with rfl | ⟨b, d, rfl⟩
  · refine h [] c (trimStart rest) ?_ hc
    conv_lhs => rw [hrest]
    simp
  · refine h (c :: b) d (trimStart rest) ?_ (hblanks d (by simp))
    conv_lhs => rw [hrest]
    simp

theorem splitBlankNote_eq_self {t : Text}
    (h : ∀ x c y, t = x ++ c :: y → isBlank c → ¬ noteMark <+: y) :
    splitBlankNote t = (t, none) := by
  induction t with
  | nil => rfl
  | cons c rest ih =>
    have hnone : (if isBlank c then noteMark.isPrefixOf? (rest.dropWhile isBlank) else none) =
        none := by
      split
      · next hc => exact isPrefixOf?_eq_none_iff.mpr (not_noteMark_trimStart hc h)
      · rfl
    have hrest := ih fun x d y hxy hd => h (c :: x) d y (by simp [hxy]) hd
    rw [splitBlankNote, hnone, hrest]

/-- A text free of note marks is not split. -/
theorem splitNote_eq_self {t : Text} (h : NoteFree t) : splitNote t = (t, none) := by
  rw [splitNote, isPrefixOf?_eq_none_iff.mpr h.start]
  exact splitBlankNote_eq_self h.behind

theorem splitBlankNote_behind (t : Text) {x y : Text} {c : Char}
    (h : (splitBlankNote t).1 = x ++ c :: y) (hc : isBlank c) : ¬ noteMark <+: y := by
  induction t generalizing x with
  | nil => simp [splitBlankNote] at h
  | cons d rest ih =>
    rw [splitBlankNote] at h
    split at h
    · simp at h
    · next hnone =>
      cases x with
      | nil =>
        obtain ⟨rfl, hy⟩ := List.cons.inj h
        intro hm
        rw [if_pos hc, isPrefixOf?_eq_none_iff] at hnone
        have hrest : noteMark <+: rest := by
          rw [← hy] at hm
          exact hm.trans (splitBlankNote_isPrefix rest)
        obtain ⟨more, rfl⟩ := hrest
        have hstop : (noteMark ++ more).dropWhile isBlank = noteMark ++ more :=
          List.dropWhile_cons_of_neg (by simp)
        rw [hstop] at hnone
        exact hnone (List.prefix_append noteMark more)
      | cons e x => exact ih (List.cons.inj h).2

/-- The part with the codes is free of note marks. -/
theorem noteFree_splitNote (t : Text) : NoteFree (splitNote t).1 := by
  unfold splitNote
  split
  · exact noteFree_nil
  · next hnone =>
    rw [isPrefixOf?_eq_none_iff] at hnone
    exact ⟨fun hm => hnone (hm.trans (splitBlankNote_isPrefix t)),
      fun x c y h hc => splitBlankNote_behind t h hc⟩

theorem splitNote_isPrefix (t : Text) : (splitNote t).1 <+: t := by
  unfold splitNote
  split
  · exact List.nil_prefix
  · exact splitBlankNote_isPrefix t

theorem splitBlankNote_isSuffix {t note : Text} (h : (splitBlankNote t).2 = some note) :
    note <:+ t := by
  induction t with
  | nil => simp [splitBlankNote] at h
  | cons c rest ih =>
    rw [splitBlankNote] at h
    split at h
    · next after hafter =>
      cases h
      split at hafter
      · rw [isPrefixOf?_eq_some_iff] at hafter
        have hdrop : note <:+ rest.dropWhile isBlank := ⟨noteMark, hafter.symm⟩
        exact (hdrop.trans (List.dropWhile_suffix isBlank)).trans (List.suffix_cons c rest)
      · simp at hafter
    · exact (ih h).trans (List.suffix_cons c rest)

theorem splitNote_isSuffix {t note : Text} (h : (splitNote t).2 = some note) : note <:+ t := by
  unfold splitNote at h
  split at h
  · next after hafter =>
    cases h
    exact ⟨noteMark, (isPrefixOf?_eq_some_iff.mp hafter).symm⟩
  · exact splitBlankNote_isSuffix h

/-- A text that ends in a character other than a blank. -/
def EndsPlain (t : Text) : Prop := ∃ x c, t = x ++ [c] ∧ isBlank c = false

theorem EndsPlain.of_append {a b : Text} (h : EndsPlain (a ++ b)) (hb : b ≠ []) : EndsPlain b := by
  obtain ⟨x, c, hx, hc⟩ := h
  obtain ⟨y, d, rfl⟩ := (List.eq_nil_or_concat' b).resolve_left hb
  rw [← List.append_assoc] at hx
  obtain ⟨-, hd⟩ := List.append_inj' hx rfl
  exact ⟨y, d, rfl, by rwa [(List.cons.inj hd).1]⟩

private theorem splitBlankNote_append (p y : Text) (hp : p = [] ∨ EndsPlain p)
    (hfree : ∀ x c z, p = x ++ c :: z → isBlank c → ¬ noteMark <+: z) :
    splitBlankNote (p ++ ' ' :: '-' :: '-' :: y) = (p, some y) := by
  induction p with
  | nil =>
    have hdrop : ('-' :: '-' :: y).dropWhile isBlank = noteMark ++ y :=
      List.dropWhile_cons_of_neg (by simp)
    simp [splitBlankNote, hdrop]
  | cons c p ih =>
    have hends : EndsPlain (c :: p) := hp.resolve_left (by simp)
    have hnone : (if isBlank c then noteMark.isPrefixOf?
        ((p ++ ' ' :: '-' :: '-' :: y).dropWhile isBlank) else none) = none := by
      split
      · next hc =>
        rw [isPrefixOf?_eq_none_iff]
        intro hm
        -- behind the blank at the head there is a first character that is no blank
        obtain ⟨blanks, hblanks, hstart⟩ := exists_trimStart p
        have hne : trimStart p ≠ [] := by
          intro hnil
          obtain ⟨x, d, hx, hd⟩ := hends
          have hmem : d ∈ c :: p := by simp [hx]
          rw [hstart, hnil, List.append_nil] at hmem
          rcases List.mem_cons.mp hmem with rfl | hmem
          · exact absurd hc (by simp [hd])
          · exact absurd (hblanks d hmem) (by simp [hd])
        have hdrop : (p ++ ' ' :: '-' :: '-' :: y).dropWhile isBlank =
            trimStart p ++ ' ' :: '-' :: '-' :: y := by
          obtain ⟨d, r, hr⟩ := List.exists_cons_of_ne_nil hne
          have hd := isBlank_of_trimStart hr
          conv_lhs => rw [hstart, List.append_assoc, List.dropWhile_append_of_pos hblanks, hr]
          rw [hr]
          exact List.dropWhile_cons_of_neg (by simp [hd])
        rw [hdrop] at hm
        exact not_noteMark_trimStart hc hfree (isPrefix_of_append_cons (by decide) hm)
      · rfl
    have htail : p = [] ∨ EndsPlain p := by
      by_cases hnil : p = []
      · exact .inl hnil
      · exact .inr (EndsPlain.of_append (a := [c]) hends hnil)
    have hrec := ih htail fun x d z h hd => hfree (c :: x) d z (by simp [h]) hd
    rw [List.cons_append, splitBlankNote, hnone, hrec]

/-- A blank and a note mark behind a part free of note marks end that part. -/
theorem splitNote_append {p : Text} (hp : p = [] ∨ EndsPlain p) (hfree : NoteFree p) (y : Text) :
    splitNote (p ++ ' ' :: '-' :: '-' :: y) = (p, some y) := by
  have hnone : noteMark.isPrefixOf? (p ++ ' ' :: '-' :: '-' :: y) = none := by
    rw [isPrefixOf?_eq_none_iff]
    exact fun hm => hfree.start (isPrefix_of_append_cons (by decide) hm)
  rw [splitNote, hnone]
  exact splitBlankNote_append p y hp hfree.behind

/-! ## Reading and writing the parts -/

def listedCodes (kind : DirectiveKind) (codePart : Text) : List Text :=
  if (commaItems codePart).isEmpty && kind = .ignore then [wildcard] else commaItems codePart

theorem firstLine_append {a : Text} (h : '\n' ∉ a) (b : Text) :
    firstLine (a ++ b) = a ++ firstLine b := by
  have hall : ∀ c ∈ a, (c != '\n') = true := by
    intro c hc
    simpa using fun e : c = '\n' => h (e ▸ hc)
  simp only [firstLine, List.takeWhile_append_of_pos hall]

theorem firstLine_eq_self {t : Text} (h : '\n' ∉ t) : firstLine t = t := by
  simpa [firstLine] using firstLine_append h []

theorem firstLine_append_lineFeed {a : Text} (h : '\n' ∉ a) (b : Text) :
    firstLine (a ++ '\n' :: b) = a := by
  rw [firstLine_append h]
  exact List.append_nil a

theorem lineFeed_not_mem_firstLine (t : Text) : '\n' ∉ firstLine t := by
  intro h
  simpa using List.mem_takeWhile_imp h

/-- Blanks at the end of a text do not show in its trimmed first line. -/
theorem trim_firstLine_trimEnd (t : Text) : trim (firstLine (trimEnd t)) = trim (firstLine t) := by
  obtain ⟨blanks, hblanks, ht⟩ := exists_trimEnd t
  conv_rhs => rw [ht]
  by_cases hlf : '\n' ∈ trimEnd t
  · obtain ⟨x, y, hxy, hx⟩ := List.eq_append_cons_of_mem hlf
    rw [hxy, List.append_assoc, firstLine_append hx, firstLine_append hx]
    rfl
  · have hrest : AllBlank (firstLine blanks) := fun c hc =>
      hblanks c ((List.takeWhile_prefix _).subset hc)
    rw [firstLine_append hlf, firstLine_eq_self hlf, trim_append_right _ hrest]

/-- A gap of blanks and the part with the codes behind a keyword. -/
structure IsCodePart (gap codePart : Text) : Prop where
  gap_blank : AllBlank gap
  gap_oneLine : '\n' ∉ gap
  oneLine : '\n' ∉ codePart
  noteFree : NoteFree codePart
  head : ∀ c y, codePart = c :: y → isBlank c = false
  gap_ne_nil : codePart = [] ∨ gap ≠ []

theorem IsCodePart.of_isPrefix {gap codePart p : Text} (h : IsCodePart gap codePart)
    (hp : p <+: codePart) : IsCodePart gap p where
  gap_blank := h.gap_blank
  gap_oneLine := h.gap_oneLine
  oneLine := fun hm => h.oneLine (hp.subset hm)
  noteFree := h.noteFree.of_isPrefix hp
  head := by
    rintro c y rfl
    obtain ⟨r, rfl⟩ := hp
    exact h.head c (y ++ r) rfl
  gap_ne_nil := by
    rcases h.gap_ne_nil with rfl | hgap
    · exact .inl (List.prefix_nil.mp hp)
    · exact .inr hgap

theorem IsCodePart.of_gap_isPrefix {gap codePart q : Text} (h : IsCodePart gap codePart)
    (hq : q <+: gap) : IsCodePart q [] where
  gap_blank := fun c hc => h.gap_blank c (hq.subset hc)
  gap_oneLine := fun hm => h.gap_oneLine (hq.subset hm)
  oneLine := by simp
  noteFree := noteFree_nil
  head := by simp
  gap_ne_nil := .inl rfl

/-- A body that is read as a directive is a keyword, a gap, the part with the codes, and a rest. -/
theorem exists_codePart_of_read? {body : Text} {d : WrittenDirective} (h : read? body = some d) :
    d.kind ∈ keywordKinds ∧ ∃ gap codePart rest,
      body = d.kind.keyword ++ (gap ++ (codePart ++ rest)) ∧ IsCodePart gap codePart ∧
      d.codes = listedCodes d.kind codePart := by
  obtain ⟨⟨kind, rest⟩, hsplit, rfl⟩ := Option.map_eq_some_iff.mp h
  obtain ⟨hkind, rfl, hends⟩ := splitKeyword?_eq_some_iff.mp hsplit
  obtain ⟨left, right, hleft, -, hline⟩ := eq_append_trim (firstLine rest)
  obtain ⟨more, hcode⟩ := splitNote_isPrefix (trim (firstLine rest))
  have hlf := lineFeed_not_mem_firstLine rest
  rw [hline, ← hcode] at hlf
  simp only [List.mem_append, not_or] at hlf
  have hrest : rest = left ++ ((splitNote (trim (firstLine rest))).1 ++
      (more ++ (right ++ rest.dropWhile (· != '\n')))) := by
    calc rest = firstLine rest ++ rest.dropWhile (· != '\n') :=
          List.takeWhile_append_dropWhile.symm
      _ = left ++ trim (firstLine rest) ++ right ++ rest.dropWhile (· != '\n') := by rw [← hline]
      _ = _ := by conv_lhs => rw [← hcode]; simp only [List.append_assoc]
  refine ⟨hkind, left, (splitNote (trim (firstLine rest))).1, _, congrArg _ hrest, ?_, rfl⟩
  exact
    { gap_blank := hleft
      gap_oneLine := hlf.1.1
      oneLine := hlf.1.2.1
      noteFree := noteFree_splitNote _
      head := by
        intro c y hc
        rw [hc] at hcode
        exact isBlank_head_of_trim hcode.symm
      gap_ne_nil := by
        rw [or_iff_not_imp_right, not_not]
        rintro rfl
        cases hc : (splitNote (trim (firstLine rest))).1 with
        | nil => rfl
        | cons c y =>
          -- without a gap the keyword would run into the codes
          rw [hc] at hrest hcode
          have hblank := isBlank_head_of_trim hcode.symm
          rw [hrest] at hends
          simp [endsKeyword, hblank] at hends }

/-- Codes that a blank and a note mark follow are read back, whatever the note is. -/
theorem read?_of_codePart {kind : DirectiveKind} (hkind : kind ∈ keywordKinds) {gap p : Text}
    (h : IsCodePart gap p) (hp : p = [] ∨ EndsPlain p) (y : Text) :
    read? (kind.keyword ++ (gap ++ (p ++ ' ' :: '-' :: '-' :: y))) =
      some ⟨kind, listedCodes kind p, some (trim (firstLine y))⟩ := by
  have hends : endsKeyword (gap ++ (p ++ ' ' :: '-' :: '-' :: y)) := by
    cases gap with
    | nil =>
      obtain rfl : p = [] := h.gap_ne_nil.resolve_right (by simp)
      simp [endsKeyword]
    | cons c gap => simpa [endsKeyword] using h.gap_blank c (by simp)
  have hsplit := splitKeyword?_eq_some_iff.mpr ⟨hkind, rfl, hends⟩
  have hfirst : firstLine (gap ++ (p ++ ' ' :: '-' :: '-' :: y)) =
      gap ++ (p ++ ' ' :: '-' :: '-' :: firstLine y) := by
    rw [firstLine_append h.gap_oneLine, firstLine_append h.oneLine]
    rfl
  have hnote : splitNote (trim (gap ++ (p ++ ' ' :: '-' :: '-' :: firstLine y))) =
      (p, some (trimEnd (firstLine y))) := by
    rw [trim_append_left h.gap_blank]
    cases hcons : p with
    | nil =>
      have htrim : trim (' ' :: '-' :: '-' :: firstLine y) =
          noteMark ++ trimEnd (firstLine y) := by
        rw [show ' ' :: '-' :: '-' :: firstLine y = [' '] ++ '-' :: '-' :: firstLine y from rfl,
          trim_append_left (by simp [AllBlank]), trim_eq_trimEnd (by simp)]
        exact trimEnd_append_cons ['-'] (by simp) _
      rw [List.nil_append, htrim, splitNote, isPrefixOf?_append_self]
    | cons c x =>
      have hc := h.head c x hcons
      have htrim : trim (p ++ ' ' :: '-' :: '-' :: firstLine y) =
          p ++ ' ' :: '-' :: '-' :: trimEnd (firstLine y) := by
        rw [hcons, List.cons_append, trim_eq_trimEnd hc]
        have := trimEnd_append_cons (c :: x ++ [' ', '-']) isBlank_hyphen (firstLine y)
        simpa using this
      rw [← hcons, htrim, splitNote_append hp h.noteFree]
  simp only [read?, hsplit, Option.map_some, hfirst, hnote, listedCodes, trim_trimEnd]

/-! ## Comments that hold a directive -/

variable {docComments : Bool} {form : CommentForm} {mark lead : Text}

theorem exists_layout_of_read? {t : Text} {d : WrittenDirective}
    (hform : CommentForm.ofText docComments t = form) (hdoc : form ≠ .doc)
    (hread : read? (body form t) = some d) :
    d.kind ∈ keywordKinds ∧ ∃ mark lead gap codePart rest,
      t = mark ++ (lead ++ (d.kind.keyword ++ (gap ++ (codePart ++ rest)))) ∧
      OpenMark docComments form mark ∧ AllBlank lead ∧ IsCodePart gap codePart ∧
      d.codes = listedCodes d.kind codePart ∧
      d.kind.keyword ++ (gap ++ codePart) <+:
        ending form (d.kind.keyword ++ (gap ++ (codePart ++ rest))) := by
  obtain ⟨hkind, gap, codePart, rest, hbody, hpart, hcodes⟩ := exists_codePart_of_read? hread
  obtain ⟨tail, htail⟩ := keyword_head d.kind
  have hbody' : body form t = 'l' :: (tail ++ (gap ++ (codePart ++ rest))) := by
    rw [hbody, htail]
    rfl
  obtain ⟨mark, lead, z, ht, hmark, hlead⟩ := exists_openMark hform hdoc hbody' isPlain_l
  have hending := hmark.body hlead isPlain_l z
  rw [← ht, hbody] at hending
  obtain ⟨post, hpost⟩ := ending_isPrefix form ('l' :: z)
  have hz : 'l' :: z = d.kind.keyword ++ (gap ++ (codePart ++ (rest ++ post))) := by
    rw [← hpost, ← hending]
    simp only [List.append_assoc]
  refine ⟨hkind, mark, lead, gap, codePart, rest ++ post, ?_, hmark, hlead, hpart, hcodes, ?_⟩
  · rw [ht, hz]
  · rw [← hz, ← hending]
    exact ⟨rest, by simp only [List.append_assoc]⟩

/-- A comment laid out as a directive is one, and its codes end at the note mark. -/
theorem read?_of_layout (hmark : OpenMark docComments form mark) (hlead : AllBlank lead)
    {kind : DirectiveKind} (hkind : kind ∈ keywordKinds) {gap p : Text} (h : IsCodePart gap p)
    (hp : p = [] ∨ EndsPlain p) (y : Text) :
    CommentForm.ofText docComments
        (mark ++ (lead ++ (kind.keyword ++ (gap ++ (p ++ ' ' :: '-' :: '-' :: y))))) = form ∧
      read? (body form
          (mark ++ (lead ++ (kind.keyword ++ (gap ++ (p ++ ' ' :: '-' :: '-' :: y)))))) =
        some ⟨kind, listedCodes kind p, some (trim (firstLine (ending form y)))⟩ := by
  obtain ⟨tail, htail⟩ := keyword_head kind
  rw [htail, List.cons_append]
  refine ⟨hmark.ofText hlead isPlain_l _, ?_⟩
  rw [hmark.body hlead isPlain_l]
  have hending : ending form ('l' :: (tail ++ (gap ++ (p ++ ' ' :: '-' :: '-' :: y)))) =
      kind.keyword ++ (gap ++ (p ++ ' ' :: '-' :: '-' :: ending form y)) := by
    have := ending_append_cons form (kind.keyword ++ (gap ++ (p ++ [' ', '-']))) isPlain_hyphen y
    simpa [htail] using this
  rw [hending]
  exact read?_of_codePart hkind h hp _

/-- A comment whose body starts with a note mark is no directive. -/
theorem read?_of_noteMark (hmark : OpenMark docComments form mark) (hlead : AllBlank lead)
    (y : Text) :
    CommentForm.ofText docComments (mark ++ (lead ++ '-' :: '-' :: y)) = form ∧
      noteMark <+: body form (mark ++ (lead ++ '-' :: '-' :: y)) ∧
      read? (body form (mark ++ (lead ++ '-' :: '-' :: y))) = none := by
  have hbody : body form (mark ++ (lead ++ '-' :: '-' :: y)) = '-' :: '-' :: ending form y := by
    rw [hmark.body hlead isPlain_hyphen]
    exact ending_append_cons form ['-'] isPlain_hyphen y
  refine ⟨hmark.ofText hlead isPlain_hyphen _, ⟨ending form y, hbody.symm⟩, ?_⟩
  rw [hbody, read?, Option.map_eq_none_iff, Option.eq_none_iff_forall_not_mem]
  rintro ⟨kind, rest⟩ hsome
  obtain ⟨tail, htail⟩ := keyword_head kind
  have hkeyword := (splitKeyword?_eq_some_iff.mp hsome).2.1
  rw [htail] at hkeyword
  exact absurd (List.cons.inj hkeyword).1 (by decide)

end DirectiveGrammar

end LintDirectives
