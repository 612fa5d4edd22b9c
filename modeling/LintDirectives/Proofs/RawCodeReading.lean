import LintDirectives.Proofs.CommentContainment

/-!
# Codes taken from the raw text of an `enable`

An `enable` that comes without codes gets them from the raw text of its comment. There only one star
is dropped with the closing slash, in comments of either form, while the body of a comment has lost
all the stars of a block comment and nothing at the end of a line comment. So the two lists of codes
are the same unless the codes run into such an ending.
-/

namespace LintDirectives

open Text CommentText DirectiveGrammar

/-! ## Codes before the note -/

/-- The first note mark of a line, if there is one, stands at its start or behind a blank. -/
def NoteApart (line : Text) : Prop :=
  ∀ before after, cut? noteMark line = some (before, after) →
    before = [] ∨ ∃ x c, before = x ++ [c] ∧ isBlank c

/-- If a blank precedes the first note mark, only blanks separate it from the codes. -/
theorem exists_gap_of_cut? {t before after x : Text} {c : Char}
    (h : cut? noteMark t = some (before, after)) (hbefore : before = x ++ [c]) (hc : isBlank c) :
    ∃ gap, AllBlank gap ∧ before = (splitBlankNote t).1 ++ gap := by
  induction t generalizing before x with
  | nil => simp [cut?, noteMark] at h
  | cons d rest ih =>
    rw [cut?] at h
    split at h
    · obtain ⟨rfl, -⟩ := Prod.mk.inj (Option.some.inj h)
      simp at hbefore
    · obtain ⟨⟨b, a⟩, hcut, heq⟩ := Option.map_eq_some_iff.mp h
      obtain ⟨rfl, rfl⟩ := Prod.mk.inj heq
      rw [splitBlankNote]
      split
      · next note hnote =>
        -- the note mark that ends the codes here is the first one
        obtain ⟨hd, hnote⟩ : isBlank d ∧ rest.dropWhile isBlank = noteMark ++ note := by
          split at hnote
          · exact ⟨‹_›, isPrefixOf?_eq_some_iff.mp hnote⟩
          · simp at hnote
        obtain ⟨blanks, hblanks, hrest⟩ := exists_trimStart rest
        rw [trimStart, hnote, ← List.append_assoc] at hrest
        have hlen := length_le_of_cut? hcut (x := blanks) ⟨note, hrest.symm⟩
        have hbefore : b <+: rest :=
          ⟨noteMark ++ a, by rw [eq_append_of_cut? hcut, List.append_assoc]⟩
        have hlead : blanks <+: rest := ⟨noteMark ++ note, by rw [hrest, List.append_assoc]⟩
        have hb : b <+: blanks := List.prefix_of_prefix_length_le hbefore hlead hlen
        refine ⟨d :: b, ?_, rfl⟩
        intro e he
        rcases List.mem_cons.mp he with rfl | he
        · exact hd
        · exact hblanks e (hb.subset he)
      · next hnone =>
        cases x with
        | nil =>
          obtain ⟨rfl, rfl⟩ := List.cons.inj hbefore
          have hstop : (noteMark ++ a).dropWhile isBlank = noteMark ++ a :=
            List.dropWhile_cons_of_neg (by simp)
          rw [if_pos hc, eq_append_of_cut? hcut, List.nil_append, hstop,
            isPrefixOf?_append_self] at hnone
          simp at hnone
        | cons e x =>
          obtain ⟨gap, hgap, hb⟩ := ih hcut (List.cons.inj hbefore).2
          exact ⟨gap, hgap, by rw [hb]; rfl⟩

/-- A note mark at the start or behind a blank ends the codes for both ways of reading. -/
theorem commaItems_splitNote {line : Text} (h : NoteApart line) :
    commaItems (splitNote line).1 = commaItems (RawCodes.beforeNote line) := by
  rw [RawCodes.beforeNote]
  cases hcut : cut? noteMark line with
  | none =>
    have hnone : ¬ noteMark <:+: line := by
      rw [← occursIn_iff, occursIn, hcut]
      simp
    rw [splitNote_eq_self (noteFree_of_not_occurs hnone)]
  | some pair =>
    obtain ⟨before, after⟩ := pair
    have hline := eq_append_of_cut? hcut
    rcases h before after hcut with rfl | ⟨x, c, rfl, hc⟩
    · rw [List.nil_append] at hline
      rw [splitNote, hline, isPrefixOf?_append_self]
    · have hp : noteMark.isPrefixOf? line = none := by
        rw [isPrefixOf?_eq_none_iff]
        intro hp
        have hlen := length_le_of_cut? hcut (x := []) hp
        simp at hlen
      obtain ⟨gap, hgap, hbefore⟩ := exists_gap_of_cut? hcut rfl hc
      rw [splitNote, hp, hbefore, commaItems_append_blanks _ hgap]

namespace RawCodes

/-! ## Codes behind the keyword -/

/-- The codes that the raw text names behind its keyword. -/
def lineCodes (u : Text) : List Text :=
  commaItems (beforeNote (trim (firstLine u)))

theorem lineCodes_trimEnd (u : Text) : lineCodes (trimEnd u) = lineCodes u := by
  rw [lineCodes, trim_firstLine_trimEnd, lineCodes]

theorem lineCodes_dropWhile (u : Text) :
    lineCodes (u.dropWhile fun c => c == ' ' || c == '\t') = lineCodes u := by
  obtain ⟨blanks, hblanks, hu⟩ : ∃ blanks : Text, (∀ c ∈ blanks, c = ' ' ∨ c = '\t') ∧
      u = blanks ++ u.dropWhile fun c => c == ' ' || c == '\t' :=
    ⟨_, fun c hc => by simpa using List.mem_takeWhile_imp hc,
      List.takeWhile_append_dropWhile.symm⟩
  have hlf : '\n' ∉ blanks := fun hm => by simpa using hblanks '\n' hm
  have hall : AllBlank blanks := fun c hc => by rcases hblanks c hc with rfl | rfl <;> simp
  conv_rhs => rw [hu, lineCodes, firstLine_append hlf, trim_append_left hall]
  rfl

theorem beforeNote_of_isPrefix {s t : Text} (h : s <+: t) (hm : noteMark <:+: s) :
    beforeNote t = beforeNote s := by
  obtain ⟨more, rfl⟩ := h
  obtain ⟨⟨before, after⟩, hcut⟩ := Option.isSome_iff_exists.mp (cut?_isSome_of_isInfix hm)
  simp only [beforeNote, hcut, cut?_append_right hcut more]

theorem beforeNote_of_not_occurs {t : Text} (h : ¬ noteMark <:+: t) : beforeNote t = t := by
  have hnone : cut? noteMark t = none := by
    rwa [← Option.not_isSome_iff_eq_none, ← occursIn, occursIn_iff]
  simp only [beforeNote, hnone]

/-- The stars and the slash of a closing delimiter. -/
def IsClose (tail : Text) : Prop := tail ≠ [] ∧ ∀ c ∈ tail, c = '*' ∨ c = '/'

theorem IsClose.noteMark_infix_iff {tail : Text} (h : IsClose tail) {v : Text} :
    noteMark <:+: v ++ tail ↔ noteMark <:+: v := by
  obtain ⟨c, rest, rfl⟩ := List.exists_cons_of_ne_nil h.1
  have hhyphen : '-' ∉ c :: rest := fun hm => by simpa using h.2 '-' hm
  have hc : c ∉ noteMark := fun hm => by simp_all [noteMark]
  rw [infix_append_cons_iff hc, or_iff_left]
  intro hin
  exact hhyphen (List.mem_cons_of_mem c (hin.subset (by simp [noteMark])))

/-- A closing delimiter behind the codes is taken for a part of them, unless a line feed or a note
mark stands before it. -/
theorem lineCodes_append_close_iff {tail : Text} (h : IsClose tail) (v : Text) :
    lineCodes (v ++ tail) = lineCodes v ↔ '\n' ∈ v ∨ noteMark <:+: v := by
  by_cases hlf : '\n' ∈ v
  · obtain ⟨x, y, rfl, hx⟩ := List.eq_append_cons_of_mem hlf
    simp [lineCodes, firstLine_append_lineFeed hx]
  have htail : '\n' ∉ v ++ tail := by
    intro hm
    rcases List.mem_append.mp hm with hm | hm
    · exact hlf hm
    · simpa using h.2 _ hm
  rw [lineCodes, lineCodes, firstLine_eq_self hlf, firstLine_eq_self htail]
  by_cases hnote : noteMark <:+: v
  · have hprefix : trim v <+: trim (v ++ tail) := trim_isPrefix_trim (List.prefix_append v tail)
    have hin : noteMark <:+: trim v := plainEnds_noteMark.infix_trim hnote
    simp [beforeNote_of_isPrefix hprefix hin, hnote]
  · have hnone : ¬ noteMark <:+: v ++ tail := fun hin => hnote (h.noteMark_infix_iff.mp hin)
    rw [beforeNote_of_not_occurs fun hin => hnone (hin.trans (trim_isInfix _)),
      beforeNote_of_not_occurs fun hin => hnote (hin.trans (trim_isInfix _))]
    refine iff_of_false ?_ (by simp [hlf, hnote])
    intro heq
    -- the characters of the delimiter are neither blanks nor commas, so they show in the codes
    have hcount := congrArg (fun items => items.flatten.filter fun c => c == '*' || c == '/') heq
    have hblank (c : Char) (hc : isBlank c) : (c == '*' || c == '/') = false := by
      rw [Bool.or_eq_false_iff, beq_eq_false_iff_ne, beq_eq_false_iff_ne]
      constructor <;> rintro rfl <;> simp at hc
    simp only [filter_flatten_commaItems hblank (by decide), filter_trim hblank] at hcount
    rw [List.filter_append, List.append_right_eq_self, List.filter_eq_nil_iff] at hcount
    obtain ⟨c, rest, rfl⟩ := List.exists_cons_of_ne_nil h.1
    exact hcount c (by simp) (by simpa using h.2 c (by simp))

/-! ## The keyword and the delimiters -/

theorem isKeywordChar_of_isBlank {c : Char} (hc : isBlank c) : isKeywordChar c = false := by
  have hall : ∀ n ∈ List.range' 9 5 ++ List.range' 28 5 ++ [0x85, 0xA0, 0x1680] ++
      List.range' 0x2000 11 ++ [0x2028, 0x2029, 0x202F, 0x205F, 0x3000],
      isKeywordChar (Char.ofNat n) = false := by decide +kernel
  unfold isBlank at hc
  simp only [Bool.or_eq_true, Bool.and_eq_true, decide_eq_true_eq, beq_iff_eq] at hc
  rw [← Char.ofNat_toNat c]
  apply hall
  simp only [List.mem_append, List.mem_range'_1, List.mem_cons, List.not_mem_nil, or_false]
  omega

theorem dropKeyword_append {u : Text} (h : ∀ c ∈ u.head?, isKeywordChar c = false) :
    dropKeyword (DirectiveKind.enable.keyword ++ u) =
      u.dropWhile fun c => c == ' ' || c == '\t' := by
  have hkeyword : DirectiveKind.enable.keyword = "lint:".toList ++ "enable".toList := by decide
  have hall : "enable".toList.all isKeywordChar = true := by decide +kernel
  have hname : ∀ c ∈ "enable".toList, isKeywordChar c := List.all_eq_true.mp hall
  have hstop : u.takeWhile isKeywordChar = [] ∧ u.dropWhile isKeywordChar = u := by
    cases u with
    | nil => exact ⟨rfl, rfl⟩
    | cons c u =>
      have hc := h c (by simp)
      exact ⟨List.takeWhile_cons_of_neg (by simp [hc]), List.dropWhile_cons_of_neg (by simp [hc])⟩
  rw [hkeyword, List.append_assoc, dropKeyword, isPrefixOf?_append_self]
  simp only [List.takeWhile_append_of_pos hname, List.dropWhile_append_of_pos hname, hstop]
  rfl

theorem dropClose_star_slash (r : Text) : dropClose (r ++ ['*', '/']) = trimEnd r := by
  simp [dropClose, trimEnd, dropEndWhile]

theorem dropClose_of_not_closed {t : Text} (h : ¬ ['*', '/'] <:+ t) : dropClose t = t := by
  unfold dropClose
  split
  · next rest hrev =>
    exact absurd ⟨rest.reverse, by rw [← List.reverse_reverse t, hrev]; simp⟩ h
  · rfl

/-- The opening mark and the blanks behind it are dropped from the raw text, with the blanks at its
end. -/
theorem dropOpen_trim {docComments : Bool} {form : CommentForm} {mark gap : Text}
    (hmark : OpenMark docComments form mark) (hne : mark ≠ []) (hgap : AllBlank gap) {c : Char}
    (hc : IsPlain c) (z : Text) :
    dropOpen (trim (mark ++ (gap ++ c :: z))) = trimEnd (c :: z) := by
  have hrest : trimEnd (c :: z) = c :: trimEnd z := trimEnd_append_cons [] hc.not_blank z
  have htrim : trim (mark ++ (gap ++ c :: z)) = mark ++ (gap ++ c :: trimEnd z) := by
    obtain ⟨d, tail, rfl⟩ := List.exists_cons_of_ne_nil hne
    have hend := trimEnd_append_cons (d :: tail ++ gap) hc.not_blank z
    rw [List.append_assoc, List.append_assoc] at hend
    rw [← hend]
    exact trim_eq_trimEnd (hmark.not_blank List.mem_cons_self) _
  have hgapped : trimStart (gap ++ c :: trimEnd z) = c :: trimEnd z := by
    rw [trimStart_append hgap, trimStart_cons hc.not_blank]
  rw [htrim, hrest]
  cases hmark with
  | bare => exact absurd rfl hne
  | hash => exact hgapped
  | slashes => exact hgapped
  | block stars h =>
    simp only [List.cons_append, dropOpen, dropWhile_replicate_gap stars hgap hc]
    exact hgapped

theorem ofComment_of_dropClose {t u : Text}
    (h : dropClose (dropOpen (trim t)) = DirectiveKind.enable.keyword ++ u)
    (hu : ∀ c ∈ u.head?, isKeywordChar c = false) : ofComment t = lineCodes u := by
  rw [← lineCodes_dropWhile, ← dropKeyword_append hu, ← h]
  rfl

/-! ## Endings that the two readings treat differently -/

/-- The end of a comment whose last characters only one of the two readings drops: the whole of it
in a line comment, and all but one star in a block comment. -/
def strayClose : CommentForm → Text
  | .line => ['*', '/']
  | _ => ['*', '*', '/']

/-- The text that is left of `s` in the raw text, next to its ending without the delimiter. They are
the same, or some stars and a slash behind `x` are left in one of them only. -/
def EndingsDiffer (form : CommentForm) (s x tail : Text) : Prop :=
  (dropClose (trimEnd s) = trimEnd x ∧ ending form s = x ++ tail) ∨
    (dropClose (trimEnd s) = x ++ tail ∧ ending form s = trimEnd x)

theorem endings_line (s : Text) :
    (dropClose (trimEnd s) = ending .line s ∧ ¬ strayClose .line <:+ trimEnd s) ∨
      ∃ x tail stars, IsClose tail ∧ (∀ c ∈ stars, c = '*') ∧
        trimEnd s = x ++ (stars ++ strayClose .line) ∧ EndingsDiffer .line s x tail := by
  by_cases hsuffix : ['*', '/'] <:+ trimEnd s
  · obtain ⟨r, hr⟩ := hsuffix
    refine .inr ⟨r, ['*', '/'], [], ⟨by simp, by simp⟩, by simp, hr.symm, .inl ⟨?_, hr.symm⟩⟩
    rw [← hr, dropClose_star_slash]
  · exact .inl ⟨dropClose_of_not_closed hsuffix, hsuffix⟩

theorem endings_block (r : Text) :
    (dropClose (trimEnd (r ++ ['*', '/'])) = ending .block (r ++ ['*', '/']) ∧
        ¬ strayClose .block <:+ trimEnd (r ++ ['*', '/'])) ∨
      ∃ x tail stars, IsClose tail ∧ (∀ c ∈ stars, c = '*') ∧
        trimEnd (r ++ ['*', '/']) = x ++ (stars ++ strayClose .block) ∧
        EndingsDiffer .block (r ++ ['*', '/']) x tail := by
  have hending : ending .block (r ++ ['*', '/']) = trimEnd (r.rdropWhile (· == '*')) := by
    rw [← dropBlockClose_star_slash]
    rfl
  have htrim : trimEnd (r ++ ['*', '/']) = r ++ ['*', '/'] := by
    simpa using trimEnd_append_cons (r ++ ['*']) isBlank_slash []
  have hr : r = r.rdropWhile (· == '*') ++ r.rtakeWhile (· == '*') :=
    List.rdropWhile_append_rtakeWhile.symm
  have hstars : ∀ c ∈ r.rtakeWhile (· == '*'), c = '*' := fun c hc => by
    simpa using List.mem_rtakeWhile_imp hc
  simp only [EndingsDiffer, hending, htrim, dropClose_star_slash]
  rcases List.eq_nil_or_concat' (r.rtakeWhile (· == '*')) with hnil | ⟨stars, d, hlast⟩
  · rw [hnil, List.append_nil] at hr
    refine .inl ⟨by rw [← hr], ?_⟩
    rintro ⟨w, hw⟩
    have hw : (w ++ ['*']) ++ ['*', '/'] = r ++ ['*', '/'] := by simpa [strayClose] using hw
    rw [List.append_cancel_right_eq] at hw
    rw [← hw, List.rtakeWhile_concat_pos _ _ _ (by simp)] at hnil
    simp at hnil
  · obtain rfl : d = '*' := hstars d (by simp [hlast])
    refine .inr ⟨r.rdropWhile (· == '*'), r.rtakeWhile (· == '*'), stars,
      ⟨by simp [hlast], fun c hc => .inl (hstars c hc)⟩,
      fun c hc => hstars c (by simp [hlast, hc]), ?_, .inr ⟨?_, rfl⟩⟩
    · conv_lhs => rw [hr, hlast]
      simp [strayClose]
    · conv_lhs => rw [hr, hlast, ← List.append_assoc, trimEnd_append_cons _ isBlank_star]
      rw [hlast, trimEnd_nil, List.append_assoc]

/-- No part of a closing delimiter belongs to a keyword. -/
theorem exists_behind_keyword_of_close {kind : DirectiveKind} {x tail rest : Text}
    (htail : IsClose tail) (h : x ++ tail = kind.keyword ++ rest) :
    ∃ v, x = kind.keyword ++ v ∧ rest = v ++ tail := by
  rcases List.append_eq_append_iff.mp h with ⟨w, hkeyword, hw⟩ | ⟨v, hx, hrest⟩
  · have hnone : ∀ c ∈ w, False := by
      intro c hc
      have hmem : c ∈ kind.keyword := by simp [hkeyword, hc]
      rcases htail.2 c (by simp [hw, hc]) with rfl | rfl
      · revert hmem
        cases kind <;> decide
      · revert hmem
        cases kind <;> decide
    obtain rfl : w = [] := List.eq_nil_iff_forall_not_mem.mpr hnone
    exact ⟨[], by simp [hkeyword], by simpa using hw.symm⟩
  · exact ⟨v, hx, hrest⟩

/-- The codes behind the keyword of an `enable` run into an ending that only one of the two readings
drops. -/
def RunsIntoClose (form : CommentForm) (t : Text) : Prop :=
  ∃ lead codes, cut? DirectiveKind.enable.keyword (trimEnd t) =
      some (lead, codes ++ strayClose form) ∧ '\n' ∉ codes ∧ ¬ noteMark <:+: codes

/-- Where the endings differ, they do so behind the keyword and at most a blank. -/
theorem EndingsDiffer.exists_behind_keyword {form : CommentForm} {s x tail rest : Text}
    (h : EndingsDiffer form s x tail) (htail : IsClose tail)
    (hending : ending form s = DirectiveKind.enable.keyword ++ rest) (hends : endsKeyword rest) :
    ∃ v, x = DirectiveKind.enable.keyword ++ v ∧ (∀ c ∈ v.head?, isBlank c) ∧
      ((dropClose (trimEnd s) = DirectiveKind.enable.keyword ++ trimEnd v ∧ rest = v ++ tail) ∨
        (dropClose (trimEnd s) = DirectiveKind.enable.keyword ++ (v ++ tail) ∧
          rest = trimEnd v)) := by
  rcases h with ⟨hraw, hread⟩ | ⟨hraw, hread⟩
  · obtain ⟨v, rfl, rfl⟩ := exists_behind_keyword_of_close htail (hread.symm.trans hending)
    refine ⟨v, rfl, ?_, .inl ⟨by rw [hraw, trimEnd_keyword_append], rfl⟩⟩
    intro c hc
    obtain ⟨y, rfl⟩ := List.head?_eq_some_iff.mp hc
    exact hends
  · obtain ⟨blanks, hblanks, hx⟩ := exists_trimEnd x
    rw [← hread, hending, List.append_assoc] at hx
    have hrest : rest = trimEnd (rest ++ blanks) := by
      rw [hx, hending, trimEnd_keyword_append] at hread
      exact List.append_cancel_left hread
    refine ⟨rest ++ blanks, hx, ?_, .inr ⟨by rw [hraw, hx, List.append_assoc], hrest⟩⟩
    intro c hc
    cases rest with
    | nil => exact hblanks c (List.mem_of_mem_head? hc)
    | cons d rest =>
      obtain rfl : d = c := by simpa using hc
      exact hends

theorem runsIntoClose_iff {form : CommentForm} {t lead v stars : Text} (hlead : 'l' ∉ lead)
    (hstars : ∀ c ∈ stars, c = '*') (ht : trimEnd t =
      lead ++ (DirectiveKind.enable.keyword ++ (v ++ (stars ++ strayClose form)))) :
    RunsIntoClose form t ↔ '\n' ∉ v ∧ ¬ noteMark <:+: v := by
  obtain ⟨tail, htail⟩ := keyword_head .enable
  have hcut : cut? DirectiveKind.enable.keyword (trimEnd t) =
      some (lead, v ++ stars ++ strayClose form) := by
    rw [ht, ← List.append_assoc, cut?_append_left htail hlead, List.append_assoc]
  have hlf : '\n' ∈ v ++ stars ↔ '\n' ∈ v := by
    rw [List.mem_append, or_iff_left]
    intro hm
    simpa using hstars _ hm
  have hnote : noteMark <:+: v ++ stars ↔ noteMark <:+: v := by
    by_cases hnil : stars = []
    · simp [hnil]
    · exact IsClose.noteMark_infix_iff ⟨hnil, fun c hc => .inl (hstars c hc)⟩
  rw [← hlf, ← hnote]
  constructor
  · rintro ⟨lead', codes, hcut', hcodes⟩
    rw [hcut] at hcut'
    obtain ⟨-, hsame⟩ := Prod.mk.inj (Option.some.inj hcut')
    rwa [List.append_cancel_right hsame]
  · exact fun hcodes => ⟨lead, v ++ stars, hcut, hcodes⟩

/-- The raw text names the codes of the line behind the keyword, unless they run into an ending. -/
theorem ofComment_eq_lineCodes_iff {docComments : Bool} {form : CommentForm}
    {mark gap z rest : Text} (hmark : OpenMark docComments form mark) (hne : mark ≠ [])
    (hgap : AllBlank gap) (hclose : form = .line ∨ form = .block ∧ ['*', '/'] <:+ 'l' :: z)
    (hending : ending form ('l' :: z) = DirectiveKind.enable.keyword ++ rest)
    (hends : endsKeyword rest) :
    ofComment (mark ++ (gap ++ 'l' :: z)) = lineCodes rest ↔
      ¬ RunsIntoClose form (mark ++ (gap ++ 'l' :: z)) := by
  have hopen := dropOpen_trim hmark hne hgap isPlain_l z
  have hl : trimEnd ('l' :: z) = 'l' :: trimEnd z := trimEnd_append_cons [] isPlain_l.not_blank z
  have ht : trimEnd (mark ++ (gap ++ 'l' :: z)) = (mark ++ gap) ++ trimEnd ('l' :: z) := by
    rw [hl, ← List.append_assoc, trimEnd_append_cons _ isPlain_l.not_blank]
  have hlead : 'l' ∉ mark ++ gap := by
    intro hm
    rcases List.mem_append.mp hm with hm | hm
    · simpa using hmark.mem hm
    · simpa using hgap _ hm
  have hblank {u : Text} (hu : ∀ c ∈ u.head?, isBlank c) :
      ∀ c ∈ u.head?, isKeywordChar c = false := fun c hc => isKeywordChar_of_isBlank (hu c hc)
  have hcases : (dropClose (trimEnd ('l' :: z)) = ending form ('l' :: z) ∧
        ¬ strayClose form <:+ trimEnd ('l' :: z)) ∨
      ∃ x tail stars, IsClose tail ∧ (∀ c ∈ stars, c = '*') ∧
        trimEnd ('l' :: z) = x ++ (stars ++ strayClose form) ∧
        EndingsDiffer form ('l' :: z) x tail := by
    rcases hclose with rfl | ⟨rfl, r, hr⟩
    · exact endings_line _
    · rw [← hr]
      exact endings_block r
  rcases hcases with ⟨hsame, hstray⟩ | ⟨x, tail, stars, htail, hstars, hs, hdiffer⟩
  · have hraw : ofComment (mark ++ (gap ++ 'l' :: z)) = lineCodes rest := by
      refine ofComment_of_dropClose (by rw [hopen, hsame, hending]) (hblank ?_)
      intro c hc
      obtain ⟨y, rfl⟩ := List.head?_eq_some_iff.mp hc
      exact hends
    refine iff_of_true hraw ?_
    rintro ⟨lead, codes, hcut, -⟩
    have hsuffix : strayClose form <:+ (mark ++ gap) ++ 'l' :: trimEnd z := by
      rw [← hl, ← ht, eq_append_of_cut? hcut, ← List.append_assoc]
      exact List.suffix_append _ _
    have hl' : 'l' ∉ strayClose form := by cases form <;> decide
    rw [hl] at hstray
    exact hstray ((suffix_of_suffix_append_cons hl' hsuffix).trans (List.suffix_cons _ _))
  · obtain ⟨v, rfl, hv, hread⟩ := hdiffer.exists_behind_keyword htail hending hends
    rw [List.append_assoc] at hs
    rw [runsIntoClose_iff hlead hstars (ht.trans (congrArg _ hs)), ← not_or, not_not,
      ← lineCodes_append_close_iff htail]
    rcases hread with ⟨hraw, rfl⟩ | ⟨hraw, rfl⟩
    · have hhead : ∀ c ∈ (trimEnd v).head?, isKeywordChar c = false := by
        refine hblank fun c hc => hv c ?_
        obtain ⟨y, hy⟩ := List.head?_eq_some_iff.mp hc
        obtain ⟨more, hmore⟩ := trimEnd_isPrefix v
        rw [← hmore, hy]
        rfl
      rw [ofComment_of_dropClose (by rw [hopen, hraw]) hhead, lineCodes_trimEnd, eq_comm]
    · have hhead : ∀ c ∈ (v ++ tail).head?, isKeywordChar c = false := by
        cases v with
        | nil =>
          intro c hc
          rcases htail.2 c (List.mem_of_mem_head? hc) with rfl | rfl <;> decide
        | cons d v => exact hblank hv
      rw [ofComment_of_dropClose (by rw [hopen, hraw]) hhead, lineCodes_trimEnd]

end RawCodes

/-! ## Both readings of a comment -/

/-- The trimmed line behind the keyword of a body, with the codes and the note. -/
def codeLine (body : Text) : Text :=
  match splitKeyword? body with
  | some (_, rest) => trim (firstLine rest)
  | none => []

/-- A comment that opens and closes properly has an opening mark, and a block comment ends in its
closing delimiter behind the keyword. -/
theorem openMark_of_isComment {docComments : Bool} {form : CommentForm} {mark gap z : Text}
    (hcomment : (∃ opener, IsLineComment opener (mark ++ (gap ++ 'l' :: z))) ∨
      IsBlockComment (mark ++ (gap ++ 'l' :: z)))
    (hmark : OpenMark docComments form mark) (hgap : AllBlank gap) :
    mark ≠ [] ∧ (form = .line ∨ form = .block ∧ ['*', '/'] <:+ 'l' :: z) := by
  rcases hcomment with ⟨opener, hline⟩ | hblock
  · have hopener := hmark.lineOpen_isPrefix hgap isPlain_l hline.isOpener hline.opens
    cases hmark with
    | bare => rcases hline.isOpener with rfl | rfl <;> simp at hopener
    | hash => exact ⟨by simp, .inl rfl⟩
    | slashes => exact ⟨by simp, .inl rfl⟩
    | block stars h => rcases hline.isOpener with rfl | rfl <;> simp at hopener
  · have hform := hmark.ofText hgap isPlain_l z
    have hclose : ['*', '/'] <:+ (mark ++ gap) ++ 'l' :: z := by
      rw [List.append_assoc]
      exact hblock.closes
    have hend := (suffix_of_suffix_append_cons (by decide) hclose).trans (List.suffix_cons 'l' z)
    cases hmark with
    | block stars h => exact ⟨by simp, .inr ⟨rfl, hend⟩⟩
    | _ => exact absurd hform (hblock.ofText_ne_line docComments)

/-- For every proper comment that reads as an `enable` with its note mark apart from the codes: the
raw text names the codes that were read, unless they run into a closing delimiter that only one of
the readings drops. Then it makes no difference for the directive whether its codes were read. -/
theorem raw_codes_agree_iff {docComments : Bool} {t : Text} {r : CommentReading}
    (hcomment : (∃ opener, IsLineComment opener t) ∨ IsBlockComment t)
    (hr : CommentReading.ofText? docComments t = some r) (hkind : r.kind = .enable)
    (hnote : NoteApart (codeLine (body r.form t))) :
    ∃ codes, r.codes = some codes ∧
      (RawCodes.ofComment t = codes ↔ ¬ RawCodes.RunsIntoClose r.form t) ∧
      (¬ RawCodes.RunsIntoClose r.form t → ∀ a : DirectiveComment, a.kind = .enable → a.raw = t →
        (Directive.classify { a with codes := none }).codes =
            (Directive.classify { a with codes := some codes }).codes ∧
          (Directive.classify { a with codes := none }).isBare =
            (Directive.classify { a with codes := some codes }).isBare) := by
  rcases CommentReading.ofText?_cases hr with
    ⟨-, hlegacy, -⟩ | ⟨form, hform, hdoc, rfl, ⟨-, hlegacy⟩ | ⟨d, hread, hd, hcodes⟩⟩
  · simp [hkind] at hlegacy
  · simp [hkind] at hlegacy
  obtain ⟨⟨kind, rest⟩, hsplit, rfl⟩ := Option.map_eq_some_iff.mp hread
  obtain rfl : kind = .enable := hd.symm.trans hkind
  obtain ⟨-, hbody, hends⟩ := splitKeyword?_eq_some_iff.mp hsplit
  obtain ⟨tail, htail⟩ := keyword_head .enable
  obtain ⟨mark, gap, z, rfl, hmark, hgap⟩ := exists_openMark (b := tail ++ rest) hform hdoc
    (by rw [hbody, htail]; rfl) isPlain_l
  obtain ⟨hne, hclose⟩ := openMark_of_isComment hcomment hmark hgap
  have hending := (hmark.body hgap isPlain_l z).symm.trans hbody
  have hagree := RawCodes.ofComment_eq_lineCodes_iff hmark hne hgap hclose hending hends
  have hline : codeLine (body r.form (mark ++ (gap ++ 'l' :: z))) = trim (firstLine rest) := by
    simp only [codeLine, hsplit]
  have hsame : commaItems (splitNote (trim (firstLine rest))).1 = RawCodes.lineCodes rest :=
    commaItems_splitNote (hline ▸ hnote)
  refine ⟨RawCodes.lineCodes rest, ?_, hagree, ?_⟩
  · rw [hcodes, ← hsame]
    simp
  · intro hruns a ha hraw
    have hcodes := hagree.mpr hruns
    simp [Directive.classify, ha, hraw, hcodes]

/-- A second star before the closing slash does not matter behind a note. -/
theorem raw_codes_before_note :
    IsBlockComment "/* lint:enable A, B -- why **/".toList ∧
      RawCodes.ofComment "/* lint:enable A, B -- why **/" = [['A'], ['B']] ∧
      ¬ RawCodes.RunsIntoClose .block "/* lint:enable A, B -- why **/" := by
  have hblock : IsBlockComment "/* lint:enable A, B -- why **/".toList := by decide +kernel
  have hr : CommentReading.ofText? true "/* lint:enable A, B -- why **/" =
      some { kind := .enable, form := .block, codes := some [['A'], ['B']],
             note := some "why" } := by
    decide +kernel
  have hnote : NoteApart (codeLine (body .block "/* lint:enable A, B -- why **/")) := by
    have hcut : cut? noteMark (codeLine (body .block "/* lint:enable A, B -- why **/")) =
        some ("A, B ".toList, " why".toList) := by decide +kernel
    rintro before after hsome
    obtain ⟨rfl, -⟩ := Prod.mk.inj (Option.some.inj (hcut.symm.trans hsome))
    exact .inr ⟨"A, B".toList, ' ', rfl, isBlank_space⟩
  obtain ⟨codes, hcodes, hagree, -⟩ := raw_codes_agree_iff (.inr hblock) hr rfl hnote
  obtain rfl := Option.some.inj hcodes
  have hraw : RawCodes.ofComment "/* lint:enable A, B -- why **/" = [['A'], ['B']] := by
    decide +kernel
  exact ⟨hblock, hraw, hagree.mp hraw⟩

/-- A second star before the closing slash becomes part of the last code in the raw text, and a
closing delimiter at the end of a line comment gets lost there. -/
theorem raw_codes_take_stray_star :
    IsBlockComment "/* lint:enable A **/".toList ∧
      CommentReading.ofText? true "/* lint:enable A **/" =
        some { kind := .enable, form := .block, codes := some [['A']] } ∧
      cut? noteMark "/* lint:enable A **/" = none ∧
      RawCodes.ofComment "/* lint:enable A **/" = ["A *".toList] ∧
      IsLineComment ['#'] "# lint:enable A */".toList ∧
      CommentReading.ofText? false "# lint:enable A */" =
        some { kind := .enable, form := .line, codes := some ["A */".toList] } ∧
      cut? noteMark "# lint:enable A */" = none ∧
      RawCodes.ofComment "# lint:enable A */" = [['A']] := by
  have hline : IsLineComment ['#'] "# lint:enable A */".toList :=
    ⟨.inl rfl, by decide +kernel, by decide +kernel⟩
  exact ⟨by decide +kernel, by decide +kernel, by decide +kernel, by decide +kernel, hline,
    by decide +kernel, by decide +kernel, by decide +kernel⟩

end LintDirectives
