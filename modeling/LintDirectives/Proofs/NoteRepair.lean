import LintDirectives.Proofs.CodeOccurrence

/-!
# Repairing notes that are glued to codes

A repair cuts the comment behind the code and puts a proper note mark there. Wherever a code
without a note mark is found, the result needs no further repair; a malformed code may leave one
without a note mark. So at most two repairs follow one another.
-/

namespace LintDirectives

open Text CommentText DirectiveGrammar

/-! ## How many repairs may follow one another -/

/-- How many repairs the glued codes of a directive may lead to. Several of them are not
repaired. -/
def gluePasses : List GluedCode → ℕ
  | [⟨_, .malformed⟩] => 2
  | [⟨_, .missing⟩] => 1
  | _ => 0

/-- A bound on the repairs that a comment may still get. A body that starts with a note mark is
not read as a directive any more. -/
def repairsLeft (docComments : Bool) (t : Text) : ℕ :=
  match CommentForm.ofText docComments t with
  | .doc => 2
  | form =>
    match read? (body form t) with
    | some d => gluePasses (d.codes.filterMap GluedCode.ofCode?)
    | none => if noteMark <+: body form t then 0 else 2

theorem gluePasses_le (codes : List GluedCode) : gluePasses codes ≤ 2 := by
  unfold gluePasses
  split <;> omega

theorem repairsLeft_le (docComments : Bool) (t : Text) : repairsLeft docComments t ≤ 2 := by
  unfold repairsLeft
  split
  · omega
  · split
    · exact gluePasses_le _
    · split <;> omega

variable {docComments : Bool} {form : CommentForm} {t : Text}

theorem repairsLeft_of_read? {d : WrittenDirective}
    (hform : CommentForm.ofText docComments t = form) (hdoc : form ≠ .doc)
    (hread : read? (body form t) = some d) :
    repairsLeft docComments t = gluePasses (d.codes.filterMap GluedCode.ofCode?) := by
  cases form with
  | doc => exact absurd rfl hdoc
  | line => simp only [repairsLeft, hform, hread]
  | block => simp only [repairsLeft, hform, hread]

theorem repairsLeft_of_noteMark (hform : CommentForm.ofText docComments t = form)
    (hdoc : form ≠ .doc) (hread : read? (body form t) = none)
    (hmark : noteMark <+: body form t) : repairsLeft docComments t = 0 := by
  cases form with
  | doc => exact absurd rfl hdoc
  | line => simp only [repairsLeft, hform, hread, hmark, if_true]
  | block => simp only [repairsLeft, hform, hread, hmark, if_true]

theorem repairsLeft_of_none (hform : CommentForm.ofText docComments t = form)
    (hdoc : form ≠ .doc) (hread : read? (body form t) = none)
    (hmark : ¬ noteMark <+: body form t) : repairsLeft docComments t = 2 := by
  cases form with
  | doc => exact absurd rfl hdoc
  | line => simp only [repairsLeft, hform, hread, hmark, if_false]
  | block => simp only [repairsLeft, hform, hread, hmark, if_false]

theorem gluePasses_of_clean {codes : List Text} (h : Clean codes) :
    gluePasses (codes.filterMap GluedCode.ofCode?) = 0 := by
  rw [show codes.filterMap GluedCode.ofCode? = [] from h]
  rfl

/-- The codes up to a repaired one are clean if there was no note mark in it. -/
theorem GluedLayout.clean_code {kind : DirectiveKind} {g : GluedCode}
    {mark lead gap a gap' rest more : Text}
    (h : GluedLayout docComments form t kind g mark lead gap a gap' rest more)
    (hmissing : g.kind = .missing) : Clean (commaItems (a ++ (gap' ++ g.code))) := by
  obtain ⟨hplain, -, b, behind, htext, -⟩ := h.plain_code hmissing
  have hmark : ¬ noteMark <:+: g.code := by
    have hglued := (GluedCode.ofCode?_eq_some_iff.mp h.glued).2.2
    have hno : ¬ noteMark <:+: g.text := (hglued.resolve_left (by simp [hmissing])).2.1
    exact fun hm => hno (hm.trans (List.IsPrefix.isInfix ⟨b :: behind, htext.symm⟩))
  have hcode : GluedCode.ofCode? g.code = none :=
    GluedCode.ofCode?_eq_none_iff.mpr (.inr ⟨hmark,
      fun hm => by simpa using hplain _ hm, fun hm => by simpa using hplain _ hm⟩)
  rw [h.commaItems_code, Clean, List.filterMap_append,
    show List.filterMap _ (commaItems a) = [] from h.clean]
  split <;> simp [hcode]

/-- After a repair without a note mark nothing is left to repair. -/
theorem repairIn_missing {d : WrittenDirective} {g : GluedCode}
    (hform : CommentForm.ofText docComments t = form) (hdoc : form ≠ .doc)
    (hread : read? (body form t) = some d) (hglued : d.codes.filterMap GluedCode.ofCode? = [g])
    (hmissing : g.kind = .missing) :
    CommentForm.ofText docComments (g.repairIn t) = form ∧
      repairsLeft docComments (g.repairIn t) = 0 := by
  obtain ⟨mark, lead, gap, a, gap', rest, more, -, h⟩ := exists_gluedLayout hform hdoc hread hglued
  by_cases hfound : FoundBehindKeyword d.kind g.text t
  · obtain ⟨hform', hread'⟩ := h.read?_repairIn (h.cut?_of_foundBehindKeyword hfound)
    refine ⟨hform', ?_⟩
    rw [repairsLeft_of_read? hform' hdoc hread']
    exact gluePasses_of_clean ((h.clean_code hmissing).listedCodes d.kind)
  · obtain ⟨hform', ⟨hmark, hnone⟩ | ⟨-, note, hread'⟩⟩ := h.read?_of_missed hmissing hfound
    · exact ⟨hform', repairsLeft_of_noteMark hform' hdoc hnone hmark⟩
    · have hclean : Clean (commaItems []) := by simp [Clean]
      refine ⟨hform', ?_⟩
      rw [repairsLeft_of_read? hform' hdoc hread']
      exact gluePasses_of_clean (hclean.listedCodes d.kind)

/-- Codes without a note mark are repaired at most once. -/
theorem gluePasses_le_one {codes : List Text} (h : ∀ c ∈ codes, ¬ noteMark <:+: c) :
    gluePasses (codes.filterMap GluedCode.ofCode?) ≤ 1 := by
  unfold gluePasses
  split
  · next text hcodes =>
    obtain ⟨c, hc, hglued⟩ := List.mem_filterMap.mp
      (hcodes ▸ List.mem_singleton_self (GluedCode.mk text .malformed))
    have hmark := (GluedCode.ofCode?_eq_some_iff.mp hglued).2.2
    exact absurd (by simpa using hmark) (h c hc)
  · omega
  · omega

theorem not_noteMark_of_mem_listedCodes {kind : DirectiveKind} {p c : Text}
    (h : ¬ noteMark <:+: p) (hc : c ∈ listedCodes kind p) : ¬ noteMark <:+: c := by
  unfold listedCodes at hc
  split at hc
  · obtain rfl := List.mem_singleton.mp hc
    decide
  · exact fun hm => h (hm.trans (infix_of_mem_commaItems hc))

/-- After a repair at a note mark one more repair may follow. -/
theorem repairIn_malformed {d : WrittenDirective} {g : GluedCode}
    (hform : CommentForm.ofText docComments t = form) (hdoc : form ≠ .doc)
    (hread : read? (body form t) = some d) (hfile : d.kind ≠ .ignoreFile)
    (hglued : d.codes.filterMap GluedCode.ofCode? = [g]) (hmalformed : g.kind = .malformed) :
    CommentForm.ofText docComments (g.repairIn t) = form ∧
      repairsLeft docComments (g.repairIn t) ≤ 1 := by
  obtain ⟨mark, lead, gap, a, gap', rest, more, -, h⟩ := exists_gluedLayout hform hdoc hread hglued
  obtain ⟨w, note, hcut, hcode⟩ := h.exists_cut?_noteMark hmalformed
  obtain ⟨hform', hread'⟩ := h.read?_repairIn (h.cut?_of_malformed hmalformed hfile)
  refine ⟨hform', ?_⟩
  rw [repairsLeft_of_read? hform' hdoc hread']
  refine gluePasses_le_one fun c hc => not_noteMark_of_mem_listedCodes (fun hm => ?_) hc
  refine h.not_noteMark hcut (hm.trans (List.IsPrefix.isInfix ?_))
  rw [hcode, List.prefix_append_right_inj, List.prefix_append_right_inj]
  exact (trimEnd_isPrefix w).trans (List.prefix_append w ['-'])

/-! ## All repairs -/

/-- A repair keeps the form of a comment and leaves fewer repairs to be made. -/
theorem repairIn_lowers {d : WrittenDirective} {g : GluedCode}
    (hform : CommentForm.ofText docComments t = form) (hdoc : form ≠ .doc)
    (hread : read? (body form t) = some d) (hfile : d.kind ≠ .ignoreFile)
    (hglued : d.codes.filterMap GluedCode.ofCode? = [g]) :
    CommentForm.ofText docComments (g.repairIn t) = form ∧
      repairsLeft docComments (g.repairIn t) < repairsLeft docComments t := by
  rw [repairsLeft_of_read? hform hdoc hread, hglued]
  cases hkind : g.kind with
  | malformed =>
    obtain ⟨hform', hle⟩ := repairIn_malformed hform hdoc hread hfile hglued hkind
    have hpasses : gluePasses [g] = 2 := by
      rw [show g = ⟨g.text, .malformed⟩ by rw [← hkind]]
      rfl
    exact ⟨hform', by omega⟩
  | missing =>
    obtain ⟨hform', hzero⟩ := repairIn_missing hform hdoc hread hglued hkind
    have hpasses : gluePasses [g] = 1 := by
      rw [show g = ⟨g.text, .missing⟩ by rw [← hkind]]
      rfl
    exact ⟨hform', by omega⟩

/-- A repair brings in nothing but blanks and a note mark. -/
theorem infix_of_infix_repairIn {kind : DirectiveKind} {codePart part : Text} {g : GluedCode}
    (hglued : (listedCodes kind codePart).filterMap GluedCode.ofCode? = [g]) (hspace : ' ' ∉ part)
    (hmark : ¬ part <:+: noteMark) (h : part <:+: g.repairIn t) : part <:+: t := by
  obtain ⟨hcode, -⟩ := exists_piece_of_glued hglued
  obtain ⟨mid, d, -, htext, -⟩ := GluedCode.exists_split? hcode
  cases hcut : cut? g.text t with
  | none =>
    rw [GluedCode.repairIn, replaceFirst, hcut] at h
    exact h
  | some cutText =>
    obtain ⟨before, after⟩ := cutText
    have ht := eq_append_of_cut? hcut
    rw [GluedCode.repairIn_of_cut? hcode hcut, ← List.append_assoc] at h
    rcases (infix_append_cons_iff hspace).mp h with h | h
    · refine h.trans (List.IsPrefix.isInfix ⟨mid ++ d :: g.note ++ after, ?_⟩)
      conv_rhs => rw [ht, htext]
      simp
    · have h' : part <:+: noteMark ++ ' ' :: (g.note ++ after) := h
      have hright := ((infix_append_cons_iff hspace).mp h').resolve_left hmark
      refine hright.trans (List.IsSuffix.isInfix ⟨before ++ (g.code ++ (mid ++ [d])), ?_⟩)
      conv_rhs => rw [ht, htext]
      simp

end LintDirectives
