import LintDirectives.DirectiveAudit
import LintDirectives.Proofs.MarkerReplacement
import LintDirectives.Proofs.NoteRepair

/-!
# Rewriting one comment again and again

The findings about a comment may propose a new text for it, which may in turn be proposed to be
rewritten. There are three kinds of rewriting: a documentation comment with a tag line becomes a
block comment, a marker is replaced by its keyword, and a glued note is repaired. Each of them
lowers the number of rewritings that are still possible, which is six at most.
-/

namespace LintDirectives

open Text CommentText DirectiveGrammar

/-! ## The new text of a comment -/

/-- The new text that the findings about a single directive propose for its comment. -/
def Directive.proposal? (d : Directive) : Option Text :=
  (DirectiveAudit.findings [d]).findSome? (·.newText)

/-- The new text that is proposed for a comment at its place. -/
def PlacedComment.rewrite? (docComments : Bool) (index : ℕ) (c : PlacedComment) : Option Text :=
  (c.recognize? docComments index).bind fun a => (Directive.classify a).proposal?

def PlacedComment.atStart (t : Text) : PlacedComment where
  text := t
  start := 0
  line := 1
  column := 1
  trailing := false

def CommentText.rewrite? (docComments : Bool) (t : Text) : Option Text :=
  (PlacedComment.atStart t).rewrite? docComments 0

/-- The text after a number of rewritings, if there are that many. -/
def CommentText.rewrites (docComments : Bool) : ℕ → Text → Option Text
  | 0, t => some t
  | n + 1, t => (rewrite? docComments t).bind (rewrites docComments n)

namespace OpenSuppressions

theorem newText_of_mem_closeAll {d : Directive} {codes : List Text} {opened : OpenSuppressions}
    {f : Finding} (hf : f ∈ (closeAll d codes opened).2) : f.newText = none := by
  induction codes generalizing opened with
  | nil => simp [closeAll] at hf
  | cons code rest ih =>
    rw [closeAll] at hf
    split at hf
    · exact ih hf
    · rcases List.mem_cons.mp hf with rfl | hf
      · rfl
      · exact ih hf

/-- Pairing codes proposes no new texts. -/
theorem newText_of_mem_step {d : Directive} {opened : OpenSuppressions} {f : Finding}
    (hf : f ∈ (step opened d).2) : f.newText = none := by
  unfold step at hf
  split at hf
  · simp at hf
  · simp at hf
  · exact newText_of_mem_closeAll hf
  · simp at hf

theorem newText_of_mem_unclosed {opened : OpenSuppressions} {f : Finding}
    (hf : f ∈ opened.unclosed) : f.newText = none := by
  obtain ⟨pair, -, rfl⟩ := List.mem_map.mp hf
  rfl

end OpenSuppressions

/-- Only the findings about a directive by itself propose a new text. -/
theorem Directive.proposal?_eq (d : Directive) :
    d.proposal? = d.ownFindings.findSome? (·.newText) := by
  have hstep : (OpenSuppressions.step [] d).2.findSome? (·.newText) = none :=
    List.findSome?_eq_none_iff.mpr fun f hf => OpenSuppressions.newText_of_mem_step hf
  have hend : (OpenSuppressions.step [] d).1.unclosed.findSome? (·.newText) = none :=
    List.findSome?_eq_none_iff.mpr fun f hf => OpenSuppressions.newText_of_mem_unclosed hf
  simp [proposal?, DirectiveAudit.findings, DirectiveAudit.rounds, List.findSome?_append, hstep,
    hend]

/-- The codes and new texts of the findings about a directive by itself that can be fixed. -/
def Directive.fixes (d : Directive) : List (FindingCode × Text) :=
  d.ownFindings.filterMap fun f => f.newText.map (f.code, ·)

theorem Directive.proposal?_eq_fixes (d : Directive) :
    d.proposal? = d.fixes.head?.map Prod.snd := by
  rw [proposal?_eq, fixes, List.head?_filterMap]
  induction d.ownFindings with
  | nil => rfl
  | cons f rest ih =>
    cases h : f.newText with
    | none => simp [h, ih]
    | some t => simp [h]

theorem Directive.length_ownFindings_le (d : Directive) : d.ownFindings.length ≤ 1 := by
  have hglue : d.glueFindings.length ≤ 1 := by
    unfold glueFindings
    split
    · simp
    · split <;> simp
    · simp
  have hlegacy : d.legacyFindings.length ≤ 1 := by
    unfold legacyFindings
    split <;> simp
  unfold ownFindings
  split
  · exact hlegacy
  · split
    · simp
    · exact hglue
  · split
    · simp
    · exact hglue
  · split
    · simp
    · exact hglue
  · simp

/-- What can be fixed depends on what a directive says, not on where it stands. -/
theorem Directive.fixes_congr {d d' : Directive} (hkind : d.kind = d'.kind)
    (hbare : d.isBare = d'.isBare) (hcodes : d.codes = d'.codes)
    (hform : d.comment.form = d'.comment.form) (hraw : d.comment.raw = d'.comment.raw) :
    d.fixes = d'.fixes := by
  have hglue : d.glueFindings.filterMap (fun f => f.newText.map (f.code, ·)) =
      d'.glueFindings.filterMap (fun f => f.newText.map (f.code, ·)) := by
    simp only [glueFindings, gluedCodes, hcodes, hraw]
    split
    · rfl
    · split <;> rfl
    · rfl
  have hlegacy : d.legacyFindings.filterMap (fun f => f.newText.map (f.code, ·)) =
      d'.legacyFindings.filterMap (fun f => f.newText.map (f.code, ·)) := by
    simp only [legacyFindings, hform, hraw]
    split <;> rfl
  simp only [fixes, ownFindings, hkind, hbare]
  split
  · exact hlegacy
  · split
    · rfl
    · exact hglue
  · split
    · rfl
    · exact hglue
  · split
    · rfl
    · exact hglue
  · rfl

theorem Directive.proposal?_of_legacy {d : Directive} (h : d.kind = .legacy) :
    d.proposal? = (Migration.ofComment? d.comment.form d.comment.raw).map (·.text) := by
  simp only [proposal?_eq, ownFindings, h, legacyFindings]
  split <;> simp_all [finding]

/-- A new text repairs the one glued code of a directive that is not for whole files. -/
theorem Directive.exists_glued_of_proposal? {d : Directive} {t' : Text} (hkind : d.kind ≠ .legacy)
    (h : d.proposal? = some t') :
    d.kind ≠ .ignoreFile ∧ ∃ g, d.gluedCodes = [g] ∧ t' = g.repairIn d.comment.raw := by
  have hglue (h : d.glueFindings.findSome? (·.newText) = some t') :
      ∃ g, d.gluedCodes = [g] ∧ t' = g.repairIn d.comment.raw := by
    unfold glueFindings at h
    split at h
    · simp at h
    · next g hg =>
      refine ⟨g, hg, ?_⟩
      split at h <;> simpa [finding, eq_comm] using h
    · simp [finding] at h
  rw [proposal?_eq, ownFindings] at h
  split at h
  · next hlegacy => exact absurd hlegacy hkind
  · next hk =>
    split at h
    · simp [finding] at h
    · exact ⟨by simp [hk], hglue h⟩
  · next hk =>
    split at h
    · simp [finding] at h
    · exact ⟨by simp [hk], hglue h⟩
  · next hk =>
    split at h
    · simp at h
    · exact ⟨by simp [hk], hglue h⟩
  · simp [finding] at h

/-! ## Places play no role -/

theorem Directive.classify_congr {a a' : DirectiveComment} (hkind : a.kind = a'.kind)
    (hcodes : a.codes = a'.codes) (hraw : a.raw = a'.raw) :
    (classify a).isBare = (classify a').isBare ∧ (classify a).codes = (classify a').codes := by
  simp only [classify, hkind, hcodes, hraw]
  split <;> exact ⟨rfl, rfl⟩

def PlacedComment.fixes (docComments : Bool) (index : ℕ) (c : PlacedComment) :
    List (FindingCode × Text) :=
  match c.recognize? docComments index with
  | some a => (Directive.classify a).fixes
  | none => []

theorem PlacedComment.recognize?_isSome (docComments : Bool) (index : ℕ) (c : PlacedComment) :
    (c.recognize? docComments index).isSome =
      (CommentReading.ofText? docComments c.text).isSome := by
  simp [recognize?]

theorem PlacedComment.exists_reading_of_recognize? {docComments : Bool} {index : ℕ}
    {c : PlacedComment} {a : DirectiveComment} (h : c.recognize? docComments index = some a) :
    ∃ r, CommentReading.ofText? docComments c.text = some r ∧ a.kind = r.kind ∧
      a.form = r.form ∧ a.codes = r.codes ∧ a.raw = c.text ∧ a.start = Int.ofNat c.start := by
  obtain ⟨r, hr, rfl⟩ := Option.map_eq_some_iff.mp h
  exact ⟨r, hr, rfl, rfl, rfl, rfl, rfl⟩

theorem PlacedComment.fixes_eq (docComments : Bool) (index : ℕ) (c : PlacedComment) :
    c.fixes docComments index = (atStart c.text).fixes docComments 0 := by
  have hsome : (c.recognize? docComments index).isSome =
      ((atStart c.text).recognize? docComments 0).isSome := by
    rw [recognize?_isSome, recognize?_isSome]
    rfl
  unfold fixes
  cases hc : c.recognize? docComments index with
  | none =>
    rw [hc] at hsome
    rw [Option.isNone_iff_eq_none.mp (Option.isSome_eq_false_iff.mp hsome.symm)]
  | some a =>
    rw [hc] at hsome
    obtain ⟨a', ha'⟩ := Option.isSome_iff_exists.mp hsome.symm
    obtain ⟨r, hr, hkind, hform, hcodes, hraw, -⟩ := exists_reading_of_recognize? hc
    obtain ⟨r', hr', hkind', hform', hcodes', hraw', -⟩ := exists_reading_of_recognize? ha'
    obtain rfl := Option.some.inj (hr.symm.trans hr')
    obtain ⟨hbare, hall⟩ := Directive.classify_congr (hkind.trans hkind'.symm)
      (hcodes.trans hcodes'.symm) (hraw.trans hraw'.symm)
    simp only [ha']
    refine Directive.fixes_congr ?_ hbare hall ?_ ?_
    · simp only [Directive.kind, Directive.classify_comment, hkind, hkind']
    · simp only [Directive.classify_comment, hform, hform']
    · simp only [Directive.classify_comment, hraw, hraw']
      rfl

theorem PlacedComment.rewrite?_eq_fixes (docComments : Bool) (index : ℕ) (c : PlacedComment) :
    c.rewrite? docComments index = (c.fixes docComments index).head?.map Prod.snd := by
  unfold rewrite? fixes
  cases c.recognize? docComments index with
  | none => rfl
  | some a => exact Directive.proposal?_eq_fixes _

/-- What is proposed for a comment depends on its text alone. -/
theorem PlacedComment.rewrite?_eq (docComments : Bool) (index : ℕ) (c : PlacedComment) :
    c.rewrite? docComments index = CommentText.rewrite? docComments c.text := by
  rw [CommentText.rewrite?, rewrite?_eq_fixes, rewrite?_eq_fixes, fixes_eq]

/-! ## The kinds of rewriting -/

theorem CommentReading.ofText?_cases {docComments : Bool} {t : Text} {r : CommentReading}
    (h : ofText? docComments t = some r) :
    (CommentForm.ofText docComments t = .doc ∧ r.kind = .legacy ∧ r.form = .doc) ∨
    ∃ form, CommentForm.ofText docComments t = form ∧ form ≠ .doc ∧ r.form = form ∧
      ((read? (body form t) = none ∧ r.kind = .legacy) ∨
        ∃ d, read? (body form t) = some d ∧ r.kind = d.kind ∧ r.codes = some d.codes) := by
  unfold ofText? at h
  split at h
  · next hform =>
    obtain ⟨tag, -, rfl⟩ := Option.map_eq_some_iff.mp h
    exact .inl ⟨hform, rfl, rfl⟩
  · next hdoc =>
    refine .inr ⟨_, rfl, hdoc, ?_⟩
    split at h
    · next d hread =>
      obtain rfl := Option.some.inj h
      exact ⟨rfl, .inr ⟨d, hread, rfl, rfl⟩⟩
    · next hread =>
      obtain ⟨m, -, rfl⟩ := Option.map_eq_some_iff.mp h
      exact ⟨rfl, .inl ⟨hread, rfl⟩⟩

theorem CommentReading.ofText?_of_read? {docComments : Bool} {form : CommentForm} {t : Text}
    {d : WrittenDirective} (hform : CommentForm.ofText docComments t = form) (hdoc : form ≠ .doc)
    (hread : read? (body form t) = some d) : ofText? docComments t =
      some { kind := d.kind, form := form, codes := some d.codes, note := d.note } := by
  cases form with
  | doc => exact absurd rfl hdoc
  | line => simp only [ofText?, hform, hread]
  | block => simp only [ofText?, hform, hread]

theorem Migration.exists_marker_of_ofComment? {form : CommentForm} {t : Text} {migration : Migration}
    (hdoc : form ≠ .doc) (h : ofComment? form t = some migration) :
    ∃ m, LegacyMarker.find? t = some m ∧ migration.text = replaceAll m.text m.modern t := by
  cases form with
  | doc => exact absurd rfl hdoc
  | _ =>
    obtain ⟨m, hm, rfl⟩ := Option.map_eq_some_iff.mp h
    exact ⟨m, hm, rfl⟩

namespace CommentText

variable {docComments : Bool} {t t' : Text}

/-- Every rewriting is a migration of a documentation comment, a replacement of a marker, or a
repair of a glued code. -/
theorem rewrite?_cases (h : rewrite? docComments t = some t') :
    (CommentForm.ofText docComments t = .doc ∧
      ∃ migration, Migration.ofComment? .doc t = some migration ∧ t' = migration.text) ∨
    ∃ form, CommentForm.ofText docComments t = form ∧ form ≠ .doc ∧
      ((read? (body form t) = none ∧
          ∃ m, LegacyMarker.find? t = some m ∧ t' = replaceAll m.text m.modern t) ∨
        ∃ d, read? (body form t) = some d ∧ d.kind ≠ .ignoreFile ∧
          ∃ g, d.codes.filterMap GluedCode.ofCode? = [g] ∧ t' = g.repairIn t) := by
  obtain ⟨a, ha, hproposal⟩ := Option.bind_eq_some_iff.mp h
  obtain ⟨r, hr, hakind, haform, hacodes, haraw, -⟩ :=
    PlacedComment.exists_reading_of_recognize? ha
  simp only [PlacedComment.atStart] at hr haraw
  rcases CommentReading.ofText?_cases hr with
    ⟨hform, hkind, hrform⟩ | ⟨form, hform, hdoc, hrform, ⟨hread, hkind⟩ | ⟨d, hread, hkind, hcodes⟩⟩
  · rw [Directive.proposal?_of_legacy (by simp [Directive.kind, hakind, hkind])] at hproposal
    obtain ⟨migration, hmigration, rfl⟩ := Option.map_eq_some_iff.mp hproposal
    rw [Directive.classify_comment, haform, hrform, haraw] at hmigration
    exact .inl ⟨hform, migration, hmigration, rfl⟩
  · rw [Directive.proposal?_of_legacy (by simp [Directive.kind, hakind, hkind])] at hproposal
    obtain ⟨migration, hmigration, rfl⟩ := Option.map_eq_some_iff.mp hproposal
    rw [Directive.classify_comment, haform, hrform, haraw] at hmigration
    exact .inr ⟨form, hform, hdoc,
      .inl ⟨hread, Migration.exists_marker_of_ofComment? hdoc hmigration⟩⟩
  · have hlegacy : a.kind ≠ .legacy := by
      rw [hakind, hkind]
      intro hd
      have hmem := (exists_codePart_of_read? hread).1
      simp [hd, keywordKinds] at hmem
    obtain ⟨hfile, g, hg, rfl⟩ := Directive.exists_glued_of_proposal?
      (by simpa [Directive.kind] using hlegacy) hproposal
    rw [Directive.gluedCodes, Directive.classify_of_codes hlegacy (hacodes.trans hcodes)] at hg
    rw [Directive.kind, Directive.classify_comment, hakind, hkind] at hfile
    refine .inr ⟨form, hform, hdoc, .inr ⟨d, hread, hfile, g, hg, ?_⟩⟩
    rw [Directive.classify_comment, haraw]

/-! ## How many rewritings are left -/

/-- A bound on the rewritings that a comment may still get: one for its form, one for each
marker in it, and those for its glued codes. -/
def rewritesLeft (docComments : Bool) (t : Text) : ℕ :=
  (if CommentForm.ofText docComments t = .doc then 1 else 0) + LegacyMarker.countIn t +
    repairsLeft docComments t

theorem rewritesLeft_le (docComments : Bool) (t : Text) : rewritesLeft docComments t ≤ 6 := by
  have hmarkers := LegacyMarker.countIn_le t
  have hrepairs := repairsLeft_le docComments t
  unfold rewritesLeft
  split <;> omega

/-- Replacing a marker does not call for repairs in a body that starts with a note mark. -/
theorem repairsLeft_replaceAll_le (m : LegacyMarker) {form : CommentForm}
    (hform : CommentForm.ofText docComments t = form) (hdoc : form ≠ .doc)
    (hread : read? (body form t) = none) :
    repairsLeft docComments (replaceAll m.text m.modern t) ≤ repairsLeft docComments t := by
  by_cases hmark : noteMark <+: body form t
  · obtain ⟨more, hbody⟩ := hmark
    obtain ⟨mark, gap, z, rfl, hopen, hgap⟩ := exists_openMark hform hdoc hbody.symm isPlain_hyphen
    -- the mark goes on in the rest of the comment, since the body starts the rest
    obtain ⟨z', rfl⟩ : ∃ z', z = '-' :: z' := by
      have hpre := ending_isPrefix form ('-' :: z)
      rw [← hopen.body hgap isPlain_hyphen, ← hbody] at hpre
      obtain ⟨y, hy⟩ := (List.cons_prefix_cons.mp hpre).2
      exact ⟨more ++ y, by rw [← hy]; rfl⟩
    have hsign : '@' ∉ mark ++ (gap ++ ['-', '-']) := by
      simp only [List.mem_append, not_or]
      refine ⟨fun hm => by simpa using hopen.mem hm, fun hm => ?_, by decide⟩
      simpa using hgap _ hm
    have hreplaced : replaceAll m.text m.modern (mark ++ (gap ++ '-' :: '-' :: z')) =
        mark ++ (gap ++ '-' :: '-' :: replaceAll m.text m.modern z') := by
      have := replaceAll_append_of_not_mem m.text_eq_cons m.modern hsign z'
      simpa only [List.append_assoc, List.cons_append, List.nil_append] using this
    obtain ⟨hform', hmark', hread'⟩ := read?_of_noteMark hopen hgap (replaceAll m.text m.modern z')
    rw [hreplaced, repairsLeft_of_noteMark hform' hdoc hread' hmark']
    exact Nat.zero_le _
  · rw [repairsLeft_of_none hform hdoc hread hmark]
    exact repairsLeft_le docComments _

/-- Every rewriting leaves fewer rewritings. -/
theorem rewritesLeft_lt (h : rewrite? docComments t = some t') :
    rewritesLeft docComments t' < rewritesLeft docComments t := by
  rcases rewrite?_cases h with ⟨hform, migration, hmigration, rfl⟩ |
    ⟨form, hform, hdoc, ⟨hread, m, hm, rfl⟩ | ⟨d, hread, hfile, g, hg, rfl⟩⟩
  · have hmarkers := LegacyMarker.countIn_mono (Migration.infix_of_infix_doc hmigration)
    have hrepairs := repairsLeft_le docComments migration.text
    have hblock := Migration.ofText_doc hmigration docComments
    have hall : repairsLeft docComments t = 2 := by simp only [repairsLeft, hform]
    simp only [rewritesLeft, hform, hblock, hall, if_true]
    simp only [reduceCtorEq, if_false]
    omega
  · have hin := LegacyMarker.infix_of_find? hm
    have hmarkers := LegacyMarker.countIn_lt
      (fun m' hm' => (m.infix_of_infix_replaceAll m' hm').1) hin
      (fun hm' => (m.infix_of_infix_replaceAll m hm').2 rfl)
    have hrepairs := repairsLeft_replaceAll_le m hform hdoc hread
    have hne : CommentForm.ofText docComments t ≠ .doc := hform ▸ hdoc
    have hne' := ofText_replaceAll_ne_doc m hne
    simp only [rewritesLeft, if_neg hne, if_neg hne']
    omega
  · obtain ⟨hform', hrepairs⟩ := repairIn_lowers hform hdoc hread hfile hg
    obtain ⟨-, gap, codePart, rest, -, -, hcodes⟩ := exists_codePart_of_read? hread
    have hmarkers : LegacyMarker.countIn (g.repairIn t) ≤ LegacyMarker.countIn t :=
      LegacyMarker.countIn_mono fun m =>
        infix_of_infix_repairIn (hcodes ▸ hg) m.space_not_mem_text (by cases m <;> decide)
    simp only [rewritesLeft, hform, hform', if_neg hdoc]
    omega

/-- Rewriting a comment comes to an end. -/
theorem exists_rewrites (docComments : Bool) (t : Text) :
    ∃ n ≤ rewritesLeft docComments t, ∃ t', rewrites docComments n t = some t' ∧
      rewrite? docComments t' = none := by
  induction hn : rewritesLeft docComments t using Nat.strong_induction_on generalizing t with
  | _ n ih =>
    cases hstep : rewrite? docComments t with
    | none => exact ⟨0, Nat.zero_le _, t, rfl, hstep⟩
    | some next =>
      have hlt := rewritesLeft_lt hstep
      obtain ⟨k, hk, t', ht', hend⟩ := ih _ (hn ▸ hlt) next rfl
      exact ⟨k + 1, by omega, t', by simp [rewrites, hstep, ht'], hend⟩

end CommentText

end LintDirectives
