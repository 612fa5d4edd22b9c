import LintDirectives.Proofs.DirectiveDiagnostics
import LintDirectives.Proofs.FixLoop

/-!
# Fixing comments converges

A pass gives every comment with a shown finding its new text and leaves the other comments as
they are. So the texts after a number of passes are the texts of the start, each rewritten as
often as there is something shown about it, and that is at most six times. It is assumed that
the comments found after a pass are those found before it, with the texts that the pass gave
them.
-/

namespace LintDirectives

open Text CommentText FailingSteps

/-! ## The comments of a file -/

def Linter.placedComments (l : Linter) (language : Language) (path : Text) (source : Bytes) :
    Except UndecodableComment (List PlacedComment) :=
  (l.findComments language path source).mapM (PlacedComment.ofSpan path source)

namespace PlacedComment

/-- The offset of the first byte after the comment. -/
def stop (c : PlacedComment) : ℕ :=
  c.start + (utf8 c.text).length

/-- The edit that gives a comment a new text. -/
def edit (c : PlacedComment) (t : Text) : Edit where
  start := c.start
  stop := c.stop
  text := t
  start_le_stop := Nat.le_add_right _ _

/-- The text of a comment after edits, one of which may have replaced the comment. -/
def textAfter (edits : List Edit) (c : PlacedComment) : Text :=
  match edits.find? fun e => e.start = c.start ∧ e.stop = c.stop with
  | some e => e.text
  | none => c.text

variable {docComments : Bool} {c c' : PlacedComment}

theorem replacement_of_recognize? {index : ℕ} {a : DirectiveComment}
    (h : c.recognize? docComments index = some a) (t : Text) :
    (Directive.classify a).replacement t = .ok (c.edit t) := by
  obtain ⟨r, -, -, -, -, hraw, hstart⟩ := exists_reading_of_recognize? h
  have hstop : a.stop = Int.ofNat c.stop := by
    simp [DirectiveComment.stop, hraw, hstart, stop]
  rw [Directive.replacement, Directive.classify_comment, hstart, hstop, Edit.ofBounds,
    dif_pos ⟨Int.natCast_nonneg _, by simp [stop]⟩]
  rfl

theorem isSome_of_mem_fixes {index : ℕ} {fix : FindingCode × Text}
    (h : fix ∈ c.fixes docComments index) :
    (CommentReading.ofText? docComments c.text).isSome := by
  rw [← recognize?_isSome docComments index]
  unfold fixes at h
  split at h
  · next ha => simp [ha]
  · simp at h

/-- Two comments of a source in the same range have the same text. -/
theorem text_eq_of_range {path : Text} {source : Bytes} {span span' : Span}
    (h : ofSpan path source span = .ok c) (h' : ofSpan path source span' = .ok c')
    (hstart : c.start = c'.start) (hstop : c.stop = c'.stop) : c.text = c'.text := by
  have hbytes {c : PlacedComment} {span : Span} (h : ofSpan path source span = .ok c) :
      utf8 c.text <+: source.drop c.start := by
    unfold ofSpan at h
    split at h
    · next text htext =>
      cases h
      rw [show utf8 text = Source.slice source span from utf8_of_ofUtf8? htext]
      exact List.take_prefix _ _
    · exact nomatch h
  have hlen : (utf8 c.text).length = (utf8 c'.text).length := by
    simp only [stop] at hstop
    omega
  have hpre := List.prefix_of_prefix_length_le (hbytes h) (hstart ▸ hbytes h') hlen.le
  have hsame : utf8 c.text = utf8 c'.text := hpre.eq_of_length hlen
  have hread := ofUtf8?_utf8 c.text
  rw [hsame, ofUtf8?_utf8] at hread
  exact (Option.some.inj hread).symm

end PlacedComment

namespace DirectiveComment

variable {docComments : Bool} {cs : List PlacedComment}

theorem exists_of_mem_ofComments {a : DirectiveComment} {index : ℕ}
    (h : a ∈ ofComments docComments index cs) :
    ∃ c ∈ cs, ∃ i, c.recognize? docComments i = some a := by
  induction cs generalizing index with
  | nil => simp [ofComments] at h
  | cons c cs ih =>
    have hrest {i : ℕ} (h : a ∈ ofComments docComments i cs) :
        ∃ c' ∈ c :: cs, ∃ i, c'.recognize? docComments i = some a := by
      obtain ⟨c', hc', hi⟩ := ih h
      exact ⟨c', List.mem_cons_of_mem c hc', hi⟩
    unfold ofComments at h
    split at h
    · next ha =>
      rcases List.mem_cons.mp h with rfl | h
      · exact ⟨c, List.mem_cons_self, index, ha⟩
      · exact hrest h
    · exact hrest h

theorem exists_mem_ofComments {c : PlacedComment} (hc : c ∈ cs)
    (hsome : (CommentReading.ofText? docComments c.text).isSome) (index : ℕ) :
    ∃ a ∈ ofComments docComments index cs, ∃ i, c.recognize? docComments i = some a := by
  induction cs generalizing index with
  | nil => simp at hc
  | cons first cs ih =>
    rcases List.mem_cons.mp hc with rfl | hc
    · rw [← PlacedComment.recognize?_isSome docComments index] at hsome
      obtain ⟨a, ha⟩ := Option.isSome_iff_exists.mp hsome
      exact ⟨a, by simp [ofComments, ha], index, ha⟩
    · unfold ofComments
      split
      · obtain ⟨a, ha, hi⟩ := ih hc (index + 1)
        exact ⟨a, List.mem_cons_of_mem _ ha, hi⟩
      · exact ih hc index

end DirectiveComment

/-! ## Texts before and after a pass -/

namespace Linter

/-- The new text of a comment text, if its finding is shown for a path. -/
def pending? (l : Linter) (path : Text) (docComments : Bool) (t : Text) : Option Text :=
  (((PlacedComment.atStart t).fixes docComments 0).find? fun fix => l.shows path fix.1).map Prod.snd

/-- The text that a pass gives to a comment with a certain text. -/
def settle (l : Linter) (path : Text) (docComments : Bool) (t : Text) : Text :=
  (l.pending? path docComments t).getD t

variable {l : Linter} {language : Language} {path : Text} {docComments : Bool} {t t' : Text}
  {source s : Bytes} {ds : List Diagnostic} {cs : List PlacedComment}

/-- There is at most one way to fix a comment. -/
private theorem fixes_subsingleton {x y : FindingCode × Text} (c : PlacedComment)
    (hx : x ∈ c.fixes docComments 0) (hy : y ∈ c.fixes docComments 0) : x = y := by
  have hlen : (c.fixes docComments 0).length ≤ 1 := by
    unfold PlacedComment.fixes
    split
    · exact (List.length_filterMap_le _ _).trans (Directive.length_ownFindings_le _)
    · simp
  match h : c.fixes docComments 0, hlen with
  | [], _ => simp [h] at hx
  | [z], _ => rw [h, List.mem_singleton] at hx hy; rw [hx, hy]

theorem pending?_eq_some_iff : l.pending? path docComments t = some t' ↔
    ∃ code, (code, t') ∈ (PlacedComment.atStart t).fixes docComments 0 ∧ l.shows path code := by
  constructor
  · intro h
    obtain ⟨⟨code, t'⟩, hfind, rfl⟩ := Option.map_eq_some_iff.mp h
    exact ⟨code, List.mem_of_find?_eq_some hfind,
      List.find?_some (p := fun fix : FindingCode × Text => l.shows path fix.1) hfind⟩
  · rintro ⟨code, hmem, hshows⟩
    have hsome : (((PlacedComment.atStart t).fixes docComments 0).find?
        fun fix => l.shows path fix.1).isSome :=
      List.find?_isSome.mpr ⟨(code, t'), hmem, hshows⟩
    obtain ⟨fix, hfind⟩ := Option.isSome_iff_exists.mp hsome
    rw [pending?, hfind, fixes_subsingleton _ (List.mem_of_find?_eq_some hfind) hmem]
    rfl

theorem rewrite?_of_pending? (h : l.pending? path docComments t = some t') :
    rewrite? docComments t = some t' := by
  obtain ⟨code, hmem, -⟩ := pending?_eq_some_iff.mp h
  rw [rewrite?, PlacedComment.rewrite?_eq_fixes]
  obtain ⟨first, hfirst⟩ := Option.isSome_iff_exists.mp
    (List.isSome_head?.mpr (List.ne_nil_of_mem hmem))
  rw [hfirst, fixes_subsingleton _ (List.mem_of_head? hfirst) hmem]
  rfl

/-- After as many steps as a comment can be rewritten, nothing is pending for it. -/
theorem pending?_iterate_settle {n : ℕ} (h : rewritesLeft docComments t ≤ n) :
    l.pending? path docComments ((l.settle path docComments)^[n] t) = none := by
  induction n generalizing t with
  | zero =>
    cases hpending : l.pending? path docComments t with
    | none => exact hpending
    | some t' =>
      have hlt := rewritesLeft_lt (rewrite?_of_pending? hpending)
      omega
  | succ n ih =>
    cases hpending : l.pending? path docComments t with
    | none =>
      have hfixed : l.settle path docComments t = t := by simp [settle, hpending]
      rw [Function.iterate_fixed hfixed, hpending]
    | some t' =>
      have hlt := rewritesLeft_lt (rewrite?_of_pending? hpending)
      have hstep : l.settle path docComments t = t' := by simp [settle, hpending]
      rw [Function.iterate_succ_apply, hstep]
      exact ih (by omega)

theorem checkBytes_eq_ok (h : l.checkBytes language path source = .ok ds) :
    ∃ cs, l.placedComments language path source = .ok cs ∧
      l.checkFile (.ofComments language path source
        (DirectiveComment.ofComments language.hasDocComments 0 cs)) = .ok ds := by
  obtain ⟨comments, hcomments, hds⟩ := bind_eq_ok.mp h
  obtain ⟨cs, hcs, rfl⟩ := map_eq_ok.mp (mapError_eq_ok.mp hcomments)
  exact ⟨cs, hcs, hds⟩

/-- The edits of a pass are those of the comments for which something is pending. -/
theorem mem_proposedEdits_of_checkBytes (honly : l.enabledChecks = [Check.directives])
    (h : l.checkBytes language path source = .ok ds)
    (hcs : l.placedComments language path source = .ok cs) {e : Edit} :
    e ∈ proposedEdits ds ↔
      ∃ c ∈ cs, ∃ t, l.pending? path language.hasDocComments c.text = some t ∧ e = c.edit t := by
  obtain ⟨cs', hcs', hds⟩ := checkBytes_eq_ok h
  obtain rfl := Except.ok.inj (hcs.symm.trans hcs')
  rw [mem_proposedEdits_iff honly hds]
  constructor
  · rintro ⟨d, hd, code, t, hfix, hshows, he⟩
    obtain ⟨a, ha, rfl⟩ := List.mem_map.mp hd
    obtain ⟨c, hc, i, hi⟩ := DirectiveComment.exists_of_mem_ofComments ha
    rw [PlacedComment.replacement_of_recognize? hi] at he
    refine ⟨c, hc, t, pending?_eq_some_iff.mpr ⟨code, ?_, hshows⟩, (Except.ok.inj he).symm⟩
    rw [← PlacedComment.fixes_eq language.hasDocComments i, PlacedComment.fixes, hi]
    exact hfix
  · rintro ⟨c, hc, t, hpending, rfl⟩
    obtain ⟨code, hfix, hshows⟩ := pending?_eq_some_iff.mp hpending
    have hsome : (CommentReading.ofText? language.hasDocComments c.text).isSome :=
      PlacedComment.isSome_of_mem_fixes (c := PlacedComment.atStart c.text) hfix
    obtain ⟨a, ha, i, hi⟩ := DirectiveComment.exists_mem_ofComments hc hsome 0
    refine ⟨_, List.mem_map_of_mem ha, code, t, ?_, hshows,
      PlacedComment.replacement_of_recognize? hi t⟩
    rw [← PlacedComment.fixes_eq language.hasDocComments i, PlacedComment.fixes, hi] at hfix
    exact hfix

/-- A pass settles the text of every comment. -/
theorem textAfter_eq_settle (honly : l.enabledChecks = [Check.directives])
    (h : l.checkBytes language path source = .ok ds)
    (hcs : l.placedComments language path source = .ok cs) {c : PlacedComment} (hc : c ∈ cs) :
    c.textAfter (proposedEdits ds) = l.settle path language.hasDocComments c.text := by
  have hmem {e : Edit} := mem_proposedEdits_of_checkBytes honly h hcs (e := e)
  unfold PlacedComment.textAfter settle
  split
  · next e hfind =>
    -- the edit comes from a comment in the same range, which has the same text
    obtain ⟨c', hc', t, ht, rfl⟩ := hmem.mp (List.mem_of_find?_eq_some hfind)
    have hrange : (c'.edit t).start = c.start ∧ (c'.edit t).stop = c.stop := by
      simpa using List.find?_some hfind
    obtain ⟨span, -, hspan⟩ := (mem_of_mapM hcs).mp hc
    obtain ⟨span', -, hspan'⟩ := (mem_of_mapM hcs).mp hc'
    have htext := PlacedComment.text_eq_of_range hspan hspan' hrange.1.symm hrange.2.symm
    rw [htext, ht]
    rfl
  · next hfind =>
    cases hpending : l.pending? path language.hasDocComments c.text with
    | none => rfl
    | some t =>
      have hedit : c.edit t ∈ proposedEdits ds := hmem.mpr ⟨c, hc, t, hpending, rfl⟩
      exact absurd (List.find?_eq_none.mp hfind _ hedit) (by simp [PlacedComment.edit])

/-! ## Texts along the passes -/

/-- The texts that the comments of a file get by the edits of a pass. -/
def editedTexts (l : Linter) (language : Language) (path : Text) (source : Bytes) :
    Except FileError (List Text) := do
  let ds ← l.checkBytes language path source
  let cs ← (l.placedComments language path source).mapError FileError.undecodableComment
  return cs.map (·.textAfter (proposedEdits ds))

/-- After each pass within the limit the same comments are found, with their new texts. -/
def KeepsComments (l : Linter) (language : Language) (path : Text) (source : Bytes) : Prop :=
  ∀ k < l.settings.passes.count, ∀ s s' texts,
    afterPasses (l.checkBytes language path) source k = .ok s →
    afterPasses (l.checkBytes language path) source (k + 1) = .ok s' →
    l.editedTexts language path s = .ok texts →
    ∃ cs, l.placedComments language path s' = .ok cs ∧ cs.map (·.text) = texts

/-- The texts after a number of passes are the first ones, settled as many times. -/
theorem texts_afterPasses (honly : l.enabledChecks = [Check.directives])
    (hkeeps : l.KeepsComments language path source)
    (hcs : l.placedComments language path source = .ok cs) {k : ℕ}
    (hk : k ≤ l.settings.passes.count)
    (hs : afterPasses (l.checkBytes language path) source k = .ok s) :
    ∃ cs', l.placedComments language path s = .ok cs' ∧ cs'.map (·.text) =
      (cs.map (·.text)).map (l.settle path language.hasDocComments)^[k] := by
  induction k generalizing s with
  | zero =>
    obtain rfl := Except.ok.inj hs
    exact ⟨cs, hcs, by simp⟩
  | succ k ih =>
    obtain ⟨s₀, ds, hs₀, hds⟩ := exists_of_afterPasses_succ hs
    obtain ⟨cs₀, hcs₀, htexts₀⟩ := ih (by omega) hs₀
    have hedited : l.editedTexts language path s₀ =
        .ok (cs₀.map (·.textAfter (proposedEdits ds))) := by
      simp only [editedTexts, hds, hcs₀]
      rfl
    obtain ⟨cs', hcs', htexts⟩ := hkeeps k hk s₀ s _ hs₀ hs hedited
    refine ⟨cs', hcs', ?_⟩
    calc cs'.map (·.text) = cs₀.map (·.textAfter (proposedEdits ds)) := htexts
      _ = cs₀.map fun c => l.settle path language.hasDocComments c.text :=
        List.map_congr_left fun c hc => textAfter_eq_settle honly hds hcs₀ hc
      _ = (cs₀.map (·.text)).map (l.settle path language.hasDocComments) := by
        rw [List.map_map]
        rfl
      _ = _ := by
        rw [htexts₀, List.map_map, Function.iterate_succ']

/-- Every comment is rewritten six times at most, whatever its text and wherever it stands. So
with no other check than that of directives, fixing a file converges within six passes and more
so within the ten of the default limit, provided that each pass keeps the comments. -/
theorem comment_rewriting_converges :
    (∀ (language : Language) (t : Text), ∃ n ≤ 6, ∃ t',
      rewrites language.hasDocComments n t = some t' ∧
        rewrite? language.hasDocComments t' = none) ∧
    (∀ (language : Language) (index : ℕ) (c : PlacedComment),
      c.rewrite? language.hasDocComments index = rewrite? language.hasDocComments c.text) ∧
    ∀ (l : Linter) (language : Language) (path : Text) (source : Bytes),
      l.enabledChecks = [Check.directives] → 6 ≤ l.settings.passes.count →
      l.KeepsComments language path source →
      ∀ limit, l.fixBytes language path source ≠ .error (.notConverged limit) := by
  refine ⟨fun language t => ?_, fun language index c => PlacedComment.rewrite?_eq _ index c, ?_⟩
  · obtain ⟨n, hn, hend⟩ := exists_rewrites language.hasDocComments t
    exact ⟨n, hn.trans (rewritesLeft_le _ t), hend⟩
  · intro l language path source honly hlimit hkeeps limit h
    obtain ⟨-, hfixable⟩ := fixBytes_eq_notConverged_iff.mp h
    obtain ⟨s, ds, hs, hds, hany⟩ := hfixable 6 hlimit
    obtain ⟨s₀, ds₀, hs₀, hds₀, -⟩ := hfixable 0 (Nat.zero_le _)
    obtain rfl := Except.ok.inj hs₀
    obtain ⟨cs₀, hcs₀, -⟩ := checkBytes_eq_ok hds₀
    obtain ⟨cs, hcs, htexts⟩ := texts_afterPasses honly hkeeps hcs₀ hlimit hs
    -- an edit in the seventh pass would belong to a comment that was settled six times
    have hne : proposedEdits ds ≠ [] := fun hnil => by
      rw [proposedEdits_eq_nil_iff.mp hnil] at hany
      exact absurd hany (by simp)
    obtain ⟨e, he⟩ := List.exists_mem_of_ne_nil _ hne
    obtain ⟨c, hc, t, hpending, -⟩ := (mem_proposedEdits_of_checkBytes honly hds hcs).mp he
    have hmem : c.text ∈ cs.map (·.text) := List.mem_map_of_mem hc
    rw [htexts] at hmem
    obtain ⟨t₀, -, ht₀⟩ := List.mem_map.mp hmem
    rw [← ht₀, pending?_iterate_settle (rewritesLeft_le _ t₀)] at hpending
    exact nomatch hpending

/-- A comment with a marker and a glued note is fixed in two passes. -/
theorem marker_with_note_converges :
    ({} : Linter).KeepsComments .python "a.py" (utf8 "# @legacy-ignore-line A--b\n".toList) ∧
      ∀ limit, ({} : Linter).fixBytes .python "a.py" (utf8 "# @legacy-ignore-line A--b\n".toList) ≠
        .error (.notConverged limit) := by
  have hkeeps : ({} : Linter).KeepsComments .python "a.py"
      (utf8 "# @legacy-ignore-line A--b\n".toList) := by
    have hpasses : ∀ k < 10,
        ((afterPasses (({} : Linter).checkBytes .python "a.py")
          (utf8 "# @legacy-ignore-line A--b\n".toList) (k + 1)).toOption.bind fun s' =>
            (({} : Linter).placedComments .python "a.py" s').toOption.map (·.map (·.text))) =
        (afterPasses (({} : Linter).checkBytes .python "a.py")
          (utf8 "# @legacy-ignore-line A--b\n".toList) k).toOption.bind fun s =>
            (({} : Linter).editedTexts .python "a.py" s).toOption := by decide +kernel
    intro k hk s s' texts hs hs' htexts
    have hpass := hpasses k hk
    rw [hs, hs'] at hpass
    obtain ⟨cs, hcs, hmap⟩ := Option.map_eq_some_iff.mp (hpass.trans (congrArg Except.toOption htexts))
    exact ⟨cs, eq_ok_of_toOption hcs, hmap⟩
  exact ⟨hkeeps, comment_rewriting_converges.2.2 {} .python "a.py" _ rfl (by decide) hkeeps⟩

end Linter

end LintDirectives
