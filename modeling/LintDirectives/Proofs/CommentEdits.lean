import LintDirectives.Proofs.CommentSpans
import LintDirectives.Proofs.EditSplicing
import LintDirectives.Proofs.FixConvergence
import LintDirectives.Proofs.ReportedFindings

/-!
# Edits of comments

A directive comment is found with its exact range, and the check of directives proposes at most one
edit for it, which replaces that range. So the edits of a pass never conflict, whichever of them are
applied, and all bytes outside of the comments stay. Since the ranges hold texts, a source in UTF-8
stays one from pass to pass.
-/

namespace LintDirectives

open Text FailingSteps

/-! ## Where directive comments stand -/

def Span.bounds (span : Span) : Int × Int := (span.start, span.stop)

def DirectiveComment.bounds (a : DirectiveComment) : Int × Int := (a.start, a.stop)

def Edit.bounds (e : Edit) : Int × Int := (e.start, e.stop)

theorem Source.length_slice {source : Bytes} {span : Span} (h : span.stop ≤ source.length) :
    (slice source span).length = span.stop - span.start := by
  simp only [slice, List.length_take, List.length_drop]
  omega

theorem PlacedComment.start_of_ofSpan {path : Text} {source : Bytes} {span : Span}
    {c : PlacedComment} (h : ofSpan path source span = .ok c) :
    c.start = span.start ∧ utf8 c.text = Source.slice source span := by
  unfold ofSpan at h
  split at h
  · next text htext =>
    cases h
    exact ⟨rfl, utf8_of_ofUtf8? htext⟩
  · exact nomatch h

/-- The directive comments that stand in ranges of a source: numbered from zero, in the order of
their ranges, each with the text of its range. -/
structure CommentsIn (source : Bytes) (spans : List Span) (comments : List DirectiveComment) :
    Prop where
  index : comments.map (·.index) = List.range comments.length
  bounds : (comments.map (·.bounds)).Sublist (spans.map (·.bounds))
  bytes : ∀ a ∈ comments, ∃ span ∈ spans, a.bounds = span.bounds ∧
    utf8 a.raw = Source.slice source span

namespace DirectiveComment

theorem index_ofComments (docComments : Bool) (i : ℕ) (cs : List PlacedComment) :
    (ofComments docComments i cs).map (·.index) =
      List.range' i (ofComments docComments i cs).length := by
  induction cs generalizing i with
  | nil => rfl
  | cons c cs ih =>
    rw [ofComments]
    split
    · next a ha =>
      have hindex : a.index = i := by
        obtain ⟨r, -, rfl⟩ := Option.map_eq_some_iff.mp ha
        rfl
      rw [List.map_cons, List.length_cons, List.range'_succ, hindex, ih]
    · exact ih i

theorem bounds_of_recognize? {docComments : Bool} {i : ℕ} {c : PlacedComment}
    {a : DirectiveComment} (h : c.recognize? docComments i = some a) :
    a.bounds = (Int.ofNat c.start, Int.ofNat c.stop) := by
  obtain ⟨r, -, -, -, -, hraw, hstart⟩ := PlacedComment.exists_reading_of_recognize? h
  simp [bounds, stop, hraw, hstart, PlacedComment.stop]

theorem bounds_ofComments (docComments : Bool) (i : ℕ) (cs : List PlacedComment) :
    ((ofComments docComments i cs).map (·.bounds)).Sublist
      (cs.map fun c => (Int.ofNat c.start, Int.ofNat c.stop)) := by
  induction cs generalizing i with
  | nil => exact List.Sublist.slnil
  | cons c cs ih =>
    rw [ofComments]
    split
    · next a ha =>
      rw [List.map_cons, List.map_cons, bounds_of_recognize? ha]
      exact (ih (i + 1)).cons_cons _
    · exact (ih i).cons _

/-- The directive comments found in ordered ranges stand in them. -/
theorem commentsIn_of_ofSpans {docComments : Bool} {path : Text} {source : Bytes}
    {spans : List Span} {comments : List DirectiveComment}
    (hspans : Source.OrderedSpans source spans)
    (h : ofSpans docComments path source spans = .ok comments) :
    CommentsIn source spans comments := by
  obtain ⟨cs, hcs, rfl⟩ := map_eq_ok.mp h
  have hplaced {span : Span} (hspan : span ∈ spans) {c : PlacedComment}
      (hc : PlacedComment.ofSpan path source span = .ok c) :
      (Int.ofNat c.start, Int.ofNat c.stop) = span.bounds := by
    obtain ⟨hstart, hbytes⟩ := PlacedComment.start_of_ofSpan hc
    have hlength := Source.length_slice (hspans.inside span hspan)
    have hpos := hspans.nonempty span hspan
    have hstop : c.stop = span.stop := by
      rw [PlacedComment.stop, hbytes, hlength, hstart]
      omega
    rw [hstart, hstop]
    rfl
  refine ⟨?_, ?_, ?_⟩
  · rw [index_ofComments, List.range_eq_range']
  · have hbounds := map_eq_of_mapM hcs fun span hspan c hc => hplaced hspan hc
    rw [← hbounds]
    exact bounds_ofComments docComments 0 cs
  · intro a ha
    obtain ⟨c, hc, i, hi⟩ := exists_of_mem_ofComments ha
    obtain ⟨span, hspan, hofSpan⟩ := (mem_of_mapM hcs).mp hc
    obtain ⟨r, -, -, -, -, hraw, -⟩ := PlacedComment.exists_reading_of_recognize? hi
    refine ⟨span, hspan, (bounds_of_recognize? hi).trans (hplaced hspan hofSpan), ?_⟩
    rw [hraw]
    exact (PlacedComment.start_of_ofSpan hofSpan).2

end DirectiveComment

/-! ## What is proposed for them -/

theorem Directive.about_ownFindings_sublist (d : Directive) :
    (d.ownFindings.map (·.about)).Sublist [d] := by
  have habout : ∀ f ∈ d.ownFindings, f.about = d := fun f hf => about_of_mem_ownFindings hf
  have hlength := d.length_ownFindings_le
  generalize d.ownFindings = fs at habout hlength
  match fs with
  | [] => simp
  | [f] => simp [habout f List.mem_cons_self]
  | _ :: _ :: _ => simp at hlength

/-- At most one finding about each directive proposes a new text. -/
theorem DirectiveAudit.about_sublist (ds : List Directive) :
    (((findings ds).filter (·.newText.isSome)).map (·.about)).Sublist ds := by
  have hrounds (o : OpenSuppressions) :
      (((rounds o ds).flatten.filter (·.newText.isSome)).map (·.about)).Sublist ds := by
    induction ds generalizing o with
    | nil =>
      have hend : o.unclosed.filter (·.newText.isSome) = [] := by
        refine List.filter_eq_nil_iff.mpr fun f hf => ?_
        simp [OpenSuppressions.newText_of_mem_unclosed hf]
      simp [rounds, hend]
    | cons d ds ih =>
      have hstep : (OpenSuppressions.step o d).2.filter (·.newText.isSome) = [] := by
        refine List.filter_eq_nil_iff.mpr fun f hf => ?_
        simp [OpenSuppressions.newText_of_mem_step hf]
      have hown : ((d.ownFindings.filter (·.newText.isSome)).map (·.about)).Sublist [d] :=
        (List.filter_sublist.map _).trans d.about_ownFindings_sublist
      rw [rounds, List.flatten_cons, List.filter_append, List.filter_append, hstep, List.append_nil,
        List.map_append]
      exact hown.append (ih _)
  exact hrounds []

theorem Edit.bounds_of_ofBounds {start stop : Int} {text : Text} {e : Edit}
    (h : ofBounds start stop text = .ok e) : e.bounds = (start, stop) := by
  unfold ofBounds at h
  split at h
  · next hrange =>
    cases h
    simp only [bounds, Prod.mk.injEq]
    omega
  · cases h

/-- The edits of entries replace the comments of the findings with a new text. -/
theorem Finding.bounds_of_mapM {check rules : Text} {fs : List Finding}
    {entries : List Sink.Entry} (h : fs.mapM (Finding.entry check rules) = .ok entries) :
    (entries.filterMap (·.fix)).map (·.bounds) =
      (fs.filter (·.newText.isSome)).map (·.about.comment.bounds) := by
  induction fs generalizing entries with
  | nil =>
    cases h
    rfl
  | cons f fs ih =>
    rw [List.mapM_cons] at h
    obtain ⟨entry, hentry, h⟩ := bind_eq_ok.mp h
    obtain ⟨rest, hrest, h⟩ := bind_eq_ok.mp h
    cases h
    have hfix {e : Edit} := Finding.fix_of_entry hentry (e := e)
    cases hnew : f.newText with
    | none =>
      have hnone : entry.fix = none := by
        cases he : entry.fix with
        | none => rfl
        | some e =>
          obtain ⟨t, ht, -⟩ := hfix.mp he
          simp [hnew] at ht
      rw [List.filterMap_cons_none hnone, List.filter_cons_of_neg (by simp [hnew]), ih hrest]
    | some t =>
      obtain ⟨e, he⟩ : ∃ e, entry.fix = some e := by
        obtain ⟨fix, hfinding, rfl⟩ := map_eq_ok.mp hentry
        rw [Finding.fix, hnew] at hfinding
        obtain ⟨e, -, rfl⟩ := map_eq_ok.mp hfinding
        exact ⟨e, rfl⟩
      obtain ⟨t', -, hreplacement⟩ := hfix.mp he
      rw [List.filterMap_cons_some he, List.filter_cons_of_pos (by simp [hnew]), List.map_cons,
        List.map_cons, ih hrest, Edit.bounds_of_ofBounds hreplacement]
      rfl

structure EditsOf (source : Bytes) (comments : List DirectiveComment) (edits : List Edit) :
    Prop where
  bounds : (edits.map (·.bounds)).Sublist (comments.map (·.bounds))
  separate : Edit.Separate source.length edits
  texts : ∀ e ∈ edits, ∃ v, v ≠ [] ∧
    (source.drop e.start).take (e.stop - e.start) = utf8 v

variable {source : Bytes} {spans : List Span} {comments : List DirectiveComment}

theorem CommentsIn.start_nonneg (h : CommentsIn source spans comments) {d : Directive}
    (hd : d ∈ comments.map Directive.classify) : 0 ≤ d.comment.start := by
  obtain ⟨a, ha, rfl⟩ := List.mem_map.mp hd
  obtain ⟨span, -, hbounds, -⟩ := h.bytes a ha
  have hstart : a.start = span.start := (Prod.mk.inj hbounds).1
  rw [Directive.classify_comment]
  omega

/-- Edits whose ranges are those of some comments are separate and replace texts. -/
theorem CommentsIn.editsOf (h : CommentsIn source spans comments)
    (hspans : Source.OrderedSpans source spans) {edits : List Edit}
    (hedits : (edits.map (·.bounds)).Sublist (comments.map (·.bounds))) :
    EditsOf source comments edits := by
  have hspan {e : Edit} (he : e ∈ edits) : ∃ span ∈ spans, ∃ a ∈ comments,
      e.start = span.start ∧ e.stop = span.stop ∧ utf8 a.raw = Source.slice source span := by
    obtain ⟨a, ha, hbounds⟩ := List.mem_map.mp (hedits.subset (List.mem_map_of_mem he))
    obtain ⟨span, hspan, hbounds', hbytes⟩ := h.bytes a ha
    obtain ⟨hstart, hstop⟩ := Prod.mk.inj (hbounds.symm.trans hbounds')
    exact ⟨span, hspan, a, ha, Int.ofNat.inj hstart, Int.ofNat.inj hstop, hbytes⟩
  have hpairwise : edits.Pairwise fun e e' => e.stop ≤ e'.start := by
    have hordered : (spans.map (·.bounds)).Pairwise fun x y => x.2 ≤ y.1 :=
      List.pairwise_map.mpr (hspans.ordered.imp fun hle => Int.ofNat_le.mpr hle)
    have hsub := hordered.sublist (hedits.trans h.bounds)
    exact (List.pairwise_map.mp hsub).imp fun hle => Int.ofNat_le.mp hle
  refine ⟨hedits, .of_pairwise hpairwise ?_ ?_, ?_⟩
  · intro e he
    obtain ⟨span, hmem, -, -, hstart, hstop, -⟩ := hspan he
    rw [hstart, hstop]
    exact hspans.nonempty span hmem
  · intro e he
    obtain ⟨span, hmem, -, -, -, hstop, -⟩ := hspan he
    rw [hstop]
    exact hspans.inside span hmem
  · intro e he
    obtain ⟨span, hmem, a, -, hstart, hstop, hbytes⟩ := hspan he
    have hlength := Source.length_slice (hspans.inside span hmem)
    have hpos := hspans.nonempty span hmem
    refine ⟨a.raw, ?_, ?_⟩
    · intro hnil
      rw [← hbytes, hnil, utf8_nil, List.length_nil] at hlength
      omega
    · rw [hbytes, hstart, hstop]
      rfl

/-- The check of directives gives its entries, whatever else it sees, and at most one edit for
each comment. -/
theorem CommentsIn.exists_entries (h : CommentsIn source spans comments)
    (hspans : Source.OrderedSpans source spans) :
    ∃ entries, (∀ context : CheckContext, context.directives = comments.map Directive.classify →
        Check.directives.entries context = .ok entries) ∧
      EditsOf source comments (entries.filterMap (·.fix)) := by
  obtain ⟨entries, hentries⟩ := DirectiveAudit.exists_entries (fun d hd => h.start_nonneg hd)
    "directives" (Check.rules "directives")
  refine ⟨entries, fun context hcontext => ?_, h.editsOf hspans ?_⟩
  · rw [← hcontext] at hentries
    exact mapError_eq_ok.mpr hentries
  have hsub := (DirectiveAudit.about_sublist (comments.map Directive.classify)).map
    (·.comment.bounds)
  have hcomments : (comments.map Directive.classify).map (·.comment.bounds) =
      comments.map (·.bounds) := by
    rw [List.map_map]
    exact List.map_congr_left fun a _ => by simp
  rw [List.map_map, hcomments] at hsub
  rw [Finding.bounds_of_mapM hentries]
  exact hsub

/-- Any of the edits can be applied together: each byte outside of their ranges is kept, and a
source in UTF-8 stays one. -/
theorem EditsOf.exists_applyAll {edits chosen : List Edit} (h : EditsOf source comments edits)
    (hchosen : chosen ⊆ edits) :
    ∃ result, Edit.applyAll source chosen = .ok result ∧
      (∀ out, Edit.Rewritten chosen 0 source out ↔ out = result) ∧
      ((ofUtf8? source).isSome → (ofUtf8? result).isSome) := by
  have hseparate := h.separate.of_subset hchosen
  obtain ⟨result, hresult, hrewritten⟩ := hseparate.exists_applyAll
  refine ⟨result, hresult, hrewritten, fun hsource => ?_⟩
  rw [isSome_ofUtf8?_iff] at hsource ⊢
  obtain rfl := Except.ok.inj (hresult.symm.trans hseparate.applyAll_eq)
  refine Edit.isEncoded_splice hseparate.pairwise_ordered (fun e _ => Nat.zero_le _) ?_ hsource
  intro e he
  rw [Nat.sub_zero]
  exact h.texts e (hchosen (Edit.mem_ordered.mp he))

/-! ## Fixing keeps sources readable -/

namespace Linter

variable {l : Linter} {language : Language} {path : Text} {s s' : Bytes} {ds : List Diagnostic}

/-- Checks that all are the check of directives record its entries only. -/
theorem fix_of_mem_runChecks {settings : Settings} {checks : List Check} {file : CheckedFile}
    {entries : List Sink.Entry} (honly : ∀ c ∈ checks, c = Check.directives)
    (hentries : ∀ context : CheckContext, context.directives = file.directives →
      Check.directives.entries context = .ok entries) {sink after : Sink}
    (h : runChecks settings checks file sink = .ok after) {d : Diagnostic} (hd : d ∈ after.diagnostics) :
    d ∈ sink.diagnostics ∨ ∃ entry ∈ entries, d.fix = entry.fix := by
  induction checks generalizing sink with
  | nil =>
    obtain rfl := Except.ok.inj h
    exact .inl hd
  | cons c checks ih =>
    obtain ⟨next, hrun, h⟩ := bind_eq_ok.mp h
    obtain rfl := honly c List.mem_cons_self
    obtain ⟨entries', hentries', rfl⟩ := map_eq_ok.mp hrun
    obtain rfl := Except.ok.inj ((hentries _ rfl).symm.trans hentries')
    rcases ih (fun c hc => honly c (List.mem_cons_of_mem _ hc)) h with hd | hd
    · rw [show Check.directives.pastSuppressions = true from rfl, if_pos rfl,
        Sink.foldl_report_diagnostics] at hd
      rcases List.mem_append.mp hd with hd | hd
      · exact .inl hd
      · obtain ⟨entry, hentry, rfl⟩ := List.mem_map.mp hd
        exact .inr ⟨entry, hentry, rfl⟩
    · exact .inr hd

/-- The edits of a pass are among those that the check of directives proposes. -/
theorem proposedEdits_subset (honly : ∀ c ∈ l.enabledChecks, c = Check.directives)
    {file : CheckedFile} (h : l.checkFile file = .ok ds) {entries : List Sink.Entry}
    (hentries : ∀ context : CheckContext, context.directives = file.directives →
      Check.directives.entries context = .ok entries) :
    proposedEdits ds ⊆ entries.filterMap (·.fix) := by
  intro e he
  rw [proposedEdits, List.mem_eraseDups] at he
  obtain ⟨d, hd, hfix⟩ := List.mem_filterMap.mp he
  obtain ⟨sink, hsink, h⟩ := bind_eq_ok.mp h
  obtain ⟨kept, hkept, h⟩ := bind_eq_ok.mp h
  obtain rfl := Except.ok.inj h
  rw [List.mem_mergeSort, Settings.mem_withoutIgnored (mapError_eq_ok.mp hkept),
    List.mem_filter] at hd
  rcases fix_of_mem_runChecks honly hentries (mapError_eq_ok.mp hsink) hd.1.1 with
    hnone | ⟨entry, hentry, hsame⟩
  · simp at hnone
  · exact List.mem_filterMap.mpr ⟨entry, hentry, hsame ▸ hfix⟩

/-- A pass over ordered comments meets no conflict and keeps a source in UTF-8. -/
theorem exists_pass (honly : ∀ c ∈ l.enabledChecks, c = Check.directives)
    (hspans : Source.OrderedSpans s (l.findComments language path s))
    (h : l.checkBytes language path s = .ok ds) :
    ∃ s', Edit.applyAll s (proposedEdits ds) = .ok s' ∧
      ((ofUtf8? s).isSome → (ofUtf8? s').isSome) := by
  obtain ⟨comments, hcomments, hds⟩ := bind_eq_ok.mp h
  have hin := DirectiveComment.commentsIn_of_ofSpans hspans (mapError_eq_ok.mp hcomments)
  obtain ⟨entries, hentries, hedits⟩ := hin.exists_entries hspans
  obtain ⟨s', hs', -, hutf8⟩ :=
    hedits.exists_applyAll (proposedEdits_subset honly hds hentries)
  exact ⟨s', hs', hutf8⟩

/-- All sources along the passes are in UTF-8 if the first one is. -/
theorem isSome_ofUtf8?_afterPasses (honly : ∀ c ∈ l.enabledChecks, c = Check.directives)
    (hspans : ∀ s, Source.OrderedSpans s (l.findComments language path s)) {source : Bytes}
    (hsource : (ofUtf8? source).isSome) {k : ℕ}
    (h : afterPasses (l.checkBytes language path) source k = .ok s) : (ofUtf8? s).isSome := by
  induction k generalizing s with
  | zero =>
    obtain rfl := Except.ok.inj h
    exact hsource
  | succ k ih =>
    obtain ⟨s₀, ds, hs₀, hds⟩ := exists_of_afterPasses_succ h
    obtain ⟨s', hs', hutf8⟩ := exists_pass honly (hspans s₀) hds
    have hpass : pass (l.checkBytes language path) s₀ = .ok s' := by
      rw [pass_of_ok hds, hs']
      rfl
    rw [afterPasses_succ_of_ok hs₀, hpass] at h
    obtain rfl := Except.ok.inj h
    exact hutf8 (ih hs₀)

theorem fixBytes_error (honly : ∀ c ∈ l.enabledChecks, c = Check.directives)
    (hspans : ∀ s, Source.OrderedSpans s (l.findComments language path s)) {source : Bytes}
    {e : FileError} (h : l.fixBytes language path source = .error e) :
    e ≠ .undecodableText ∧ ∀ c, e ≠ .conflict c := by
  rcases fixPasses_cases (l.checkBytes language path) l.settings.passes l.settings.passes.count
    source 0 with ⟨k, -, s, ds, -, hok⟩ | ⟨s, e', hcheck, herror⟩ |
      ⟨k, -, s, ds, c, -, hds, hconflict, -⟩ | ⟨-, herror⟩
  · exact nomatch h.symm.trans hok
  · obtain rfl := Except.error.inj (h.symm.trans herror)
    rcases checkBytes_eq_error hcheck with ⟨_, rfl⟩ | ⟨_, rfl⟩ | ⟨_, rfl⟩ <;>
      exact ⟨nofun, nofun⟩
  · obtain ⟨s', hs', -⟩ := exists_pass honly (hspans s) hds
    exact nomatch hconflict.symm.trans hs'
  · obtain rfl := Except.error.inj (h.symm.trans herror)
    exact ⟨nofun, nofun⟩

theorem exists_readBack (honly : ∀ c ∈ l.enabledChecks, c = Check.directives)
    (hspans : ∀ s, Source.OrderedSpans s (l.findComments language path s)) {t : Text} {r : Fixed}
    (h : l.fixBytes language path (utf8 t) = .ok r) : ∃ t', readBack r.source = .ok t' := by
  obtain ⟨k, -, hfirst, -⟩ := fixBytes_eq_ok_iff.mp h
  have hsource : (ofUtf8? (utf8 t)).isSome := by simp [ofUtf8?_utf8]
  obtain ⟨t', ht'⟩ := Option.isSome_iff_exists.mp
    (isSome_ofUtf8?_afterPasses honly hspans hsource hfirst.reached)
  exact ⟨t', by simp only [readBack, ht']⟩

/-- Fixing a text meets neither a conflict nor bytes that are no text. -/
theorem fixText_error (honly : ∀ c ∈ l.enabledChecks, c = Check.directives)
    (hspans : ∀ language, Language.ofPath? path = some language →
      ∀ s, Source.OrderedSpans s (l.findComments language path s)) {t : Text} {e : FileError}
    (h : l.fixText path t = .error e) : e ≠ .undecodableText ∧ ∀ c, e ≠ .conflict c := by
  cases hpath : Language.ofPath? path with
  | none =>
    rcases bind_eq_error h with h | ⟨language, hlanguage, -⟩
    · rw [languageOf, hpath] at h
      obtain rfl := Except.error.inj h
      exact ⟨nofun, nofun⟩
    · rw [languageOf, hpath] at hlanguage
      exact nomatch hlanguage
  | some language =>
    have hlanguage : languageOf path = .ok language := by rw [languageOf, hpath]
    rw [fixText, hlanguage] at h
    change (l.fixBytes language path (utf8 t) >>= _) = _ at h
    rcases bind_eq_error h with h | ⟨r, hr, h⟩
    · exact fixBytes_error honly (hspans language hpath) h
    · obtain ⟨t', ht'⟩ := exists_readBack honly (hspans language hpath) hr
      rw [ht'] at h
      exact nomatch h

end Linter

/-- For every source and all ordered ranges of comments in it, as far as the comments can be read:
the directive comments stand in their ranges, and the check of directives proposes at most one edit
for each of them, with its range. Any of these edits can be applied, and the result is the source
with their ranges replaced and all other bytes kept; if the source is in UTF-8, so is the result. So
where no other check is enabled and comments are always found in ordered ranges, fixing a text never
fails by a conflict or by bytes that are no text. -/
theorem fixes_replace_only_comments :
    (∀ (docComments : Bool) (path : Text) (source : Bytes) (spans : List Span)
      (comments : List DirectiveComment), Source.OrderedSpans source spans →
      DirectiveComment.ofSpans docComments path source spans = .ok comments →
      CommentsIn source spans comments ∧
      ∃ entries, (∀ context : CheckContext,
          context.directives = comments.map Directive.classify →
            Check.directives.entries context = .ok entries) ∧
        ((entries.filterMap (·.fix)).map (·.bounds)).Sublist (comments.map (·.bounds)) ∧
        ∀ chosen ⊆ entries.filterMap (·.fix), ∃ result,
          Edit.applyAll source chosen = .ok result ∧
          (∀ out, Edit.Rewritten chosen 0 source out ↔ out = result) ∧
          ((ofUtf8? source).isSome → (ofUtf8? result).isSome)) ∧
    ∀ (l : Linter) (path : Text), (∀ c ∈ l.enabledChecks, c = Check.directives) →
      (∀ language, Language.ofPath? path = some language →
        ∀ source, Source.OrderedSpans source (l.findComments language path source)) →
      ∀ t e, l.fixText path t = .error e → e ≠ .undecodableText ∧ ∀ c, e ≠ .conflict c := by
  constructor
  · intro docComments path source spans comments hspans hcomments
    have hin := DirectiveComment.commentsIn_of_ofSpans hspans hcomments
    obtain ⟨entries, hentries, hedits⟩ := hin.exists_entries hspans
    exact ⟨hin, entries, hentries, hedits.bounds, fun _ hchosen => hedits.exists_applyAll hchosen⟩
  · intro l path honly hspans t e h
    exact Linter.fixText_error honly hspans h

private def fixableSource : Bytes :=
  utf8 "s = 'é' # lint:ignore A--ü\n# @legacy-ignore-line B\n"

private def fixableContext (comments : List DirectiveComment) : CheckContext where
  toCheckedFile := .ofComments .python "a.py" fixableSource comments
  settings := {}
  isSuppressed := fun _ _ => false

private def noteRepair : Edit where
  start := 9
  stop := 28
  text := "# lint:ignore A -- ü"

private def markerMigration : Edit where
  start := 29
  stop := 52
  text := "# lint:ignore B"

/-- One of two edits behind a character of several bytes is applied and leaves the rest of the
source alone. Fixing Python texts meets no conflict. -/
theorem note_repaired_beside_marker :
    Source.OrderedSpans fixableSource (commentSpans .python "a.py" fixableSource) ∧
    (∃ comments entries, DirectiveComment.ofSpans false "a.py" fixableSource
          (commentSpans .python "a.py" fixableSource) = .ok comments ∧
        Check.directives.entries (fixableContext comments) = .ok entries ∧
        entries.filterMap (·.fix) = [noteRepair, markerMigration]) ∧
    Edit.Rewritten [noteRepair] 0 fixableSource
      (utf8 "s = 'é' # lint:ignore A -- ü\n# @legacy-ignore-line B\n") ∧
    ({} : Linter).enabledChecks = [Check.directives] ∧
    ∀ t e, ({} : Linter).fixText "a.py" t = .error e →
      e ≠ .undecodableText ∧ ∀ c, e ≠ .conflict c := by
  have hspans (source : Bytes) :
      Source.OrderedSpans source (commentSpans .python "a.py" source) :=
    orderedSpans_commentSpans (.inl rfl) "a.py" source
  have hfound : ((DirectiveComment.ofSpans false "a.py" fixableSource
      (commentSpans .python "a.py" fixableSource)).toOption.bind fun comments =>
        (Check.directives.entries (fixableContext comments)).toOption.map
          fun entries => entries.filterMap (·.fix)) =
      some [noteRepair, markerMigration] := by decide +kernel
  obtain ⟨comments, hcomments, hentries⟩ := Option.bind_eq_some_iff.mp hfound
  obtain ⟨entries, hentries, hfixes⟩ := Option.map_eq_some_iff.mp hentries
  have hcomments := eq_ok_of_toOption hcomments
  have hentries := eq_ok_of_toOption hentries
  obtain ⟨-, entries', hentries', -, happly⟩ := fixes_replace_only_comments.1 false "a.py"
    fixableSource _ comments (hspans _) hcomments
  obtain rfl := Except.ok.inj (hentries.symm.trans (hentries' _ rfl))
  obtain ⟨result, hresult, hrewritten, -⟩ := happly [noteRepair] (by simp [hfixes])
  have hspliced : Edit.applyAll fixableSource [noteRepair] =
      .ok (utf8 "s = 'é' # lint:ignore A -- ü\n# @legacy-ignore-line B\n") :=
    eq_ok_of_toOption (by decide +kernel)
  have honly : ({} : Linter).enabledChecks = [Check.directives] := rfl
  refine ⟨hspans _, ⟨comments, entries, hcomments, hentries, hfixes⟩, ?_, honly, ?_⟩
  · exact (hrewritten _).mpr (Except.ok.inj (hspliced.symm.trans hresult))
  · intro t e h
    refine fixes_replace_only_comments.2 {} "a.py" (by simp [honly]) ?_ t e h
    intro language hlanguage source
    obtain rfl : Language.python = language :=
      Option.some.inj ((by decide +kernel : Language.ofPath? "a.py" = some .python).symm.trans
        hlanguage)
    exact hspans source

end LintDirectives
