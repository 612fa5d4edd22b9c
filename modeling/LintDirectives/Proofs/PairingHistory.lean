import LintDirectives.Proofs.SuppressionTracking
import Mathlib.Data.List.Forall2
import Mathlib.Data.List.Induction
import Mathlib.Data.List.Pairwise

/-!
# Partners in the history of a file

Whether a code is open can be told from the directives read so far: some `disable` named it, and
no later `enable` closed it. The codes that the audit keeps are the open ones, in the order in
which they were opened, each with the last directive that named it. What the audit says about
missing partners follows from that.
-/

namespace LintDirectives

/-! ## Histories -/

namespace Directive

/-- A `disable` that is not bare opens the codes it names. -/
def Opens (d : Directive) (c : Text) : Prop :=
  d.kind = .disable ∧ d.isBare = false ∧ c ∈ d.targets

/-- An `enable` closes the codes it names, and all codes if it is bare. -/
def Closes (d : Directive) (c : Text) : Prop :=
  d.kind = .enable ∧ (d.isBare = true ∨ c ∈ d.targets)

instance (d : Directive) (c : Text) : Decidable (d.Closes c) :=
  inferInstanceAs (Decidable (_ ∧ _))

theorem not_closes_of_disable {d : Directive} (hkind : d.kind = .disable) (c : Text) :
    ¬ d.Closes c := fun hcloses => by simpa [hkind] using hcloses.1

theorem not_opens_of_enable {d : Directive} (hkind : d.kind = .enable) (c : Text) : ¬ d.Opens c :=
  fun hopens => by simpa [hkind] using hopens.1

end Directive

/-- A code that some directive opened and that no later one closed. -/
def StillOpen (past : List Directive) (c : Text) : Prop :=
  ∃ before d after, past = before ++ d :: after ∧ d.Opens c ∧ ∀ e ∈ after, ¬ e.Closes c

def LastOpener (past : List Directive) (c : Text) (d : Directive) : Prop :=
  ∃ before after, past = before ++ d :: after ∧ d.Opens c ∧ ∀ e ∈ after, ¬ e.Opens c

/-- The place where an open code was opened first since it was last closed: the number of the
directive and the number of the code among those that it names. -/
structure OpenedAt (past : List Directive) (c : Text) (i j : ℕ) : Prop where
  opened : ∃ d, past[i]? = some d ∧ d.Opens c ∧ d.targets[j]? = some c ∧ c ∉ d.targets.take j
  fresh : ¬ StillOpen (past.take i) c
  notClosed : ∀ k d, i < k → past[k]? = some d → ¬ d.Closes c

def OpenedBefore (past : List Directive) (c c' : Text) : Prop :=
  ∃ i j i' j', OpenedAt past c i j ∧ OpenedAt past c' i' j' ∧ (i < i' ∨ i = i' ∧ j < j')

variable {past : List Directive} {d e : Directive} {c c' : Text} {i j : ℕ}

theorem not_stillOpen_nil (c : Text) : ¬ StillOpen [] c := by
  rintro ⟨before, d, after, h, -⟩
  simp at h

theorem stillOpen_append_singleton :
    StillOpen (past ++ [d]) c ↔ d.Opens c ∨ StillOpen past c ∧ ¬ d.Closes c := by
  constructor
  · rintro ⟨before, e, after, h, hopens, hafter⟩
    rcases List.eq_nil_or_concat' after with rfl | ⟨after, last, rfl⟩
    · obtain ⟨-, hd⟩ := List.append_inj' h rfl
      obtain rfl := (List.cons.inj hd).1
      exact .inl hopens
    · rw [← List.cons_append, ← List.append_assoc] at h
      obtain ⟨rfl, hd⟩ := List.append_inj' h rfl
      obtain rfl := (List.cons.inj hd).1
      exact .inr ⟨⟨before, e, after, rfl, hopens, fun x hx => hafter x (by simp [hx])⟩,
        hafter d (by simp)⟩
  · rintro (hopens | ⟨⟨before, e, after, rfl, hopens, hafter⟩, hcloses⟩)
    · exact ⟨past, d, [], rfl, hopens, by simp⟩
    · refine ⟨before, e, after ++ [d], by simp, hopens, fun x hx => ?_⟩
      rcases List.mem_append.mp hx with hx | hx
      · exact hafter x hx
      · rwa [List.mem_singleton.mp hx]

theorem lastOpener_self (past : List Directive) (h : d.Opens c) : LastOpener (past ++ [d]) c d :=
  ⟨past, [], rfl, h, by simp⟩

theorem LastOpener.append_singleton (h : LastOpener past c e) (hd : ¬ d.Opens c) :
    LastOpener (past ++ [d]) c e := by
  obtain ⟨before, after, rfl, hopens, hafter⟩ := h
  refine ⟨before, after ++ [d], by simp, hopens, fun x hx => ?_⟩
  rcases List.mem_append.mp hx with hx | hx
  · exact hafter x hx
  · rwa [List.mem_singleton.mp hx]

theorem OpenedAt.lt_length (h : OpenedAt past c i j) : i < past.length := by
  obtain ⟨d, hd, -⟩ := h.opened
  exact (List.getElem?_eq_some_iff.mp hd).1

/-- A place stays the same as long as the code is not closed. -/
theorem OpenedAt.append_singleton (h : OpenedAt past c i j) (hd : ¬ d.Closes c) :
    OpenedAt (past ++ [d]) c i j where
  opened := by
    obtain ⟨e, he, hopened⟩ := h.opened
    exact ⟨e, by rw [List.getElem?_append_left h.lt_length, he], hopened⟩
  fresh := by
    rw [List.take_append_of_le_length (Nat.le_of_lt h.lt_length)]
    exact h.fresh
  notClosed := by
    intro k e hk he
    rcases Nat.lt_or_ge k past.length with hlt | hge
    · rw [List.getElem?_append_left hlt] at he
      exact h.notClosed k e hk he
    · rw [List.getElem?_append_right hge, List.getElem?_singleton] at he
      split at he
      · obtain rfl := Option.some.inj he
        exact hd
      · exact nomatch he

/-- A code that was not open is opened by the directive at the end. -/
theorem openedAt_length (hd : d.Opens c) (hj : d.targets[j]? = some c) (hfirst : c ∉ d.targets.take j)
    (hfresh : ¬ StillOpen past c) : OpenedAt (past ++ [d]) c past.length j where
  opened := ⟨d, by simp, hd, hj, hfirst⟩
  fresh := by
    rw [List.take_append_of_le_length (Nat.le_refl _), List.take_length]
    exact hfresh
  notClosed := by
    intro k e hk he
    have hlt := (List.getElem?_eq_some_iff.mp he).1
    simp at hlt
    omega

theorem OpenedBefore.append_singleton (h : OpenedBefore past c c') (hd : ¬ d.Closes c)
    (hd' : ¬ d.Closes c') : OpenedBefore (past ++ [d]) c c' := by
  obtain ⟨i, j, i', j', hc, hc', hlt⟩ := h
  exact ⟨i, j, i', j', hc.append_singleton hd, hc'.append_singleton hd', hlt⟩

/-! ## The codes that the audit keeps -/

/-- The open codes after a history. -/
structure Tracks (past : List Directive) (o : OpenSuppressions) : Prop where
  nodup : (KeyedList.keys o).Nodup
  mem_keys : ∀ c, c ∈ KeyedList.keys o ↔ StillOpen past c
  opener : ∀ c d, KeyedList.get? c o = some d → LastOpener past c d
  openedAt : ∀ c ∈ KeyedList.keys o, ∃ i j, OpenedAt past c i j
  order : (KeyedList.keys o).Pairwise (OpenedBefore past)

theorem tracks_nil : Tracks [] [] where
  nodup := .nil
  mem_keys := fun c => by simp [KeyedList.keys, not_stillOpen_nil]
  opener := fun c d h => by simp [KeyedList.get?] at h
  openedAt := fun c h => by simp [KeyedList.keys] at h
  order := .nil

/-- The open codes while a `disable` is read, after the first ones that it names. -/
structure Opening (past : List Directive) (d : Directive) (done : List Text)
    (o : OpenSuppressions) : Prop where
  nodup : (KeyedList.keys o).Nodup
  mem_keys : ∀ c, c ∈ KeyedList.keys o ↔ c ∈ done ∨ StillOpen past c
  opener : ∀ c e, KeyedList.get? c o = some e → if c ∈ done then e = d else LastOpener past c e
  openedAt : ∀ c ∈ KeyedList.keys o, ∃ i j, OpenedAt (past ++ [d]) c i j ∧
    (i < past.length ∨ i = past.length ∧ j < done.length)
  order : (KeyedList.keys o).Pairwise (OpenedBefore (past ++ [d]))

variable {o : OpenSuppressions} {done rest : List Text} {code : Text}

theorem Tracks.opening (h : Tracks past o) (hd : ∀ c, ¬ d.Closes c) : Opening past d [] o where
  nodup := h.nodup
  mem_keys := fun c => by simp [h.mem_keys]
  opener := fun c e he => by simpa using h.opener c e he
  openedAt := fun c hc => by
    obtain ⟨i, j, hij⟩ := h.openedAt c hc
    exact ⟨i, j, hij.append_singleton (hd c), .inl hij.lt_length⟩
  order := h.order.imp fun h => h.append_singleton (hd _) (hd _)

/-- Opening one more code keeps its place if it is open, and else puts it last. -/
theorem Opening.put (h : Opening past d done o) (hkind : d.kind = .disable)
    (hbare : d.isBare = false) (htargets : d.targets = done ++ code :: rest) :
    Opening past d (done ++ [code]) (KeyedList.put code d o) := by
  have hkeys : KeyedList.keys (KeyedList.put code d o) = KeyedList.addKey (KeyedList.keys o) code :=
    KeyedList.keys_update code _ o
  have hplaces : ∀ c ∈ KeyedList.keys o, ∃ i j, OpenedAt (past ++ [d]) c i j ∧
      (i < past.length ∨ i = past.length ∧ j < (done ++ [code]).length) := by
    intro c hc
    obtain ⟨i, j, hij, hlt⟩ := h.openedAt c hc
    refine ⟨i, j, hij, hlt.imp_right fun h => ⟨h.1, ?_⟩⟩
    simp only [List.length_append, List.length_singleton]
    omega
  have hmem (c : Text) : c ∈ KeyedList.addKey (KeyedList.keys o) code ↔
      c ∈ done ++ [code] ∨ StillOpen past c := by
    rw [KeyedList.mem_addKey, h.mem_keys, List.mem_append, List.mem_singleton]
    tauto
  have hopener : ∀ c e, KeyedList.get? c (KeyedList.put code d o) = some e →
      if c ∈ done ++ [code] then e = d else LastOpener past c e := by
    intro c e he
    by_cases hc : c = code
    · subst hc
      rw [KeyedList.put, KeyedList.get?_update_self] at he
      rw [if_pos (by simp)]
      exact (Option.some.inj he).symm
    · rw [KeyedList.put, KeyedList.get?_update_of_ne hc] at he
      simpa [hc] using h.opener c e he
  by_cases hopen : code ∈ KeyedList.keys o
  · have hsame : KeyedList.addKey (KeyedList.keys o) code = KeyedList.keys o := if_pos hopen
    exact
      { nodup := by rw [hkeys, hsame]; exact h.nodup
        mem_keys := fun c => by rw [hkeys]; exact hmem c
        opener := hopener
        openedAt := fun c hc => hplaces c (by rwa [hkeys, hsame] at hc)
        order := by rw [hkeys, hsame]; exact h.order }
  · have hnew : KeyedList.addKey (KeyedList.keys o) code = KeyedList.keys o ++ [code] :=
      if_neg hopen
    -- the code is named here for the first time, and it was not open before
    obtain ⟨hdone, hfresh⟩ : code ∉ done ∧ ¬ StillOpen past code := by
      rwa [h.mem_keys, not_or] at hopen
    have hplace : OpenedAt (past ++ [d]) code past.length done.length :=
      openedAt_length ⟨hkind, hbare, by simp [htargets]⟩ (by simp [htargets])
        (by simpa [htargets] using hdone) hfresh
    refine ⟨?_, fun c => by rw [hkeys]; exact hmem c, hopener, ?_, ?_⟩
    · rw [hkeys, hnew]
      refine List.nodup_append.mpr ⟨h.nodup, by simp, fun a ha b hb => ?_⟩
      rw [List.mem_singleton.mp hb]
      exact fun e => hopen (e ▸ ha)
    · intro c hc
      rw [hkeys, hnew, List.mem_append, List.mem_singleton] at hc
      rcases hc with hc | rfl
      · exact hplaces c hc
      · exact ⟨_, _, hplace, .inr ⟨rfl, by simp⟩⟩
    · rw [hkeys, hnew]
      refine List.pairwise_append.mpr ⟨h.order, List.pairwise_singleton _ _, fun c hc c' hc' => ?_⟩
      obtain ⟨i, j, hij, hlt⟩ := h.openedAt c hc
      rw [List.mem_singleton.mp hc']
      exact ⟨i, j, _, _, hij, hplace, hlt⟩

/-- Opening the rest of the codes one after the other. -/
theorem Opening.foldl_put (h : Opening past d done o) (hkind : d.kind = .disable)
    (hbare : d.isBare = false) (htargets : d.targets = done ++ rest) :
    Opening past d d.targets (rest.foldl (fun o code => KeyedList.put code d o) o) := by
  induction rest generalizing done o with
  | nil => simpa [htargets] using h
  | cons code rest ih =>
    exact ih (h.put hkind hbare htargets) (by simp [htargets])

theorem Opening.tracks (h : Opening past d d.targets o) (hkind : d.kind = .disable)
    (hbare : d.isBare = false) : Tracks (past ++ [d]) o where
  nodup := h.nodup
  mem_keys := by
    intro c
    rw [h.mem_keys, stillOpen_append_singleton]
    simp [Directive.Opens, hkind, hbare, Directive.not_closes_of_disable hkind c]
  opener := by
    intro c e he
    have hopener := h.opener c e he
    split at hopener
    · next hc =>
      rw [hopener]
      exact lastOpener_self past ⟨hkind, hbare, hc⟩
    · next hc => exact hopener.append_singleton fun hopens => hc hopens.2.2
  openedAt := by
    intro c hc
    obtain ⟨i, j, hij, -⟩ := h.openedAt c hc
    exact ⟨i, j, hij⟩
  order := h.order

/-- A directive that opens nothing leaves the codes that it does not close. -/
theorem Tracks.filter (h : Tracks past o) (hd : ∀ c, ¬ d.Opens c) :
    Tracks (past ++ [d]) (o.filter fun pair => ¬ d.Closes pair.1) := by
  have hkeys : KeyedList.keys (o.filter fun pair => ¬ d.Closes pair.1) =
      (KeyedList.keys o).filter fun c => ¬ d.Closes c :=
    KeyedList.keys_filter (fun c => ¬ d.Closes c) o
  have hclosed {c : Text} (hc : c ∈ (KeyedList.keys o).filter fun c => ¬ d.Closes c) :
      c ∈ KeyedList.keys o ∧ ¬ d.Closes c := by
    simpa using hc
  refine ⟨?_, fun c => ?_, fun c e he => ?_, fun c hc => ?_, ?_⟩
  · rw [hkeys]
    exact h.nodup.filter _
  · rw [hkeys, stillOpen_append_singleton, List.mem_filter, h.mem_keys]
    simp [hd c]
  · have hget := KeyedList.get?_filter (fun c => ¬ d.Closes c) c o
    rw [hget] at he
    split at he
    · exact (h.opener c e he).append_singleton (hd c)
    · cases he
  · rw [hkeys] at hc
    obtain ⟨hopen, hcloses⟩ := hclosed hc
    obtain ⟨i, j, hij⟩ := h.openedAt c hopen
    exact ⟨i, j, hij.append_singleton hcloses⟩
  · rw [hkeys]
    refine (h.order.filter _).imp_of_mem fun hc hc' hbefore => ?_
    exact hbefore.append_singleton (hclosed hc).2 (hclosed hc').2

theorem Tracks.step (h : Tracks past o) (d : Directive) :
    Tracks (past ++ [d]) (OpenSuppressions.step o d).1 := by
  rcases OpenSuppressions.step_cases o d with
    ⟨hkind, hbare, hstep⟩ | ⟨hkind, hbare, hstep⟩ | ⟨hkind, hbare, hstep⟩ | ⟨hpairs, hstep⟩
  · have hopening := h.opening (Directive.not_closes_of_disable hkind)
    rw [hstep]
    exact (hopening.foldl_put hkind hbare (by simp)).tracks hkind hbare
  · have hall : o.filter (fun pair => ¬ d.Closes pair.1) = [] := by
      simp [Directive.Closes, hkind, hbare]
    rw [hstep, ← hall]
    exact h.filter (Directive.not_opens_of_enable hkind)
  · have hnamed : o.filter (fun pair => pair.1 ∉ d.targets) =
        o.filter fun pair => ¬ d.Closes pair.1 :=
      List.filter_congr fun pair _ => by simp [Directive.Closes, hkind, hbare]
    rw [hstep, OpenSuppressions.closeAll_fst, hnamed]
    exact h.filter (Directive.not_opens_of_enable hkind)
  · have hnone : o.filter (fun pair => ¬ d.Closes pair.1) = o :=
      List.filter_eq_self.mpr fun pair _ => decide_eq_true fun hc => hpairs (.inl hc.1)
    have hfilter := h.filter (d := d) fun c hc => hpairs (.inr ⟨hc.1, hc.2.1⟩)
    rw [hnone] at hfilter
    rw [hstep]
    exact hfilter

/-- The audit keeps the codes that are open, at any point of any file. -/
theorem tracks_afterAll (ds : List Directive) : Tracks ds (OpenSuppressions.afterAll [] ds) := by
  induction ds using List.reverseRecOn with
  | nil => exact tracks_nil
  | append_singleton past d ih =>
    rw [OpenSuppressions.afterAll_append_singleton]
    exact ih.step d

instance (past : List Directive) (c : Text) : Decidable (StillOpen past c) :=
  decidable_of_iff (KeyedList.get? c (OpenSuppressions.afterAll [] past)).isSome
    ((KeyedList.get?_isSome_iff c _).trans ((tracks_afterAll past).mem_keys c))

/-! ## What is said about partners -/

/-- Among the codes of an `enable`, those are reported that are not open, or that it has named
before. -/
theorem OpenSuppressions.closeAll_snd (d : Directive) (codes : List Text) (o : OpenSuppressions) :
    (closeAll d codes o).2 = (codes.zipIdx.filter fun named =>
        ¬ (named.1 ∈ KeyedList.keys o ∧ named.1 ∉ codes.take named.2)).map fun named =>
      d.finding .unmatchedEnable (FindingMessage.unmatchedEnable named.1) := by
  induction codes generalizing o with
  | nil => rfl
  | cons code rest ih =>
    -- the rest is judged as if the code had never been open
    have hrest {o' : OpenSuppressions}
        (ho' : ∀ c, c ∈ KeyedList.keys o' ↔ c ∈ KeyedList.keys o ∧ c ≠ code) :
        (closeAll d rest o').2 = ((rest.zipIdx 1).filter fun named =>
            ¬ (named.1 ∈ KeyedList.keys o ∧ named.1 ∉ (code :: rest).take named.2)).map fun named =>
          d.finding .unmatchedEnable (FindingMessage.unmatchedEnable named.1) := by
      rw [ih, List.zipIdx_succ, List.filter_map, List.map_map]
      refine congrArg _ (List.filter_congr fun named _ => ?_)
      simp only [Function.comp_apply, List.take_succ_cons, ho', List.mem_cons, not_or, and_assoc]
    rw [closeAll, List.zipIdx_cons, List.filter_cons]
    split
    · next hget =>
      have hopen : code ∈ KeyedList.keys o :=
        (KeyedList.get?_isSome_iff code o).mp (by simp [hget])
      have hkeys : KeyedList.keys (KeyedList.erase code o) = (KeyedList.keys o).filter (· ≠ code) :=
        KeyedList.keys_filter (· ≠ code) o
      rw [if_neg (by simp [hopen]), hrest]
      intro c
      rw [hkeys, List.mem_filter]
      simp
    · next hget =>
      have hclosed : code ∉ KeyedList.keys o := fun hopen => by
        simpa [hget] using (KeyedList.get?_isSome_iff code o).mpr hopen
      rw [if_pos (by simp [hclosed]), List.map_cons, Nat.zero_add, ← hrest]
      exact fun c => ⟨fun hc => ⟨hc, fun e => hclosed (e ▸ hc)⟩, And.left⟩

/-- Each open code is reported once, about the last directive that opened it. -/
theorem Tracks.unclosed (h : Tracks past o) :
    List.Forall₂ (fun c f => ∃ d, LastOpener past c d ∧
        f = d.finding .unmatchedDisable (FindingMessage.unmatchedDisable c))
      (KeyedList.keys o) o.unclosed := by
  rw [OpenSuppressions.unclosed, KeyedList.keys, List.forall₂_map_left_iff,
    List.forall₂_map_right_iff, List.forall₂_same]
  rintro ⟨c, d⟩ hpair
  exact ⟨d, h.opener c d (KeyedList.get?_of_mem h.nodup hpair), rfl⟩

namespace DirectiveAudit

/-- The round of an `enable` that is not bare reports the codes in it that are not open when they
are named. -/
theorem unmatchedEnable_of_round (past : List Directive) (rest : List Directive)
    (hkind : d.kind = .enable) (hbare : d.isBare = false) :
    ∃ round, (rounds [] (past ++ d :: rest))[past.length]? = some round ∧
      round.filter (·.code = .unmatchedEnable) = (d.targets.zipIdx.filter fun named =>
          ¬ (StillOpen past named.1 ∧ named.1 ∉ d.targets.take named.2)).map fun named =>
        d.finding .unmatchedEnable (FindingMessage.unmatchedEnable named.1) := by
  refine ⟨_, getElem?_rounds [] past d rest, ?_⟩
  have hown : d.ownFindings.filter (·.code = .unmatchedEnable) = [] := by
    refine List.filter_eq_nil_iff.mpr fun f hf => ?_
    simpa using fun h => Directive.not_isPairing_of_mem_ownFindings hf (.inr h)
  have hall : ∀ f ∈ (OpenSuppressions.step (OpenSuppressions.afterAll [] past) d).2,
      decide (f.code = .unmatchedEnable) = true := fun f hf =>
    decide_eq_true (OpenSuppressions.code_of_mem_step hf)
  have hstep : OpenSuppressions.step (OpenSuppressions.afterAll [] past) d =
      OpenSuppressions.closeAll d d.targets (OpenSuppressions.afterAll [] past) := by
    simp [OpenSuppressions.step, hkind, hbare]
  rw [List.filter_append, hown, List.nil_append, List.filter_eq_self.mpr hall, hstep,
    OpenSuppressions.closeAll_snd]
  refine congrArg _ (List.filter_congr fun named _ => ?_)
  simp only [(tracks_afterAll past).mem_keys]

end DirectiveAudit

/-- The audit of any directives reports exactly the codes that are open at the end, once each, in
the order of their opening and about the last directive that opened them; it reports the codes of
an `enable` that are not open when they are named; and directives that neither open nor close
codes change nothing about that. -/
theorem pairing_matches_history (ds : List Directive) :
    (∃ codes : List Text, codes.Nodup ∧ (∀ c, c ∈ codes ↔ StillOpen ds c) ∧
      codes.Pairwise (OpenedBefore ds) ∧
      List.Forall₂ (fun c f => ∃ d, LastOpener ds c d ∧
          f = d.finding .unmatchedDisable (FindingMessage.unmatchedDisable c))
        codes ((DirectiveAudit.findings ds).filter (·.code = .unmatchedDisable)) ∧
      (DirectiveAudit.rounds [] ds).getLast? =
        some ((DirectiveAudit.findings ds).filter (·.code = .unmatchedDisable))) ∧
    (∀ past d rest, ds = past ++ d :: rest → d.kind = .enable → d.isBare = false →
      ∃ round, (DirectiveAudit.rounds [] ds)[past.length]? = some round ∧
        round.filter (·.code = .unmatchedEnable) = (d.targets.zipIdx.filter fun named =>
            ¬ (StillOpen past named.1 ∧ named.1 ∉ d.targets.take named.2)).map fun named =>
          d.finding .unmatchedEnable (FindingMessage.unmatchedEnable named.1)) ∧
    (DirectiveAudit.findings (ds.filter (·.Pairs))).filter (·.code.IsPairing) =
      (DirectiveAudit.findings ds).filter (·.code.IsPairing) := by
  refine ⟨?_, ?_, DirectiveAudit.filter_isPairing [] ds⟩
  · have h := tracks_afterAll ds
    have hreported : (DirectiveAudit.findings ds).filter (·.code = .unmatchedDisable) =
        (OpenSuppressions.afterAll [] ds).unclosed := DirectiveAudit.filter_unmatchedDisable [] ds
    rw [hreported]
    exact ⟨_, h.nodup, h.mem_keys, h.order, h.unclosed, DirectiveAudit.getLast?_rounds [] ds⟩
  · rintro past d rest rfl hkind hbare
    exact DirectiveAudit.unmatchedEnable_of_round past rest hkind hbare

/-- An `enable` that names an open code twice, and another code, closes the first one once. -/
theorem repeated_code_unmatched :
    ∃ round, (DirectiveAudit.rounds []
        [⟨{ kind := .disable, line := 1, column := 1, index := 0, raw := [] }, false, [['A']]⟩,
          ⟨{ kind := .enable, line := 2, column := 1, index := 1, raw := [] }, false,
            [['A'], ['A'], ['B']]⟩])[1]? = some round ∧
      (round.filter (·.code = .unmatchedEnable)).map (·.message) =
        [FindingMessage.unmatchedEnable ['A'], FindingMessage.unmatchedEnable ['B']] := by
  obtain ⟨round, hround, hreported⟩ := (pairing_matches_history _).2.1
    [⟨{ kind := .disable, line := 1, column := 1, index := 0, raw := [] }, false, [['A']]⟩]
    ⟨{ kind := .enable, line := 2, column := 1, index := 1, raw := [] }, false,
      [['A'], ['A'], ['B']]⟩ [] rfl rfl rfl
  refine ⟨round, hround, ?_⟩
  rw [hreported]
  decide +kernel

end LintDirectives
