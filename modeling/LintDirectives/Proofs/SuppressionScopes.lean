import LintDirectives.Proofs.DirectiveDiagnostics

/-!
# Suppressions while scopes are open

Scopes may be opened inside one another, also on one line, and an inner scope on a line finds its
entry already taken away. An open scope has therefore saved the entry of its line in the first
suppressions, unless a scope outside of it is open on the same line. With this, whatever is done with
a sink, its suppressions are the first ones without the lines of the open scopes, and each entry that
is recorded or dropped is counted.
-/

namespace LintDirectives

namespace LineSuppressions

def without (lines : List Int) (s : LineSuppressions) : LineSuppressions :=
  s.filter fun pair => decide (pair.1 ∉ lines)

def MatchedAt (s : LineSuppressions) (line : Int) (rule : Text) : Prop :=
  ∃ patterns, KeyedList.get? line s = some patterns ∧ ∃ p ∈ patterns, ruleMatches rule p

variable {s : LineSuppressions} {lines : List Int} {line line' : Int} {rule : Text}

theorem get?_without (lines : List Int) (line : Int) (s : LineSuppressions) :
    KeyedList.get? line (s.without lines) =
      if line ∈ lines then none else KeyedList.get? line s := by
  rw [without, KeyedList.get?_filter fun line => decide (line ∉ lines)]
  by_cases h : line ∈ lines <;> simp [h]

theorem get?_without_cons_self : KeyedList.get? line (s.without (line :: lines)) = none := by
  rw [get?_without, if_pos List.mem_cons_self]

theorem get?_without_cons_of_ne (h : line' ≠ line) :
    KeyedList.get? line' (s.without (line :: lines)) = KeyedList.get? line' (s.without lines) := by
  rw [get?_without, get?_without]
  simp only [List.mem_cons, h, false_or]

theorem covers_iff : s.covers line rule ↔ s.MatchedAt line rule := by
  unfold covers MatchedAt
  cases KeyedList.get? line s <;> simp

theorem covers_congr {s' : LineSuppressions}
    (h : KeyedList.get? line s = KeyedList.get? line s') (rule : Text) :
    s.covers line rule = s'.covers line rule := by
  rw [covers, covers, h]

theorem covers_without_iff :
    (s.without lines).covers line rule ↔ line ∉ lines ∧ s.MatchedAt line rule := by
  rw [covers_iff, MatchedAt, MatchedAt, get?_without]
  by_cases h : line ∈ lines <;> simp [h]

end LineSuppressions

namespace Sink

open LineSuppressions

/-! ## Runs -/

/-- Perform operations one after the other. -/
def run : Sink → List Step → Sink × List Answer
  | s, [] => (s, [])
  | s, st :: rest =>
    let (next, answer) := s.step st
    let (last, answers) := run next rest
    (last, answer :: answers)

/-- The lines of the open scopes after operations, the innermost first. -/
def openLines (lines : List Int) : List Step → List Int
  | [] => lines
  | .enter line :: rest => openLines (line :: lines) rest
  | .exit :: rest => openLines lines.tail rest
  | _ :: rest => openLines lines rest

/-- What an operation does one after the other. A report and a failing operation happen in a scope of
their own. -/
def Step.parts : Step → List Step
  | .report e => [.enter e.line, .record e, .exit]
  | .fail line rule => [.enter line, .query line rule, .exit]
  | st => [st]

variable {s : Sink} {initial : LineSuppressions}

theorem run_append (s : Sink) (first second : List Step) :
    (s.run (first ++ second)).1 = ((s.run first).1.run second).1 := by
  induction first generalizing s with
  | nil => rfl
  | cons st rest ih => exact ih (s.step st).1

/-- Performing the parts of operations is performing the operations. -/
theorem run_parts (s : Sink) (steps : List Step) :
    (s.run (steps.flatMap Step.parts)).1 = (s.run steps).1 := by
  induction steps generalizing s with
  | nil => rfl
  | cons st rest ih =>
    have hone : (s.run st.parts).1 = (s.step st).1 := by cases st <;> rfl
    rw [List.flatMap_cons, run_append, hone]
    exact ih (s.step st).1

/-! ## What scopes have saved -/

/-- Each scope has saved the entry of its line in the first suppressions, less what the scopes outside
of it took away. -/
def Saved (initial : LineSuppressions) : List (Int × Option (List Text)) → Prop
  | [] => True
  | (line, entry) :: outer =>
    entry = KeyedList.get? line (initial.without (outer.map Prod.fst)) ∧ Saved initial outer

/-- The suppressions are the first ones without the lines of the open scopes, and these can put back
what is missing. -/
structure Lifted (initial : LineSuppressions) (lines : List Int) (s : Sink) : Prop where
  open_lines : s.scopes.map Prod.fst = lines
  entries : ∀ line, KeyedList.get? line s.suppressions =
    KeyedList.get? line (initial.without lines)
  saved : Saved initial s.scopes

variable {lines : List Int}

theorem Lifted.start (path : Text) (initial : LineSuppressions) :
    Lifted initial [] { path, suppressions := initial } where
  open_lines := rfl
  entries line := by simp [get?_without]
  saved := trivial

theorem Lifted.enter (h : Lifted initial lines s) (line : Int) :
    Lifted initial (line :: lines) (s.enter line) where
  open_lines := congrArg (line :: ·) h.open_lines
  entries line' := by
    by_cases hline : line' = line
    · rw [hline, get?_without_cons_self]
      exact KeyedList.get?_erase_self line s.suppressions
    · rw [get?_without_cons_of_ne hline, ← h.entries]
      exact KeyedList.get?_erase_of_ne hline s.suppressions
  saved := ⟨by rw [h.open_lines, h.entries], h.saved⟩

/-- The innermost scope puts its entry back, and that is all that is missing on its line. -/
theorem Lifted.exit (h : Lifted initial lines s) : Lifted initial lines.tail s.exit := by
  obtain ⟨rfl, hentries, hsaved⟩ := h
  unfold Sink.exit
  split
  · next hscopes =>
    rw [hscopes] at hentries ⊢
    exact ⟨by simp [hscopes], hentries, hscopes ▸ hsaved⟩
  · next line patterns outer hscopes =>
    rw [hscopes] at hentries hsaved ⊢
    obtain ⟨hentry, hsaved⟩ := hsaved
    refine ⟨rfl, fun line' => ?_, hsaved⟩
    change KeyedList.get? line' (KeyedList.put line patterns s.suppressions) =
      KeyedList.get? line' (initial.without (outer.map Prod.fst))
    by_cases hline : line' = line
    · rw [hline, ← hentry]
      exact KeyedList.get?_update_self line _ s.suppressions
    · rw [← get?_without_cons_of_ne hline]
      exact (KeyedList.get?_update_of_ne hline _ s.suppressions).trans (hentries line')
  · next line outer hscopes =>
    rw [hscopes] at hentries hsaved ⊢
    obtain ⟨hentry, hsaved⟩ := hsaved
    refine ⟨rfl, fun line' => (hentries line').trans ?_, hsaved⟩
    change KeyedList.get? line' (initial.without (line :: outer.map Prod.fst)) =
      KeyedList.get? line' (initial.without (outer.map Prod.fst))
    -- nothing was saved: the line had no entry, or a scope further out on it took that away
    by_cases hline : line' = line
    · rw [hline, get?_without_cons_self, ← hentry]
    · exact get?_without_cons_of_ne hline

theorem Lifted.record (h : Lifted initial lines s) (e : Entry) :
    Lifted initial lines (s.record e) := by
  unfold Sink.record
  split <;> exact ⟨h.open_lines, h.entries, h.saved⟩

theorem Lifted.step (h : Lifted initial lines s) (st : Step) :
    Lifted initial (openLines lines [st]) (s.step st).1 := by
  cases st with
  | record e => exact h.record e
  | query line rule => exact h
  | report e => exact ((h.enter e.line).record e).exit
  | enter line => exact h.enter line
  | exit => exact h.exit
  | fail line rule => exact (h.enter line).exit

theorem Lifted.run (h : Lifted initial lines s) (steps : List Step) :
    Lifted initial (openLines lines steps) (s.run steps).1 := by
  induction steps generalizing s lines with
  | nil => exact h
  | cons st rest ih =>
    have hlines : openLines lines (st :: rest) = openLines (openLines lines [st]) rest := by
      cases st <;> rfl
    rw [hlines]
    exact ih (h.step st)

theorem Lifted.isSuppressed_iff (h : Lifted initial lines s) {line : Int} {rule : Text} :
    s.isSuppressed line rule ↔ line ∉ lines ∧ initial.MatchedAt line rule := by
  rw [isSuppressed, covers_congr (h.entries line), covers_without_iff]

/-! ## What is counted -/

/-- An operation other than a report says whether it recorded or dropped an entry. -/
theorem counts_step (s : Sink) {st : Step} (hst : ∀ e, st ≠ .report e) :
    (s.step st).1.diagnostics.length =
      s.diagnostics.length + (if (s.step st).2 == .recorded true then 1 else 0) ∧
    (s.step st).1.suppressedCount =
      s.suppressedCount + (if (s.step st).2 == .recorded false then 1 else 0) := by
  cases st with
  | record e => by_cases h : s.isSuppressed e.line e.rule <;> simp [step, Sink.record, h]
  | query line rule => exact ⟨rfl, rfl⟩
  | report e => exact absurd rfl (hst e)
  | enter line => exact ⟨rfl, rfl⟩
  | exit => exact ⟨congrArg List.length (exit_diagnostics s), exit_suppressedCount s⟩
  | fail line rule =>
    exact ⟨congrArg List.length (exit_diagnostics (s.enter line)),
      exit_suppressedCount (s.enter line)⟩

theorem counts_run (s : Sink) {steps : List Step} (hsteps : ∀ e, .report e ∉ steps) :
    (s.run steps).1.diagnostics.length =
      s.diagnostics.length + (s.run steps).2.count (.recorded true) ∧
    (s.run steps).1.suppressedCount =
      s.suppressedCount + (s.run steps).2.count (.recorded false) := by
  induction steps generalizing s with
  | nil => exact ⟨rfl, rfl⟩
  | cons st rest ih =>
    obtain ⟨hdiagnostics, hcount⟩ := counts_step s fun e he => hsteps e (he ▸ List.mem_cons_self)
    obtain ⟨hdiagnostics', hcount'⟩ :=
      ih (s.step st).1 fun e he => hsteps e (List.mem_cons_of_mem st he)
    have hrun : s.run (st :: rest) =
        (((s.step st).1.run rest).1, (s.step st).2 :: ((s.step st).1.run rest).2) := rfl
    rw [hrun, List.count_cons, List.count_cons, hdiagnostics', hcount', hdiagnostics, hcount]
    omega

theorem report_not_mem_parts (e : Entry) (steps : List Step) :
    .report e ∉ steps.flatMap Step.parts := by
  intro h
  obtain ⟨st, -, hst⟩ := List.mem_flatMap.mp h
  cases st <;> simp [Step.parts] at hst

/-- Whatever is done with a sink, a report and a failing operation being done in their parts, so that
this holds at every moment: the suppressions are the first ones without the lines of the open scopes.
An entry is dropped, and a question whether its rule is suppressed affirmed, exactly if its line is in
no open scope and one of the first patterns of the line matches the rule. Once all scopes are closed,
the suppressions are the first ones. There is a diagnostic for each entry that was recorded, and a
count of each that was dropped. -/
theorem run_lifts_open_lines (path : Text) (initial : LineSuppressions) (steps : List Step) :
    let s : Sink := ({ path, suppressions := initial } : Sink).run steps |>.1
    let inParts := ({ path, suppressions := initial } : Sink).run (steps.flatMap Step.parts)
    let lines := openLines [] steps
    (∀ line, KeyedList.get? line s.suppressions = KeyedList.get? line (initial.without lines)) ∧
    (∀ e, (s.step (.record e)).2 = .recorded false ↔
      e.line ∉ lines ∧ initial.MatchedAt e.line e.rule) ∧
    (∀ line rule, (s.step (.query line rule)).2 = .suppressed true ↔
      line ∉ lines ∧ initial.MatchedAt line rule) ∧
    (lines = [] → ∀ line,
      KeyedList.get? line s.suppressions = KeyedList.get? line initial) ∧
    inParts.1 = s ∧
    s.diagnostics.length = inParts.2.count (.recorded true) ∧
    s.suppressedCount = inParts.2.count (.recorded false) := by
  intro s inParts lines
  have hlifted : Lifted initial lines s := (Lifted.start path initial).run steps
  have hparts : inParts.1 = s := run_parts _ steps
  obtain ⟨hdiagnostics, hcount⟩ := counts_run { path, suppressions := initial }
    fun e => report_not_mem_parts e steps
  refine ⟨hlifted.entries, fun e => ?_, fun line rule => ?_, fun hclosed line => ?_, hparts, ?_, ?_⟩
  · rw [← hlifted.isSuppressed_iff]
    simp [step]
  · rw [← hlifted.isSuppressed_iff]
    simp [step]
  · rw [hlifted.entries, hclosed, get?_without, if_neg List.not_mem_nil]
  · rw [← hparts, hdiagnostics, List.length_nil, Nat.zero_add]
  · rw [← hparts, hcount, Nat.zero_add]

/-- Two scopes on a line, with a report between them. -/
private def nestedScopes : List Step :=
  let bareIgnore : Entry := {
    line := 3
    check := "directives"
    rule := "Scalpel.Directives.BareIgnore"
    severity := .error
    message := FindingMessage.bareIgnore }
  [.enter 3, .report bareIgnore, .enter 3, .exit, .exit]

/-- The outer one of two scopes on a line puts back the entry that the inner one did not find. -/
theorem nested_scopes_restore_entry :
    openLines [] nestedScopes = [] ∧
    KeyedList.get? 3 (({ path := "a.py", suppressions := [(3, [wildcard])] } : Sink).run
      nestedScopes).1.suppressions = some [wildcard] := by
  obtain ⟨-, -, -, hclosed, -⟩ := run_lifts_open_lines "a.py" [(3, [wildcard])] nestedScopes
  exact ⟨rfl, hclosed rfl 3⟩

end Sink

end LintDirectives
