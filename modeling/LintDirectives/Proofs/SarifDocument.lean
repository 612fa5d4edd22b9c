import LintDirectives.SarifReport
import LintDirectives.Proofs.DocumentText
import LintDirectives.Proofs.KeyedGroups
import Mathlib.Data.List.Forall2
import Mathlib.Data.List.ReduceOption

/-!
# Reading a SARIF log

What a reader finds in the document of a log: the results are the diagnostics one by one, the rules
are those that the results refer to, each once, and the fixes are the edits of the diagnostics. So
fixes that are taken from a log do to a source what the edits do.
-/

namespace LintDirectives

namespace Json

/-- The value under a key of an object. -/
def field? (key : String) : Json → Option Json
  | object fields => KeyedList.get? key.toList fields
  | _ => none

/-- The value at the end of a path of keys. -/
def at? (j : Json) (path : List String) : Option Json :=
  path.foldlM (fun j key => j.field? key) j

def itemsAt (j : Json) (path : List String) : List Json :=
  match j.at? path with
  | some (array items) => items
  | _ => []

def textAt? (j : Json) (path : List String) : Option Text :=
  match j.at? path with
  | some (text t) => some t
  | _ => none

def intAt? (j : Json) (path : List String) : Option Int :=
  match j.at? path with
  | some (int n) => some n
  | _ => none

end Json

theorem Edit.ofBounds_eq_ok (e : Edit) : Edit.ofBounds e.start e.stop e.text = .ok e := by
  have hle := e.start_le_stop
  have hbounds : (0 : Int) ≤ e.start ∧ (e.start : Int) ≤ e.stop := by omega
  rw [Edit.ofBounds, dif_pos hbounds]
  rfl

namespace Sarif

/-! ## What is read from a document -/

def results (doc : Json) : List Json :=
  (doc.itemsAt ["runs"]).flatMap (·.itemsAt ["results"])

def rules (doc : Json) : List Json :=
  (doc.itemsAt ["runs"]).flatMap (·.itemsAt ["tool", "driver", "rules"])

def usedRules (doc : Json) : List Text :=
  (results doc).filterMap (·.textAt? ["ruleId"])

/-- A replacement in a file, as an edit of the bytes from its offset on. -/
def readReplacement (change replacement : Json) : Option (Text × Edit) := do
  let file ← change.textAt? ["artifactLocation", "uri"]
  let offset ← replacement.intAt? ["deletedRegion", "byteOffset"]
  let length ← replacement.intAt? ["deletedRegion", "byteLength"]
  let inserted ← replacement.textAt? ["insertedContent", "text"]
  (Edit.ofBounds offset (offset + length) inserted).toOption.map (file, ·)

def readFixes (result : Json) : List (Option (Text × Edit)) :=
  (result.itemsAt ["fixes"]).flatMap fun fix =>
    (fix.itemsAt ["artifactChanges"]).flatMap fun change =>
      (change.itemsAt ["replacements"]).map (readReplacement change)

def edits (doc : Json) : List (Text × Edit) :=
  ((results doc).flatMap readFixes).reduceOption

/-- A result tells all of a diagnostic, and its fix if fixes are asked for. -/
structure Reports (withFixes : Bool) (d : Diagnostic) (result : Json) : Prop where
  rule : result.textAt? ["ruleId"] = some d.rule
  level : result.textAt? ["level"] = some d.severity.name
  message : result.textAt? ["message", "text"] = some d.message
  file : (result.itemsAt ["locations"]).map
    (·.textAt? ["physicalLocation", "artifactLocation", "uri"]) = [some d.location.file]
  line : (result.itemsAt ["locations"]).map
    (·.intAt? ["physicalLocation", "region", "startLine"]) = [some d.location.line]
  column : (result.itemsAt ["locations"]).map
    (·.intAt? ["physicalLocation", "region", "startColumn"]) = [d.location.column]
  fixes : readFixes result =
    if withFixes then d.fix.toList.map fun e => some (d.location.file, e) else []
  fixesKey : (result.field? "fixes").isSome = (withFixes && d.isFixable)

/-- The severity of the first diagnostic of a rule. -/
def firstLevel (ds : List Diagnostic) (rule : Text) : Severity :=
  ((ds.find? fun d => d.rule = rule).map (·.severity)).getD .error

/-- An entry of the rules tells of a rule what its first diagnostic does. -/
structure Declares (ds : List Diagnostic) (rule : Text) (entry : Json) : Prop where
  id : entry.textAt? ["id"] = some rule
  name : entry.textAt? ["name"] = some (shortCode rule)
  level : entry.textAt? ["defaultConfiguration", "level"] = some (firstLevel ds rule).name

/-! ## The rules -/

theorem distinctRules_eq (ds : List Diagnostic) : distinctRules ds =
    (ds.map (·.rule)).eraseDups.map fun rule => ⟨rule, shortCode rule, firstLevel ds rule⟩ := by
  have hform := KeyedList.changes_eq (·.rule) (fun d o => o.getD ⟨d.rule, d.code, d.severity⟩)
    (fun rule => (⟨rule, shortCode rule, firstLevel ds rule⟩ : Rule)) ds
    fun rule d rest hown => by
      have hkept (r : Rule) : rest.foldl (fun o (d : Diagnostic) =>
          some (o.getD ⟨d.rule, d.code, d.severity⟩)) (some r) = some r := by
        clear hown
        induction rest with
        | nil => rfl
        | cons d rest ih => exact ih
      have hmem : d ∈ ds.filter fun d => d.rule = rule := hown ▸ List.mem_cons_self
      have hrule : d.rule = rule := by simpa using (List.mem_filter.mp hmem).2
      have hfirst : ds.find? (fun d => d.rule = rule) = some d := by
        rw [← List.head?_filter, hown]
        rfl
      have hlevel : firstLevel ds rule = d.severity := by rw [firstLevel, hfirst]; rfl
      rw [Option.getD_none, hkept, hlevel, Diagnostic.code, hrule]
  have hrun : distinctRules ds = (KeyedList.changes (·.rule)
      (fun d o => o.getD ⟨d.rule, d.code, d.severity⟩) ds []).map Prod.snd := rfl
  rw [hrun, hform, List.map_map]
  rfl

/-! ## The document -/

section Document

variable (withFixes : Bool) (r : RunResult)

theorem results_json : results (Log.ofResult withFixes r).json =
    r.diagnostics.map fun d => (Result.ofDiagnostic withFixes d).json := by
  have hruns : results (Log.ofResult withFixes r).json =
      (r.diagnostics.map (Result.ofDiagnostic withFixes)).map Result.json ++ [] := rfl
  rw [hruns, List.append_nil, List.map_map]
  rfl

theorem rules_json : rules (Log.ofResult withFixes r).json =
    (distinctRules r.diagnostics).map Rule.json := by
  have hruns : rules (Log.ofResult withFixes r).json =
      (distinctRules r.diagnostics).map Rule.json ++ [] := rfl
  rw [hruns, List.append_nil]

theorem readFixes_json (res : Result) : readFixes res.json = res.fix.toList.map fun p =>
    (Edit.ofBounds p.byteOffset (p.byteOffset + p.byteLength) p.inserted).toOption.map (res.uri, ·) := by
  obtain ⟨_, _, _, _, _, _, _ | p⟩ := res <;> rfl

theorem readFixes_ofDiagnostic (d : Diagnostic) :
    readFixes (Result.ofDiagnostic withFixes d).json =
      if withFixes then d.fix.toList.map fun e => some (d.location.file, e) else [] := by
  rw [readFixes_json, Result.ofDiagnostic]
  cases withFixes with
  | false => rfl
  | true =>
    cases d.fix with
    | none => rfl
    | some e =>
      have hle := e.start_le_stop
      have hstop : (e.start : Int) + ((e.stop - e.start : ℕ) : Int) = e.stop := by omega
      simp [Replacement.ofEdit, hstop, Edit.ofBounds_eq_ok, Except.toOption]

theorem reports_ofDiagnostic (d : Diagnostic) :
    Reports withFixes d (Result.ofDiagnostic withFixes d).json where
  rule := rfl
  level := rfl
  message := rfl
  file := rfl
  line := rfl
  column := by
    obtain ⟨_, _, ⟨_, _, _ | column⟩, _⟩ := d <;> rfl
  fixes := readFixes_ofDiagnostic withFixes d
  fixesKey := by
    obtain ⟨_, _, _, _, _, _ | e⟩ := d <;> cases withFixes <;> rfl

theorem edits_json (r : RunResult) : edits (Log.ofResult true r).json =
    r.diagnostics.filterMap fun d => d.fix.map (d.location.file, ·) := by
  rw [edits, results_json]
  induction r.diagnostics with
  | nil => rfl
  | cons d ds ih =>
    rw [List.map_cons, List.flatMap_cons, List.reduceOption_append, ih, readFixes_ofDiagnostic,
      List.filterMap_cons]
    cases d.fix <;> rfl

theorem usedRules_json : usedRules (Log.ofResult withFixes r).json = r.diagnostics.map (·.rule) := by
  rw [usedRules, results_json, List.filterMap_map]
  induction r.diagnostics with
  | nil => rfl
  | cons d ds ih => rw [List.map_cons, ← ih]; rfl

end Document

theorem map_snd_filter_edits (files : Text → Bool) (ds : List Diagnostic) :
    ((ds.filterMap fun d => d.fix.map (d.location.file, ·)).filter fun (file, _) => files file).map
      Prod.snd = (ds.filter fun d => files d.location.file).filterMap (·.fix) := by
  induction ds with
  | nil => rfl
  | cons d ds ih =>
    by_cases hfile : files d.location.file <;> cases hfix : d.fix <;> simp [hfile, hfix, ih]

/-- The document of a log has one result for each diagnostic, in their order, that tells all of it. Its
rules are those that the results refer to, each once and in the order in which they first come, as their
first diagnostics have them. The text that is shown is that of no other document. With fixes, the edits
that are read from it are those of the diagnostics, in their files, so that applying them to the files
among some does the same. -/
theorem log_reads_back (r : RunResult) :
    (∀ withFixes, let doc := (Log.ofResult withFixes r).json
      render withFixes r = doc.render 0 ∧
      (∀ doc' : Json, doc'.render 0 = render withFixes r → doc' = doc) ∧
      List.Forall₂ (Reports withFixes) r.diagnostics (results doc) ∧
      List.Forall₂ (Declares r.diagnostics) (usedRules doc).eraseDups (rules doc) ∧
      ((rules doc).map (·.textAt? ["id"])).Nodup) ∧
    let doc := (Log.ofResult true r).json
    (edits doc = r.diagnostics.filterMap fun d => d.fix.map (d.location.file, ·)) ∧
    ∀ (files : Text → Bool) source,
      Edit.applyAll source (((edits doc).filter fun (file, _) => files file).map Prod.snd) =
        Edit.applyAll source ((r.diagnostics.filter fun d => files d.location.file).filterMap (·.fix)) := by
  refine ⟨fun withFixes => ⟨rfl, fun _ hdoc => Json.render_injective 0 hdoc, ?_, ?_, ?_⟩, edits_json r,
    fun files source => ?_⟩
  · rw [results_json, List.forall₂_map_right_iff, List.forall₂_same]
    exact fun d _ => reports_ofDiagnostic withFixes d
  · rw [usedRules_json, rules_json, distinctRules_eq, List.map_map, List.forall₂_map_right_iff,
      List.forall₂_same]
    exact fun rule _ => ⟨rfl, rfl, rfl⟩
  · rw [rules_json, distinctRules_eq, List.map_map, List.map_map]
    exact (KeyedList.nodup_eraseDups _).map fun _ _ => Option.some.inj
  · rw [edits_json, map_snd_filter_edits]

private def repeatedRule : RunResult where
  target := "."
  diagnostics := [
    ⟨"names", "names.short", ⟨"b", 1, none⟩, .error, "Too short.", some ⟨0, 1, "ab", by decide⟩⟩,
    ⟨"names", "names.long", ⟨"a", 2, some 4⟩, .warning, "Too long.", none⟩,
    ⟨"names", "names.short", ⟨"b", 3, none⟩, .warning, "Too short.", none⟩]

-- Two diagnostics of one rule: it stands among the rules once, with the level of the first of them.
example : let doc := (Log.ofResult true repeatedRule).json
    (rules doc).map (fun rule => (rule.textAt? ["id"], rule.textAt? ["defaultConfiguration", "level"])) =
      [(some "names.short".toList, some "error".toList), (some "names.long".toList, some "warning".toList)] ∧
    usedRules doc = ["names.short", "names.long", "names.short"].map String.toList ∧
    (results doc).map (fun result => (result.field? "fixes").isSome) = [true, false, false] ∧
    edits doc = [(['b'], ⟨0, 1, "ab", by decide⟩)] :=
  ⟨rfl, rfl, rfl, rfl⟩

end Sarif

end LintDirectives
