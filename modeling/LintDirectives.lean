import LintDirectives.Main
import LintDirectives.Proofs.TextSearch
import LintDirectives.Proofs.TrimmedText
import LintDirectives.Proofs.CommentDelimiters
import LintDirectives.Proofs.DirectiveLayout
import LintDirectives.Proofs.GluedCodes
import LintDirectives.Proofs.CodeOccurrence
import LintDirectives.Proofs.NoteRepair
import LintDirectives.Proofs.MarkerReplacement
import LintDirectives.Proofs.CommentConvergence
import LintDirectives.Proofs.RepairPlacement
import LintDirectives.Proofs.CommentContainment
import LintDirectives.Proofs.FixLoop
import LintDirectives.Proofs.DirectiveDiagnostics
import LintDirectives.Proofs.DiagnosticPlaces
import LintDirectives.Proofs.SuppressionScopes
import LintDirectives.Proofs.FixConvergence
import LintDirectives.Proofs.SuppressionTracking
import LintDirectives.Proofs.OpenRegions
import LintDirectives.Proofs.PairingHistory
import LintDirectives.Proofs.SuppressedLines
import LintDirectives.Proofs.ReportedFindings
import LintDirectives.Proofs.BareDirectives
import LintDirectives.Proofs.RawCodeReading
import LintDirectives.Proofs.EncodedTexts
import LintDirectives.Proofs.EditSplicing
import LintDirectives.Proofs.CommentSpans
import LintDirectives.Proofs.CommentEdits
import LintDirectives.Proofs.EditConflicts
import LintDirectives.Proofs.SuccessiveEdits
import LintDirectives.Proofs.DirectiveRoundTrip
import LintDirectives.Proofs.MigratedTagLine
import LintDirectives.Proofs.CheckIndependence
import LintDirectives.Proofs.IgnoredRules
import LintDirectives.Proofs.FileTreePaths
import LintDirectives.Proofs.FileWriting
import LintDirectives.Proofs.FileOutcomes
import LintDirectives.Proofs.FileCollection
import LintDirectives.Proofs.ProjectAgreement
import LintDirectives.Proofs.FixIsolation
import LintDirectives.Proofs.ShownValues
import LintDirectives.Proofs.SettingsFaults
import LintDirectives.Proofs.ConfigSearch
import LintDirectives.Proofs.SettingsOverrides
import LintDirectives.Proofs.KeyedGroups
import LintDirectives.Proofs.ListedRules
import LintDirectives.Proofs.DocumentText
import LintDirectives.Proofs.SarifDocument
import LintDirectives.Proofs.GroupedReport
import LintDirectives.Proofs.DottedRules
import LintDirectives.Proofs.ReadDirectives
import LintDirectives.Proofs.CanonicalRepair
