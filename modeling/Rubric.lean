import Rubric.Main
import Rubric.Proofs.FlatNodes
import Rubric.Proofs.CursorWalk
import Rubric.Proofs.NodeLinks
import Rubric.Proofs.DetectorActivity
import Rubric.Proofs.AllowedNames
import Rubric.Proofs.DottedPatterns
import Rubric.Proofs.Descendants
import Rubric.Proofs.Strictness
import Rubric.Proofs.TextSlices
import Rubric.Proofs.FindingPlaces
import Rubric.Proofs.FunctionNames
import Rubric.Proofs.SeparateRules
import Rubric.Proofs.SourceOrder
import Rubric.Proofs.JsonLayouts
import Rubric.Proofs.RulesInJson
import Rubric.Proofs.TomlFields
import Rubric.Proofs.RulesInToml
import Rubric.Proofs.JsonReads
import Rubric.Proofs.ViolationsInJson
import Rubric.Proofs.TaggedReads
import Rubric.Proofs.MissingReports
import Rubric.Proofs.CheckOutcome
import Rubric.Proofs.ReportOrder
import Rubric.Proofs.StarterDocument
import Rubric.Proofs.ImportReports
import Rubric.Proofs.ImportClauses
import Rubric.Proofs.ImportVerdicts
import Rubric.Proofs.QuotedModules
import Rubric.Proofs.TopLevelFunctions
import Rubric.Proofs.PresentNodes
import Rubric.Proofs.TreeWideChecks
import Rubric.Proofs.ReassigningExpressions
import Rubric.Proofs.Navigation
import Rubric.Proofs.Occurrences
import Rubric.Proofs.DeclarationKeywords
import Rubric.Proofs.LocalReads
import Rubric.Proofs.RulesSchema
import Rubric.Proofs.LocalValues
import Rubric.Proofs.RenderedObjects
import Rubric.Proofs.LastFields
import Rubric.Proofs.TextLines
import Rubric.Proofs.CompactReport
import Rubric.Proofs.RulesSearch
import Rubric.Proofs.ForeignMembers
