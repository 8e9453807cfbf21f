import PackageFlags.CommandLine.Arguments
import PackageFlags.CommandLine.Run
import PackageFlags.Constraint
import PackageFlags.Description.Cps
import PackageFlags.Description.Flaw
import PackageFlags.Description.Legacy
import PackageFlags.Description.Loading
import PackageFlags.Description.Members
import PackageFlags.Description.Properties
import PackageFlags.Description.RequiresList
import PackageFlags.Environment
import PackageFlags.Failure
import PackageFlags.FileSystem
import PackageFlags.Flags.Basic
import PackageFlags.Flags.Document
import PackageFlags.Flags.Line
import PackageFlags.Flags.Merging
import PackageFlags.Graph.Basic
import PackageFlags.InstallRoot
import PackageFlags.Json.Magnitude
import PackageFlags.Json.Reader
import PackageFlags.Json.Value
import PackageFlags.Json.Writer
import PackageFlags.Language
import PackageFlags.Layout
import PackageFlags.Main
import PackageFlags.NameMap
import PackageFlags.Order
import PackageFlags.Package
import PackageFlags.Path
import PackageFlags.Proofs.Answers
import PackageFlags.Proofs.Compatibility
import PackageFlags.Proofs.Description.FieldsRead
import PackageFlags.Proofs.Description.LanguageLists
import PackageFlags.Proofs.Description.LineByLine
import PackageFlags.Proofs.Description.MinimumVersions
import PackageFlags.Proofs.Description.PerLanguage
import PackageFlags.Proofs.Description.RequiresGrammar
import PackageFlags.Proofs.Description.Schema
import PackageFlags.Proofs.Description.UnknownContent
import PackageFlags.Proofs.Flags.Definitions
import PackageFlags.Proofs.Flags.Documents
import PackageFlags.Proofs.Flags.LegacyAnswers
import PackageFlags.Proofs.Flags.LinkNames
import PackageFlags.Proofs.Flags.Totality
import PackageFlags.Proofs.Graph.Beside
import PackageFlags.Proofs.Graph.DependencyOrder
import PackageFlags.Proofs.Graph.Unused
import PackageFlags.Proofs.InstallRoots
import PackageFlags.Proofs.Json.Places
import PackageFlags.Proofs.Outline
import PackageFlags.Proofs.Paths
import PackageFlags.Proofs.Registry.Candidates
import PackageFlags.Proofs.Registry.Independence
import PackageFlags.Proofs.Registry.Recursion
import PackageFlags.Proofs.Registry.Repetition
import PackageFlags.Proofs.Selection.LegacyPackages
import PackageFlags.Proofs.StatedPaths
import PackageFlags.Proofs.Substitution
import PackageFlags.Proofs.Version.Grammar
import PackageFlags.Proofs.Version.Verdicts
import PackageFlags.Query
import PackageFlags.Registry.Basic
import PackageFlags.Registry.Building
import PackageFlags.Remaining
import PackageFlags.Report
import PackageFlags.SearchPath
import PackageFlags.Selection.Basic
import PackageFlags.Selection.Propagation
import PackageFlags.Text.Blank
import PackageFlags.Text.Pieces
import PackageFlags.Unrecognized
import PackageFlags.Version.Comparison
import PackageFlags.Version.Operator
import PackageFlags.Version.Simple
