import RuleLint.Command.Run
import RuleLint.Server.Basic
import RuleLint.Proofs.Settings.Resolution
import RuleLint.Proofs.Session.Exclusion
import RuleLint.Proofs.Session.Reopening
import RuleLint.Proofs.Session.Ascending
import RuleLint.Proofs.Session.Refresh
import RuleLint.Proofs.Session.Serving
import RuleLint.Proofs.Session.Separation
import RuleLint.Proofs.Session.OpenOnly
import RuleLint.Proofs.Server.Freshness
import RuleLint.Proofs.Check.Instances
import RuleLint.Proofs.Check.SameFindings
import RuleLint.Proofs.Check.Limits
import RuleLint.Proofs.Check.Shifted
import RuleLint.Proofs.Check.Silencing
import RuleLint.Proofs.FileTree.SystemPath
import RuleLint.Proofs.FileTree.Listing
import RuleLint.Proofs.FileTree.Directories
import RuleLint.Proofs.FileTree.Walk
import RuleLint.Proofs.Text.Literals
import RuleLint.Proofs.Files.Opened
import RuleLint.Proofs.Text.Offsets
import RuleLint.Proofs.Check.Assignments
import RuleLint.Proofs.Check.Parentheses
import RuleLint.Proofs.Check.Quotes
import RuleLint.Proofs.Check.Arguments
import RuleLint.Proofs.Check.ClassEscapes
import RuleLint.Proofs.Text.Parts
import RuleLint.Proofs.Check.Keys
import RuleLint.Proofs.Check.Comparisons
import RuleLint.Proofs.Check.Reports
import RuleLint.Proofs.Check.Spellings
import RuleLint.Proofs.Config.Layers
import RuleLint.Proofs.Check.Losses
import RuleLint.Proofs.Check.Ordering
import RuleLint.Proofs.Check.FieldTokens
import RuleLint.Proofs.Check.Directives
import RuleLint.Proofs.Config.Nearest
import RuleLint.Proofs.FileTree.PathOrder
import RuleLint.Proofs.Check.Displays
import RuleLint.Proofs.Check.Comments
import RuleLint.Proofs.Report.Agreement
