import ImportGroups.Violation
import ImportGroups.Text.Blank
import ImportGroups.Text.Lines
import ImportGroups.Text.Utf8
import ImportGroups.Text.Quoted
import ImportGroups.Text.Identifier
import ImportGroups.FileTree.Basic
import ImportGroups.Pattern.Basic
import ImportGroups.FileTree.Edit
import ImportGroups.Walk
import ImportGroups.Yaml.Token
import ImportGroups.Yaml.Scalar
import ImportGroups.Yaml.Value
import ImportGroups.ConfigFile
import ImportGroups.RootPackage
import ImportGroups.Report
import ImportGroups.Source.Query
import ImportGroups.CommandLine.Run
import ImportGroups.Main
import ImportGroups.Proofs.GapPartition
import ImportGroups.Proofs.Validation
import ImportGroups.Proofs.FirstViolation
import ImportGroups.Proofs.ExitStatus
import ImportGroups.Proofs.Reading.Column
import ImportGroups.Proofs.Reading.Marks
import ImportGroups.Proofs.Reading.Single
import ImportGroups.Proofs.Reading.Tables
import ImportGroups.Proofs.Header.Layout
import ImportGroups.Proofs.Reading.Outline
import ImportGroups.Proofs.Header.Specs
import ImportGroups.Proofs.Header.Blocks
import ImportGroups.Proofs.Header.Reading
import ImportGroups.Proofs.Header.Pieces
import ImportGroups.Proofs.Header.Imports
import ImportGroups.Proofs.Header.Terminators
import ImportGroups.Proofs.Body.Reading
import ImportGroups.Proofs.RoundTrip
import ImportGroups.Proofs.Body.Imports
import ImportGroups.Proofs.Split
import ImportGroups.Proofs.OwnPackages
import ImportGroups.Proofs.SortedTree
import ImportGroups.Proofs.Walk
import ImportGroups.Proofs.PatternClosure
import ImportGroups.Proofs.Pruning
import ImportGroups.Proofs.Soundness.Zones
import ImportGroups.Proofs.Soundness.Transitions
import ImportGroups.Proofs.Soundness.Trees
import ImportGroups.Proofs.Soundness.Tokens
import ImportGroups.Proofs.Soundness.Ways
import ImportGroups.Proofs.Soundness.Stacks
import ImportGroups.Proofs.Soundness.Contest
import ImportGroups.Proofs.Soundness.Forming
import ImportGroups.Proofs.Soundness.Recovery
import ImportGroups.Proofs.Soundness.Whole
import ImportGroups.Proofs.Soundness.Rounds
import ImportGroups.Proofs.Records
import ImportGroups.Proofs.Declarations.Nesting
import ImportGroups.Proofs.Declarations.Gaps
import ImportGroups.Proofs.Declarations.Groups
import ImportGroups.Proofs.RootLookup
import ImportGroups.Proofs.Independence
import ImportGroups.Proofs.FollowingLinks
import ImportGroups.Proofs.Yaml.Scanning
import ImportGroups.Proofs.Yaml.Leftovers
import ImportGroups.Proofs.LoadHistory
import ImportGroups.Proofs.BadPatterns
import ImportGroups.Proofs.BreakingOff.Setup
import ImportGroups.Proofs.BreakingOff.Starts
import ImportGroups.Proofs.BreakingOff.Run
import ImportGroups.Proofs.Lines
import ImportGroups.Proofs.ModuleDirective
import ImportGroups.Proofs.Exclusion
import ImportGroups.Proofs.IgnoreFile
import ImportGroups.Proofs.VendorDirectory
import ImportGroups.Proofs.Configuration
import ImportGroups.Proofs.TextParts
import ImportGroups.Proofs.JsonText
import ImportGroups.Proofs.Reports
import ImportGroups.Proofs.Wording
import ImportGroups.Proofs.Truncation.Depths
import ImportGroups.Proofs.Truncation.Guilt
import ImportGroups.Proofs.Truncation.Law
import ImportGroups.Proofs.Truncation.Footing
import ImportGroups.Proofs.Truncation.Lineup
import ImportGroups.Proofs.Truncation.Fall
import ImportGroups.Proofs.Truncation.Words
import ImportGroups.Proofs.Truncation.Ending
import ImportGroups.Proofs.Truncation.Remnants
import ImportGroups.Proofs.Truncation.Halts
import ImportGroups.Proofs.Truncation.Cuts
import ImportGroups.Proofs.Truncation
import ImportGroups.Proofs.LeadingComment
