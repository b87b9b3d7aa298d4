import PathOwners.Text.Blank
import PathOwners.Text.Alphanumeric
import PathOwners.Text.Quoted
import PathOwners.Text.Split
import PathOwners.Text.Lines
import PathOwners.Text.Padding
import PathOwners.Rule.Basic
import PathOwners.Rule.Line
import PathOwners.Glob.Error
import PathOwners.Glob.Body
import PathOwners.Glob.Token
import PathOwners.Glob.Scan
import PathOwners.Glob.Expr
import PathOwners.Glob.Plan
import PathOwners.Glob.Basic
import PathOwners.Specificity
import PathOwners.RuleSet
import PathOwners.Owner
import PathOwners.Cache
import PathOwners.Session
import PathOwners.Files
import PathOwners.Command.Options
import PathOwners.Command.Log.Event
import PathOwners.Command.Log.ValuePattern
import PathOwners.Command.Log.Directive
import PathOwners.Command.Log.Filter
import PathOwners.Command.Report
import PathOwners.Command.Run
import PathOwners.Main
import PathOwners.Proofs.Specificity.Standing
import PathOwners.Proofs.Specificity.Order
import PathOwners.Proofs.Specificity.Chain
import PathOwners.Proofs.Specificity.Clear
import PathOwners.Proofs.Specificity.Criteria
import PathOwners.Proofs.RuleSet.Best
import PathOwners.Proofs.RuleSet.Unbeaten
import PathOwners.Proofs.Glob.Marks
import PathOwners.Proofs.Glob.Language
import PathOwners.Proofs.Glob.PlanLanguage
import PathOwners.Proofs.Glob.OpenClass
import PathOwners.Proofs.Glob.Steps
import PathOwners.Proofs.Glob.ClassMembers
import PathOwners.Proofs.Glob.Descent
import PathOwners.Proofs.Glob.Balance
import PathOwners.Proofs.Glob.SoundTokens
import PathOwners.Proofs.Glob.ExprReader
import PathOwners.Proofs.Glob.ExprText
import PathOwners.Proofs.Glob.Meaning
import PathOwners.Proofs.Glob.Lexeme
import PathOwners.Proofs.Glob.PlainScan
import PathOwners.Proofs.Glob.Escape
import PathOwners.Proofs.Glob.Reading
import PathOwners.Proofs.Glob.StarRun
import PathOwners.Proofs.Glob.Expansion
import PathOwners.Proofs.Glob.Braces
import PathOwners.Proofs.RuleSet.LineByLine
import PathOwners.Proofs.RuleSet.FileOrder
import PathOwners.Proofs.Text.Pieces
import PathOwners.Proofs.Text.Blank
import PathOwners.Proofs.Rule.Layout
import PathOwners.Proofs.Rule.Content
import PathOwners.Proofs.Rule.Grammar
import PathOwners.Proofs.Rule.LineEndings
import PathOwners.Proofs.Rule.Protected
import PathOwners.Proofs.Rule.Written
import PathOwners.Proofs.Rule.Surroundings
import PathOwners.Proofs.Rule.Quoted
import PathOwners.Proofs.RuleSet.IdleLine
import PathOwners.Proofs.Cache.Contents
import PathOwners.Proofs.Session.History
import PathOwners.Proofs.Glob.Directory
import PathOwners.Proofs.Glob.Behind
import PathOwners.Proofs.Glob.Nesting
import PathOwners.Proofs.Glob.AnyDirectories
import PathOwners.Proofs.Glob.Occurrences
import PathOwners.Proofs.Specificity.Segments
import PathOwners.Proofs.Command.Options
import PathOwners.Proofs.RuleSet.Owners
import PathOwners.Proofs.Rule.Characters
import PathOwners.Proofs.Files
import PathOwners.Proofs.Command.ListedPaths
import PathOwners.Proofs.Command.Lines
import PathOwners.Proofs.Command.Matches
import PathOwners.Proofs.Command.Outcome
import PathOwners.Proofs.Command.PathArguments
import PathOwners.Proofs.Command.Input
import PathOwners.Proofs.Glob.Backslashes
import PathOwners.Proofs.Owner.Shape
import PathOwners.Proofs.Owner.Page
import PathOwners.Proofs.Glob.Crossing
import PathOwners.Proofs.Glob.Separators
import PathOwners.Proofs.Glob.Joined
