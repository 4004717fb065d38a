import StyleProps.CommandLine.Run
import StyleProps.Main
import StyleProps.Proofs.Merge
import StyleProps.Proofs.Separated
import StyleProps.Proofs.Fragments
import StyleProps.Proofs.Builtin
import StyleProps.Proofs.FlatFold
import StyleProps.Proofs.Paths
import StyleProps.Proofs.LastWriter
import StyleProps.Proofs.Lexing
import StyleProps.Proofs.Splitting
import StyleProps.Proofs.Printing
import StyleProps.Proofs.RuleText
import StyleProps.Proofs.ScopedRules
import StyleProps.Proofs.ItemLists
import StyleProps.Proofs.StrictMode
import StyleProps.Proofs.OutputShape
import StyleProps.Proofs.Reordering
import StyleProps.Proofs.PropOrder
import StyleProps.Proofs.Interleaving
import StyleProps.Proofs.Absence
import StyleProps.Proofs.Extension
import StyleProps.Proofs.Visibility
import StyleProps.Proofs.JsonGrammar
import StyleProps.Proofs.JsonStrings
import StyleProps.Proofs.JsonNumbers
import StyleProps.Proofs.JsonTokens
import StyleProps.Proofs.JsonDocuments
import StyleProps.Proofs.JsonPrinting
import StyleProps.Proofs.DeclarationJson
import StyleProps.Proofs.JsonIntegers
import StyleProps.Proofs.Registration
import StyleProps.Proofs.SortedJson
import StyleProps.Proofs.PropsJson
import StyleProps.Proofs.Loading
import StyleProps.Proofs.InputForms
import StyleProps.Proofs.ExitStatus
import StyleProps.Proofs.MergeTable
import StyleProps.Proofs.Regrouping
import StyleProps.Proofs.Repetition
import StyleProps.Proofs.Patterns
import StyleProps.Proofs.PatternReading
import StyleProps.Proofs.Nesting
import StyleProps.Proofs.Seams
import StyleProps.Proofs.LeadingMarks
import StyleProps.Proofs.Opacity
import StyleProps.Proofs.SingleResolution
import StyleProps.Proofs.HollowProps
import StyleProps.Proofs.Override
import StyleProps.Proofs.Definitions
import StyleProps.Proofs.Presets
import StyleProps.Proofs.ScopeKeys
