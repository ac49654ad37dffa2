import Phrasebook.Engine
import Phrasebook.Expr.Json
import Phrasebook.Message.CatalogueJson
import Phrasebook.Pass.Rule
import Phrasebook.Template.Json
import Phrasebook.Value.Json
import Phrasebook.Proofs.Evaluation
import Phrasebook.Proofs.ChainEvaluation
import Phrasebook.Proofs.PassWalk
import Phrasebook.Proofs.DebugRefinement
import Phrasebook.Proofs.DefaultEntry
import Phrasebook.Proofs.ExactNumbers
import Phrasebook.Proofs.Grammar
import Phrasebook.Proofs.ParserSoundness
import Phrasebook.Proofs.Unambiguity
import Phrasebook.Proofs.ParserCompleteness
import Phrasebook.Proofs.Lexing
import Phrasebook.Proofs.PrinterRoundTrip
import Phrasebook.Proofs.WalkOutcome
import Phrasebook.Proofs.DefaultsPutIn
import Phrasebook.Proofs.Annotations
import Phrasebook.Proofs.TokenLayout
import Phrasebook.Proofs.TagText
import Phrasebook.Proofs.TagBoundaries
import Phrasebook.Proofs.RefusalLines
import Phrasebook.Proofs.NodeLines
import Phrasebook.Proofs.Diagnostics
import Phrasebook.Proofs.ChainErrors
import Phrasebook.Proofs.CountedChains
import Phrasebook.Proofs.DefaultDecision
import Phrasebook.Proofs.Relining
import Phrasebook.Proofs.RelinedReading
import Phrasebook.Proofs.Concatenation
import Phrasebook.Proofs.LongestNames
import Phrasebook.Proofs.StringEnds
import Phrasebook.Proofs.LeafLines
import Phrasebook.Proofs.TemplateReading
import Phrasebook.Proofs.CatalogueHistory
import Phrasebook.Proofs.Tour
import Phrasebook.Proofs.LooseEquality
import Phrasebook.Proofs.PluralParts
import Phrasebook.Proofs.Patterns
import Phrasebook.Proofs.PinPatterns
import Phrasebook.Proofs.PluralChoice
import Phrasebook.Proofs.IndexKeys
import Phrasebook.Proofs.NumberRange
import Phrasebook.Proofs.PinNumbers
import Phrasebook.Proofs.RunOrder
import Phrasebook.Proofs.JsonForms
