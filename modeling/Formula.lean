import Formula.Cache.Bounded
import Formula.Main
import Formula.Token.Difference
import Formula.Proofs.Parsing.Reading
import Formula.Proofs.Parsing.Grammar
import Formula.Proofs.Expr.Grouping
import Formula.Proofs.Parsing.Climbing
import Formula.Proofs.Parsing.Simulation
import Formula.Proofs.Cache.Key
import Formula.Proofs.Parsing.Declarations
import Formula.Proofs.Cache.Recall
import Formula.Proofs.Cache.History
import Formula.Proofs.Language.Transparency
import Formula.Proofs.Token.Lexeme
import Formula.Proofs.Expr.Plain
import Formula.Proofs.Expr.Source
import Formula.Proofs.Expr.Regrouping
import Formula.Proofs.Parsing.Forms
import Formula.Proofs.Parsing.RoundTrip
import Formula.Proofs.Parsing.Ensures
import Formula.Proofs.Token.Scanned
import Formula.Proofs.Parsing.Elementary
import Formula.Proofs.Parsing.Rereading
import Formula.Proofs.Cache.Separation
import Formula.Proofs.Language.Freezing
import Formula.Proofs.Language.Keys
import Formula.Proofs.Script.Recovery
import Formula.Proofs.Parsing.Building
import Formula.Proofs.Script.Sealing
import Formula.Proofs.Script.Confinement
import Formula.Proofs.Token.Layout
import Formula.Proofs.Token.Spacing
import Formula.Proofs.Parsing.Leniency
import Formula.Proofs.Parsing.Derivation
import Formula.Proofs.Parsing.Entries
import Formula.Proofs.Parsing.Siblings
import Formula.Proofs.Expr.Nodes
import Formula.Proofs.Evaluation.Trace
import Formula.Proofs.Evaluation.Compositional
import Formula.Proofs.Evaluation.CallSites
import Formula.Proofs.Evaluation.Strictness
import Formula.Proofs.Parsing.Invariant
import Formula.Proofs.Parsing.Placement
import Formula.Proofs.Parsing.Resources
import Formula.Proofs.Parsing.Narrowing
import Formula.Proofs.Evaluation.Relevance
import Formula.Proofs.Cache.Session
import Formula.Proofs.Cache.Recency
import Formula.Proofs.Cache.Lockstep
import Formula.Proofs.Evaluation.Chain
import Formula.Proofs.Evaluation.Softness
import Formula.Proofs.Script.Lookup
import Formula.Proofs.Parsing.Object
import Formula.Proofs.Script.Chaining
import Formula.Proofs.Script.Surface
import Formula.Proofs.Script.Object
import Formula.Proofs.Script.Literal
import Formula.Proofs.Parsing.Renaming
import Formula.Proofs.Cache.Reordering
import Formula.Proofs.Evaluation.Arithmetic
import Formula.Proofs.Number.Rounding
import Formula.Proofs.Evaluation.Comparison
import Formula.Proofs.Evaluation.Range
import Formula.Proofs.Value.Equality
import Formula.Proofs.Token.Difference
import Formula.Proofs.Token.Brackets
import Formula.Proofs.Dict
import Formula.Proofs.Language.Registration
import Formula.Proofs.Evaluation.Entries
import Formula.Proofs.Pattern.Literal
import Formula.Proofs.Json.Exchange
import Formula.Proofs.Token.Extent
import Formula.Proofs.Parsing.Continuation
