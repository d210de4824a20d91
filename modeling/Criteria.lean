import Criteria.Proofs.Filter.Grammar
import Criteria.Sort.Json
import Criteria.Workbench
import Criteria.Proofs.Filter.Tokens
import Criteria.Proofs.Filter.Reading
import Criteria.Proofs.Filter.Assembly
import Criteria.Proofs.Filter.Lookahead
import Criteria.Proofs.Filter.Outcome
import Criteria.Proofs.Filter.Language
import Criteria.Proofs.Filter.Viability
import Criteria.Proofs.Filter.Replacement
import Criteria.Proofs.Filter.QuotedContent
import Criteria.Proofs.Json.Text
import Criteria.Proofs.Json.Nesting
import Criteria.Proofs.Json.Number
import Criteria.Proofs.Json.Carrying
import Criteria.Proofs.Json.Compound
import Criteria.Proofs.Filter.Json
import Criteria.Proofs.Config.Document
import Criteria.Proofs.Shipping
import Criteria.Proofs.Filter.Junctions
import Criteria.Proofs.Filter.Routes
import Criteria.Proofs.Filter.KeywordCase
import Criteria.Proofs.Filter.Joining
import Criteria.Proofs.Text.Alike
import Criteria.Proofs.Filter.Alike
import Criteria.Proofs.Respelling
import Criteria.Proofs.Refusal
import Criteria.Proofs.Sort.Grammar
import Criteria.Proofs.Sort.Reading
import Criteria.Proofs.Sort.Language
import Criteria.Proofs.Sort.Joining
import Criteria.Proofs.Json.Ensured
import Criteria.Proofs.Filter.Closed
import Criteria.Proofs.Filter.Construction
import Criteria.Proofs.Filter.Trace
import Criteria.Proofs.Filter.Leaves
import Criteria.Proofs.Filter.Threading
import Criteria.Proofs.Filter.OperatorWords
import Criteria.Proofs.Filter.Reassociation
import Criteria.Proofs.Filter.Spines
import Criteria.Proofs.Filter.QueryLength
import Criteria.Proofs.Json.Refusing
import Criteria.Proofs.Filter.BlankDocuments
import Criteria.Proofs.Filter.SpacedWords
import Criteria.Proofs.Json.Closed
import Criteria.Proofs.Rewriting
import Criteria.Proofs.Json.WellFormed
import Criteria.Proofs.Json.Layout
import Criteria.Proofs.Config.Layout
import Criteria.Proofs.Workbench
import Criteria.Proofs.Decimal.Interval
import Criteria.Proofs.Decimal.Shortest
import Criteria.Proofs.Decimal.Notation
import Criteria.Proofs.Text.Quoted
import Criteria.Proofs.Json.Fault
