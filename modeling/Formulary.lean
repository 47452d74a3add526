import Formulary.Main
import Formulary.Store.Maintenance
import Formulary.Proofs.Recalculation
import Formulary.Proofs.Change
import Formulary.Proofs.Forest
import Formulary.Proofs.History
import Formulary.Proofs.Rooted
import Formulary.Proofs.Ancestry
import Formulary.Proofs.Scan
import Formulary.Proofs.Grammar
import Formulary.Proofs.Stages
import Formulary.Proofs.Hierarchy
import Formulary.Proofs.Index
import Formulary.Proofs.Freshness
import Formulary.Proofs.Agreement
import Formulary.Proofs.Difference
import Formulary.Proofs.Independence
import Formulary.Proofs.Transaction
import Formulary.Proofs.Savepoint
import Formulary.Proofs.Transparency
import Formulary.Proofs.Refusal
import Formulary.Proofs.Statements
import Formulary.Proofs.Traversal
import Formulary.Proofs.Lineage
import Formulary.Proofs.Move
import Formulary.Proofs.Identity
import Formulary.Proofs.Records
import Formulary.Proofs.Disclosure
import Formulary.Proofs.Finite
import Formulary.Proofs.Health
import Formulary.Proofs.Services
import Formulary.Proofs.Reliability
import Formulary.Proofs.Rebuild
import Formulary.Proofs.Parts
import Formulary.Proofs.Reader
import Formulary.Proofs.Relaxed
import Formulary.Proofs.Identifier
import Formulary.Proofs.Order
import Formulary.Proofs.Blame
import Formulary.Proofs.Tiling
import Formulary.Proofs.Spans
import Formulary.Proofs.Culprit
import Formulary.Proofs.Routing
import Formulary.Proofs.Operands
import Formulary.Proofs.Demonstration
import Formulary.Proofs.Migration
import Formulary.Proofs.Upgrade
import Formulary.Proofs.Cursor
import Formulary.Proofs.Spacing
import Formulary.Proofs.Tokens
import Formulary.Proofs.Spelling
import Formulary.Proofs.Activation
