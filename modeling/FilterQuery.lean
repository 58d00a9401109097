import FilterQuery.Main
import FilterQuery.Proofs.Alias.Registries
import FilterQuery.Proofs.Expression.Compound
import FilterQuery.Proofs.Expression.RoundTrip
import FilterQuery.Proofs.Expression.Separator
import FilterQuery.Proofs.Catalog.Route
import FilterQuery.Proofs.Decimal.Literal
import FilterQuery.Proofs.Session.Commands
import FilterQuery.Proofs.Session.Turns
import FilterQuery.Proofs.Sql.Described
import FilterQuery.Proofs.Sql.Names
import FilterQuery.Proofs.Sql.Unambiguous
import FilterQuery.Proofs.Decimal.Rounding
import FilterQuery.Proofs.Decimal.Shortest
import FilterQuery.Proofs.Value.Display
import FilterQuery.Proofs.Expression.Display
import FilterQuery.Proofs.Catalog.Growth
import FilterQuery.Proofs.Catalog.Refusals
import FilterQuery.Proofs.Sql.Growth
import FilterQuery.Proofs.Expression.Shape
import FilterQuery.Proofs.Decimal.Scientific
import FilterQuery.Proofs.Json.Tokens
import FilterQuery.Proofs.Json.Document
import FilterQuery.Proofs.Filter.Decode
import FilterQuery.Proofs.Config.Spellings
import FilterQuery.Proofs.Catalog.Composition
import FilterQuery.Proofs.Expression.Pieces
import FilterQuery.Proofs.Expression.FirstOperator
import FilterQuery.Proofs.Decimal.Exact
import FilterQuery.Proofs.Decimal.Overflow
import FilterQuery.Proofs.Value.Integers
import FilterQuery.Proofs.Value.Numbers
import FilterQuery.Proofs.Value.Reread
import FilterQuery.Proofs.Expression.LetterCase
import FilterQuery.Proofs.Sql.References
import FilterQuery.Proofs.Alias.Registrations
import FilterQuery.Proofs.Catalog.ShortNames
import FilterQuery.Proofs.Expression.Offsets
