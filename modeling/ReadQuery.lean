import ReadQuery.Compiler.Compile
import ReadQuery.Input.Structured
import ReadQuery.Proofs.Agreement
import ReadQuery.Proofs.Atomicity
import ReadQuery.Proofs.Compiler.Lexis
import ReadQuery.Proofs.Compiler.Policy
import ReadQuery.Proofs.Input.Expression
import ReadQuery.Proofs.Mongo.Expression
import ReadQuery.Proofs.Narrowing
import ReadQuery.Proofs.Page.Tiling
import ReadQuery.Proofs.Sql.Noninterference
import ReadQuery.Proofs.Sql.Session
import ReadQuery.Proofs.Truth
import ReadQuery.Proofs.Sorting
import ReadQuery.Proofs.Json.Reading
import ReadQuery.Proofs.Input.Convergence
import ReadQuery.Proofs.FieldName
import ReadQuery.Proofs.Compiler.Naming
import ReadQuery.Proofs.Sql.Pattern
import ReadQuery.Proofs.Mongo.Execution
import ReadQuery.Proofs.Influx.Confinement
import ReadQuery.Proofs.Input.Flattening
import ReadQuery.Proofs.Page.Bounds
import ReadQuery.Proofs.Page.Token
import ReadQuery.Proofs.Input.Like
import ReadQuery.Proofs.Input.OrderText
import ReadQuery.Proofs.Input.MapPayload
import ReadQuery.Proofs.Operands
import ReadQuery.Proofs.Equality
import ReadQuery.Proofs.Mongo.Grouping
import ReadQuery.Proofs.Influx.Finiteness
import ReadQuery.Proofs.FieldName.Stability
import ReadQuery.Proofs.FieldRef.Recovery
import ReadQuery.Proofs.Sql.Position
import ReadQuery.Proofs.Sql.Framing
import ReadQuery.Proofs.Sql.Numbering
