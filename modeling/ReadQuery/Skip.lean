import ReadQuery.Backend
import ReadQuery.DatePart
import ReadQuery.Operator

/-!
# Conditions that cannot be compiled

The reasons for which a condition or an entry of an ordering is left out, the outcome of compiling a
single condition, and the policy that decides whether a reason ends the whole compilation.
-/

namespace ReadQuery

/-- Why a condition or an entry of an ordering is left out. -/
inductive SkipReason where
  | unknownOperator
  | emptyField
  | invalidField (field : String)
  | missingValue
  | betweenArity (count : Nat)
  | unsupportedOperator (op : Operator) (backend : Backend)
  | unsupportedDatePart (part : DatePart) (backend : Backend)
  | unsupportedOrdering (field : String) (backend : Backend)
  | invalidPattern (pattern : String)
  deriving DecidableEq, Repr

def SkipReason.message : SkipReason → String
  | unknownOperator => "the operator is unknown"
  | emptyField => "the field name is empty"
  | invalidField field => "`" ++ field ++ "` is not a valid field identifier"
  | missingValue => "the condition carries no value"
  | betweenArity count => "BETWEEN needs exactly two values, got " ++ toString count
  | unsupportedOperator op backend =>
    "operator " ++ op.name ++ " is not supported by " ++ backend.name
  | unsupportedDatePart part backend =>
    "date part " ++ part.name ++ " is not supported by " ++ backend.name
  | unsupportedOrdering field backend => backend.name ++ " cannot order by `" ++ field ++ "`"
  | invalidPattern pattern => "`" ++ pattern ++ "` cannot be embedded as a pattern literal"

/-- A condition that ended the compilation. -/
structure Skipped where
  field : String
  reason : SkipReason
  deriving DecidableEq, Repr

/-- What is said of a condition that ended the compilation. -/
def Skipped.message (s : Skipped) : String :=
  "Filter condition on `" ++ s.field ++ "` was rejected: " ++ s.reason.message

/-- The outcome of compiling one condition. -/
inductive Compiled (α : Type) where
  /-- The condition has a form in the backend. -/
  | rendered (a : α)
  /-- The condition holds of everything and adds nothing. -/
  | vacuous
  /-- The condition cannot be compiled. -/
  | skipped (reason : SkipReason)
  deriving DecidableEq, Repr

namespace Compiled

/-- Changes the form of a rendered condition. -/
def map {α β : Type} (f : α → β) : Compiled α → Compiled β
  | rendered a => rendered (f a)
  | vacuous => vacuous
  | skipped reason => skipped reason

/-- A result is a rendered form or the reason why there is none. -/
def ofExcept {α : Type} : Except SkipReason α → Compiled α
  | .ok a => rendered a
  | .error reason => skipped reason

end Compiled

/-- What happens to a condition that cannot be compiled. -/
inductive SkipPolicy where
  /-- It is noted and left out. -/
  | lenient
  /-- It ends the compilation. -/
  | strict
  deriving DecidableEq, Repr

def SkipPolicy.name : SkipPolicy → String
  | lenient => "lenient"
  | strict => "strict"

end ReadQuery
