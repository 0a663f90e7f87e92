import ReadQuery.Value
import ReadQuery.Operator

/-!
# Errors of the input forms

Why a filter or an ordering cannot be read. Where the text does not follow the grammar at all, no
more is said than that.
-/

namespace ReadQuery.Input

/-- Why an expression that follows the grammar is no filter. -/
inductive Unsupported where
  | notACondition (expr : String)
  | unknownOperator (name : String)
  | missingField (name : String)
  | notAConstant (op : Operator) (expr : String)
  | missingValue (op : Operator) (field : String)
  | nestedDateParts
  | notADatePart (name : String)
  | notAField (op : Operator) (expr : String)
  deriving DecidableEq, Repr

def Unsupported.message : Unsupported → String
  | notACondition expr => "`" ++ expr ++ "` is not a condition, expected a comparison"
  | unknownOperator name => "unknown operator `" ++ name ++ "`"
  | missingField name => "`" ++ name ++ "` needs a field to compare"
  | notAConstant op expr =>
    "right side of " ++ op.name ++ " must be a constant, got `" ++ expr ++ "`"
  | missingValue op field => op.name ++ " on `" ++ field ++ "` needs a value"
  | nestedDateParts => "date parts cannot be nested"
  | notADatePart name => "`" ++ name ++ "` is not a date part"
  | notAField op expr =>
    "left side of " ++ op.name ++ " must be a field reference, got `" ++ expr ++ "`"

/-- Why an input cannot be read. -/
inductive ParseError where
  /-- A filter that is no JSON of the form asked for. -/
  | malformedFilter
  /-- An item of a map payload that is no object. -/
  | notAnObject (json : Json)
  /-- A map payload that is neither an object nor an array. -/
  | notObjects (json : Json)
  /-- A member of a map payload that holds no value. -/
  | notAValue (key : String) (failure : ConversionFailure)
  /-- An expression that does not follow the grammar. -/
  | malformedExpression
  /-- An integer above the range of 64 bits. -/
  | integerTooLarge (digits : String)
  /-- An integer below the range of 64 bits. -/
  | integerTooSmall (digits : String)
  /-- An expression that is no filter. -/
  | unsupported (reason : Unsupported)
  /-- An ordering that does not follow its grammar. -/
  | malformedOrdering

/-- The error in words, where there are any. -/
def ParseError.message? : ParseError → Option String
  | malformedFilter | malformedExpression | malformedOrdering => none
  | notAnObject json =>
    some ("Invalid filter payload: expected an object, got `" ++ json.text ++ "`")
  | notObjects json =>
    some ("Invalid filter payload: expected an object or an array of objects, got `" ++ json.text
      ++ "`")
  | notAValue key failure =>
    some ("Invalid filter payload: value of `" ++ key ++ "`: " ++ failure.message)
  | integerTooLarge digits =>
    some ("Invalid filter expression: `" ++ digits ++ "`: number too large to fit in target type")
  | integerTooSmall digits =>
    some ("Invalid filter expression: `" ++ digits ++ "`: number too small to fit in target type")
  | unsupported reason => some ("Unsupported filter expression: " ++ reason.message)

end ReadQuery.Input
