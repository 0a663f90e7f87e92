import ReadQuery.Text.Ascii
import ReadQuery.Text.Blank
import ReadQuery.Text.Split
import ReadQuery.Text.Word

/-!
# Identifiers and raw conditions

What may be written into a query without being bound as a parameter. Identifiers are made of ASCII
letters, digits, underscores and dots. A raw condition is free text without statement separators,
comments and the keywords of statements other than reads.
-/

namespace ReadQuery

/-- Something that must not reach a query, found where it would have been written into one. -/
inductive Violation where
  | unsafeIdentifier (name : String)
  | unsafeCondition (condition : String)
  | parameterMismatch (condition : String) (placeholders params : Nat)
  | nonFiniteNumber (text : String)
  deriving DecidableEq, Repr

def Violation.message : Violation → String
  | unsafeIdentifier name => "Unsafe identifier `" ++ name ++ "` reached the query builder."
  | unsafeCondition condition =>
    "Unsafe raw condition `" ++ condition ++ "` reached the query builder."
  | parameterMismatch condition placeholders params =>
    "Raw condition `" ++ condition ++ "` has " ++ toString placeholders ++ " placeholders but "
      ++ toString params ++ " parameters."
  | nonFiniteNumber text => "Non-finite number `" ++ text ++ "` reached the query builder."

namespace Identifier

/-- A character of identifiers. -/
def isChar (c : Char) : Bool :=
  Text.isNameChar c || c == '.'

/-- A non-empty text of identifier characters. -/
def isSafe (s : String) : Bool :=
  !s.toList.isEmpty && s.toList.all isChar

/-- An identifier without a dot at either end. -/
def isProper (s : String) : Bool :=
  isSafe s && s.toList.head? != some '.' && s.toList.getLast? != some '.'

/-- Lets an identifier without a dot at either end pass. -/
def ensure (s : String) : Except Violation String :=
  if isProper s then .ok s else .error (.unsafeIdentifier s)

/-- Only what is proper passes, as it is. -/
theorem ensure_eq_ok_iff {s t : String} : ensure s = .ok t ↔ isProper s = true ∧ t = s := by
  unfold ensure
  split <;> rename_i h <;> simp [h, eq_comm]

end Identifier

namespace RawCondition

/-- Separators of statements and marks of comments. -/
def forbiddenMarks : List String := [";", "--", "/*", "*/", "#"]

/-- The keywords that no raw condition contains as a whole word. -/
def forbiddenWords : List String :=
  ["drop", "delete", "insert", "update", "alter", "truncate", "create", "grant", "revoke", "exec",
    "execute", "union", "attach", "detach", "pragma"]

/-- A text that is not blank and contains no forbidden mark or word. -/
def isAllowed (s : String) : Bool :=
  !Text.allBlank s
    && !forbiddenMarks.any (fun m => Text.hasInfix m.toList s.toList)
    && !Text.hasWord forbiddenWords s

/-- Refuses a condition that is not allowed. -/
def ensure (s : String) : Except Violation String :=
  if isAllowed s then .ok s else .error (.unsafeCondition s)

/-- Only what is allowed passes, as it is. -/
theorem ensure_eq_ok_iff {s t : String} : ensure s = .ok t ↔ isAllowed s = true ∧ t = s := by
  unfold ensure
  split <;> rename_i h <;> simp [h, eq_comm]

end RawCondition

end ReadQuery
