import BlockSafe.Schema.Reading

/-!
# Retry budgets

How often a provider is asked again: after replies without a program, and after programs that are
not block-safe.
-/

namespace BlockSafe

/-- The most retries of either kind. -/
def maxRetries : Nat := 5

/-- The retries of either kind unless something else is said. -/
def defaultRetries : Nat := 2

/-- How often a provider may be asked again. -/
structure Budgets where
  /-- After a reply without a program. -/
  empty : Nat
  /-- After a program that is not block-safe. -/
  validation : Nat
deriving DecidableEq, Repr

namespace Budgets

/-- Two retries of either kind. -/
def standard : Budgets := ⟨defaultRetries, defaultRetries⟩

/-- Reads a number of retries. -/
def retries (fields : Fields) (key : Text) : Checked Nat :=
  Read.optional fields key defaultRetries (Read.integerWithin 0 (some maxRetries))

/-- Reads budgets. -/
def ofFields (fields : Fields) : Checked Budgets :=
  Checked.pure Budgets.mk
    |>.and (retries fields "empty_retries")
    |>.and (retries fields "validation_retries")

/-- The fields of budgets. -/
def toFields (budgets : Budgets) : Fields :=
  [("empty_retries", .num (.int budgets.empty)),
   ("validation_retries", .num (.int budgets.validation))]

end Budgets

end BlockSafe
