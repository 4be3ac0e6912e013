

/-!
# Error classes

What the services of the accounting and the infrastructure packages raise.
-/

/-!
## The error classes of the accounting package

Every refusal is one of a small hierarchy rooted at one base class, so that a caller can tell
them apart without matching on the message. `database` stands for what PostgreSQL itself
raises: a unique or check constraint, or a value outside its column's type.
-/

namespace Loxep

inductive ErrorClass
  | accountingValidation
  | accountingNotFound
  | accountingConflict
  | bookRouting
  | fiscalPeriodClosed
  | unbalancedEntry
  | ledgerImmutable
  | unsupportedCurrency
  | expenseNotEditable
  | expenseOverAllocated
  | expenseLinesOverTranscribed
  | database
  deriving DecidableEq

structure AccountingError where
  errorClass : ErrorClass
  message : String
  deriving DecidableEq

namespace AccountingError

def validation (message : String) : AccountingError := ⟨.accountingValidation, message⟩

def notFound (message : String) : AccountingError := ⟨.accountingNotFound, message⟩

def conflict (message : String) : AccountingError := ⟨.accountingConflict, message⟩

def periodClosed (message : String) : AccountingError := ⟨.fiscalPeriodClosed, message⟩

def unbalanced (message : String) : AccountingError := ⟨.unbalancedEntry, message⟩

def immutable (message : String) : AccountingError := ⟨.ledgerImmutable, message⟩

def currency (message : String) : AccountingError := ⟨.unsupportedCurrency, message⟩

def notEditable (message : String) : AccountingError := ⟨.expenseNotEditable, message⟩

def overAllocated (message : String) : AccountingError := ⟨.expenseOverAllocated, message⟩

def overTranscribed (message : String) : AccountingError := ⟨.expenseLinesOverTranscribed, message⟩

def database (message : String) : AccountingError := ⟨.database, message⟩

end AccountingError

/-- What a service call returns when it may raise. -/
abbrev Result (α : Type) := Except AccountingError α

/-!
## The error classes of the infrastructure package

Domain errors alone: what a provider raises comes across the boundary as the text of its kind.
`database` is a constraint that PostgreSQL raises, `other` a plain error.
-/

inductive InfrastructureErrorClass
  | validation
  | notFound
  | materialization
  | providerCall (kind : String)
  | writePolicy
  | database
  | other
  deriving DecidableEq

structure InfrastructureError where
  errorClass : InfrastructureErrorClass
  message : String
  deriving DecidableEq

namespace InfrastructureError

def validation (message : String) : InfrastructureError := ⟨.validation, message⟩

def notFound (message : String) : InfrastructureError := ⟨.notFound, message⟩

def materialization (message : String) : InfrastructureError := ⟨.materialization, message⟩

def providerCall (kind message : String) : InfrastructureError := ⟨.providerCall kind, message⟩

def writePolicy (message : String) : InfrastructureError := ⟨.writePolicy, message⟩

def database (message : String) : InfrastructureError := ⟨.database, message⟩

def other (message : String) : InfrastructureError := ⟨.other, message⟩

end InfrastructureError

/-- What a call of the package returns when it may raise. -/
abbrev InfrastructureResult (α : Type) := Except InfrastructureError α

end Loxep
