import ShaderAssembler.Text.Numeral

/-! The log. A function that logs returns its events beside its result, oldest first. -/

namespace ShaderAssembler

inductive LogLevel where
  | trace
  | debug
  | warn
  | error
  deriving DecidableEq, Repr

inductive LogEvent where
  | packed (mnemonic : Text) (word : UInt32)
  | encoded (mnemonic : Text) (word : UInt32) (hasLiteral : Bool)
  | lineSkipped (line : Nat) (reason : String)
  | lineFailed (line : Nat) (reason : String)
  | operandShadowed (shadowing shadowed : Text)
  deriving DecidableEq, Repr

namespace LogEvent

def level : LogEvent → LogLevel
  | packed .. => .trace
  | encoded .. => .debug
  | lineSkipped .. => .warn
  | lineFailed .. => .error
  | operandShadowed .. => .warn

def message : LogEvent → String
  | packed .. => "sop2"
  | encoded .. => "encoded"
  | lineSkipped _ reason => reason
  | lineFailed _ reason => reason
  | operandShadowed .. => "operand prefix is shadowed by an earlier entry"

end LogEvent

/-- A result, and the events on the way to it. -/
structure Logged (α : Type) where
  value : α
  events : List LogEvent
  deriving DecidableEq, Repr

namespace Logged

variable {α β : Type}

def silent (value : α) : Logged α :=
  { value, events := [] }

def mapValue (change : α → β) (logged : Logged α) : Logged β :=
  { value := change logged.value, events := logged.events }

def andThen (first : Logged α) (next : α → Logged β) : Logged β :=
  let second := next first.value
  { value := second.value, events := first.events ++ second.events }

instance : Monad Logged where
  map := mapValue
  pure := silent
  bind := andThen

def emit (events : List LogEvent) : Logged Unit :=
  { value := (), events }

@[simp] theorem value_pure (value : α) : (pure value : Logged α).value = value := rfl

@[simp] theorem events_pure (value : α) : (pure value : Logged α).events = [] := rfl

@[simp] theorem value_map (change : α → β) (logged : Logged α) :
    (change <$> logged).value = change logged.value := rfl

@[simp] theorem events_map (change : α → β) (logged : Logged α) :
    (change <$> logged).events = logged.events := rfl

@[simp] theorem value_bind (first : Logged α) (next : α → Logged β) :
    (first >>= next).value = (next first.value).value := rfl

@[simp] theorem events_bind (first : Logged α) (next : α → Logged β) :
    (first >>= next).events = first.events ++ (next first.value).events := rfl

@[simp] theorem value_emit (events : List LogEvent) : (emit events).value = () := rfl

@[simp] theorem events_emit (events : List LogEvent) : (emit events).events = events := rfl

end Logged

end ShaderAssembler
