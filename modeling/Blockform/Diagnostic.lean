-- SUMMARY: The common form of every error the program reports (`Diagnostic`), with its one-line renderings, and the ways a computation can stop (`Abort`).
import Blockform.Position

/-!
# Diagnostics

Reading a tree, lowering it, verifying a module and running it each have an
error type of their own. Whoever shows errors sees only a `Diagnostic`: how
grave it is, what it says, which part of the program issued it and, where
known, the place in the source.
-/

namespace Blockform

/-- How grave a diagnostic is. A critical one points at a defect of the program
    itself rather than of its input. -/
inductive Level where
  | info
  | warning
  | error
  | critical
deriving DecidableEq

/-- The level's name in reports. -/
def Level.text : Level → String
  | .info => "INFO"
  | .warning => "WARNING"
  | .error => "ERROR"
  | .critical => "CRITICAL"

/-- An error as it is reported. -/
structure Diagnostic where
  level : Level := .error
  message : String
  issuer : String
  location : Option Location := none
  span : Option Span := none
deriving DecidableEq

namespace Diagnostic

/-- The message, with its location if there is one. -/
def display (d : Diagnostic) : String :=
  match d.location with
  | some l => d.message ++ " (at " ++ l.text ++ ")"
  | none => d.message

/-- The line of a report: level, location and message. -/
def report (d : Diagnostic) : String :=
  let place := (d.location.map Location.text).getD "unknown location"
  " | ".intercalate ["PYLL", d.level.text, place, d.message]

/-- The line with everything the diagnostic holds. -/
def detail (d : Diagnostic) : String :=
  let place := (d.location.map Location.text).getD "unknown"
  let stretch := (d.span.map Span.text).getD "span:none"
  " | ".intercalate ["PYLL", d.level.text, place, d.issuer, stretch, d.message]

end Diagnostic

/-- What makes a number useless: it has no entry in a table that it is looked up in,
    or it does not fit into a word. -/
inductive Fault where
  | noEntry
  | overflow
deriving DecidableEq

/-- What a table has for a number. -/
def entryOf {α : Type} : Option α → Except Fault α
  | some a => .ok a
  | none => .error .noEntry

/-- Why a computation stopped before its result: with an error it reports, or
    because a number was out of range. A module that was built in order never
    leads to a number without an entry. -/
inductive Abort (ε : Type) where
  | error (e : ε)
  | outOfRange {fault : Fault}
deriving DecidableEq

namespace Abort

variable {ε ε' : Type}

/-- The end at a number that a table has no entry for. -/
@[match_pattern] abbrev noEntry : Abort ε := @outOfRange ε .noEntry

/-- The end at a number that does not fit into a word. -/
@[match_pattern] abbrev overflow : Abort ε := @outOfRange ε .overflow

/-- Change the reported error. -/
def map (f : ε → ε') : Abort ε → Abort ε'
  | .error e => .error (f e)
  | @outOfRange _ fault => @outOfRange _ fault

@[simp] theorem map_error (f : ε → ε') (e : ε) : (Abort.error e).map f = .error (f e) := rfl

@[simp] theorem map_outOfRange (f : ε → ε') (fault : Fault) :
    (@outOfRange ε fault).map f = @outOfRange ε' fault := rfl

end Abort

/-! ## Results -/

section
variable {ε α β : Type} {x : Except ε α} {b : β}

theorem except_bind_eq_ok {f : α → Except ε β} :
    (x >>= f) = .ok b ↔ ∃ a, x = .ok a ∧ f a = .ok b := by
  cases x with
  | error e => exact ⟨nofun, nofun⟩
  | ok a => exact ⟨fun h => ⟨a, rfl, h⟩, fun ⟨_, ha, h⟩ => Except.ok.inj ha ▸ h⟩

@[simp] theorem except_map_ok (f : α → β) (a : α) :
    (Except.ok a : Except ε α).map f = .ok (f a) := rfl

@[simp] theorem except_map_error (f : α → β) (e : ε) :
    (Except.error e : Except ε α).map f = .error e := rfl

theorem except_map_eq_ok {f : α → β} : x.map f = .ok b ↔ ∃ a, x = .ok a ∧ f a = b := by
  cases x <;> simp [Except.map]

theorem entryOf_eq_ok {found : Option α} {a : α} : entryOf found = .ok a ↔ found = some a := by
  cases found <;> simp [entryOf]

end

end Blockform
