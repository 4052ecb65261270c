/-!
Log levels, their names and their numbers.
-/

set_option autoImplicit false

namespace AccessGroups.Log

inductive Level where
  | debug
  | info
  | warning
  | error
  | critical
  deriving DecidableEq, Inhabited

namespace Level

/-- All levels, the lowest first. -/
def all : List Level := [debug, info, warning, error, critical]

def name : Level → String
  | debug => "DEBUG"
  | info => "INFO"
  | warning => "WARNING"
  | error => "ERROR"
  | critical => "CRITICAL"

def number : Level → Nat
  | debug => 10
  | info => 20
  | warning => 30
  | error => 40
  | critical => 50

/-- Where a number is asked for, a level stands for its own. -/
instance : Coe Level Int := ⟨fun level => level.number⟩

def ofName? (name : String) : Option Level := all.find? (·.name == name)

/-- The name of a level given by number; a number between the levels is shown as it is. -/
def nameOfNumber (n : Int) : String :=
  match all.find? (fun level => (level.number : Int) == n) with
  | some level => level.name
  | none => if n = 0 then "NOTSET" else "Level " ++ toString n

theorem ofName?_name (level : Level) : ofName? level.name = some level := by
  cases level <;> decide

end Level

end AccessGroups.Log
