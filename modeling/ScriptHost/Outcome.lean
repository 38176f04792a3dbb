/-!
# Outcomes

How an invocation can end, with the codes that hosts persist and the command line exits
with, and the status that a compiled command returns.
-/

namespace ScriptHost

inductive Outcome where
  | succeeded
  | exited
  | executionFailed
  | compileFailed
  | engineMissing
  | interfaceMissing
  deriving DecidableEq, Repr, Inhabited

namespace Outcome

/-- Every outcome, in the order of their codes. -/
def all : List Outcome :=
  [succeeded, exited, executionFailed, compileFailed, engineMissing, interfaceMissing]

def code : Outcome → Int
  | succeeded => 0
  | exited => 1
  | executionFailed => 2
  | compileFailed => 3
  | engineMissing => 4
  | interfaceMissing => 5

def ofCode? (code : Int) : Option Outcome := all.find? fun r => r.code = code

/-- Is the outcome shown to the user as a failure? -/
def isFailure : Outcome → Bool
  | succeeded | exited => false
  | _ => true

/-- The name in log lines. -/
def label : Outcome → String
  | succeeded => "succeeded"
  | exited => "sys_exited"
  | executionFailed => "execution_exception"
  | compileFailed => "compile_exception"
  | engineMissing => "engine_not_implemented"
  | interfaceMissing => "external_interface_not_implemented"

/-- The name in stored reports, which spells the last two out. -/
def tag : Outcome → String
  | engineMissing => "engine_not_implemented_exception"
  | interfaceMissing => "external_interface_not_implemented_exception"
  | other => other.label

theorem ofCode?_code (r : Outcome) : ofCode? r.code = some r := by cases r <;> rfl

end Outcome

/-- What a compiled command reports of its run. -/
inductive Status where
  | succeeded
  | cancelled
  | failed
  deriving DecidableEq, Repr, Inhabited

def Status.ofCode (code : Int) : Status :=
  if code = 0 then .succeeded else if code = 1 then .cancelled else .failed

def Status.name : Status → String
  | .succeeded => "succeeded"
  | .cancelled => "cancelled"
  | .failed => "failed"

end ScriptHost
