import PageTemplates.Problem

/-!
# The log of a compilation

Problems in the order in which they were reported, each with the file it was found in.  A log
that is closed to lints does not record them.
-/

namespace PageTemplates

structure Entry where
  file : Option Text
  problem : Problem
deriving DecidableEq

namespace Entry

def severity (e : Entry) : Severity := e.problem.severity
def message (e : Entry) : String := e.problem.message

/-- severity, file and message in one line -/
def line (e : Entry) : String :=
  match e.file with
  | some file => s!"{e.severity.name}: {str file}: {e.message}"
  | none => s!"{e.severity.name}: {e.message}"

end Entry

structure Log where
  lints : Bool
  entries : List Entry
deriving DecidableEq

namespace Log

def empty (lints : Bool) : Log := ⟨lints, []⟩

def report (log : Log) (file : Option Text) (p : Problem) : Log :=
  if p.severity = .lint ∧ log.lints = false then log
  else { log with entries := log.entries ++ [⟨file, p⟩] }

def reportAll (log : Log) (file : Option Text) (ps : List Problem) : Log :=
  ps.foldl (fun l p => l.report file p) log

def withSeverity (log : Log) (s : Severity) : List Entry :=
  log.entries.filter fun e => e.severity = s

def numErrors (log : Log) : Nat := (log.withSeverity .error).length
def numWarnings (log : Log) : Nat := (log.withSeverity .warning).length
def numLints (log : Log) : Nat := (log.withSeverity .lint).length
def hasErrors (log : Log) : Bool := 0 < log.numErrors

@[simp] theorem reportAll_nil (log : Log) (file : Option Text) : log.reportAll file [] = log := rfl

@[simp] theorem reportAll_cons (log : Log) (file : Option Text) (p : Problem) (ps : List Problem) :
    log.reportAll file (p :: ps) = (log.report file p).reportAll file ps := rfl

@[simp] theorem reportAll_append (log : Log) (file : Option Text) (ps qs : List Problem) :
    log.reportAll file (ps ++ qs) = (log.reportAll file ps).reportAll file qs :=
  List.foldl_append

end Log

end PageTemplates
