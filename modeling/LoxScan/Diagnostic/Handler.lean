import LoxScan.Diagnostic.Basic

/-!
# Collecting diagnostics

A handler keeps what is reported to it in order and counts the errors
among it. Its view is the list of the diagnostics it holds.
-/

namespace LoxScan

/-- The diagnostics reported so far. -/
structure Handler where
  reported : Array Diagnostic
  deriving Repr

namespace Handler

def empty : Handler := { reported := #[] }

def diagnostics (h : Handler) : List Diagnostic := h.reported.toList

def report (h : Handler) (d : Diagnostic) : Handler := { reported := h.reported.push d }

def reportAll (h : Handler) (ds : List Diagnostic) : Handler := ds.foldl report h

def errorCount (h : Handler) : Nat := h.diagnostics.countP (·.level.isError)

def hasErrors (h : Handler) : Bool := h.diagnostics.any (·.level.isError)

/-- What was reported, and the handler without it. -/
def take (h : Handler) : List Diagnostic × Handler := (h.diagnostics, empty)

@[simp] theorem diagnostics_empty : empty.diagnostics = [] := rfl

@[simp] theorem diagnostics_report (h : Handler) (d : Diagnostic) :
    (h.report d).diagnostics = h.diagnostics ++ [d] := by
  simp [diagnostics, report]

@[simp] theorem diagnostics_reportAll (h : Handler) (ds : List Diagnostic) :
    (h.reportAll ds).diagnostics = h.diagnostics ++ ds := by
  induction ds generalizing h with
  | nil => simp [reportAll]
  | cons d ds ih =>
    have := ih (h.report d)
    simpa [reportAll] using this

end Handler

end LoxScan
