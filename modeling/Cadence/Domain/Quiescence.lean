import Cadence.Domain
import Cadence.Json
import Cadence.Text.Count
import Cadence.Text.Line

/-!
# Cadence.Domain.Quiescence — run until nothing is left to fire

The domain keeps the fact list as it was after the last turn and is done as soon as the agenda shows
no activation.  Disposing writes a report.
-/

namespace Cadence.Domain

/-- The report of a run. -/
structure Report where
  /-- The turns counted, as a natural number; a counter of 64 bits would start again after `2 ^ 64`. -/
  turns : Nat
  finalFacts : String
deriving DecidableEq, Repr

/-- The report as a JSON object. -/
def Report.toJson (r : Report) : Json :=
  .object [("turns", .number (Text.decimal r.turns).toList), ("final_facts", .string r.finalFacts)]

/-- The text an agenda's summary line begins with. -/
def summaryStart : List Char := "For a total of".toList

/-- Whether an agenda lists no activation: each line is blank or the summary. -/
def agendaIsEmpty (agenda : String) : Bool :=
  (((Text.lines agenda.toList).map Text.trim).filter (!·.isEmpty)).all summaryStart.isPrefixOf

/-- The state of the domain. -/
structure Quiescence where
  facts : String := ""
  /-- The turns since set-up, as in the report. -/
  turns : Nat := 0
  done : Bool := false
  report : Option Report := none
deriving DecidableEq, Repr

namespace Quiescence

/-- Reads facts and agenda anew.  The facts are kept as soon as they are read. -/
def refresh (d : Quiescence) : Engine.Errand (Result Quiescence) :=
  query .facts d fun facts =>
    let d := { d with facts }
    query .agenda d fun agenda => .done (.ok (), { d with done := agendaIsEmpty agenda })

instance : Domain Quiescence where
  hook
    | .setup, d => refresh { d with turns := 0, report := none }
    | .action, d => refresh { d with turns := d.turns + 1 }
    | .dispose, d => .done (.ok (), { d with report := some ⟨d.turns, d.facts⟩ })
  hasDone d := .ok d.done

end Quiescence

end Cadence.Domain
