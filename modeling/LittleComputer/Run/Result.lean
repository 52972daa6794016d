import LittleComputer.Run.Trace
import LittleComputer.Text.Latin

/-!
# Results of runs

What a run that has come to an end tells about itself, and how that looks as a document.
-/

namespace LittleComputer

/-- The state of a processor as a document. -/
def Processor.document (p : Processor) : Json :=
  .object <|
    (p.registers.toList.zipIdx.map fun (w, i) => ("r" ++ toString i, Json.ofWord w))
    ++ [("pc", .ofWord p.pc),
        ("cond", Json.ofText? p.cond.name?),
        ("state", .text p.status.name)]

/-- A report as a document. -/
def Report.document (r : Report) : Json :=
  .object
    [("type", .text r.kind.name),
     ("message", .text r.message),
     ("step", .integer r.step),
     ("addr", .integer r.addr),
     ("instr", Json.ofInt? r.instr)]

/-- The result of a run. -/
structure Result where
  /-- All output of the terminal. -/
  output : List Byte
  /-- How many instructions have been completed. -/
  steps : Nat
  /-- The processor at the end. -/
  final : Processor
  /-- The watch list. -/
  watch : List Int
  /-- A row for each completed instruction, if a trace was asked for. -/
  trace : List TraceRow
  /-- What went wrong, if anything did. -/
  error : Option Report
  deriving DecidableEq, Repr

namespace Result

/-- The word for how a run ended. -/
def status (r : Result) : String := if r.error.isNone then "ok" else "error"

/-- The fields of a result that every result has. -/
def fields (r : Result) : List (String × Json) :=
  [("status", .text r.status),
   ("output_text", .text (Text.ofBytes r.output)),
   ("steps_executed", .integer r.steps),
   ("final_state", r.final.document),
   ("trace_watch", .list (r.watch.map Json.integer)),
   ("trace", .list (r.trace.map TraceRow.document))]

/-- A result as a document; the error is left out where there is none. -/
def document (r : Result) : Json :=
  .object (r.fields ++ r.error.toList.map fun report => ("error", report.document))

end Result

end LittleComputer
