import LittleComputer.Plain.Run

/-!
# Results as documents

What a run that has come to an end tells about itself.
-/

namespace LittleComputer.Plain

/-- The state of a processor as a document. -/
def Processor.document (p : Processor) : Json :=
  .object <|
    (p.registers.toList.zipIdx.map fun (value, i) => ("r" ++ toString i, Json.integer value))
    ++ [("pc", .integer p.pc),
        ("cond", Json.ofText? p.cond.name?),
        ("state", .text p.status.name)]

/-- A row as a document. -/
def TraceRow.document (row : TraceRow) : Json :=
  let codes := match row.codes with
    | some (lastIn, lastOut) =>
      [("in_code", Json.ofInt? (lastIn.map fun code => (code : Int))),
       ("out_code", Json.ofInt? lastOut)]
    | none => []
  .object <|
    [("step", .integer row.step),
     ("addr", .integer row.addr),
     ("instr", .integer row.instr),
     ("registers", .list (row.registers.map Json.integer)),
     ("pc", .integer row.pc),
     ("cond", Json.ofText? row.cond.name?),
     ("mem", .object (row.watched.map fun cell => (toString cell.1, Json.integer cell.2)))]
    ++ codes
    ++ [("instr_text", .text (decode row.instr).mnemonic)]

namespace Result

/-- The word for how a run ended. -/
def status (r : Result) : String := if r.error.isNone then "ok" else "error"

/-- The fields of a result that every result has. -/
def fields (r : Result) : List (String × Json) :=
  [("status", .text r.status),
   ("output_text", .text (String.ofList (r.output.map Char.ofNat))),
   ("steps_executed", .integer r.steps),
   ("final_state", r.final.document),
   ("trace_watch", .list (r.watch.map Json.integer)),
   ("trace", .list (r.trace.map TraceRow.document))]

/-- A result as a document; the error is left out where there is none. -/
def document (r : Result) : Json :=
  .object (r.fields ++ r.error.toList.map fun report => ("error", report.document))

end Result

end LittleComputer.Plain
