import LittleComputer.Run

/-!
# Runs that share a terminal

Programs can be run one after the other on one terminal: each finds the input that the last one
left, and the output adds up.  A program may bring options of its own; those that do not share one
options record, whose watch list stays sorted once a run has sorted it.
-/

namespace LittleComputer

/-- A program with the options it brings. -/
structure Job where
  program : Program
  /-- Its options, unless it goes by the shared ones. -/
  options : Option Options := none

/-- Runs a job and gives the shared options as it leaves them. -/
def Job.run (job : Job) (fuel : Nat) (instructions : InstructionSet) (shared : Options)
    (terminal : Terminal) (level : Level) : Option (Conclusion × Options) :=
  let settings := { options := job.options.getD shared, instructions }
  match LittleComputer.run fuel settings job.program terminal ⟨level, #[]⟩ with
  | some conclusion =>
    let left := match job.options, conclusion.result with
      | none, some result => { shared with watch := result.watch }
      | _, _ => shared
    some (conclusion, left)
  | none => none

/-- Runs jobs in turn on one terminal, each with a journal of its own. -/
def runAll (fuel : Nat) (instructions : InstructionSet) (level : Level) :
    (shared : Options) → Terminal → List Job → Option (List Conclusion)
  | _, _, [] => some []
  | shared, terminal, job :: jobs =>
    match job.run fuel instructions shared terminal level with
    | some (conclusion, shared) =>
      (runAll fuel instructions level shared conclusion.terminal jobs).map (conclusion :: ·)
    | none => none

end LittleComputer
