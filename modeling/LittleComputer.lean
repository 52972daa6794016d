import LittleComputer.Main
import LittleComputer.Path
import LittleComputer.Plain.Document
import LittleComputer.Memory.Bank
import LittleComputer.Proofs.Fields
import LittleComputer.Run.Shared
import LittleComputer.Plain.Run
import LittleComputer.Port
import LittleComputer.Service
import LittleComputer.Proofs.Cycle
import LittleComputer.Proofs.Architecture
import LittleComputer.Proofs.Images
import LittleComputer.Proofs.Invariants
import LittleComputer.Proofs.Runs
import LittleComputer.Proofs.StepLimit
import LittleComputer.Proofs.Reports
import LittleComputer.Proofs.Rows
import LittleComputer.Proofs.Input
import LittleComputer.Proofs.Simulation
import LittleComputer.Proofs.Devices
import LittleComputer.Proofs.Strict
import LittleComputer.Proofs.Traces
import LittleComputer.Proofs.Output
import LittleComputer.Proofs.Sharing
import LittleComputer.Proofs.Observation
import LittleComputer.Proofs.Recording
import LittleComputer.Proofs.Encoding
import LittleComputer.Proofs.Literals
import LittleComputer.Proofs.Unread
import LittleComputer.Proofs.Atomicity
import LittleComputer.Proofs.Strings
import LittleComputer.Proofs.ImageFormat
import LittleComputer.Proofs.Layers
import LittleComputer.Proofs.Banks
import LittleComputer.Proofs.Snapshots
import LittleComputer.Proofs.Flags
import LittleComputer.Proofs.Steps
import LittleComputer.Proofs.Slides
import LittleComputer.Proofs.Echo
import LittleComputer.Proofs.Programs
import LittleComputer.Proofs.Multiplication
import LittleComputer.Proofs.Printing
import LittleComputer.Proofs.Transcripts
import LittleComputer.Proofs.Prompts
import LittleComputer.Proofs.SignExtension
import LittleComputer.Proofs.Decoding
import LittleComputer.Proofs.Ports
import LittleComputer.Proofs.Rendering
import LittleComputer.Proofs.Refinement
import LittleComputer.Proofs.PlainRuns
import LittleComputer.Proofs.WellFormed
import LittleComputer.Proofs.Consoles
import LittleComputer.Proofs.Calls
import LittleComputer.Proofs.Interrupts
import LittleComputer.Proofs.Operations
import LittleComputer.Proofs.Requests
import LittleComputer.Proofs.Answers
