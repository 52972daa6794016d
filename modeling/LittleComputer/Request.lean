import LittleComputer.Run.Options

/-!
# Requests

A request to run a program names its image in base 64, its input and its options.  Texts are given
by the codes of their characters, of which any may occur, halves of surrogate pairs included.  How
texts in base 64 and keys are read is a matter of the service's `Host`.

Running a request takes the bytes of its image and the options of the run (`Request.resolve`).  The
image is decoded first, then its size is limited, and last come the keys of the initial memory; what
goes wrong first is the reason for a refusal.
-/

namespace LittleComputer

/-- The greatest step limit that a request may ask for. -/
def maxMaxSteps : Int := 10000000

/-- The options of a request. -/
structure RequestOptions where
  /-- Where to start, unless at the origin. -/
  startAddress : Int := defaultStart
  /-- It is an address. -/
  startAddress_bounds : 0 ≤ startAddress ∧ startAddress ≤ 0xFFFF := by decide
  /-- Start at the origin of the image. -/
  startAtOrigin : Bool := false
  /-- How many instructions may be completed. -/
  maxSteps : Int := 100000
  /-- At least one, and not too many. -/
  maxSteps_bounds : 1 ≤ maxSteps ∧ maxSteps ≤ maxMaxSteps := by decide
  /-- A read past the end of the input is a fault. -/
  strictInput : Bool := false
  /-- Record every completed instruction. -/
  trace : Bool := false
  /-- The addresses whose cells are recorded with it. -/
  watch : List Int := []
  /-- Record the characters read and written with it. -/
  traceTerminal : Bool := true
  /-- Values by the text of their address, in order. -/
  initialMemory : List (List Nat × Int) := []
  deriving DecidableEq, Repr

instance : Inhabited RequestOptions := ⟨{}⟩

/-- A request to run a program. -/
structure Request where
  /-- The image in base 64. -/
  image : List Nat
  /-- The input. -/
  input : List Nat := []
  /-- How the program is to be run, unless by default. -/
  options : Option RequestOptions := none
  deriving DecidableEq, Repr

/-- What the service finds around it. -/
structure Service.Host where
  /-- The bytes that a text in base 64 stands for. -/
  decode : List Nat → Option (List Byte)
  /-- The integer that a key stands for. -/
  integer? : List Nat → Option Int

namespace Request

/-- Why a request is refused. -/
inductive Refusal where
  /-- The image is not well-formed base 64. -/
  | badImage
  /-- The image is larger than any that fits. -/
  | imageTooLarge
  /-- This is no integer. -/
  | badKey (key : List Nat)
  deriving DecidableEq, Repr

/-- The size of the largest image: an origin and the full address space. -/
def maxImageSize : Nat := 2 * wordCount + 2

/-- The codes of a text. -/
def codesOf (s : String) : List Nat := s.toList.map Char.toNat

/-- The text of a refusal. -/
def Refusal.detail : Refusal → List Nat
  | badImage => codesOf "Image is not valid base64"
  | imageTooLarge => codesOf ("Image size exceeds limit of " ++ toString maxImageSize ++ " bytes")
  | badKey key => codesOf "Invalid memory address key: " ++ key

variable (host : Service.Host)

/-- The options of a request, given or by default. -/
def asked (r : Request) : RequestOptions := r.options.getD default

/-- The bytes of the image. -/
def imageBytes (r : Request) : Except Refusal (List Byte) :=
  match host.decode r.image with
  | none => .error .badImage
  | some bytes => if maxImageSize < bytes.length then .error .imageTooLarge else .ok bytes

/-- Reads the keys of the initial memory in turn, after the assignments already made. -/
def assignments (a : Assignments) : List (List Nat × Int) → Except Refusal Assignments
  | [] => .ok a
  | (key, value) :: rest =>
    match host.integer? key with
    | some address => assignments (a.insert address value) rest
    | none => .error (.badKey key)

/-- The options of the run that a request asks for, with the given initial memory. -/
def toOptions (o : RequestOptions) (initialMemory : Assignments) : Options where
  startAddress := o.startAddress
  startAtOrigin := o.startAtOrigin
  maxSteps := some o.maxSteps
  strictInput := o.strictInput
  trace := o.trace
  watch := o.watch
  traceTerminal := o.traceTerminal
  initialMemory := initialMemory

/-- The bytes of the image and the options of the run that a request asks for. -/
def resolve (r : Request) : Except Refusal (List Byte × Options) := do
  let bytes ← r.imageBytes host
  let initialMemory ← assignments host {} r.asked.initialMemory
  return (bytes, toOptions r.asked initialMemory)

end Request

end LittleComputer
