import LittleComputer.Image
import LittleComputer.Journal

/-!
# Loading images

Reading an image reports its warnings in the journal; loading one from a file also reports what was
loaded and where it goes.
-/

namespace LittleComputer

/-- Why there is nothing to be read at a path. -/
inductive ReadError where
  /-- The system tells the reason. -/
  | system (reason : String)
  /-- The text is no path, and the system has not been asked. -/
  | refused (message : String)
  deriving DecidableEq, Repr

namespace Image

/-- Reads the file form of an image and reports its warnings. -/
def read (data : List Byte) (journal : Journal) : Except Error Image × Journal :=
  match parse data with
  | .ok (image, warnings) =>
    (.ok image, warnings.foldl (fun j w => j.add .warning .loader fun _ => w.message) journal)
  | .error e => (.error e, journal)

/-- The range of addresses that an image covers, as it is shown to people. -/
def range (image : Image) : String :=
  "[" ++ Text.address image.origin.toNat ++ ", " ++ Text.address image.limit.toNat ++ ")"

/-- Why no image has been loaded. -/
inductive LoadError where
  /-- There is none. -/
  | image (e : Error)
  /-- The text is no path. -/
  | refused (message : String)
  deriving DecidableEq, Repr

/-- Loads an image from the contents of the file at a path.  Where the system cannot read the file,
this is reported as a failed load; anything else is not for the loader to report. -/
def load (path : String) (contents : Except ReadError (List Byte)) (journal : Journal) :
    Except LoadError Image × Journal :=
  match contents with
  | .error (.system reason) => (.error (.image (.unreadable path reason)), journal)
  | .error (.refused message) => (.error (.refused message), journal)
  | .ok data =>
    match read data journal with
    | (.ok image, journal) =>
      (.ok image, journal.add .info .loader fun _ =>
        "Loaded " ++ toString image.words.length ++ " words from " ++ path ++ " into "
          ++ image.range)
    | (.error e, journal) => (.error (.image e), journal)

end Image

end LittleComputer
