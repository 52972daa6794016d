/-!
# What the command line tells about itself

The fixed texts: the usage, the help and the version.
-/

namespace LittleComputer.CommandLine

/-- The name of the program. -/
def programName : String := "lc3vm"

/-- Lines as a text, each with its end. -/
def ofLines (lines : List String) : String := String.join (lines.map (· ++ "\n"))

/-- How the program is called. -/
def usage : String := ofLines
  ["usage: lc3vm [-h] [--start-at-origin] [--max-steps MAX_STEPS] [--strict-input]",
   "             [--log-level \x7bDEBUG,INFO,WARNING,ERROR\x7d] [--version]",
   "             image"]

/-- The usage and what the arguments mean. -/
def help : String := usage ++ ofLines
  ["",
   "Run an LC-3 program image",
   "",
   "positional arguments:",
   "  image                 Path to the program image",
   "",
   "options:",
   "  -h, --help            show this help message and exit",
   "  --start-at-origin     Start at the image origin instead of 0x3000",
   "  --max-steps MAX_STEPS",
   "                        Fault after this many instructions",
   "  --strict-input        Fault on end of input instead of reading 0xFFFF",
   "  --log-level \x7bDEBUG,INFO,WARNING,ERROR\x7d",
   "                        Logging level (logs go to stderr)",
   "  --version             show program's version number and exit"]

/-- The name and the version of the program. -/
def versionLine : String := ofLines [programName ++ " 0.1.0"]

end LittleComputer.CommandLine
