/-!
# The journal

Parts of the program report what they do in a journal.  An entry has a level, and a journal keeps
the entries from its threshold on.  What is not kept is not even formatted.
-/

namespace LittleComputer

/-- How much an entry matters, the least first. -/
inductive Level where
  | debug | info | warning | error
  deriving DecidableEq, Repr

namespace Level

/-- The name of a level. -/
def name : Level → String
  | debug => "DEBUG"
  | info => "INFO"
  | warning => "WARNING"
  | error => "ERROR"

/-- All levels, the least first. -/
def all : List Level := [debug, info, warning, error]

/-- The level with a given name. -/
def ofName? (name : String) : Option Level := all.find? (·.name == name)

/-- The rank of a level. -/
def rank : Level → Nat
  | debug => 10
  | info => 20
  | warning => 30
  | error => 40

end Level

/-- Which part of the program speaks. -/
inductive Source where
  | loader | runner | commandLine
  deriving DecidableEq, Repr

/-- The name of a part of the program in the journal. -/
def Source.name : Source → String
  | loader => "lc3vm.loader"
  | runner => "lc3vm.runner"
  | commandLine => "lc3vm.cli"

/-- One line of the journal. -/
structure Entry where
  level : Level
  source : Source
  text : String
  deriving DecidableEq, Repr

/-- An entry as a line of text. -/
def Entry.render (e : Entry) : String :=
  e.level.name ++ " " ++ e.source.name ++ ": " ++ e.text

/-- What has been reported so far, oldest first. -/
structure Journal where
  /-- The least level that is kept. -/
  threshold : Level
  /-- The entries. -/
  entries : Array Entry := #[]
  deriving DecidableEq, Repr

namespace Journal

/-- Whether entries of a level are kept. -/
def keeps (j : Journal) (level : Level) : Bool := j.threshold.rank ≤ level.rank

/-- Adds an entry, if its level is kept. -/
def add (j : Journal) (level : Level) (source : Source) (text : Unit → String) : Journal :=
  if j.keeps level then { j with entries := j.entries.push ⟨level, source, text ()⟩ } else j

/-- The lines of the journal. -/
def lines (j : Journal) : List String := j.entries.toList.map Entry.render

end Journal

end LittleComputer
