/-!
# Log entries

The levels of the log, their numbers and names, and entries of a log.  A
journal is the list of entries in the order in which they were made.
-/

namespace JavaUml

/-- How grave a log entry is. -/
inductive Level where
  | debug
  | info
  | warning
  | error
  | critical
  deriving DecidableEq, Repr

namespace Level

/-- The name in front of an entry. -/
def name : Level → String
  | debug => "DEBUG"
  | info => "INFO"
  | warning => "WARNING"
  | error => "ERROR"
  | critical => "CRITICAL"

/-- The number a threshold is compared with. -/
def rank : Level → Nat
  | debug => 10
  | info => 20
  | warning => 30
  | error => 40
  | critical => 50

/-- All levels, from the least to the most grave. -/
def all : List Level :=
  [debug, info, warning, error, critical]

end Level

/-- One line of a log. -/
structure LogEntry where
  level : Level
  message : String
  deriving DecidableEq, Repr

namespace LogEntry

def debug (message : String) : LogEntry := ⟨.debug, message⟩

def info (message : String) : LogEntry := ⟨.info, message⟩

def warning (message : String) : LogEntry := ⟨.warning, message⟩

def error (message : String) : LogEntry := ⟨.error, message⟩

end LogEntry

/-- A character in capital letters, for the letters of threshold names. -/
def capitals (c : Char) : List Char :=
  if 'a' ≤ c ∧ c ≤ 'z' then [Char.ofNat (c.toNat - 32)]
  else if c = 'ı' then ['I']
  else if c = 'ſ' then ['S']
  else if c = 'ﬅ' ∨ c = 'ﬆ' then ['S', 'T']
  else [c]

/-- What the name of a threshold stands for. -/
inductive Threshold where
  | rank (number : Nat)
  /-- A text, which is no threshold. -/
  | text (content : String)
  /-- Something else that is no threshold. -/
  | other
  deriving DecidableEq, Repr

/-- The names of thresholds, among them two that are in use for other things. -/
def thresholdNames : List (String × Threshold) :=
  [("CRITICAL", .rank 50), ("FATAL", .rank 50), ("ERROR", .rank 40), ("WARNING", .rank 30),
    ("WARN", .rank 30), ("INFO", .rank 20), ("DEBUG", .rank 10), ("NOTSET", .rank 0),
    ("BASIC_FORMAT", .text "%(levelname)s:%(name)s:%(message)s"), ("_STYLES", .other)]

/-- The threshold of a name in letters of either case.  A name that is not known
stands for the level of information. -/
def Threshold.ofName (name : String) : Threshold :=
  (thresholdNames.lookup (String.ofList (name.toList.flatMap capitals))).getD
    (.rank Level.info.rank)

/-- The level with a number. -/
def Level.ofRank? (rank : Nat) : Option Level :=
  Level.all.find? fun level => level.rank = rank

/-- A line of a log file without the time of its entry. -/
def LogEntry.line (entry : LogEntry) : String :=
  entry.level.name ++ " - " ++ entry.message

/-- The entries that a threshold lets through. -/
def passing (threshold : Nat) (log : List LogEntry) : List LogEntry :=
  log.filter fun entry => threshold ≤ entry.level.rank

end JavaUml
