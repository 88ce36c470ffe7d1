import JavaUml.Decimal.Number
import JavaUml.Log

/-!
# Timing

A stopwatch measures one phase in milliseconds.  It reads a clock that counts
seconds; starting a running watch and stopping one that stands still read
nothing.  Work can be timed as a whole, with a log line about how it ended.
-/

namespace JavaUml.Timing

open Decimal (Number Binary64)

/-- The readings of a clock that are still to come. -/
abbrev Clock := List Number

/-- Read a clock.  A clock without readings stands at zero. -/
def Clock.read : Clock → Number × Clock
  | [] => (.whole 0, [])
  | reading :: later => (reading, later)

/-- Why a time cannot be told. -/
inductive Fault where
  /-- A whole number beyond the range of floating-point numbers. -/
  | beyondRange
  /-- A level that is no number. -/
  | noLevel
  deriving DecidableEq, Repr

/-- A value that is there unless a number is out of range. -/
def inRange {α : Type} : Option α → Except Fault α
  | some value => .ok value
  | none => .error .beyondRange

/-- The milliseconds between two readings. -/
def milliseconds (started ended : Number) : Except Fault Number := do
  inRange ((← inRange (ended.sub started)).mul (.whole 1000))

/-- The log line about a phase. -/
def tookLine (phase : String) (elapsed : Number) : Except Fault LogEntry := do
  return .info ("[TIMER] " ++ phase ++ " took " ++ (← inRange elapsed.twoPlaces?) ++ "ms")

/-- The log line about work that is done. -/
def finishedLine (level : Level) (name : String) (elapsed : Number) : Except Fault LogEntry := do
  return ⟨level, "[TIMER] " ++ name ++ " finished in " ++ (← inRange elapsed.twoPlaces?) ++ "ms"⟩

/-- The log line about work that failed. -/
def failedLine (name : String) (elapsed : Number) (reason : String) : Except Fault LogEntry := do
  return .error ("[TIMER] " ++ name ++ " failed after " ++ (← inRange elapsed.twoPlaces?) ++
    "ms: " ++ reason)

/-- What is logged about work that took a time, at the level of the given name
unless it failed for a reason. -/
def workLog (name level : String) (failure : Option String) (elapsed : Number) :
    Except Fault (List LogEntry) := do
  match failure, Threshold.ofName level with
  | some reason, _ => return [← failedLine name elapsed reason]
  | none, .rank rank => (Level.ofRank? rank).toList.mapM (finishedLine · name elapsed)
  | none, _ => throw .noLevel

/-- Time work that reads no clock itself: the clock behind it, and what is
logged. -/
def timedWork (name level : String) (failure : Option String) (clock : Clock) :
    Except Fault (Clock × List LogEntry) := do
  let (started, clock) := clock.read
  let (ended, clock) := clock.read
  return (clock, ← workLog name level failure (← milliseconds started ended))

/-- A stopwatch for one phase. -/
structure Stopwatch where
  phase : String
  isLogged : Bool
  startedAt : Option Number
  elapsed : Option Number

namespace Stopwatch

/-- A stopwatch that was never started. -/
def new (phase : String) (isLogged : Bool) : Stopwatch :=
  ⟨phase, isLogged, none, none⟩

def isRunning (watch : Stopwatch) : Bool :=
  watch.startedAt.isSome

/-- Start a watch that stands still. -/
def start (watch : Stopwatch) (clock : Clock) : Stopwatch × Clock :=
  if watch.isRunning then (watch, clock)
  else
    let (now, later) := clock.read
    ({ watch with startedAt := some now, elapsed := none }, later)

/-- The time that a watch which stands still shows. -/
def shown (watch : Stopwatch) : Number :=
  match watch.elapsed with
  | some elapsed => if elapsed.isZero then .floating Binary64.zero else elapsed
  | none => .floating Binary64.zero

/-- Stop a running watch: the time it shows, and what is logged. -/
def stop (watch : Stopwatch) (clock : Clock) :
    Except Fault (Number × Stopwatch × Clock × List LogEntry) := do
  match watch.startedAt with
  | none => return (watch.shown, watch, clock, [])
  | some started =>
      let (now, later) := clock.read
      let elapsed ← milliseconds started now
      let log ← if watch.isLogged then pure [← tookLine watch.phase elapsed] else pure []
      return (elapsed, { watch with startedAt := none, elapsed := some elapsed }, later, log)

end Stopwatch

end JavaUml.Timing
