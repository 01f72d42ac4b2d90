/-!
# Progress

A batch run reports what it does as events.  A display writes them down: plain lines,
or on a terminal a bar that is drawn again after each event.
-/

set_option autoImplicit false

namespace TemplateSelectors

inductive ProgressEvent where
  | step (number : Nat) (message : String)
  | start (total : Nat)
  | tick
  | interrupt (message : String)
  | finish
deriving DecidableEq, Repr

structure ProgressBar where
  drawn : Bool
  total : Nat
  done : Nat
  running : Bool
deriving DecidableEq, Repr

namespace ProgressBar

def stepCount : Nat :=
  2

def width : Nat :=
  40

def initial (drawn : Bool) : ProgressBar :=
  ⟨drawn, 0, 0, false⟩

/-- The part of the files that is done, as a floating-point number; all of them if
there are none. -/
def ratio (bar : ProgressBar) : Float :=
  if bar.total = 0 then 1.0 else bar.done.toFloat / bar.total.toFloat

/-- The tenths of a second that are left, if the files to come take as long as those
that are done. -/
def tenthsLeft (bar : ProgressBar) (elapsedMs : Nat) : Nat :=
  if bar.running ∧ 0 < bar.done ∧ bar.done < bar.total then
    elapsedMs * (bar.total - bar.done) / (bar.done * 100)
  else 0

def render (bar : ProgressBar) (elapsedMs : Nat) : String :=
  let filled := min (bar.ratio * width.toFloat).floor.toUInt64.toNat width
  let percent := (bar.ratio * 100.0).floor.toUInt32.toNat
  let tenths := bar.tenthsLeft elapsedMs
  "[" ++ String.ofList (List.replicate filled '>') ++
    String.ofList (List.replicate (width - filled) ' ') ++ "] " ++ toString percent ++ "% " ++
    toString (tenths / 10) ++ "." ++ toString (tenths % 10) ++ "s"

def draw (bar : ProgressBar) (elapsedMs : Nat) : String :=
  if bar.drawn then "\r" ++ bar.render elapsedMs else ""

def clear (bar : ProgressBar) : String :=
  if bar.drawn ∧ bar.running then "\x1b[2K\x1b[1G" else ""

/-- What an event writes, and the state after it.  `elapsedMs` is the time since work
on the files began. -/
def write (bar : ProgressBar) (elapsedMs : Nat) : ProgressEvent → String × ProgressBar
  | .step number message =>
      let marker := "[" ++ toString number ++ "/" ++ toString stepCount ++ "]"
      let marker := if bar.drawn then "\x1b[2m" ++ marker ++ "\x1b[0m" else marker
      (marker ++ " " ++ message ++ "\n", bar)
  | .start total =>
      let bar := { bar with total := total, done := 0, running := true }
      (bar.draw 0, bar)
  | .tick =>
      let bar := { bar with done := min (bar.done + 1) bar.total }
      (bar.draw elapsedMs, bar)
  | .interrupt message =>
      let line := if bar.drawn then "\x1b[38;5;9m" ++ message ++ "\x1b[39m" else message
      (bar.clear ++ line ++ "\n" ++ bar.draw elapsedMs, bar)
  | .finish =>
      (if bar.drawn ∧ bar.running then "\n" else "", { bar with running := false })

/-- All that a run writes when no time passes. -/
def writeAll (bar : ProgressBar) : List ProgressEvent → String
  | [] => ""
  | event :: events =>
      let written := bar.write 0 event
      written.1 ++ writeAll written.2 events

end ProgressBar

end TemplateSelectors
