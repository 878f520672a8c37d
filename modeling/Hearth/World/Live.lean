import Hearth.World

/-!
# Worlds in real time

Outside of rehearsals time is not in the hands of the world. It runs as far as it can without time
passing, and is then told how late it has become.
-/

namespace Hearth.World

/-- Can a job go on without time passing? -/
def isBusy (w : World) : Bool := w.current.isSome || w.mainReady || !w.ready.isEmpty

/-- Runs until no job can go on without time passing; `fuel` bounds the number of steps. -/
def runNow : Nat → World → World
  | 0, w => w
  | fuel + 1, w =>
    if w.isBusy then
      match w.step? with
      | some w => runNow fuel w
      | none => w
    else w

/-- Lets time pass up to a moment, in nanoseconds since the start, with the timers that are due. -/
def passBy (w : World) (moment : Nat) : World :=
  if w.timers.any (·.due ≤ moment) then w.passTo moment
  else { w with house := { w.house with now := max w.house.now moment } }

end Hearth.World
