import Schemata.Number.Binary64

/-!
# Durations

A number of seconds for people to read: in milliseconds, in seconds with one decimal place, in
minutes and seconds, or in hours and minutes.
-/

namespace Schemata.Text

/-- A finite number of seconds in its two largest units. -/
def duration? (seconds : Binary64) : Option String := do
  let exact ← seconds.toRat?
  if exact < 1 then return intText (← (seconds.times 1000).truncate?) ++ "ms"
  else if exact < 60 then return seconds.fixed 1 ++ "s"
  else
    let whole ← seconds.truncate?
    let minutes := whole / 60
    if minutes < 60 then return intText minutes ++ "m " ++ intText (whole % 60) ++ "s"
    else return intText (minutes / 60) ++ "h " ++ intText (minutes % 60) ++ "m"

end Schemata.Text
