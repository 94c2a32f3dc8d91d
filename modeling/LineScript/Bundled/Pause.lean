import LineScript.Action.Basic
import LineScript.Pattern.Parser

/-!
# Pauses

A line `SLEEP 5s` lets some time pass, given in milliseconds (`ms`), seconds (`s`) or minutes
(`m`), in any case. The duration is a numeral of at most 4300 digits of any scripts.
-/

namespace LineScript.Bundled.Pause

/-- The pattern node for a letter in any case. -/
def letter (c : Char) : Pattern.Node :=
  .one (.caseless c)

/-- A pause. -/
def pause : Pattern where
  source := "^SLEEP (\\d+)\\s*(ms|s|m)$"
  flags := { ignoreCase := true }
  root :=
    .seq (.anchor .textStart) (.seq (letter 'S') (.seq (letter 'L') (.seq (letter 'E')
      (.seq (letter 'E') (.seq (letter 'P') (.seq (letter ' ')
        (.seq (.group 1 (.repeated 1 none true
            (.one (.oneOf false false [.category false .digit]))))
          (.seq (.repeated 0 none true (.one (.oneOf false false [.category false .blank])))
            (.seq (.group 2 (.either (.seq (letter 'm') (letter 's'))
                (.either (letter 's') (letter 'm'))))
              (.anchor .finalEnd))))))))))
  groups := 2

/-- The pattern is what its source stands for. -/
theorem ofSource?_pause : Pattern.ofSource? pause.flags pause.source = some pause := by
  decide +kernel

/-- The most digits that a duration may have. -/
def maxDigits : Nat := 4300

/-- The milliseconds in a unit of time. -/
def millisecondsIn? (unit : String) : Option Nat :=
  match Text.inSmallLetters unit with
  | "ms" => some 1
  | "s" => some 1000
  | "m" => some 60000
  | _ => none

/-- The seconds in some units of time. -/
def seconds (duration unit : String) : Except Fault Number.Binary64 := do
  let digits := duration.toList
  if maxDigits < digits.length then throw (.tooManyDigits digits.length)
  let some factor := millisecondsIn? unit | throw (.missingKey (Text.inSmallLetters unit))
  let magnitude := Number.Binary64.nearest (Text.numeral digits * factor) 1000
  if Number.Binary64.infinity ≤ magnitude then throw .quotientTooLarge
  return ⟨false, magnitude⟩

/-- Let some time pass and end the line. -/
def sleep {Memory : Type} (host : Host Memory) (duration unit : String) : Query Memory Value := do
  let amount ← Query.ofExcept (seconds duration unit)
  Query.note (.sleeping amount)
  host.sleep amount
  return .sentinel .done

/-- The action for pauses. -/
def action : Action :=
  .ofPattern pause (.bundled .sleep)

end LineScript.Bundled.Pause
