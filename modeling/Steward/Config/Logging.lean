import Steward.Value

/-!
# Logging

How much is logged is set by a level, a whole number or the name of one.  The platform's library tells
of every event at the lowest level, so that it is heard from the level of plain information on only.
-/

namespace Steward

/-- How the records of a program are logged. -/
structure LogSetup where
  /-- Records below this level are not logged. -/
  level : Int
  /-- The same for records of the platform's library. -/
  platformLevel : Int
  deriving DecidableEq, Repr

namespace LogSetup

def informative : Int := 20

/-- The levels by their names. -/
def levels : List (String × Int) :=
  [("CRITICAL", 50), ("FATAL", 50), ("ERROR", 40), ("WARNING", 30), ("WARN", 30), ("INFO", 20),
    ("DEBUG", 10), ("NOTSET", 0)]

/-- A letter in upper case, as far as the names of levels go. -/
def upper (c : Char) : Char :=
  if c = 'ı' then 'I' else if c = 'ſ' then 'S' else c.toUpper

/-- The level of a name, in whatever case; that of plain information if there is none of the name. -/
def levelOf (name : String) : Int :=
  let name := String.ofList (name.toList.map upper)
  ((levels.find? (·.1 == name)).map Prod.snd).getD informative

/-- The setup for a level. -/
def ofLevel (level : Int) : LogSetup := ⟨level, max level informative⟩

/-- The setup for the name or the number of a level. -/
def ofValue? : Value → Option LogSetup
  | .text name => some (ofLevel (levelOf name))
  | .int level => some (ofLevel level)
  | .bool level => some (ofLevel (if level then 1 else 0))
  | _ => none

/-- How a record is written. -/
def format : String := "[%(asctime)s] [%(levelname)s] %(name)s: %(message)s"

/-- How the time of a record is written. -/
def timeFormat : String := "%H:%M:%S"

/-- How many handlers records go to: a console. -/
def handlers : Nat := 1

end LogSetup

end Steward
