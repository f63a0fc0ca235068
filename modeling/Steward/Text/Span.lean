/-!
# Spans of a text

A span marks a stretch of an input line, both ends included.  It may be empty or lie beside the text
when the fault it marks has no characters of its own.
-/

namespace Steward

/-- How much detail a description of a fault shows. -/
inductive Detail where
  /-- An excerpt of the input with the fault underlined. -/
  | brief
  /-- The excerpt and the positions of the span. -/
  | full
  deriving DecidableEq, Repr

/-- A stretch of a text, from `start` to `stop`, both included. -/
structure Span where
  source : List Char
  start : Int
  stop : Int
  deriving DecidableEq, Repr

namespace Span

/-- The characters from position `first` up to but not including `last`, where a negative position
counts from the end. -/
def slice (text : List Char) (first last : Int) : List Char :=
  let place (position : Int) : Nat :=
    (if position < 0 then position + text.length else position).toNat
  (text.take (place last)).drop (place first)

/-- The characters that the span covers. -/
def text (span : Span) : String := String.ofList (slice span.source span.start (span.stop + 1))

/-- The two positions of the span. -/
def positions (span : Span) : String := toString span.start ++ ":" ++ toString span.stop

/-- The input on one line and the span underlined below it, by at least one mark. -/
def excerpt (span : Span) (detail : Detail) : String :=
  let line := String.ofList (span.source.map fun c => if c = '\n' then ' ' else c)
  let width := (max 1 (span.stop - span.start + 1)).toNat
  let marks := "".pushn ' ' span.start.toNat ++ "".pushn '^' width
  let lines := "  " ++ line ++ "\n  " ++ marks
  match detail with
  | .brief => lines
  | .full => lines ++ "\n  at " ++ span.positions

end Span

end Steward
