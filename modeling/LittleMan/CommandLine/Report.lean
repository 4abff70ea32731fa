import LittleMan.Source.Line
import LittleMan.Text.Decimal

/-!
# Reports

How an error is shown: what is wrong, the line of the source with a mark under the place, and a
hint. Lines and columns are counted from 1 here. Columns and marks count bytes.
-/

namespace LittleMan.CommandLine

/-- The marks under a place: as many as it has bytes, but one at least, and none past the end of the
line unless it is the only one. -/
def markCount (line : Text) (column : Nat) (place : Span) : Nat :=
  max 1 (min place.length (max 1 (Text.byteLength line - column)))

def placeLines (path source : Text) (place : Span) : List Text :=
  let position := Source.position source place.start
  let number := Decimal.digits (position.line + 1)
  let line := Text.trimBlanksRight ((Text.endedLines source).getD position.line [])
  let gutter := List.replicate number.length ' ' ++ " |".toList
  let marks := List.replicate (markCount line position.column place) '^'
  [" --> ".toList ++ path ++ ':' :: number ++ ':' :: Decimal.digits (position.column + 1),
   gutter,
   number ++ " | ".toList ++ line,
   gutter ++ ' ' :: (List.replicate position.column ' ' ++ marks)]

def reportLines (path source message : Text) (help : String) (place : Option Span) : List Text :=
  ["error: ".toList ++ message] ++ (place.map (placeLines path source)).getD [] ++
    ["help: ".toList ++ help.toList]

end LittleMan.CommandLine
