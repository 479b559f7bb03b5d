import CommandLine.Toml.Value

/-!
# Tables that stand for dates

A table whose first entry has the reserved name stands for the date or time in its string,
whatever other entries it has. Where dates may be written so, every such table must hold one.
-/

namespace CommandLine.Toml

/-- What a table has in place of a date, if its first entry makes it stand for one. -/
def dateEntry? : List (String × Value) → Option Value
  | [] => none
  | (name, v) :: _ => if name = Datetime.entryName then some v else none

mutual

/-- The value with the dates that its tables stand for; none if one of them is not a date. -/
def Value.withDates? : Value → Option Value
  | .array items => (itemsWithDates? items).map .array
  | .table entries =>
    match dateEntry? entries with
    | some v => (v.string?.bind Datetime.ofText?).map .datetime
    | none => (entriesWithDates? entries).map .table
  | v => some v

/-- The items of an array with their dates. -/
def itemsWithDates? : List Value → Option (List Value)
  | [] => some []
  | v :: rest => do return (← v.withDates?) :: (← itemsWithDates? rest)

/-- The entries of a table with their dates. -/
def entriesWithDates? : List (String × Value) → Option (List (String × Value))
  | [] => some []
  | (name, v) :: rest => do return (name, ← v.withDates?) :: (← entriesWithDates? rest)

end

end CommandLine.Toml
