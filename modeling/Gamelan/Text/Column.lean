namespace Gamelan.Text

/-!
# Columns

Cells of a table, padded with spaces to a number of characters; a longer cell stays as it is.
-/

/-- A cell that stands at the right of its column. -/
def alignRight (width : Nat) (cell : String) : String :=
  String.ofList (cell.toList.leftpad width ' ')

/-- A cell that stands at the left of its column. -/
def alignLeft (width : Nat) (cell : String) : String :=
  String.ofList (cell.toList.rightpad width ' ')

end Gamelan.Text
