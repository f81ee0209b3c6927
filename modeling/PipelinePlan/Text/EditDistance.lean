namespace PipelinePlan.Text

variable {α : Type} [BEq α]

/-- The entries of the next row from the one that ends with `left`. `corner` is the old entry above
`left`, and each old entry stands beside the element of `ys` that it belongs to. -/
def nextEntries (x : α) (corner left : Nat) : List (α × Nat) → List Nat
  | [] => []
  | (y, above) :: rest =>
    let here := min (min (above + 1) (left + 1)) (corner + if x == y then 0 else 1)
    here :: nextEntries x above here rest

/-- The row of `xs ++ [x]` from the row of `xs`, which holds the distance of `xs` to each beginning
of `ys`. -/
def nextRow (ys : List α) (row : List Nat) (x : α) : List Nat :=
  match row with
  | [] => []
  | corner :: above => (corner + 1) :: nextEntries x corner (corner + 1) (ys.zip above)

def editDistance (xs ys : List α) : Nat :=
  (xs.foldl (nextRow ys) (List.range (ys.length + 1))).getLast?.getD 0

end PipelinePlan.Text
