/-!
# Tables of code points

A property of characters is kept as a list of ranges, each with its first and last code point. Long
lists are cut into tables, and each table is listed with the last code point in it, so that a search
passes over whole tables.
-/

set_option autoImplicit false

namespace EditionCheck.Text

/-- Whether a code point lies in one of the ranges. -/
def inRanges (ranges : List (Nat × Nat)) (code : Nat) : Bool :=
  ranges.any fun r => decide (r.1 ≤ code) && decide (code ≤ r.2)

/-- Whether a code point lies in a range of one of the tables. -/
def inTables (tables : List (Nat × List (Nat × Nat))) (code : Nat) : Bool :=
  tables.any fun t => decide (code ≤ t.1) && inRanges t.2 code

end EditionCheck.Text
