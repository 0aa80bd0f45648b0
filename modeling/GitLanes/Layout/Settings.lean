import GitLanes.Fault
import GitLanes.Number.Quantity

namespace GitLanes

/-!
# Settings of a layout

The distance between neighbouring commits and between neighbouring lanes, and
the colors that the lanes take in turn.
-/

/-- The colors of the lanes, of which there is at least one. -/
structure Palette where
  colors : List String
  nonempty : colors ≠ []
  deriving Repr, DecidableEq

namespace Palette

/-- A palette of the given colors, unless there are none. -/
def ofList (colors : List String) : Except Fault Palette :=
  if nonempty : colors ≠ [] then .ok ⟨colors, nonempty⟩ else .error .emptyPalette

/-- The number of colors. -/
def size (palette : Palette) : Nat :=
  palette.colors.length

/-- A palette has a positive size. -/
theorem size_pos (palette : Palette) : 0 < palette.size :=
  List.length_pos_iff.2 palette.nonempty

/-- A remainder by the size of a palette is a position in it. -/
theorem remainder_lt_size (palette : Palette) (index : Int) :
    (index % palette.size).toNat < palette.size := by
  have positive := palette.size_pos
  have below := Int.emod_lt_of_pos index (Int.natCast_pos.2 positive)
  have fromZero := Int.emod_nonneg index (b := palette.size) (by omega)
  omega

/-- The color at an index, the colors repeating without end in both directions. -/
def color (palette : Palette) (index : Int) : String :=
  palette.colors.get ⟨(index % palette.size).toNat, palette.remainder_lt_size index⟩

/-- The colors used unless others are asked for. -/
def standard : Palette where
  colors := ["#1E90FF", "#FF6347", "#32CD32", "#FFD700", "#DA70D6"]
  nonempty := by simp

end Palette

/-- What a layout is free to choose. -/
structure Settings where
  spacingX : Quantity := .int 150
  spacingY : Quantity := .int 100
  palette : Palette := .standard
  deriving Repr, DecidableEq

end GitLanes
