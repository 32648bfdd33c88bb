import Mathlib.Algebra.BigOperators.Group.Finset.Basic
import Mathlib.Order.Interval.Finset.Nat
import ForsKernel.Lib.Dyadic

/-!
# The sizes of the tiles

The tiles of a tiling are disjoint and leave nothing out, so their sizes add
up to the size of the whole.
-/

namespace ForsKernel.Lib.Dyadic.Tiling

variable
  {base top : Nat}
  {starts : Finset Nat}
  {order : Nat → Nat}

/-- The addresses of all tiles together. -/
theorem biUnion_tiles (tiling : Tiling base top starts order) :
    (starts.biUnion fun tile => Finset.Ico tile (tile + 2 ^ order tile)) =
      Finset.Ico base (base + 2 ^ top) := by
  ext address
  rw [Finset.mem_biUnion, Finset.mem_Ico]
  constructor
  · rintro ⟨tile, member, inTile⟩
    have inside := tiling.inside tile member
    rw [Finset.mem_Ico] at inTile
    omega
  · rintro ⟨lower, upper⟩
    rcases tiling.cover address lower upper with ⟨tile, member, inTile⟩
    exact ⟨tile, member, Finset.mem_Ico.mpr inTile⟩

theorem sum_size (tiling : Tiling base top starts order) :
    ∑ tile ∈ starts, 2 ^ order tile = 2 ^ top := by
  have apart : (starts : Set Nat).PairwiseDisjoint
      fun tile => Finset.Ico tile (tile + 2 ^ order tile) := by
    intro tile member other otherMember different
    apply Finset.disjoint_left.mpr
    intro address inTile inOther
    exact different (tiling.eq_of_meet member otherMember
      (Finset.mem_Ico.mp inTile) (Finset.mem_Ico.mp inOther))
  calc ∑ tile ∈ starts, 2 ^ order tile
      = ∑ tile ∈ starts, (Finset.Ico tile (tile + 2 ^ order tile)).card := by
        simp only [Nat.card_Ico, Nat.add_sub_cancel_left]
    _ = (Finset.Ico base (base + 2 ^ top)).card := by
        rw [← Finset.card_biUnion apart, tiling.biUnion_tiles]
    _ = 2 ^ top := by
        rw [Nat.card_Ico, Nat.add_sub_cancel_left]

/-- A tile as large as the whole is alone. -/
theorem eq_of_whole
    (tiling : Tiling base top starts order)
    {tile : Nat}
    (member : tile ∈ starts)
    (whole : order tile = top)
    {other : Nat}
    (otherMember : other ∈ starts) :
    other = tile := by
  by_contra different
  have inside := tiling.inside tile member
  have otherInside := tiling.inside other otherMember
  have positive := Nat.two_pow_pos (order other)
  rw [whole] at inside
  have apart := tiling.disjoint other otherMember tile member different
  rw [whole] at apart
  omega

end ForsKernel.Lib.Dyadic.Tiling
