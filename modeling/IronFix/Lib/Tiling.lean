import Mathlib.Data.List.Basic

/-!
# Tilings

Pieces laid end to end: each starts where the one before stopped. A piece may
be empty, never negative, so a tiling only moves up, and every point it moved
over lies in a piece.
-/

namespace Lib.Tiling

variable {τ : Type} (first next : τ → Nat)

/-- The pieces run from `start` to `stop`. -/
def Tiles : Nat → List τ → Nat → Prop
  | start, [], stop => start = stop
  | start, piece :: pieces, stop =>
      first piece = start ∧ first piece ≤ next piece ∧ Tiles (next piece) pieces stop

variable {first next}

theorem Tiles.le {start stop : Nat} {pieces : List τ} (tiles : Tiles first next start pieces stop) :
    start ≤ stop := by
  induction pieces generalizing start with
  | nil => exact Nat.le_of_eq tiles
  | cons piece pieces ih =>
      obtain ⟨rfl, up, rest⟩ := tiles
      exact Nat.le_trans up (ih rest)

/-- One more piece. -/
theorem Tiles.snoc {start stop : Nat} {pieces : List τ} {piece : τ}
    (tiles : Tiles first next start pieces stop) (here : first piece = stop)
    (up : first piece ≤ next piece) : Tiles first next start (pieces ++ [piece]) (next piece) := by
  induction pieces generalizing start with
  | nil => exact ⟨here.trans (Eq.symm tiles), up, rfl⟩
  | cons head pieces ih => exact ⟨tiles.1, tiles.2.1, ih tiles.2.2⟩

theorem Tiles.first_ge {start stop : Nat} {pieces : List τ}
    (tiles : Tiles first next start pieces stop) {piece : τ} (member : piece ∈ pieces) :
    start ≤ first piece := by
  induction pieces generalizing start with
  | nil => cases member
  | cons head pieces ih =>
      obtain ⟨rfl, up, rest⟩ := tiles
      rcases List.mem_cons.mp member with rfl | later
      · exact Nat.le_refl _
      · exact Nat.le_trans up (ih rest later)

/-- The pieces are in order. -/
theorem Tiles.ordered {start stop : Nat} {pieces : List τ}
    (tiles : Tiles first next start pieces stop) :
    pieces.Pairwise fun earlier later => next earlier ≤ first later := by
  induction pieces generalizing start with
  | nil => exact List.Pairwise.nil
  | cons head pieces ih =>
      obtain ⟨-, -, rest⟩ := tiles
      exact List.pairwise_cons.mpr ⟨fun piece member => rest.first_ge member, ih rest⟩

/-- Every point moved over lies in a piece. -/
theorem Tiles.covers {start stop : Nat} {pieces : List τ}
    (tiles : Tiles first next start pieces stop) {n : Nat} (above : start ≤ n) (below : n < stop) :
    ∃ piece ∈ pieces, first piece ≤ n ∧ n < next piece := by
  induction pieces generalizing start with
  | nil =>
      have nowhere : start = stop := tiles
      omega
  | cons head pieces ih =>
      obtain ⟨here, -, rest⟩ := tiles
      by_cases inside : n < next head
      · exact ⟨head, List.mem_cons_self, here ▸ above, inside⟩
      · obtain ⟨piece, member, within⟩ := ih rest (Nat.le_of_not_lt inside)
        exact ⟨piece, List.mem_cons_of_mem _ member, within⟩

end Lib.Tiling
