import Std.Data.HashSet.Lemmas

/-! Axes of a space: positions in ascending order, with the set of them beside, so that nothing
is searched through to tell whether a position is on an axis. -/
namespace Matchmaking

structure Axis where
  positions : List Int
  members : Std.HashSet Int
  mem_members : ∀ position, position ∈ members ↔ position ∈ positions

namespace Axis

def ofPositions (positions : List Int) : Axis :=
  ⟨positions, .ofList positions, fun position => by simp⟩

def full (size : Nat) : Axis :=
  ofPositions ((List.range size).map fun (place : Nat) => (place : Int))

def size (axis : Axis) : Nat := axis.positions.length

def contains (axis : Axis) (position : Int) : Bool := axis.members.contains position

theorem contains_iff {axis : Axis} {position : Int} :
    axis.contains position = true ↔ position ∈ axis.positions := by
  rw [contains, Std.HashSet.contains_iff_mem, axis.mem_members]

/-- A row in which nothing follows upon itself. -/
def unrepeated : List Int → List Int
  | first :: second :: rest =>
    if first = second then unrepeated (second :: rest) else first :: unrepeated (second :: rest)
  | row => row

theorem mem_unrepeated {row : List Int} {position : Int} :
    position ∈ unrepeated row ↔ position ∈ row := by
  fun_induction unrepeated row with
  | case1 first rest ih => simp [ih]
  | case2 first second rest differs ih => simp [ih]
  | case3 => rfl

def ascending (row : List Int) : List Int := unrepeated (row.mergeSort (· ≤ ·))

theorem mem_ascending {row : List Int} {position : Int} :
    position ∈ ascending row ↔ position ∈ row := by
  rw [ascending, mem_unrepeated, List.mem_mergeSort]

/-- The wanted positions that are on an axis. -/
def narrow (axis : Axis) (wanted : List Int) : Axis :=
  ofPositions (ascending (wanted.filter axis.contains))

theorem mem_narrow {axis : Axis} {wanted : List Int} {position : Int} :
    position ∈ (axis.narrow wanted).positions ↔
      position ∈ wanted ∧ position ∈ axis.positions := by
  rw [narrow, ofPositions, mem_ascending, List.mem_filter, contains_iff]

end Axis

end Matchmaking
