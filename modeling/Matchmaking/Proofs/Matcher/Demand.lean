import Matchmaking.Proofs.Matcher.Meaning
import Matchmaking.Proofs.Matcher.Steps

/-! What the rows of a matcher say of elements. A row over the tuples of a view asks for a number
of selected rows of one kind, unless no active row is of it; rows that calls add say just what
those calls demand. -/
namespace Matchmaking

/-- How many of the selected rows of a kind there are to be. -/
structure Demand where
  kind : List Value → Bool
  op : Operator
  target : Int

def Table.Within (table : Table) (active selected : List Value → Bool) : Prop :=
  ∀ row, selected row = true → row ∈ table.rows ∧ active row = true

/-- Whether the selected rows meet a demand; it is dropped if no active row is of its kind. -/
def Demand.Met (table : Table) (active selected : List Value → Bool) (d : Demand) : Prop :=
  (∃ row ∈ table.rows, active row = true ∧ d.kind row = true) →
    d.op.holds (table.number fun row => selected row && d.kind row) d.target = true

/-- A row of a matcher that stands for a demand: one over a view of the rows of its kind. -/
structure Constraint.Means (table : Table) (c : Constraint) (d : Demand) : Prop where
  unknowns : ∃ view : View, view.Sound ∧ view.table = table ∧ c.unknowns = view.ids.map .text ∧
    ∀ row ∈ table.rows, view.has row = d.kind row
  operator : c.operator = d.op
  target : c.target = .int d.target
  strict : c.flexible = .bool false

/-- Rows of a matcher that stand for demands which together amount to a rule. -/
def AmountsTo (table : Table) (added : List Constraint)
    (rule : (List Value → Bool) → (List Value → Bool) → Prop) : Prop :=
  ∃ demands, List.Forall₂ (Constraint.Means table) added demands ∧
    ∀ active selected, table.Within active selected →
      ((∀ d ∈ demands, d.Met table active selected) ↔ rule active selected)

namespace AmountsTo

variable {table : Table} {added : List Constraint}
  {rule rule' : (List Value → Bool) → (List Value → Bool) → Prop}

theorem nil : AmountsTo table [] fun _ _ => True := ⟨[], .nil, by simp⟩

theorem append {added' : List Constraint} (first : AmountsTo table added rule)
    (second : AmountsTo table added' rule') :
    AmountsTo table (added ++ added') fun active selected => rule active selected ∧ rule' active selected := by
  obtain ⟨demands, means, amount⟩ := first
  obtain ⟨demands', means', amount'⟩ := second
  refine ⟨demands ++ demands', List.rel_append means means', fun active selected within => ?_⟩
  rw [List.forall_mem_append, amount active selected within, amount' active selected within]

theorem congr (amounts : AmountsTo table added rule) (same : ∀ active selected, table.Within active selected →
    (rule active selected ↔ rule' active selected)) : AmountsTo table added rule' := by
  obtain ⟨demands, means, amount⟩ := amounts
  exact ⟨demands, means, fun active selected within =>
    (amount active selected within).trans (same active selected within)⟩

theorem flatten {α : Type} {rule : α → (List Value → Bool) → (List Value → Bool) → Prop} {xs : List α}
    {added : List (List Constraint)} (each : List.Forall₂ (fun x rows => AmountsTo table rows (rule x)) xs added) :
    AmountsTo table added.flatten fun active selected => ∀ x ∈ xs, rule x active selected := by
  induction each with
  | nil => exact nil.congr (by simp)
  | cons first _ ih => exact (first.append ih).congr (by simp)

theorem rowsOver {view : View} (sound : view.Sound) {kind : List Value → Bool}
    (has : ∀ row ∈ view.table.rows, view.has row = kind row) {op : Operator} {target : Value} {n : Int}
    (whole : target = .int n) (made : Matcher.RowsOver view op target added) :
    AmountsTo view.table added (Demand.Met view.table · · ⟨kind, op, n⟩) := by
  unfold Matcher.RowsOver at made
  split at made
  · rename_i empty
    rw [made]
    refine nil.congr fun active selected _ => iff_of_true trivial ?_
    rintro ⟨row, member, -, inside⟩
    have listed := (View.mem_ids_iff sound).mpr ⟨row, member, (has row member).trans inside, rfl⟩
    rw [(View.isEmpty_iff view).mp empty] at listed
    cases listed
  · obtain ⟨name, rfl⟩ := made
    exact ⟨[⟨kind, op, n⟩], .cons ⟨⟨view, sound, rfl, rfl, has⟩, rfl, whole, rfl⟩ .nil, by simp⟩

end AmountsTo

namespace Demand

variable {table : Table} {active selected : List Value → Bool} {kind : List Value → Bool}

/-- None of a kind is demanded just if none of it is selected. -/
theorem met_none (within : table.Within active selected) :
    Met table active selected ⟨kind, .eq, 0⟩ ↔ ∀ row ∈ table.rows, kind row = true → selected row = false := by
  have none : Operator.eq.holds (table.number fun row => selected row && kind row) 0 = true ↔
      ∀ row ∈ table.rows, kind row = true → selected row = false := by
    simp only [Operator.holds, Table.number, beq_iff_eq, Int.natCast_eq_zero, List.countP_eq_zero]
    grind
  rw [Met, none]
  constructor
  · intro met row member inside
    refine Bool.eq_false_iff.mpr fun chosen => ?_
    have empty := met ⟨row, member, (within row chosen).2, inside⟩ row member inside
    rw [chosen] at empty
    cases empty
  · exact fun free _ => free

/-- As many of a kind as there are are demanded just if all are selected, where one is active. -/
theorem met_all : Met table active selected ⟨kind, .eq, (table.number kind : Nat)⟩ ↔
    ((∃ row ∈ table.rows, active row = true ∧ kind row = true) →
      ∀ row ∈ table.rows, kind row = true → selected row = true) := by
  have all : Operator.eq.holds (table.number fun row => selected row && kind row) (table.number kind) = true ↔
      ∀ row ∈ table.rows, kind row = true → selected row = true := by
    simp only [Operator.holds, Table.number, beq_iff_eq, Int.natCast_inj]
    rw [← List.countP_filter, List.countP_eq_length_filter (p := kind), List.countP_eq_length]
    simp only [List.mem_filter, and_imp]
  rw [Met, all]

end Demand

end Matchmaking
