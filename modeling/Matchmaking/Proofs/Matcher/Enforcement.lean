import Matchmaking.Proofs.Constraint.Keeping
import Matchmaking.Proofs.Matcher.Narrowing

/-! Rows that enforce a rule: narrowed to the active identifiers, they are satisfied by a choice
of identifiers just if the rows of elements that it stands for obey the rule. -/
namespace Matchmaking

/-- A choice of identifiers that stands for a selection of rows. -/
def Table.Chooses (table : Table) (selected : List Value → Bool) (chosen : String → Bool) : Prop :=
  ∀ row ∈ table.rows, chosen (table.identify row) = selected row

theorem Table.Lists.countP {table : Table} {ids : List String} {kind selected : List Value → Bool}
    {chosen : String → Bool} (lists : table.Lists ids kind) (chooses : table.Chooses selected chosen) :
    ids.countP chosen = table.number fun row => selected row && kind row := by
  rw [List.Perm.countP_eq chosen lists, List.countP_map, List.countP_filter, number]
  exact List.countP_congr fun row member => by rw [Function.comp_apply, chooses row member]

theorem Table.number_congr {table : Table} {kind kind' : List Value → Bool}
    (same : ∀ row ∈ table.rows, kind row = kind' row) : table.number kind = table.number kind' :=
  List.countP_congr fun row member => by rw [same row member]

namespace Matcher

/-- Rows that, as they go into a program, are satisfied just by the selections of active rows
that obey a rule. -/
structure Enforces (table : Table) (m : Matcher) (active : List Value → Bool) (rows : List Constraint)
    (rule : (List Value → Bool) → Prop) : Prop where
  succeeds : ∀ c ∈ rows, ∃ kept, c.keeping (narrowRow m.scope c.unknowns) = .ok kept
  satisfied : ∀ selected chosen, table.Within active selected → table.Chooses selected chosen →
    ((∀ c ∈ rows, ∀ kept, c.keeping (narrowRow m.scope c.unknowns) = .ok (some kept) →
      kept.isSatisfied chosen = true) ↔ rule selected)

namespace Enforces

variable {table : Table} {m : Matcher} {active : List Value → Bool} {rows : List Constraint}
  {rule rule' : (List Value → Bool) → Prop}

theorem nil : Enforces table m active [] fun _ => True := ⟨by simp, by simp⟩

theorem append {rows' : List Constraint} (first : Enforces table m active rows rule)
    (second : Enforces table m active rows' rule') :
    Enforces table m active (rows ++ rows') fun selected => rule selected ∧ rule' selected where
  succeeds := List.forall_mem_append.mpr ⟨first.succeeds, second.succeeds⟩
  satisfied := by
    intro selected chosen within chooses
    rw [List.forall_mem_append, first.satisfied selected chosen within chooses,
      second.satisfied selected chosen within chooses]

theorem congr (enforces : Enforces table m active rows rule) (same : ∀ selected,
    table.Within active selected → (rule selected ↔ rule' selected)) : Enforces table m active rows rule' where
  succeeds := enforces.succeeds
  satisfied := fun selected chosen within chooses =>
    (enforces.satisfied selected chosen within chooses).trans (same selected within)

theorem flatten {α : Type} {rule : α → (List Value → Bool) → Prop} {xs : List α} {rows : List (List Constraint)}
    (each : List.Forall₂ (fun x rows => Enforces table m active rows (rule x)) xs rows) :
    Enforces table m active rows.flatten fun selected => ∀ x ∈ xs, rule x selected := by
  induction each with
  | nil => exact nil.congr (by simp)
  | cons first _ ih => exact (first.append ih).congr (by simp)

theorem renamed {named : List Constraint} (enforces : Enforces table m active rows rule)
    (renames : List.Forall₂ (fun c (c' : Constraint) => ∃ name, c' = { c with name }) rows named) :
    Enforces table m active named rule := by
  have each {c : Constraint} (name : Value) (kept : Option Constraint) :
      { c with name }.keeping (narrowRow m.scope c.unknowns) = .ok kept ↔
        ∃ plain, c.keeping (narrowRow m.scope c.unknowns) = .ok plain ∧ kept = plain.map ({ · with name }) := by
    rw [Constraint.keeping_named]
    cases c.keeping (narrowRow m.scope c.unknowns) <;> simp [Except.map, eq_comm]
  constructor
  · intro c member
    obtain ⟨plain, inside, name, rfl⟩ := exists_of_mem_right renames member
    obtain ⟨kept, keeps⟩ := enforces.succeeds plain inside
    exact ⟨_, (each name _).mpr ⟨kept, keeps, rfl⟩⟩
  · intro selected chosen within chooses
    rw [← enforces.satisfied selected chosen within chooses]
    constructor
    · intro holds c member kept keeps
      obtain ⟨_, inside, name, rfl⟩ := exists_of_mem_right renames.flip member
      exact holds _ inside { kept with name } ((each name _).mpr ⟨_, keeps, rfl⟩)
    · intro holds c member kept keeps
      obtain ⟨plain, inside, name, rfl⟩ := exists_of_mem_right renames member
      obtain ⟨found, plainly, equal⟩ := (each name _).mp keeps
      obtain ⟨kept, rfl, rfl⟩ := Option.map_eq_some_iff.mp equal.symm
      exact holds plain inside kept plainly

theorem countP_left {ids : List String} {kind selected : List Value → Bool} {chosen : String → Bool}
    (left : table.Lists ids fun row => active row && kind row) (within : table.Within active selected)
    (chooses : table.Chooses selected chosen) :
    ids.countP chosen = table.number fun row => selected row && kind row := by
  rw [left.countP chooses]
  refine Table.number_congr fun row _ => ?_
  cases picked : selected row
  · rfl
  · rw [(within row picked).2, Bool.true_and]

/-- A row of which the active rows of a kind are left asks for a number of selected rows of the
kind, as long as some row of it is active. -/
theorem single {c : Constraint} {ids : List String} {kind : List Value → Bool} {t : Int}
    (texts : c.unknowns = ids.map .text)
    (left : table.Lists (narrow m.scope ids) fun row => active row && kind row) (whole : c.target = .int t) :
    Enforces table m active [c] fun selected =>
      0 < table.number (fun row => active row && kind row) →
        c.operator.holds (table.number fun row => selected row && kind row)
          (c.targetAmong t (table.number fun row => active row && kind row)) = true := by
  have narrowed : narrowRow m.scope c.unknowns = (narrow m.scope ids).map .text := by
    rw [texts, narrowRow_text]
  by_cases none : narrow m.scope ids = []
  · have dropped : c.keeping (narrowRow m.scope c.unknowns) = .ok .none := by
      rw [narrowed, none]
      rfl
    rw [none] at left
    refine ⟨by simp [dropped], fun selected chosen _ _ => iff_of_true (by simp [dropped]) fun some => ?_⟩
    rw [← left.length] at some
    exact absurd some (Nat.lt_irrefl 0)
  · have some : (narrow m.scope ids).map Value.text ≠ [] := by simpa using none
    have keeps := Constraint.keeping_int whole some
    rw [List.length_map, left.length, ← narrowed] at keeps
    have present : 0 < table.number (fun row => active row && kind row) := by
      rw [← left.length]
      exact List.length_pos_iff.mpr none
    refine ⟨by simp [keeps], fun selected chosen within chooses => ?_⟩
    have holds : Constraint.isSatisfied chosen { c with
        unknowns := narrowRow m.scope c.unknowns
        target := .int (c.targetAmong t (table.number fun row => active row && kind row)) } =
          c.operator.holds (table.number fun row => selected row && kind row)
            (c.targetAmong t (table.number fun row => active row && kind row)) := by
      rw [Constraint.isSatisfied_int rfl, Constraint.total_text narrowed, countP_left left within chooses]
    constructor
    · intro satisfied _
      rw [← holds]
      exact satisfied c List.mem_cons_self _ keeps
    · intro met c' member kept found
      cases List.mem_singleton.mp member
      cases keeps.symm.trans found
      rw [holds]
      exact met present

theorem of_amountsTo {calls : List Call} (sound : table.Sound) (configured : Configured table calls m)
    {rule : (List Value → Bool) → (List Value → Bool) → Prop} (amounts : AmountsTo table rows rule) :
    Enforces table m (table.isActive calls) rows (rule (table.isActive calls)) := by
  obtain ⟨demands, means, amount⟩ := amounts
  have each : List.Forall₂ (fun (d : Demand) c => Enforces table m (table.isActive calls) [c]
      fun selected => d.Met table (table.isActive calls) selected) demands rows := by
    refine means.flip.imp fun d c means => ?_
    obtain ⟨⟨view, seen, of, texts, has⟩, op, whole, strict⟩ := means
    subst of
    have left := configured.narrow_lists sound (.of_view seen has)
    refine (single texts left whole).congr fun selected _ => ?_
    have fixed : c.targetAmong d.target (view.table.number fun row => view.table.isActive calls row && d.kind row) =
        d.target := by
      rw [Constraint.targetAmong, Constraint.isLenient, strict]
      rfl
    rw [fixed, op, Demand.Met]
    refine imp_congr ?_ .rfl
    simp [Table.number, List.countP_pos_iff]
  have all := flatten (List.forall₂_map_right_iff.mpr each)
  have singles : (rows.map fun c => [c]).flatten = rows := by simp [← List.flatMap_def]
  rw [singles] at all
  exact all.congr fun selected within => amount _ selected within

end Enforces

end Matcher

end Matchmaking
