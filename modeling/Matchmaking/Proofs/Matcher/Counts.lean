import Matchmaking.Proofs.Matcher.Enforcement

/-! The rows that counts are turned into. Each element of a counted collection has one row or two
over the active rows that hold it, and together they enforce every count. -/
namespace Matchmaking

namespace Table

variable {table : Table} {collection : Value × Roster} {name e : Value} {row : List Value}

theorem elements_of_same (sound : table.Sound) (member : collection ∈ table.collections)
    (key : name.isKey = true) (same : collection.1.same name = true) :
    table.elements name = .ok collection.2.keys := by
  simp [Table.elements, collection_of_same sound member key same]

/-- A row holds an element of a collection just if the element that it has there is the same. -/
theorem holdsAt_iff (sound : table.Sound) (inside : row ∈ table.rows) {held : Value}
    (here : (collection, held) ∈ table.collections.zip row) :
    table.holdsAt collection.1 e row = true ↔ held.same e = true := by
  have own := sound.names.keys collection.1 (List.mem_map_of_mem (mem_collections_of_mem_zip here))
  simp only [holdsAt, names, Keyed.keys, List.zip_map_left, List.any_map, List.any_eq_true]
  constructor
  · rintro ⟨x, listed, both⟩
    obtain ⟨equal, found⟩ := Bool.and_eq_true_iff.mp both
    rwa [zip_unique sound inside listed here equal (Value.same_refl own)] at found
  · exact fun equal => ⟨_, here, Bool.and_eq_true_iff.mpr ⟨Value.same_refl own, equal⟩⟩

/-- The rows that lie in the restriction to one element are those that hold it. -/
theorem lies_single (sound : table.Sound) (member : collection ∈ table.collections) (key : name.isKey = true)
    (same : collection.1.same name = true) (inside : row ∈ table.rows) :
    table.lies [(name, .list [e])] row = table.holdsAt collection.1 e row := by
  obtain ⟨held, here⟩ := exists_mem_zip inside member
  have own := sound.names.keys collection.1 (List.mem_map_of_mem member)
  have mapping : Keyed.IsMapping [(name, [e])] := Value.Different.append_single .nil key (by simp)
  rw [Bool.eq_iff_iff, holdsAt_iff sound inside here]
  refine (lies_lists sound mapping).trans ?_
  simp only [List.mem_singleton, forall_eq, exists_eq_left]
  constructor
  · exact fun each => each _ here (Value.same_symm own same)
  · intro equal x listed named
    have listed' := sound.names.keys x.1.1 (List.mem_map_of_mem (mem_collections_of_mem_zip listed))
    have again := Value.same_trans listed' (Value.same_symm key named) (Value.same_symm own same)
    rw [zip_unique sound inside listed here again (Value.same_refl own)]
    exact equal

end Table

namespace View

variable {view : View} {collection : Value × Roster} {name e : Value}

theorem idsWith_lists {table : Table} (sound : table.Sound) (member : collection ∈ table.collections)
    (key : name.isKey = true) (same : collection.1.same name = true) (listed : e ∈ collection.2.keys) :
    ∃ ids, (whole table).idsWith name e = .ok ids ∧ table.Lists ids (table.holdsAt collection.1 e) := by
  obtain ⟨next, narrowed⟩ := subset_single (sound_whole sound) member key same listed
  obtain ⟨seen, rfl, has⟩ := Call.narrowed_whole sound narrowed
  refine ⟨next.ids, by simp [idsWith, narrowed], .of_view seen fun row inside => ?_⟩
  rw [has row inside, Table.lies_single sound member key same inside]

end View

namespace Matcher

variable {table : Table} {m : Matcher} {active : List Value → Bool} {kind : List Value → Bool}

theorem countRows_enforces {count : Value} {padding : Int} {rule : Count} {ids : List String}
    (counts : (Count.fixed? count).isSome ∨ (Count.span? count).isSome) (read : Count.read count = .ok rule)
    (lists : table.Lists (narrow m.scope ids) fun row => active row && kind row) :
    ∃ rows, countRows rule padding (narrow m.scope ids) = .ok rows ∧
      Enforces table m active rows fun selected => 0 < table.number (fun row => active row && kind row) →
        Count.Agrees count padding (table.number fun row => active row && kind row)
          (table.number fun row => selected row && kind row) := by
  have left : table.Lists (narrow m.scope (narrow m.scope ids)) fun row => active row && kind row := by
    rwa [narrow_narrow]
  cases fixed : Count.fixed? count with
  | some n =>
    have made : rule = .exactly (.int n) := Count.read_exactly fixed read
    rw [made]
    refine ⟨_, by simp only [countRows, Value.atMost_int, ok_bind, pure_eq_ok]; rfl, ?_⟩
    refine (Enforces.single rfl left rfl).congr fun selected _ => imp_congr .rfl ?_
    simp [Count.Agrees, fixed, Constraint.targetAmong, Constraint.isLenient, Operator.holds, lists.length]
  | none =>
    obtain ⟨⟨low, high⟩, span⟩ := Option.isSome_iff_exists.mp (counts.resolve_left (by simp [fixed]))
    have made : rule = .between (.int low) (.int high) := Count.read_between span read
    rw [made]
    refine ⟨_, by simp only [countRows, Value.atMost_int, ok_bind, pure_eq_ok]; rfl, ?_⟩
    refine ((Enforces.single rfl left rfl).append (Enforces.single rfl left rfl)).congr fun selected _ => ?_
    rw [← imp_and]
    refine imp_congr .rfl ?_
    simp [Count.Agrees, fixed, span, Constraint.targetAmong, Constraint.isLenient, Operator.holds, lists.length,
      Value.truth]

theorem counts_of_count? {call : Call} {name count : Value} {padding : Int} (rule : call.IsRule)
    (own : call.count? name = some (count, padding)) :
    (Count.fixed? count).isSome ∨ (Count.span? count).isSome := by
  unfold Call.count? at own
  split at own
  · split at own
    · cases own
      exact rule.1
    · cases own
  · cases own

/-- The last count for the collection of a count rule is the one that it was read off. -/
theorem Configured.last_of_mem {calls : List Call} (configured : Configured table calls m) {name : Value}
    {rule : Count} {padding : Int} (member : (name, rule, padding) ∈ m.counts) {collection : Value × Roster}
    (inside : collection ∈ table.collections) (same : name.same collection.1 = true) :
    ∃ count, (calls.filterMap (Call.count? collection.1)).getLast? = some (count, padding) ∧
      Count.read count = .ok rule := by
  have found : m.counts.get? collection.1 = some (rule, padding) :=
    (Keyed.get?_eq_some configured.mapping).mpr ⟨name, member, same⟩
  have last := configured.counts collection inside
  unfold CountsLast at last
  split at last
  · rw [found] at last
    cases last
  · rename_i count padding' latest
    obtain ⟨rule', read, found'⟩ := last
    cases found.symm.trans found'
    exact ⟨count, latest, read⟩

theorem collectionRows_enforces {calls : List Call} (sound : table.Sound) (configured : Configured table calls m)
    (rules : ∀ call ∈ calls, call.IsRule) {name : Value} {rule : Count} {padding : Int}
    (member : (name, rule, padding) ∈ m.counts) : ∃ rows, (do
      let elements ← m.space.table.elements name
      let rows ← elements.mapM fun element => do
        let ids ← m.space.idsWith name element
        countRows rule padding (narrow m.scope ids)
      return rows.flatten : Except Failure (List Constraint)) = .ok rows ∧
    Enforces table m (table.isActive calls) rows fun selected => ∀ collection ∈ table.collections,
      name.same collection.1 = true →
        table.CountedIn calls (table.isActive calls) selected collection.1 collection.2.keys := by
  obtain ⟨collection, inside, same⟩ := configured.known _ member
  have key := configured.mapping.keys name (List.mem_map_of_mem member)
  have own := sound.names.keys collection.1 (List.mem_map_of_mem inside)
  obtain ⟨count, last, read⟩ := configured.last_of_mem member inside (Value.same_symm own same)
  obtain ⟨call, listed, sets⟩ := List.mem_filterMap.mp (List.mem_of_getLast? last)
  have counts := counts_of_count? (rules call listed) sets
  have elements : m.space.table.elements name = .ok collection.2.keys := by
    rw [configured.space]
    exact Table.elements_of_same sound inside key same
  have each : ∀ e ∈ collection.2.keys, ∃ rows,
      (do countRows rule padding (narrow m.scope (← m.space.idsWith name e))) = .ok rows ∧
        Enforces table m (table.isActive calls) rows fun selected =>
          0 < table.number (fun row => table.isActive calls row && table.holdsAt collection.1 e row) →
            Count.Agrees count padding
              (table.number fun row => table.isActive calls row && table.holdsAt collection.1 e row)
              (table.number fun row => selected row && table.holdsAt collection.1 e row) := by
    intro e present
    obtain ⟨ids, found, lists⟩ := View.idsWith_lists sound inside key same present
    obtain ⟨rows, made, enforces⟩ := countRows_enforces counts read (configured.narrow_lists sound lists)
    exact ⟨rows, by rw [configured.space, found]; exact made, enforces⟩
  obtain ⟨rows, related⟩ := exists_forall₂ each
  have made := mapM_eq_ok.mpr (related.imp fun _ _ both => both.1)
  refine ⟨rows.flatten, by simp only [elements, ok_bind, made]; rfl, ?_⟩
  refine (Enforces.flatten (related.imp fun _ _ both => both.2)).congr fun selected _ => ?_
  constructor
  · intro counted other inside' same'
    have one : other = collection :=
      sound.names.entry_unique inside' inside (Value.same_symm key same') same
    rw [one]
    intro count' padding' last' e present
    cases last.symm.trans last'
    exact counted e present
  · intro counted e present
    exact counted collection inside (Value.same_symm own same) count padding last e present

theorem nameRows_renames (namer : Namer) (rows : List Constraint) :
    List.Forall₂ (fun c (c' : Constraint) => ∃ name, c' = { c with name }) rows (nameRows namer rows).1 := by
  induction rows generalizing namer with
  | nil => exact .nil
  | cons c rest ih => exact .cons ⟨_, rfl⟩ (ih _)

theorem countConstraints_enforces {calls : List Call} (sound : table.Sound) (configured : Configured table calls m)
    (rules : ∀ call ∈ calls, call.IsRule) (taken : Roster) : ∃ rows, m.countConstraints taken = .ok rows ∧
      Enforces table m (table.isActive calls) rows (table.Counted calls (table.isActive calls)) := by
  have each (entry : Value × Count × Int) (member : entry ∈ m.counts) :=
    collectionRows_enforces sound configured rules member
  obtain ⟨rows, related⟩ := exists_forall₂ each
  have made := mapM_eq_ok.mpr (related.imp fun _ _ both => both.1)
  refine ⟨_, by simp only [countConstraints, countConstraintsIn, made, ok_bind]; rfl, ?_⟩
  have all := Enforces.flatten (related.imp fun _ _ both => both.2)
  refine (all.renamed (nameRows_renames _ _)).congr fun selected _ => ?_
  constructor
  · intro counted collection inside count padding last
    have latest := configured.counts collection inside
    rw [CountsLast, last] at latest
    obtain ⟨rule, -, found⟩ := latest
    obtain ⟨name, member, same⟩ := (Keyed.get?_eq_some configured.mapping).mp found
    exact counted _ member collection inside same count padding last
  · intro counted entry _ collection inside _
    exact counted collection inside

end Matcher

end Matchmaking
