import Matchmaking.Proofs.Matcher.Demand

/-! What one configuration call does to a matcher, by its meaning: the composers it adds have
the rows that it lets be selected, the rows it adds demand what it does, and at most one count
is replaced. A run of calls adds it all up. -/
namespace Matchmaking

structure Composes (table : Table) (added : List Composer) (kind : List Value → Bool) : Prop where
  views : ∀ composer ∈ added, composer.view.Sound ∧ composer.view.table = table ∧
    composer.view.isEmpty = false
  rows : ∀ row ∈ table.rows, (∃ composer ∈ added, composer.view.has row = true) ↔ kind row = true

namespace Composes

variable {table : Table} {added : List Composer} {kind kind' : List Value → Bool}

theorem nil : Composes table [] fun _ => false := ⟨by simp, by simp⟩

theorem append {added' : List Composer} (first : Composes table added kind)
    (second : Composes table added' kind') : Composes table (added ++ added') fun row => kind row || kind' row where
  views := List.forall_mem_append.mpr ⟨first.views, second.views⟩
  rows := by
    intro row member
    rw [Bool.or_eq_true, ← first.rows row member, ← second.rows row member]
    simp only [List.mem_append, or_and_right, exists_or]

theorem congr (composes : Composes table added kind)
    (same : ∀ row ∈ table.rows, kind row = true ↔ kind' row = true) : Composes table added kind' where
  views := composes.views
  rows := fun row member => (composes.rows row member).trans (same row member)

theorem flatten {α : Type} {kind : α → List Value → Bool} {xs : List α} {added : List (List Composer)}
    (each : List.Forall₂ (fun x added => Composes table added (kind x)) xs added) :
    Composes table added.flatten fun row => xs.any (kind · row) := by
  induction each with
  | nil => exact nil
  | cons first _ ih => exact (first.append ih).congr (by simp)

theorem composersOver {view : View} {weight : Value} (sound : view.Sound)
    (has : ∀ row ∈ view.table.rows, view.has row = kind row)
    (made : Matcher.ComposersOver view weight added) : Composes view.table added kind := by
  unfold Matcher.ComposersOver at made
  split at made
  · rename_i empty
    rw [made]
    refine nil.congr fun row member => iff_of_false (by simp) fun inside => ?_
    have listed := (View.mem_ids_iff sound).mpr ⟨row, member, (has row member).trans inside, rfl⟩
    rw [(View.isEmpty_iff view).mp empty] at listed
    cases listed
  · rename_i some
    rw [made.2]
    exact ⟨by simpa using ⟨sound, Bool.eq_false_iff.mpr some⟩, fun row member => by simp [has row member]⟩

end Composes

namespace Call

/-- What a call does to a matcher over the whole of a table. -/
structure Effect (table : Table) (call : Call) (m next : Matcher) : Prop where
  space : next.space = m.space
  composers : ∃ added, next.composers = m.composers ++ added ∧ Composes table added (call.includes table) ∧
    ∀ composer ∈ added, call.weight? = some composer.weight ∧ Weight.check composer.weight = .ok composer.weight
  rows : ∃ added, next.constraints = m.constraints ++ added ∧
    AmountsTo table added fun active selected => table.Obeyed active selected call
  counts : (next.counts = m.counts ∧ ∀ name, call.count? name = none) ∨
    ∃ collection count padding rule, call = .setCount collection count (.int padding) ∧
      Count.read count = .ok rule ∧ collection.isKey = true ∧
      (∃ entry ∈ table.collections, entry.1.same collection = true) ∧
      next.counts = m.counts.put collection (rule, padding)

variable {table : Table} {desk next : Desk} {answer : Answer}

/-- A restricted view of the whole space has just the rows that lie in the restriction. -/
theorem narrowed_whole (sound : table.Sound) {restriction : Keyed Value} {view : View}
    (narrowed : (View.whole table).subset restriction = .ok view) :
    view.Sound ∧ view.table = table ∧ ∀ row ∈ table.rows, view.has row = table.lies restriction row := by
  have whole := View.sound_whole sound
  refine ⟨whole.subset narrowed, (View.subset_eq_ok narrowed).1, fun row member => ?_⟩
  rw [View.has_subset whole narrowed member, View.has_whole sound member, Bool.true_and]
  rfl

namespace Effect

variable {call : Call} {m next : Matcher}

theorem of_composers {added : List Composer} (grown : next = m.withComposers added)
    (composes : Composes table added (call.includes table)) (weighs : ∀ composer ∈ added,
      call.weight? = some composer.weight ∧ Weight.check composer.weight = .ok composer.weight)
    (free : ∀ active selected, table.Obeyed active selected call) (uncounted : ∀ name, call.count? name = none) :
    Effect table call m next := by
  subst grown
  exact ⟨rfl, ⟨added, rfl, composes, weighs⟩,
    ⟨[], by simp [Matcher.withComposers], AmountsTo.nil.congr fun active selected _ =>
      iff_of_true trivial (free active selected)⟩, .inl ⟨rfl, uncounted⟩⟩

theorem of_rows {added : List Constraint} (grown : next = m.withRows added)
    (amounts : AmountsTo table added fun active selected => table.Obeyed active selected call)
    (closed : ∀ row, call.includes table row = false) (uncounted : ∀ name, call.count? name = none) :
    Effect table call m next := by
  subst grown
  refine ⟨rfl, ⟨[], by simp [Matcher.withRows], Composes.nil.congr fun row _ => ?_, by simp⟩, ⟨added, rfl, amounts⟩,
    .inl ⟨rfl, uncounted⟩⟩
  rw [closed row]

end Effect

theorem addComposer_composes (sound : table.Sound) {restriction : Keyed Value} {weight : Value} {view : View}
    {added : List Composer} (narrowed : (View.whole table).subset restriction = .ok view)
    (made : Matcher.ComposersOver view weight added) : Composes table added (table.lies restriction) := by
  obtain ⟨seen, rfl, has⟩ := narrowed_whole sound narrowed
  exact .composersOver seen has made

theorem weighs_of_over {view : View} {weight : Value} {added : List Composer}
    (made : Matcher.ComposersOver view weight added) : ∀ composer ∈ added,
      composer.weight = weight ∧ Weight.check composer.weight = .ok composer.weight := by
  unfold Matcher.ComposersOver at made
  split at made
  · simp [made]
  · obtain ⟨checked, rfl⟩ := made
    simpa using checked

theorem addComposer_effect (sound : table.Sound) {restriction : Keyed Value} {weight : Value}
    {added : Option Composer} (space : desk.matcher.space = .whole table)
    (gives : (Matcher.addComposer restriction weight).Gives desk added next) :
    Effect table (.addComposer restriction weight) desk.matcher next.matcher := by
  obtain ⟨added, grown, view, narrowed, made⟩ := Matcher.addComposer_gives gives
  rw [space] at narrowed
  exact .of_composers grown (addComposer_composes sound narrowed made) (fun composer listed =>
    ⟨congrArg some (weighs_of_over made composer listed).1.symm, (weighs_of_over made composer listed).2⟩)
    (fun _ _ => trivial) fun _ => rfl

theorem exclude_amounts (sound : table.Sound) {restriction : Keyed Value} {view : View}
    {added : List Constraint} (narrowed : (View.whole table).subset restriction = .ok view)
    (made : Matcher.RowsOver view .eq (.int 0) added) :
    AmountsTo table added fun _ selected =>
      ∀ row ∈ table.rows, table.lies restriction row = true → selected row = false := by
  obtain ⟨seen, rfl, has⟩ := narrowed_whole sound narrowed
  have amounts := AmountsTo.rowsOver seen has (n := 0) rfl made
  exact amounts.congr fun _ _ within => Demand.met_none within

theorem exclude_effect (sound : table.Sound) {restriction : Keyed Value} {name : Value}
    {added : Option Constraint} (space : desk.matcher.space = .whole table)
    (gives : (Matcher.exclude restriction name).Gives desk added next) :
    Effect table (.exclude restriction name) desk.matcher next.matcher := by
  obtain ⟨added, grown, view, narrowed, made⟩ := Matcher.exclude_gives gives
  rw [space] at narrowed
  exact .of_rows grown (exclude_amounts sound narrowed made) (fun _ => rfl) fun _ => rfl

theorem known_of_narrowed (sound : table.Sound) {pairs : List Bearers} {γ : Type} {added : List (List γ)}
    {made : View → List γ → Prop} (each : List.Forall₂ (fun pair added =>
      ∃ view, (View.whole table).subset (Matcher.restrictionOf pair) = .ok view ∧ made view added) pairs added) :
    ∀ pair ∈ pairs, ∀ bearer ∈ pair, ∃ collection ∈ table.collections, collection.1.same bearer.1 = true := by
  intro pair member bearer inside
  obtain ⟨_, -, view, narrowed, -⟩ := exists_of_mem_right each.flip member
  exact View.known_of_subset (View.sound_whole sound) narrowed bearer.1
    (List.mem_map.mpr ⟨_, List.mem_map_of_mem inside, rfl⟩)

theorem excludeMarkers_effect (sound : table.Sound) {map : MarkerMap} (mapping : map.IsMapping)
    {added : List Constraint} (space : desk.matcher.space = .whole table)
    (gives : (Matcher.excludeMarkers map).Gives desk added next) :
    Effect table (.excludeMarkers map) desk.matcher next.matcher := by
  obtain ⟨pairs, added, read, grown, each⟩ := Matcher.excludeMarkers_gives gives
  rw [space] at each
  have known := known_of_narrowed sound each
  have amounts := AmountsTo.flatten (each.imp fun pair added ⟨view, narrowed, made⟩ =>
    exclude_amounts sound narrowed made)
  refine .of_rows grown (amounts.congr fun active selected _ => ?_) (fun _ => rfl) fun _ => rfl
  constructor
  · intro each row member shared
    obtain ⟨pair, listed, lies⟩ := (MarkerMap.shares_iff_lies sound mapping read known member).mp shared
    exact each pair listed row member lies
  · intro obeyed pair listed row member lies
    exact obeyed row member ((MarkerMap.shares_iff_lies sound mapping read known member).mpr ⟨pair, listed, lies⟩)

theorem includeMarkers_effect (sound : table.Sound) {map : MarkerMap} (mapping : map.IsMapping)
    {weight : Value} {added : List Composer} (space : desk.matcher.space = .whole table)
    (gives : (Matcher.includeMarkers map weight).Gives desk added next) :
    Effect table (.includeMarkers map weight) desk.matcher next.matcher := by
  obtain ⟨pairs, added, read, grown, each⟩ := Matcher.includeMarkers_gives gives
  rw [space] at each
  have known := known_of_narrowed sound each
  have composes := Composes.flatten (each.imp fun pair added ⟨view, narrowed, made⟩ =>
    addComposer_composes sound narrowed made)
  have weighs : ∀ composer ∈ added.flatten, composer.weight = weight ∧
      Weight.check composer.weight = .ok composer.weight := by
    intro composer listed
    obtain ⟨part, inside, member⟩ := List.mem_flatten.mp listed
    obtain ⟨pair, -, view, -, made⟩ := exists_of_mem_right each inside
    exact weighs_of_over made composer member
  refine .of_composers grown (composes.congr fun row member => ?_) (fun composer listed =>
    ⟨congrArg some (weighs composer listed).1.symm, (weighs composer listed).2⟩)
    (fun _ _ => trivial) fun _ => rfl
  rw [List.any_eq_true]
  exact (MarkerMap.shares_iff_lies sound mapping read known member).symm

theorem size_eq_number {view : View} (sound : view.Sound) {kind : List Value → Bool}
    (has : ∀ row ∈ view.table.rows, view.has row = kind row) : view.size = view.table.number kind := by
  rw [View.size_eq, (View.ids_perm sound).length_eq, List.length_map, Table.number,
    List.countP_eq_length_filter, List.filter_congr has]

theorem requirePart_amounts (sound : table.Sound) {op : Operator} {target : Value}
    (asked : (∃ n, target = .int n) ∨ op = .eq ∧ target = .null) {part : Keyed Value} {view : View}
    {added : List Constraint} (narrowed : (View.whole table).subset part = .ok view)
    (made : Matcher.RowsOver view op (Matcher.targetOf target view) added) :
    AmountsTo table added (table.Asked op target · · part) := by
  obtain ⟨seen, rfl, has⟩ := narrowed_whole sound narrowed
  obtain ⟨n, rfl⟩ | ⟨rfl, rfl⟩ := asked
  · exact AmountsTo.rowsOver seen has rfl made
  · have whole : Matcher.targetOf .null view = .int (view.table.number (view.table.lies part) : Nat) := by
      rw [Matcher.targetOf, size_eq_number seen has]
    exact (AmountsTo.rowsOver seen has whole made).congr fun _ _ _ => Demand.met_all

theorem require_effect (sound : table.Sound) {op : Operator} {restriction : Keyed Value} {target name : Value}
    (mapping : restriction.IsMapping) (asked : (∃ n, target = .int n) ∨ op = .eq ∧ target = .null)
    {added : List Constraint} (space : desk.matcher.space = .whole table)
    (gives : (Matcher.require op restriction target name).Gives desk added next) :
    Effect table (.require op restriction target name) desk.matcher next.matcher := by
  obtain ⟨added, grown, each⟩ := Matcher.require_gives gives
  rw [space] at each
  have amounts := AmountsTo.flatten (each.imp fun part added ⟨view, narrowed, made⟩ =>
    requirePart_amounts sound asked narrowed made)
  refine .of_rows grown (amounts.congr fun active selected _ => ?_) (fun _ => rfl) fun _ => rfl
  exact forall_congr' fun part => imp_congr (Matcher.mem_expand mapping) .rfl

theorem setCount_effect {collection count padding : Value} (whole : ∃ p, padding = .int p) {rule : Count}
    (space : desk.matcher.space = .whole table)
    (gives : (Matcher.setCount collection count padding).Gives desk rule next) :
    Effect table (.setCount collection count padding) desk.matcher next.matcher := by
  obtain ⟨p, rfl⟩ := whole
  obtain ⟨named, read, q, padded, changed⟩ := Matcher.setCount_gives gives
  rw [space] at named
  obtain ⟨key, known⟩ := Table.known_of_hasName named
  cases padded
  rw [changed]
  exact ⟨rfl, ⟨[], by simp, Composes.nil.congr fun _ _ => .rfl, by simp⟩,
    ⟨[], by simp, AmountsTo.nil.congr fun _ _ _ => .rfl⟩, .inr ⟨_, _, _, _, rfl, read, key, known, rfl⟩⟩

theorem run_effect (sound : table.Sound) {call : Call} (rule : call.IsRule)
    (space : desk.matcher.space = .whole table) (gives : call.run.Gives desk answer next) :
    Effect table call desk.matcher next.matcher := by
  cases call with
  | addComposer restriction weight =>
    simp only [run, Setup.gives_bind, Setup.gives_pure] at gives
    obtain ⟨added, mid, step, -, rfl⟩ := gives
    exact addComposer_effect sound space step
  | addRow source => exact rule.elim
  | exclude restriction name =>
    simp only [run, Setup.gives_bind, Setup.gives_pure] at gives
    obtain ⟨added, mid, step, -, rfl⟩ := gives
    exact exclude_effect sound space step
  | excludeMarkers map =>
    simp only [run, Setup.gives_bind, Setup.gives_pure] at gives
    obtain ⟨added, mid, step, -, rfl⟩ := gives
    exact excludeMarkers_effect sound rule space step
  | includeMarkers map weight =>
    simp only [run, Setup.gives_bind, Setup.gives_pure] at gives
    obtain ⟨added, mid, step, -, rfl⟩ := gives
    exact includeMarkers_effect sound rule space step
  | setCount collection count padding =>
    simp only [run, Setup.gives_bind, Setup.gives_pure] at gives
    obtain ⟨added, mid, step, -, rfl⟩ := gives
    exact setCount_effect rule.2 space step
  | require op restriction target name =>
    simp only [run, Setup.gives_bind, Setup.gives_pure] at gives
    obtain ⟨added, mid, step, -, rfl⟩ := gives
    exact require_effect sound rule.1 rule.2 space step

end Call

end Matchmaking
