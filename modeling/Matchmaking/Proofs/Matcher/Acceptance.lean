import Matchmaking.Proofs.Matcher.Steps
import Matchmaking.Proofs.Space.Membership

/-! Which variables a matcher accepts in a caller's row: those that its space takes for one of
its own. These are its identifiers as far as they are plain; each other text that is taken is
an alias of a listed identifier and stands for the same tuple. -/
namespace Matchmaking

theorem Matcher.checkVariables_eq_ok {space : View} {unknowns : List Value} :
    checkVariables space unknowns = .ok () ↔ ∀ v ∈ unknowns, space.contains v = true := by
  induction unknowns with
  | nil => simp [checkVariables]
  | cons v rest ih =>
    rw [checkVariables, List.forall_mem_cons, ← ih]
    cases space.contains v <;> simp

theorem Matcher.addRow_accepts {desk : Desk} {c row : Constraint} {namer : Namer}
    (checked : checkVariables desk.matcher.space c.unknowns = .ok ())
    (naming : nameRow desk.namer c = .ok (row, namer)) :
    (addRow c).Gives desk row ⟨desk.matcher.withRows [row], namer⟩ := by
  simp only [addRow, Setup.gives_bind, Setup.gives_get, Setup.gives_lift, Setup.gives_set, Setup.gives_pure]
  exact ⟨_, _, ⟨rfl, rfl⟩, _, _, ⟨checked, rfl⟩, _, _, ⟨naming, rfl⟩, (), _, rfl, rfl, rfl⟩

/-- A row without a name of its own joins the others under the next name if its variables are taken. -/
theorem Call.addRow_succeeds {desk : Desk} {c : Constraint}
    (taken : ∀ v ∈ c.unknowns, desk.matcher.space.contains v = true) (unnamed : c.name.truth = false) :
    ∃ answer next, (addRow (.made c)).run.Gives desk answer next ∧
      next.matcher = desk.matcher.withRows [{ c with name := .text desk.namer.hand.1 }] := by
  have named : Matcher.nameRow desk.namer c = .ok ({ c with name := .text desk.namer.hand.1 }, desk.namer.hand.2) := by
    rw [Matcher.nameRow, unnamed, if_neg Bool.false_ne_true]
  let row : Constraint := { c with name := .text desk.namer.hand.1 }
  let next : Desk := ⟨desk.matcher.withRows [row], desk.namer.hand.2⟩
  have added : (Matcher.addRow c).Gives desk row next :=
    Matcher.addRow_accepts (Matcher.checkVariables_eq_ok.mpr taken) named
  have run : (run (.addRow (.made c))).Gives desk (.row (some row)) next := by
    simp only [run, rowFrom, Setup.gives_bind, Setup.gives_get, Setup.gives_lift, Setup.gives_pure]
    exact ⟨_, _, ⟨rfl, rfl⟩, _, _, ⟨rfl, rfl⟩, _, _, added, rfl, rfl⟩
  exact ⟨_, next, run, rfl⟩

/-- The tuples of a view are excluded by a row without a name of its own, if there are any and all can be named. -/
theorem Call.exclude_succeeds (desk : Desk) {restriction : Keyed Value} {name : Value} {view : View}
    (narrowed : desk.matcher.space.subset restriction = .ok view) (present : view.isEmpty = false)
    (taken : ∀ id ∈ view.ids, desk.matcher.space.contains (.text id) = true) (unnamed : name.truth = false) :
    ∃ answer, (exclude restriction name).run.Gives desk answer ⟨desk.matcher.withRows
      [Matcher.rowOf view .eq (.int 0) (.text desk.namer.hand.1)], desk.namer.hand.2⟩ := by
  let row := Matcher.rowOf view .eq (.int 0) (.text desk.namer.hand.1)
  let next : Desk := ⟨desk.matcher.withRows [row], desk.namer.hand.2⟩
  have checked : Matcher.checkVariables desk.matcher.space (view.ids.map .text) = .ok () :=
    Matcher.checkVariables_eq_ok.mpr (List.forall_mem_map.mpr taken)
  have naming : Matcher.nameRow desk.namer (Matcher.rowOf view .eq (.int 0) name) = .ok (row, desk.namer.hand.2) := by
    rw [Matcher.nameRow, Matcher.rowOf, unnamed, if_neg Bool.false_ne_true]
    rfl
  have excluded : (Matcher.exclude restriction name).Gives desk (some row) next := by
    simp only [Matcher.exclude, Setup.gives_bind, Setup.gives_get, Setup.gives_lift]
    refine ⟨_, _, ⟨rfl, rfl⟩, view, _, ⟨narrowed, rfl⟩, ?_⟩
    rw [present, if_neg Bool.false_ne_true]
    exact Setup.gives_bind.mpr ⟨_, _, Matcher.addRow_accepts checked naming, rfl⟩
  exact ⟨.row (some row), Setup.gives_bind.mpr ⟨_, _, excluded, rfl⟩⟩

namespace View

variable {table : Table} {view : View}

/-- A text is taken just when it is listed, if it is plain when taken and can be read when listed. -/
theorem contains_iff_listed (sound : view.Sound) {s : String} :
    (view.contains (.text s) = true ↔ s ∈ view.ids) ↔
      (view.contains (.text s) = true → Identifier.isPlain s = true) ∧
        (s ∈ view.ids → ∃ row, Identifier.read (.text s) = .ok row) := by
  have plain := contains_plain_iff sound (s := s)
  constructor
  · intro same
    refine ⟨fun taken => ?_, fun listed => ?_⟩
    · obtain ⟨row, reads, -⟩ := (contains_iff_mem_ids sound).mp taken
      exact (plain.mpr ⟨same.mp taken, row, reads⟩).2
    · obtain ⟨row, reads, -⟩ := (contains_iff_mem_ids sound).mp (same.mpr listed)
      exact ⟨row, reads⟩
  · rintro ⟨plainly, reads⟩
    exact ⟨fun taken => (plain.mp ⟨taken, plainly taken⟩).1, fun listed => (plain.mpr ⟨listed, reads listed⟩).1⟩

/-- What is decoded stands for the tuple of a listed identifier, the one written for its positions. -/
theorem decode_alias (sound : view.Sound) {v : Value} {tuple : List Value} (decoded : view.decode v = .ok tuple) :
    ∃ row, Identifier.read v = .ok row ∧ Identifier.write row ∈ view.ids ∧
      view.decode (.text (Identifier.write row)) = .ok tuple := by
  obtain ⟨row, reads, covered, placed⟩ := (decode_eq_ok sound).mp decoded
  obtain ⟨some, range⟩ := Identifier.of_read reads
  obtain ⟨row', reads', listed⟩ :=
    (contains_iff_mem_ids sound).mp (contains_iff.mpr ⟨row, reads, covered⟩)
  cases reads.symm.trans reads'
  exact ⟨row, reads, listed, (decode_eq_ok sound).mpr ⟨row, Identifier.read_write some range, covered, placed⟩⟩

/-- Texts decoded to equal tuples are read alike, and are one text if both are plain. -/
theorem decode_equal_iff (sound : view.Sound) {s s' : String} {tuple tuple' : List Value}
    (first : view.decode (.text s) = .ok tuple) (second : view.decode (.text s') = .ok tuple') :
    (Value.equal (.tuple tuple) (.tuple tuple') = true ↔
      Identifier.read (.text s) = Identifier.read (.text s')) ∧
    (Identifier.isPlain s = true → Identifier.isPlain s' = true →
      Value.equal (.tuple tuple) (.tuple tuple') = true → s = s') := by
  obtain ⟨row, reads, covered, placed⟩ := (decode_eq_ok sound).mp first
  obtain ⟨row', reads', covered', placed'⟩ := (decode_eq_ok sound).mp second
  have equal_iff : Value.equal (.tuple tuple) (.tuple tuple') = true ↔ Value.sameAll tuple tuple' = true := by
    simp [Value.equal, Value.isNaN, Value.same]
  have alike : Value.equal (.tuple tuple) (.tuple tuple') = true ↔
      Identifier.read (.text s) = Identifier.read (.text s') := by
    rw [equal_iff]
    constructor
    · exact read_eq_of_decode sound first second
    · intro equal
      cases reads.symm.trans (equal.trans reads')
      rw [placed.tuple_unique placed']
      exact placed'.sameAll_refl sound.table.elements
  refine ⟨alike, fun plain plain' equal => ?_⟩
  cases reads.symm.trans ((alike.mp equal).trans reads')
  rw [← Identifier.write_of_read reads plain, Identifier.write_of_read reads' plain']

/-- Membership in every view of a space. A text is taken, and decoded, just if it is listed, as
long as it is plain when it is taken and can be read when it is listed; without that proviso it is
an alias of the listed identifier of the same tuple. Rows are accepted over such variables only,
and of texts for the same tuple one at most is plain. -/
theorem membership {collections : Keyed Value} (mapping : collections.IsMapping)
    (built : Table.build collections = .ok table) (reached : Of table view) :
    (∀ s : String, (view.contains (.text s) = true ↔ s ∈ view.ids) ↔
      (view.contains (.text s) = true → Identifier.isPlain s = true) ∧
        (s ∈ view.ids → ∃ row, Identifier.read (.text s) = .ok row)) ∧
    (∀ v, (∃ tuple, view.decode v = .ok tuple) ↔ view.contains v = true) ∧
    (∀ v tuple, view.decode v = .ok tuple → ∃ row, Identifier.read v = .ok row ∧
      Identifier.write row ∈ view.ids ∧ view.decode (.text (Identifier.write row)) = .ok tuple) ∧
    (∀ s s' tuple tuple', view.decode (.text s) = .ok tuple → view.decode (.text s') = .ok tuple' →
      (Value.equal (.tuple tuple) (.tuple tuple') = true ↔
        Identifier.read (.text s) = Identifier.read (.text s')) ∧
      (Identifier.isPlain s = true → Identifier.isPlain s' = true →
        Value.equal (.tuple tuple) (.tuple tuple') = true → s = s')) ∧
    (∀ desk next : Desk, desk.matcher.space = view → ∀ c row, (Matcher.addRow c).Gives desk row next →
      ∀ v ∈ c.unknowns, view.contains v = true) := by
  have sound := reached.sound (Table.sound_of_build mapping built)
  refine ⟨fun s => contains_iff_listed sound, fun v => decode_succeeds_iff sound,
    fun v tuple => decode_alias sound, fun s s' tuple tuple' => decode_equal_iff sound, ?_⟩
  intro desk next space c row gives
  rw [← space]
  exact Matcher.checkVariables_eq_ok.mp (Matcher.addRow_gives gives).1

/-- Two texts for the one tuple of a collection with one element, of which only one is listed. -/
theorem membership_of_alias : ∃ table, Table.build [(.text "a", .list [.text "x"])] = .ok table ∧
    ((whole table).contains (.text "v0") = true ↔ "v0" ∈ (whole table).ids) ∧
    ¬((whole table).contains (.text "v00") = true ↔ "v00" ∈ (whole table).ids) := by
  have mapping : Keyed.IsMapping [(Value.text "a", Value.list [.text "x"])] := ⟨by decide, by decide⟩
  have different : ∀ given ∈ Keyed.inTurn [] [(Value.text "a", Value.list [.text "x"])],
      ∃ items, given.2.items = .ok items ∧ Value.Different items := by
    intro given member
    rw [List.mem_singleton.mp member]
    exact ⟨_, rfl, by decide, by decide⟩
  obtain ⟨table, built⟩ := Table.build_ok different
  obtain ⟨roster, collections, keys⟩ := Table.shape_of_single rfl
    ((Table.build_eq_ok built).imp fun _ _ step => ⟨step.1, step.2.1⟩)
  have placed : Placed table.collections [0] [.text "x"] := by
    rw [collections]
    exact .cons (Int.le_refl 0) (by rw [keys]; rfl) .nil
  have taken : (whole table).contains (.text "v00") = true :=
    contains_iff.mpr ⟨[0], by rfl, covers_whole placed⟩
  obtain ⟨listing, -⟩ := membership mapping built .whole
  refine ⟨table, built, (listing "v0").mpr ⟨fun _ => by decide, fun _ => ⟨[0], by rfl⟩⟩, fun same => ?_⟩
  exact absurd (((listing "v00").mp same).1 taken) (by decide)

end View

end Matchmaking
