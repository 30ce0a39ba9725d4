import Matchmaking.Proofs.Constraint.Handing
import Matchmaking.Proofs.Matcher.Counts
import Matchmaking.Proofs.Matcher.Upkeep
import Matchmaking.Proofs.Problem.Writing

/-! The program that a matcher is composed to. With whole rows and rules there is one, and it is
closed: its variables are listed identifiers, each once, the objective has a weight for just these in
their order, and no row is over others or over none. If no row has the name of an identifier, the
weights, the targets and the names of rows are such as can be written. -/
namespace Matchmaking

def Constraint.IsOver (ids : List String) (c : Constraint) : Prop :=
  ∃ own : List String, c.unknowns = own.map .text ∧ own ⊆ ids

structure Constraint.IsWithin (ids : List String) (c : Constraint) : Prop where
  unknowns : c.IsOver ids
  target : ∃ t, c.target = .int t

theorem Constraint.IsWithin.isWhole {ids : List String} {c : Constraint} (within : c.IsWithin ids) : c.IsWhole where
  unknowns := within.unknowns.imp fun _ both => both.1
  target := within.target

/-- A program over distinct variables, with a weight for just these in their order and with rows
each of which is over one of them at least and over nothing else. -/
structure Problem.IsClosed (p : Problem) (ids : List String) : Prop where
  unknowns : p.unknowns = .list (ids.map .text)
  distinct : ids.Nodup
  weights : p.objective.keys = ids.map .text
  rows : ∀ row ∈ p.constraints, ∃ own : List String, row.unknowns = own.map .text ∧ own ≠ [] ∧ own ⊆ ids

theorem Problem.IsClosed.no_rows {p : Problem} (closed : p.IsClosed []) : p.constraints = [] := by
  refine List.eq_nil_iff_forall_not_mem.mpr fun row member => ?_
  obtain ⟨own, -, some, within⟩ := closed.rows row member
  exact some (List.subset_nil.mp within)

namespace Matcher

variable {table : Table} {m : Matcher} {kind : Constraint → Prop} {rule : Count → Prop} {taken : Roster} {p : Problem}

theorem Stands.count_over (sound : table.Sound) (stands : m.Stands table kind rule) {counts : List Constraint}
    (made : m.countConstraints taken = .ok counts) : ∀ c ∈ counts, c.IsOver (View.whole table).ids ∧
      ∃ number, c.name = .text (Namer.numbered "count" number) := by
  obtain ⟨parts, within, all⟩ := stands.countConstraints_eq sound
  rw [all] at made
  obtain ⟨rows, found, made⟩ := bind_eq_ok.mp made
  cases made
  intro c member
  refine ⟨?_, nameRows_numbered _ _ c member⟩
  obtain ⟨before, inside, name, rfl⟩ := exists_of_mem_right (nameRows_renames _ _) member
  obtain ⟨own, listed, here⟩ := List.mem_flatten.mp inside
  obtain ⟨part, known, made⟩ := exists_of_mem_right (mapM_eq_ok.mp found) listed
  exact ⟨_, countRows_over made before here, List.Subset.trans (narrow_subset _ _) (within part known).2⟩

theorem Stands.countConstraints_ok (sound : table.Sound) {good : Value → Prop} (numbers : Value.IsKind good)
    (stands : m.Stands table kind (Count.Has good)) (taken : Roster) :
    ∃ counts, m.countConstraints taken = .ok counts ∧ ∀ c ∈ counts, good c.target := by
  obtain ⟨parts, within, all⟩ := stands.countConstraints_eq sound
  obtain ⟨rows, related⟩ := exists_forall₂ fun part member =>
    countRows_ok numbers (within part member).1 part.padding (narrow m.scope part.ids)
  have made : parts.mapM (Part.rows m.scope) = .ok rows := mapM_eq_ok.mpr (related.imp fun _ _ both => both.1)
  refine ⟨_, by rw [all, made, ok_bind]; rfl, fun c member => ?_⟩
  obtain ⟨before, inside, name, rfl⟩ := exists_of_mem_right (nameRows_renames _ _) member
  obtain ⟨own, listed, here⟩ := List.mem_flatten.mp inside
  obtain ⟨part, -, both⟩ := exists_of_mem_right related listed
  exact both.2 before here

theorem Holds.countConstraints (sound : table.Sound) (held : m.Holds table kind) (taken : Roster) :
    ∃ rows, m.countConstraints taken = .ok rows ∧ ∀ c ∈ rows, c.IsPlain ∧ c.IsWithin (View.whole table).ids := by
  have stands : m.Stands table kind (Count.Has fun v => ∃ t, v = .int t) :=
    { held.stands with counts := fun entry member => Count.isWhole_iff.mp (held.counts entry member) }
  obtain ⟨counts, made, targets⟩ := stands.countConstraints_ok sound Value.isKind_whole taken
  refine ⟨counts, made, fun c member => ?_⟩
  obtain ⟨own, number, name⟩ := stands.count_over sound made c member
  have within : c.IsWithin (View.whole table).ids := ⟨own, targets c member⟩
  exact ⟨⟨within.isWhole, _, name, countName_apart number⟩, within⟩

/-- A composed program has what is left of the rows of the matcher and of its count rows. -/
theorem compose_eq_ok (composed : m.compose taken = .ok p) : ∃ counts, m.countConstraints taken = .ok counts ∧
    p.unknowns = .list (m.active.map .text) ∧ m.objective = .ok p.objective ∧
    ∀ row ∈ p.constraints, ∃ c ∈ m.constraints ++ counts,
      c.keeping (narrowRow m.scope c.unknowns) = .ok (some row) := by
  obtain ⟨counts, made, composed⟩ := bind_eq_ok.mp composed
  obtain ⟨kept, finalized, composed⟩ := bind_eq_ok.mp composed
  obtain ⟨objective, found, composed⟩ := bind_eq_ok.mp composed
  cases composed
  refine ⟨counts, made, rfl, found, fun row member => ?_⟩
  obtain ⟨some, listed, held⟩ := List.mem_filterMap.mp member
  cases held
  exact exists_of_mem_right (mapM_eq_ok.mp finalized) listed

/-- If all rows can be kept, there is a program just if there is an objective, and they are in it. -/
theorem compose_ok {counts : List Constraint} (made : m.countConstraints taken = .ok counts)
    (keeps : ∀ c ∈ m.constraints ++ counts, ∃ kept, c.keeping (narrowRow m.scope c.unknowns) = .ok kept) : ∃ rows,
      m.compose taken = (do return ⟨.list (m.active.map .text), ← m.objective, rows⟩) ∧
      ∀ c ∈ m.constraints ++ counts, ∀ row, c.keeping (narrowRow m.scope c.unknowns) = .ok (some row) → row ∈ rows := by
  obtain ⟨kept, related⟩ := exists_forall₂ keeps
  refine ⟨kept.filterMap id, by simp only [compose, composeIn, made, ok_bind, mapM_eq_ok.mpr related], ?_⟩
  intro c member row own
  obtain ⟨found, listed, same⟩ := exists_of_mem_right related.flip member
  cases own.symm.trans same
  exact List.mem_filterMap.mpr ⟨_, listed, rfl⟩

theorem Holds.compose_succeeds (sound : table.Sound) (held : m.Holds table kind)
    (whole : ∀ c, kind c → c.IsWhole) (taken : Roster) : ∃ p, m.compose taken = .ok p := by
  obtain ⟨counts, made, plain⟩ := held.countConstraints sound taken
  have all : ∀ c ∈ m.constraints ++ counts, c.IsWhole := List.forall_mem_append.mpr
    ⟨fun c member => whole c (held.rows c member), fun c member => (plain c member).1.toIsWhole⟩
  obtain ⟨rows, composed, -⟩ := compose_ok made fun c member => Constraint.keeping_ok (fun n => by
    obtain ⟨t, target⟩ := (all c member).target
    exact ⟨_, by rw [target, Value.atMost_int]⟩) _
  obtain ⟨objective, found, -⟩ := objective_ok (fun composer listed => (held.composers composer listed).checked)
    fun composer listed => (held.composers composer listed).weight
  exact ⟨_, by rw [composed, found, ok_bind]; rfl⟩

theorem IsWhole.compose_plain (sound : table.Sound) (whole : m.IsWhole table) (taken : Roster) :
    ∃ p, m.compose taken = .ok p ∧ p.IsPlain m.active := by
  obtain ⟨p, composed⟩ := whole.compose_succeeds sound (fun _ plain => plain.toIsWhole) taken
  refine ⟨p, composed, ?_⟩
  obtain ⟨counts, made, unknowns, found, kept⟩ := compose_eq_ok composed
  obtain ⟨_, made', plain⟩ := whole.countConstraints sound taken
  cases made.symm.trans made'
  obtain ⟨_, found', terms⟩ := objective_ok (fun composer listed => (whole.composers composer listed).checked)
    fun composer listed => (whole.composers composer listed).weight
  cases found.symm.trans found'
  refine ⟨unknowns, terms, fun row member => ?_⟩
  obtain ⟨c, listed, keeps⟩ := kept row member
  have own : c.IsPlain := by
    rcases List.mem_append.mp listed with old | new
    · exact whole.rows c old
    · exact (plain c new).1
  obtain ⟨ids, unknowns⟩ := own.unknowns
  rw [unknowns, narrowRow_text] at keeps
  obtain ⟨_, keeps', plain⟩ := own.keeping (narrow m.scope ids)
  cases keeps.symm.trans keeps'
  exact plain row rfl

theorem nameRows_of_free (namer : Namer) (free : ∀ i, namer.next ≤ i →
      namer.isTaken (Namer.numbered namer.stem i) = false) (rows : List Constraint) :
    (nameRows namer rows).1 = (rows.zipIdx namer.next).map fun (c, i) =>
      { c with name := .text (Namer.numbered namer.stem i) } := by
  induction rows generalizing namer with
  | nil => rfl
  | cons c rest ih =>
    have handed := Namer.hand_of_free (free namer.next (Nat.le_refl _))
    have gives := namer.hand_gives
    rw [handed] at gives
    have later := ih namer.hand.2 fun i more => by
      rw [handed] at more ⊢
      rw [Bool.eq_false_iff, ne_eq, gives.isTaken_iff, not_or]
      refine ⟨Bool.eq_false_iff.mp (free i (Nat.le_of_succ_le more)), fun same => ?_⟩
      have equal := Namer.numbered_injective _ same
      exact absurd more (by rw [equal]; exact Nat.not_succ_le_self _)
    rw [nameRows, List.zipIdx_cons, List.map_cons]
    dsimp only
    rw [later, handed]

/-- Rows are narrowed to just the active identifiers, if there are composers. -/
theorem narrow_scope (some : m.composers ≠ []) (ids : List String) :
    narrow m.scope ids = ids.filter (· ∈ m.active) := by
  rw [scope, if_neg (by simpa using some)]
  exact List.filter_congr fun id _ => by rw [Std.HashSet.contains_ofList, List.contains_eq_mem]

def leftOf (m : Matcher) (c : Constraint) : Option Constraint :=
  let left := narrowRow m.scope c.unknowns
  if left.isEmpty then none else some { c with unknowns := left }

theorem leftOf_text (filled : m.composers ≠ []) {c : Constraint} {ids : List String} (texts : c.unknowns = ids.map .text) :
    m.leftOf c = if (ids.filter (· ∈ m.active)).isEmpty then none
      else some { c with unknowns := (ids.filter (· ∈ m.active)).map .text } := by
  rw [leftOf, texts, narrowRow_text, narrow_scope filled, List.isEmpty_map]

/-- Rows whose targets do not follow their variables are in the program with what is left of them. -/
theorem compose_rigid {counts : List Constraint} (made : m.countConstraints taken = .ok counts)
    (rigid : ∀ c ∈ m.constraints ++ counts, c.isLenient = false) : m.compose taken = do
      return ⟨.list (m.active.map .text), ← m.objective, (m.constraints ++ counts).filterMap m.leftOf⟩ := by
  have kept : (m.constraints ++ counts).mapM (fun c => c.keeping (narrowRow m.scope c.unknowns)) =
      .ok ((m.constraints ++ counts).map m.leftOf) := by
    refine mapM_eq_ok.mpr (List.forall₂_map_right_iff.mpr (List.forall₂_same.mpr fun c member => ?_))
    rw [Constraint.keeping, leftOf, rigid c member]
    cases (narrowRow m.scope c.unknowns).isEmpty <;> rfl
  simp only [compose, composeIn, made, kept, ok_bind, List.filterMap_map]
  rfl

theorem countConstraints_none (counts : m.counts = []) (taken : Roster) : m.countConstraints taken = .ok [] := by
  rw [Matcher.countConstraints, countConstraintsIn, counts]
  rfl

/-- Without rows and counts, a program has just its variables and their weights. -/
theorem compose_bare (rows : m.constraints = []) (counts : m.counts = []) (taken : Roster) :
    m.compose taken = do return ⟨.list (m.active.map .text), ← m.objective, []⟩ := by
  rw [compose, countConstraints_none counts, ok_bind, composeIn, rows]
  rfl

/-- A matcher with nothing but composers of one tuple is composed to a program with that tuple. -/
theorem compose_single {id : String} {objective : Except Failure (Keyed Value)} (rows : m.constraints = [])
    (counts : m.counts = []) (some : m.composers ≠ []) (single : ∀ composer ∈ m.composers, composer.view.ids = [id])
    (found : m.objective = objective) (taken : Roster) :
    m.active = [id] ∧ m.compose taken = do return ⟨.list [.text id], ← objective, []⟩ := by
  have members (s : String) : s ∈ Text.distinct (m.composers.flatMap fun composer => composer.view.ids) ↔ s ∈ [id] := by
    rw [Text.mem_distinct, List.mem_flatMap, List.mem_singleton]
    constructor
    · rintro ⟨composer, listed, own⟩
      rw [single composer listed] at own
      exact List.mem_singleton.mp own
    · rintro rfl
      obtain ⟨composer, listed⟩ := List.exists_mem_of_ne_nil _ some
      exact ⟨composer, listed, by simp [single composer listed]⟩
  have active : m.active = [id] := by
    rw [Matcher.active, if_neg (by simpa using some)]
    exact List.perm_singleton.mp
      ((List.perm_ext_iff_of_nodup (Text.nodup_distinct _) (List.nodup_singleton id)).mpr members)
  exact ⟨active, by rw [compose_bare rows counts, active, found]; rfl⟩

theorem compose_once {space : View} {composer : Composer} {id : String} {weight total : Value}
    (grown : m = withComposers { space } [composer]) (single : composer.view.ids = [id])
    (taken : Weight.take 1 composer.weight = .ok [weight]) (more : (Value.int 0).add weight = .ok total)
    (names : Roster) : m.active = [id] ∧ m.compose names = .ok ⟨.list [.text id], [(.text id, total)], []⟩ := by
  have composers : m.composers = [composer] := by rw [grown]; rfl
  exact compose_single (by rw [grown]; rfl) (by rw [grown]; rfl) (by simp [composers]) (by simp [composers, single])
    (objective_of_one composers single taken more) names

theorem compose_twice {space : View} {first second : Composer} {id : String} {weight weight' total : Value}
    (grown : m = withComposers (withComposers { space } [first]) [second]) (single : first.view.ids = [id])
    (single' : second.view.ids = [id]) (taken : Weight.take 1 first.weight = .ok [weight])
    (taken' : Weight.take 1 second.weight = .ok [weight']) (more : (Value.int 0).add weight = .ok total)
    (names : Roster) : m.active = [id] ∧ m.compose names = do return ⟨.list [.text id], [(.text id, ← total.add weight')], []⟩ := by
  have composers : m.composers = [first, second] := by rw [grown]; rfl
  have each : ∀ composer ∈ m.composers, composer.view.ids = [id] := by simp [composers, single, single']
  have composed := compose_single (by rw [grown]; rfl) (by rw [grown]; rfl) (by simp [composers]) each
    (objective_of_two composers single single' taken taken' more) names
  simpa only [bind_assoc, pure_bind] using composed

theorem Stands.nodup_active (sound : table.Sound) (stands : m.Stands table kind rule) : m.active.Nodup := by
  unfold active
  split
  · rw [stands.space]
    exact View.nodup_ids (View.sound_whole sound)
  · exact Text.nodup_distinct _

theorem Stands.active_subset (sound : table.Sound) (stands : m.Stands table kind rule) :
    m.active ⊆ (View.whole table).ids := by
  intro id member
  unfold active at member
  split at member
  · rwa [stands.space] at member
  · obtain ⟨composer, listed, own⟩ := List.mem_flatMap.mp (Text.mem_distinct.mp member)
    exact View.ids_subset_whole sound (stands.composers composer listed).1 own

theorem narrow_scope_subset {ids : List String} (listed : ids ⊆ m.space.ids) : narrow m.scope ids ⊆ m.active := by
  unfold scope
  split
  · rename_i none
    rwa [active, if_pos none]
  · intro id member
    simpa [narrow] using (List.mem_filter.mp member).2

theorem Stands.closed (sound : table.Sound) (stands : m.Stands table kind rule)
    (rows : ∀ c ∈ m.constraints, c.IsOver (View.whole table).ids) (composed : m.compose taken = .ok p) :
    p.IsClosed m.active := by
  obtain ⟨counts, made, unknowns, found, kept⟩ := compose_eq_ok composed
  have nodup : m.space.ids.Nodup := by
    rw [stands.space]
    exact View.nodup_ids (View.sound_whole sound)
  have weights := keys_objective nodup (fun composer listed => (stands.composers composer listed).2) found
  refine ⟨unknowns, stands.nodup_active sound, weights, fun row member => ?_⟩
  obtain ⟨c, listed, keeps⟩ := kept row member
  have own : c.IsOver m.space.ids := by
    rw [stands.space]
    rcases List.mem_append.mp listed with old | new
    · exact rows c old
    · exact (stands.count_over sound made c new).1
  obtain ⟨ids, unknowns, subset⟩ := own
  obtain ⟨some, target, rfl, -⟩ := Constraint.keeping_eq_some keeps
  rw [unknowns, narrowRow_text] at some ⊢
  exact ⟨narrow m.scope ids, rfl, by simpa using some, narrow_scope_subset subset⟩

theorem Holds.compose_closed (sound : table.Sound) (held : m.Holds table (Constraint.IsWithin (View.whole table).ids))
    (taken : Roster) : ∃ p, m.compose taken = .ok p ∧ p.IsClosed m.active := by
  obtain ⟨p, composed⟩ := held.compose_succeeds sound (fun _ within => within.isWhole) taken
  exact ⟨p, composed, held.stands.closed sound (fun c member => (held.rows c member).unknowns) composed⟩

/-- A variable is decoded to a tuple that has it as its identifier. -/
def Decodes (m : Matcher) (id : String) (tuple : List Value) : Prop :=
  m.space.decode (.text id) = .ok tuple ∧ m.space.encode (.tuple tuple) = .ok id

theorem decodes_active (sound : table.Sound)
    (small : ∀ entry ∈ table.collections, entry.2.size ≤ 10 ^ Numeral.digitLimit) (stands : m.Stands table kind rule)
    {id : String} (member : id ∈ m.active) : ∃ tuple, m.Decodes id tuple := by
  simp only [Decodes, stands.space]
  exact View.encode_decode (View.sound_whole sound) small (stands.active_subset sound member)

namespace Decodes

variable {id id' : String} {tuple tuple' : List Value}

theorem of_placed (sound : table.Sound) (space : m.space = .whole table) {row : List Int}
    (placed : Placed table.collections row tuple) (reads : Identifier.read (.text (Identifier.write row)) = .ok row) :
    m.Decodes (Identifier.write row) tuple := by
  have whole := View.sound_whole sound
  have covered := View.covers_whole placed
  rw [Matcher.Decodes, space]
  exact ⟨(View.decode_eq_ok whole).mpr ⟨row, reads, covered, placed⟩, (View.encode_eq_ok whole).mpr
    ⟨tuple, row, tuple, rfl, covered, placed, placed.sameAll_refl sound.elements, rfl⟩⟩

theorem hasForm (sound : table.Sound) (stands : m.Stands table kind rule) (decodes : m.Decodes id tuple) :
    Identifier.hasForm id = true := by
  obtain ⟨decoded, -⟩ := decodes
  rw [stands.space] at decoded
  obtain ⟨row, reads, -⟩ := (View.decode_eq_ok (View.sound_whole sound)).mp decoded
  obtain ⟨s, found, text, parts, -⟩ := Identifier.read_eq_ok.mp reads
  rw [Option.some.inj text, Identifier.hasForm, parts]
  rfl

theorem apart (sound : table.Sound) (stands : m.Stands table kind rule) (decodes : m.Decodes id tuple)
    (decodes' : m.Decodes id' tuple') (other : id ≠ id') : Value.equal (.tuple tuple) (.tuple tuple') = false := by
  obtain ⟨decoded, encoded⟩ := decodes
  obtain ⟨decoded', encoded'⟩ := decodes'
  rw [stands.space] at decoded encoded decoded' encoded'
  refine Bool.eq_false_iff.mpr fun equal => other ?_
  have whole := View.sound_whole sound
  have alike := (View.decode_equal_iff whole decoded decoded').1.mp equal
  obtain ⟨row, reads, -, placed⟩ := (View.decode_eq_ok whole).mp decoded
  obtain ⟨row', reads', -, placed'⟩ := (View.decode_eq_ok whole).mp decoded'
  cases reads.symm.trans (alike.trans reads')
  rw [placed.tuple_unique placed'] at encoded
  exact Except.ok.inj (encoded.symm.trans encoded')

end Decodes

end Matcher

end Matchmaking
