import Matchmaking.Proofs.Constraint.Naming
import Matchmaking.Proofs.Matcher.Standing

/-! What every call leaves true of a matcher, whether it succeeds or fails on its way: the rows and
rules that it keeps are whole, and no row has the name of an identifier. -/
namespace Matchmaking

def Count.IsWhole : Count → Prop
  | .exactly count => ∃ n, count = .int n
  | .between minimum maximum => (∃ n, minimum = .int n) ∧ ∃ n, maximum = .int n

theorem Count.isWhole_iff {rule : Count} : rule.IsWhole ↔ rule.Has fun v => ∃ n, v = .int n := by cases rule <;> rfl

/-- A composer of a view of a table, with whole weights. -/
structure Composer.IsWhole (table : Table) (composer : Composer) : Prop where
  view : View.Of table composer.view
  checked : Weight.check composer.weight = .ok composer.weight
  weight : Weight.IsWhole composer.weight

/-- A matcher over the whole of a table, with rows of a kind and with whole rules. -/
structure Matcher.Holds (table : Table) (kind : Constraint → Prop) (m : Matcher) : Prop where
  space : m.space = .whole table
  rows : ∀ c ∈ m.constraints, kind c
  composers : ∀ composer ∈ m.composers, composer.IsWhole table
  known : ∀ name ∈ m.counts.keys, name.isKey = true ∧ ∃ collection ∈ table.collections, collection.1.same name = true
  counts : ∀ entry ∈ m.counts, entry.2.1.IsWhole

namespace Matcher

variable {table : Table} {kind : Constraint → Prop} {m : Matcher}

theorem Holds.stands (held : m.Holds table kind) : m.Stands table kind Count.IsWhole where
  space := held.space
  rows := held.rows
  composers composer member := ⟨(held.composers composer member).view, (held.composers composer member).checked⟩
  known := held.known
  counts := held.counts

theorem Stands.holds (stands : m.Stands table kind Count.IsWhole)
    (weights : ∀ composer ∈ m.composers, Weight.IsWhole composer.weight) : m.Holds table kind where
  space := stands.space
  rows := stands.rows
  composers composer member :=
    ⟨(stands.composers composer member).1, (stands.composers composer member).2, weights composer member⟩
  known := stands.known
  counts := stands.counts

end Matcher

/-- A matcher over the whole of a table whose rows and rules are whole. -/
structure Matcher.IsWhole (table : Table) (m : Matcher) : Prop extends Matcher.Holds table Constraint.IsPlain m where
  timeLimit : m.timeLimit = .null

/-- A whole matcher with a namer that numbers rows under the usual stem. -/
structure Desk.IsWhole (table : Table) (desk : Desk) : Prop where
  matcher : desk.matcher.IsWhole table
  stem : desk.namer.stem = Matcher.usualStem

/-- Whether the target of a row is whole, as far as the row comes from a caller. -/
def RowSource.IsWhole : RowSource → Prop
  | .made row => ∃ t, row.target = .int t
  | .again _ => True
  | .parts first last => ∀ target,
    Keyed.get? (last.foldl (fun spec part => Keyed.put spec part.1 part.2) first) (.text "target") = some target →
      ∃ t, target = .int t

/-- Whether the weights, counts and targets of a call are whole; those that are refused do not
matter. -/
def Call.IsWhole : Call → Prop
  | .addComposer _ weight | .includeMarkers _ weight => Weight.check weight = .ok weight → Weight.IsWhole weight
  | .addRow source => source.IsWhole
  | .exclude .. | .excludeMarkers _ => True
  | .setCount _ count _ => ∀ rule, Count.read count = .ok rule → rule.IsWhole
  | .require _ _ target _ => target = .null ∨ ∃ t, target = .int t

theorem Call.addComposer_whole (restriction : Keyed Value) (w : Int) : (addComposer restriction (.int w)).IsWhole :=
  fun _ => Weight.isWhole_int w

theorem Call.setCount_whole (collection : Value) (n : Int) (padding : Value) :
    (setCount collection (.int n) padding).IsWhole := by
  intro rule read
  rw [Count.read] at read
  split at read <;> cases read
  exact ⟨n, rfl⟩

theorem Operator.normalize_whole {operator found : Value} {op : Operator} {t : Int}
    (normal : normalize operator (.int t) = .ok (op, found)) : ∃ t, found = .int t := by
  unfold normalize at normal
  split at normal
  · cases normal
    exact ⟨t, rfl⟩
  · obtain ⟨word, -, normal⟩ := bind_eq_ok.mp normal
    dsimp only at normal
    split at normal
    · cases normal
    · obtain ⟨sum, added, normal⟩ := bind_eq_ok.mp normal
      rw [Value.add_whole rfl rfl] at added
      cases added
      cases normal
      exact ⟨_, rfl⟩

theorem Constraint.ofSpec_whole {spec : Keyed Value} {row : Constraint}
    (whole : ∀ target, spec.get? (.text "target") = some target → ∃ t, target = .int t)
    (made : ofSpec spec = .ok row) : ∃ t, row.target = .int t := by
  unfold ofSpec at made
  dsimp only at made
  split at made
  · cases made
  · split at made
    · rename_i operator target _ given
      obtain ⟨t, rfl⟩ := whole target given
      obtain ⟨unknowns, -, made⟩ := bind_eq_ok.mp made
      obtain ⟨⟨op, found⟩, normal, made⟩ := bind_eq_ok.mp made
      cases made
      exact Operator.normalize_whole normal
    · cases made

namespace Call

variable {table : Table} {kind : Constraint → Prop} {call : Call} {desk next : Desk} {m : Matcher} {c : Constraint}

theorem IsWhole.has (whole : call.IsWhole) : call.Has fun v => ∃ z, v = .int z := by
  cases call with
  | addRow source =>
    cases source with
    | parts first last => exact fun row made => Constraint.ofSpec_whole whole made
    | made | again => exact whole
  | setCount => exact fun rule read => Count.isWhole_iff.mp (whole rule read)
  | require => exact whole
  | _ => trivial

theorem IsWhole.counts (whole : call.IsWhole) : call.Counts Count.IsWhole := by
  cases call with
  | setCount => exact whole
  | _ => trivial

theorem Asks.isWhole (asked : call.Asks m c) (given : call.IsWhole) (whole : ∀ row ∈ m.constraints, row.IsWhole)
    (checked : Matcher.checkVariables m.space c.unknowns = .ok ()) : c.IsWhole where
  unknowns := texts_of_check checked
  target := asked.target (fun z => ⟨z, rfl⟩) given.has fun row member => (whole row member).target

/-- An edit keeps the rows of a kind if the whole rows that it adds are of the kind. -/
theorem Edit.holds (edit : call.Edit desk next) (given : call.IsWhole) (whole : ∀ row, kind row → row.IsWhole)
    (joins : ∀ c row namer, call.Asks desk.matcher c → c.IsWhole → Matcher.nameRow desk.namer c = .ok (row, namer) →
      kind row) (held : desk.matcher.Holds table kind) : next.matcher.Holds table kind := by
  have stands := edit.stands given.counts (fun c row namer asked checked => joins c row namer asked
    (asked.isWhole given (fun row member => whole row (held.rows row member)) checked)) held.stands
  refine stands.holds ?_
  have weights := fun composer member => (held.composers composer member).weight
  cases edit with
  | @composer restriction composer asked checked narrowed =>
    refine List.forall_mem_append.mpr ⟨weights, fun other member => ?_⟩
    rw [List.mem_singleton.mp member]
    cases call <;> cases asked <;> exact given checked
  | row | count => exact weights

/-- A call keeps the rows of a kind if the whole rows that it adds are of the kind. -/
theorem run_holds (given : call.IsWhole) (whole : ∀ row, kind row → row.IsWhole)
    (joins : ∀ (desk : Desk) c row namer, desk.matcher.Holds table kind → call.Asks desk.matcher c → c.IsWhole →
      Matcher.nameRow desk.namer c = .ok (row, namer) → kind row) (held : desk.matcher.Holds table kind) :
    (Stateful.outcome call.run desk).2.matcher.Holds table kind :=
  run_keeps (fun next => next.matcher.Holds table kind)
    (fun desk _ edit held => edit.holds given whole (fun c row namer => joins desk c row namer held) held) held

theorem run_whole (given : call.IsWhole) (held : desk.matcher.Holds table Constraint.IsWhole) :
    (Stateful.outcome call.run desk).2.matcher.Holds table Constraint.IsWhole := by
  refine run_holds given (fun _ whole => whole) (fun desk c row namer _ _ whole naming => ?_) held
  obtain ⟨name, rfl⟩ := (Matcher.nameRow_renames naming).1
  exact ⟨whole.unknowns, whole.target⟩

theorem Edit.isWhole (edit : call.Edit desk next) (given : call.IsWhole) (held : desk.IsWhole table) :
    next.IsWhole table where
  matcher := {
    toHolds := edit.holds given (fun _ plain => plain.toIsWhole)
      (fun _ _ _ _ whole naming => (Matcher.nameRow_eq_ok held.stem whole naming).1) held.matcher.toHolds
    timeLimit := by cases edit <;> exact held.matcher.timeLimit }
  stem := by
    cases edit with
    | row _ _ naming => exact (Matcher.nameRow_renames naming).2.trans held.stem
    | _ => exact held.stem

end Call

namespace Matcher

open Stateful

/-- The matchers that calls lead to, whether they succeed or fail. The namer may be shared and hand
out names in between, but it keeps its stem. -/
inductive Reached (start : Matcher) : List Call → Matcher → Prop where
  | start : Reached start [] start
  | call {calls : List Call} {m : Matcher} {namer : Namer} {call : Call} (before : Reached start calls m)
      (stem : namer.stem = usualStem) : Reached start (calls ++ [call]) (outcome call.run ⟨m, namer⟩).2.matcher

variable {table : Table}

theorem Reached.of_gives {start m : Matcher} {calls : List Call} {namer : Namer} {call : Call} {answer : Answer}
    {next : Desk} (before : Reached start calls m) (stem : namer.stem = usualStem)
    (gives : call.run.Gives ⟨m, namer⟩ answer next) : Reached start (calls ++ [call]) next.matcher := by
  have reached : Reached start (calls ++ [call]) (outcome call.run ⟨m, namer⟩).2.matcher := before.call stem
  rwa [show outcome call.run ⟨m, namer⟩ = _ from gives] at reached

theorem Reached.whole {start m : Matcher} {calls : List Call} (reached : Reached start calls m)
    (fresh : start.IsWhole table) (whole : ∀ call ∈ calls, call.IsWhole) : m.IsWhole table := by
  induction reached with
  | start => exact fresh
  | call before stem ih =>
    obtain ⟨earlier, last⟩ := List.forall_mem_append.mp whole
    have given := last _ List.mem_cons_self
    exact (Call.run_keeps _ (fun _ _ edit held => edit.isWhole given held) ⟨ih earlier, stem⟩).matcher

theorem build_single : ∃ start, Keyed.IsMapping [(Value.text "a", Value.list [.text "x"])] ∧
    build [(.text "a", .list [.text "x"])] .null .null = .ok start ∧ start.space.ids = ["v0"] := by
  have mapping : Keyed.IsMapping [(Value.text "a", Value.list [.text "x"])] := ⟨by decide, by decide⟩
  have different : ∀ given ∈ Keyed.inTurn [] [(Value.text "a", Value.list [.text "x"])],
      ∃ items, given.2.items = .ok items ∧ Value.Different items := by
    intro given member
    rw [List.mem_singleton.mp member]
    exact ⟨_, rfl, by decide, by decide⟩
  obtain ⟨start, built⟩ := build_succeeds .null .null different
  obtain ⟨table, -, given, rfl⟩ := build_eq_ok mapping built
  obtain ⟨roster, shape, keys⟩ := Table.shape_of_single rfl given
  exact ⟨_, mapping, built, View.ids_single shape (by rw [← Roster.length_keys, keys]; rfl)⟩

/-- Two collections, of two and of three elements. -/
def grid : Keyed Value :=
  [(.text "a", .list [.text "x", .text "y"]), (.text "b", .list [.text "u", .text "v", .text "w"])]

theorem grid_isMapping : grid.IsMapping := ⟨by decide, by decide⟩

theorem build_grid : ∃ (table : Table) (a b : Roster), build grid .null .null = .ok { space := .whole table } ∧
    table.Sound ∧ table.collections = [(.text "a", a), (.text "b", b)] ∧ a.keys = [.text "x", .text "y"] ∧
    b.keys = [.text "u", .text "v", .text "w"] := by
  have different : ∀ given ∈ grid.inTurn [], ∃ items, given.2.items = .ok items ∧ Value.Different items := by
    intro given member
    rcases List.mem_pair.mp member with rfl | rfl
    · exact ⟨_, rfl, by decide, by decide⟩
    · exact ⟨_, rfl, by decide, by decide⟩
  obtain ⟨start, built⟩ := build_succeeds .null .null different
  obtain ⟨table, sound, given, rfl⟩ := build_eq_ok grid_isMapping built
  obtain ⟨⟨_, a⟩, _, ⟨rfl, first⟩, others, shape⟩ := List.forall₂_cons_left_iff.mp given
  obtain ⟨⟨_, b⟩, _, ⟨rfl, second⟩, rest, rfl⟩ := List.forall₂_cons_left_iff.mp others
  cases rest
  exact ⟨table, a, b, built, sound, shape, (Except.ok.inj first).symm, (Except.ok.inj second).symm⟩

/-- The tuple of a collection with one element can be composed with any weight, as often as one likes. -/
theorem composer_of_single : ∃ space : View, build [(.text "a", .list [.text "x"])] .null .null = .ok { space } ∧
    space.ids = ["v0"] ∧ ∀ weight, Weight.check weight = .ok weight → ∃ composer : Composer,
      composer.view.ids = ["v0"] ∧ composer.weight = weight ∧ ∀ desk : Desk, desk.matcher.space = space →
        ∃ answer next, (Call.addComposer [] weight).run.Gives desk answer next ∧
          next.matcher = desk.matcher.withComposers [composer] := by
  obtain ⟨start, mapping, built, ids⟩ := build_single
  obtain ⟨table, -, -, rfl⟩ := build_eq_ok mapping built
  have present : View.isEmpty ⟨table, .subset, (View.whole table).axes⟩ = false := by
    refine Bool.eq_false_iff.mpr fun empty => ?_
    rw [View.isEmpty_iff] at empty
    rw [show View.ids ⟨table, .subset, (View.whole table).axes⟩ = _ from ids] at empty
    cases empty
  refine ⟨_, built, ids, fun weight checked => ?_⟩
  refine ⟨⟨weight, ⟨table, .subset, (View.whole table).axes⟩⟩, ids, rfl, fun desk space => ?_⟩
  have narrowed : desk.matcher.space.subset [] = .ok ⟨table, .subset, (View.whole table).axes⟩ := by
    rw [space, View.subset_nil]
    rfl
  obtain ⟨answer, gives⟩ := Call.addComposer_puts desk checked narrowed
  rw [present] at gives
  exact ⟨answer, _, gives, rfl⟩

theorem holds_of_build {collections : Keyed Value} {backend timeLimit : Value} {start : Matcher}
    (mapping : collections.IsMapping) (built : build collections backend timeLimit = .ok start) :
    ∃ table : Table, table.Sound ∧ List.Forall₂ (fun given entry => entry.1 = given.1 ∧
      given.2.items = .ok entry.2.keys) (collections.inTurn []) table.collections ∧ start.timeLimit = timeLimit ∧
      ∀ kind, start.Holds table kind := by
  obtain ⟨table, sound, given, rfl⟩ := build_eq_ok mapping built
  exact ⟨table, sound, given, rfl, fun kind => ⟨rfl, by simp, by simp, by simp [Keyed.keys], by simp⟩⟩

theorem whole_of_build {collections : Keyed Value} {backend : Value} {start : Matcher}
    (mapping : collections.IsMapping) (built : build collections backend .null = .ok start) :
    ∃ table : Table, table.Sound ∧ List.Forall₂ (fun given entry => entry.1 = given.1 ∧
      given.2.items = .ok entry.2.keys) (collections.inTurn []) table.collections ∧ start.IsWhole table := by
  obtain ⟨table, sound, given, timeLimit, holds⟩ := holds_of_build mapping built
  exact ⟨table, sound, given, holds _, timeLimit⟩

end Matcher

end Matchmaking
