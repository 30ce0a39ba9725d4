import Mathlib.Algebra.Ring.Int.Defs
import Matchmaking.Proofs.Matcher.Closure
import Matchmaking.Proofs.Space.Filtering

/-! What the objective adds up. Each composer hands its weights to the tuples of its own view, in their order and over
and over, whatever other composers do with the same tuples; the weight of a tuple is the sum of what it has been
handed. A grid of two collections has a matcher in which composers overlap, with a row and a count beside them. -/
namespace Matchmaking

namespace Weight

/-- The whole number that a weight gives the tuple at a position: the only one there is, or the one of a row whose turn
it is. -/
def wholeAt (weight : Value) (place : Nat) : Int :=
  match weight with
  | .int w => w
  | row => ((row.items?.bind fun items => items[place % items.length]?).bind Value.index?).getD 0

theorem index?_of_number? {v : Value} {n : Int} (number : v.number? = some (.whole n)) : v.index? = some n := by
  cases v <;> simp_all [Value.number?, Value.index?]

/-- The weight whose turn it is, if it is whole, is the one for the place. -/
theorem wholeAt_of_turn {weight v : Value} {row : List Value} {place : Nat} {n : Int}
    (checked : check weight = .ok weight) (read : cycle weight = .ok row)
    (turn : row[place % row.length]? = some v) (number : v.number? = some (.whole n)) : wholeAt weight place = n := by
  unfold cycle at read
  split at read <;> rename_i kind
  · have items := Value.items?_of_items read
    have other : wholeAt weight place = ((weight.items?.bind fun items => items[place % items.length]?).bind
        Value.index?).getD 0 := by
      cases weight with
      | int => cases kind
      | _ => rfl
    rw [other, items, Option.bind_some, turn, Option.bind_some, index?_of_number? number, Option.getD_some]
  · cases read
    obtain rfl := List.mem_singleton.mp (List.mem_of_getElem? turn)
    unfold check at checked
    rw [if_neg kind] at checked
    split at checked
    · exact Number.whole.inj (Option.some.inj number)
    · cases number
    · cases number
    · cases checked

theorem take_whole {weight : Value} (checked : check weight = .ok weight) (whole : IsWhole weight) (count : Nat) :
    ∃ given : Nat → Value, take count weight = .ok ((List.range count).map given) ∧
      ∀ place, (given place).number? = some (.whole (wholeAt weight place)) := by
  obtain ⟨row, read, filled⟩ := cycle_ok checked
  have turns (place : Nat) : ∃ v ∈ row, row[place % row.length]? = some v := by
    have bound := Nat.mod_lt place (List.length_pos_iff.mpr filled)
    exact ⟨_, List.getElem_mem bound, List.getElem?_eq_getElem bound⟩
  refine ⟨fun place => (row[place % row.length]?).getD .null, ?_, fun place => ?_⟩
  · simp only [take, read, ok_bind, pure_eq_ok, Except.ok.injEq]
    rw [← List.filterMap_eq_map]
    refine List.filterMap_congr fun place _ => ?_
    obtain ⟨v, -, turn⟩ := turns place
    simp [turn?, turn]
  · obtain ⟨v, member, turn⟩ := turns place
    obtain ⟨n, number⟩ := whole row read v member
    dsimp only
    rw [turn, Option.getD_some, number, wholeAt_of_turn checked read turn number]

end Weight

/-- What a composer hands to an identifier: the weight for its position among those of its own view. -/
def Composer.share (composer : Composer) (id : String) : Int :=
  if id ∈ composer.view.ids then Weight.wholeAt composer.weight (composer.view.ids.idxOf id) else 0

namespace Matcher

def handed (m : Matcher) (id : String) : Int := (m.composers.map (·.share id)).sum

namespace Sums

variable {sums next : Sums} {total : String → Int}

def Totals (sums : Sums) (total : String → Int) : Prop := ∀ id, sums.sum id = .int (total id)

theorem totals_empty : Totals {} fun _ => 0 := fun id => by simp [sum]

theorem Totals.add {id : String} {weight : Value} {n : Int} (totals : sums.Totals total)
    (number : weight.number? = some (.whole n)) (added : sums.add id weight = .ok next) :
    next.Totals fun other => total other + if other = id then n else 0 := by
  obtain ⟨sum, more, rfl⟩ := add_eq_ok.mp added
  rw [totals id, Value.add_whole rfl number, Except.ok.injEq] at more
  intro other
  dsimp only
  rw [Sums.sum, Std.HashMap.getD_insert]
  by_cases own : id = other
  · rw [if_pos (beq_iff_eq.mpr own), if_pos own.symm, ← more, own]
  · rw [if_neg (by simpa using own), if_neg (Ne.symm own), Int.add_zero]
    exact totals other

/-- Weights handed out from some place on: an identifier gets the one for its own place. -/
theorem Totals.handOut {given : Nat → Value} {whole : Nat → Int}
    (number : ∀ place, (given place).number? = some (.whole (whole place))) {ids : List String} (once : ids.Nodup)
    {place : Nat} (totals : sums.Totals total) (added : (ids.zip ((List.range' place ids.length).map given)).foldlM
      (fun sums (id, weight) => sums.add id weight) sums = .ok next) :
    next.Totals fun id => total id + if id ∈ ids then whole (place + ids.idxOf id) else 0 := by
  induction ids generalizing sums total place with
  | nil =>
    cases added
    simpa using totals
  | cons id ids ih =>
    rw [List.length_cons, List.range'_succ, List.map_cons, List.zip_cons_cons, List.foldlM_cons] at added
    obtain ⟨mid, first, rest⟩ := bind_eq_ok.mp added
    obtain ⟨fresh, once⟩ := List.nodup_cons.mp once
    have others := ih once (totals.add (number place) first) rest
    intro other
    rw [others other]
    by_cases own : other = id
    · subst own
      simp [fresh]
    · have places : place + 1 + ids.idxOf other = place + (ids.idxOf other + 1) := by omega
      simp [own, places, List.idxOf_cons_ne _ (Ne.symm own)]

theorem Totals.addAll {composer : Composer} (once : composer.view.ids.Nodup)
    (checked : Weight.check composer.weight = .ok composer.weight) (whole : Weight.IsWhole composer.weight)
    (totals : sums.Totals total) (added : sums.addAll composer = .ok next) :
    next.Totals fun id => total id + composer.share id := by
  obtain ⟨given, taken, number⟩ := Weight.take_whole checked whole composer.view.ids.length
  rw [Sums.addAll, taken, ok_bind, List.range_eq_range'] at added
  have handed := totals.handOut number once added
  simp only [Nat.zero_add] at handed
  exact handed

theorem Totals.foldlM {composers : List Composer} (each : ∀ composer ∈ composers, composer.view.ids.Nodup ∧
      Weight.check composer.weight = .ok composer.weight ∧ Weight.IsWhole composer.weight)
    (totals : sums.Totals total) (added : composers.foldlM Sums.addAll sums = .ok next) :
    next.Totals fun id => total id + (composers.map (·.share id)).sum := by
  induction composers generalizing sums total with
  | nil =>
    cases added
    simpa using totals
  | cons composer rest ih =>
    rw [List.foldlM_cons] at added
    obtain ⟨mid, first, added⟩ := bind_eq_ok.mp added
    obtain ⟨⟨once, checked, whole⟩, others⟩ := List.forall_mem_cons.mp each
    simpa only [List.map_cons, List.sum_cons, Int.add_assoc] using
      ih others (totals.addAll once checked whole first) added

end Sums

variable {table : Table} {kind : Constraint → Prop} {rule : Count → Prop} {m : Matcher}

/-- With whole weights every active identifier gets what it has been handed, or one if there are no composers. -/
theorem Stands.objective_eq (sound : table.Sound) (stands : m.Stands table kind rule)
    (whole : ∀ composer ∈ m.composers, Weight.IsWhole composer.weight) :
    m.objective = .ok (m.active.map fun id => (.text id, .int (if m.composers.isEmpty then 1 else m.handed id))) := by
  have once : m.space.ids.Nodup := by
    rw [stands.space]
    exact View.nodup_ids (View.sound_whole sound)
  have each : ∀ composer ∈ m.composers, composer.view.ids.Nodup ∧
      Weight.check composer.weight = .ok composer.weight ∧ Weight.IsWhole composer.weight := fun composer listed =>
    have ⟨reached, checked⟩ := stands.composers composer listed
    ⟨View.nodup_ids (reached.sound sound), checked, whole composer listed⟩
  have checked := fun composer listed => (stands.composers composer listed).2
  obtain ⟨objective, found, -⟩ := objective_ok checked whole
  obtain ⟨sums, added, order, rfl⟩ := objective_sums once checked found
  rw [found, Sums.toKeyed, order]
  refine congrArg _ (List.map_congr_left fun id listed => ?_)
  unfold active at listed
  split at added <;> rename_i none
  · rw [if_pos none] at listed
    have totals := Sums.totals_empty.foldlM
      (by simpa using ⟨once, rfl, Weight.isWhole_int 1⟩) added
    rw [totals id, if_pos none]
    simp [Composer.share, listed, Weight.wholeAt]
  · have totals := Sums.totals_empty.foldlM each added
    simp only [Int.zero_add] at totals
    rw [totals id, if_neg none, handed]

theorem grid_views {table : Table} {a b : Roster} (sound : table.Sound)
    (shape : table.collections = [(.text "a", a), (.text "b", b)]) (aKeys : a.keys = [.text "x", .text "y"])
    (bKeys : b.keys = [.text "u", .text "v", .text "w"]) :
    (∃ view, (View.whole table).subset [(.text "a", .list [.text "x"])] = .ok view ∧
      view.ids = ["v0x0", "v0x1", "v0x2"]) ∧
    (∃ view, (View.whole table).subset [(.text "a", .list [.text "y"])] = .ok view ∧
      view.ids = ["v1x0", "v1x1", "v1x2"]) ∧
    (∃ view, (View.whole table).subset [(.text "b", .list [.text "u"])] = .ok view ∧ view.ids = ["v0x0", "v1x0"]) ∧
    ∃ view, (View.whole table).subset [(.text "b", .list [.text "w"])] = .ok view ∧ view.ids = ["v0x2", "v1x2"] := by
  have sizes : a.size = 2 ∧ b.size = 3 := by
    rw [← Roster.length_keys, ← Roster.length_keys, aKeys, bKeys]
    exact ⟨rfl, rfl⟩
  have inside : (Value.text "a", a) ∈ table.collections := by simp [shape]
  have inside' : (Value.text "b", b) ∈ table.collections := by simp [shape]
  have left {e : Value} {i : Nat} (found : a.keys[i]? = some e) := View.ids_element sound inside found
  have right {e : Value} {i : Nat} (found : b.keys[i]? = some e) := View.ids_element sound inside' found
  simp only [shape, List.map_cons, List.map_nil, sizes, aKeys] at left
  simp only [shape, List.map_cons, List.map_nil, sizes, bKeys] at right
  exact ⟨left (i := 0) rfl, left (i := 1) rfl, right (i := 0) rfl, right (i := 2) rfl⟩

/-- Two composers that overlap, one of which hands out two weights in turn, a row that is narrowed and a count. -/
def gridCalls : List Call :=
  [.addComposer [(.text "a", .list [.text "x"])] (.list [.int 2, .int (-3)]),
    .addComposer [(.text "b", .list [.text "u"])] (.int 5), .exclude [(.text "b", .list [.text "w"])] .null,
    .setCount (.text "a") (.int 1) (.int 0)]

def gridProgram : Problem where
  unknowns := .list (["v0x0", "v0x1", "v0x2", "v1x0"].map .text)
  objective := [(.text "v0x0", .int 7), (.text "v0x1", .int (-3)), (.text "v0x2", .int 2), (.text "v1x0", .int 5)]
  constraints := [⟨[.text "v0x2"], .eq, .int 0, .text "constraint0", .bool false⟩,
    ⟨["v0x0", "v0x1", "v0x2"].map .text, .eq, .int 1, .text "count0", .bool false⟩,
    ⟨[.text "v1x0"], .eq, .int 1, .text "count1", .bool false⟩]

theorem grid_small : ∀ given ∈ grid, ∀ items, given.2.items = .ok items → items.length < 10 ^ Numeral.digitLimit := by
  have large : 10 ≤ 10 ^ Numeral.digitLimit := Nat.le_self_pow (by decide) 10
  intro given member items read
  rcases List.mem_pair.mp member with rfl | rfl <;> cases read <;> exact Nat.lt_of_lt_of_le (by decide) large

theorem gridCalls_whole : ∀ call ∈ gridCalls, call.IsWhole := by
  have turns : Weight.IsWhole (.list [.int 2, .int (-3)]) := by
    rintro row ⟨⟩ v member
    rcases List.mem_pair.mp member with rfl | rfl
    · exact ⟨2, rfl⟩
    · exact ⟨-3, rfl⟩
  simp only [gridCalls, List.forall_mem_cons]
  exact ⟨fun _ => turns, Call.addComposer_whole _ 5, trivial, Call.setCount_whole _ 1 _, by simp⟩

theorem gridCalls_listed : ∀ call ∈ gridCalls, ∀ ids, call.IsListed ids := by
  simp [gridCalls, Call.IsListed]

theorem gridCalls_has {good : Value → Prop} (whole : ∀ z : Int, good (.int z)) : ∀ call ∈ gridCalls, call.Has good := by
  simp only [gridCalls, List.forall_mem_cons]
  refine ⟨trivial, trivial, trivial, fun rule read => ?_, by simp⟩
  cases read
  exact whole 1

theorem gridProgram_isPlain : gridProgram.IsPlain ["v0x0", "v0x1", "v0x2", "v1x0"] where
  unknowns := rfl
  objective := by simp [gridProgram]
  rows := by
    have plain (ids : List String) (t : Int) {name : String} (apart : Identifier.hasForm name = false) :
        Constraint.IsPlain ⟨ids.map .text, .eq, .int t, .text name, .bool false⟩ :=
      { unknowns := ⟨ids, rfl⟩, target := ⟨t, rfl⟩, name := ⟨name, rfl, apart⟩ }
    rw [gridProgram]
    simp only [List.forall_mem_cons]
    exact ⟨plain ["v0x2"] 0 rfl, plain _ 1 rfl, plain ["v1x0"] 1 rfl, by simp⟩

theorem gridProgram_fits : gridProgram.Fits := by
  constructor <;> simp [gridProgram, Numeral.fits_of_digit]

def gridSheet : Sheet where
  terms := [(.whole 7, "v0x0"), (.whole (-3), "v0x1"), (.whole 2, "v0x2"), (.whole 5, "v1x0")]
  rows := [⟨"constraint0", ["v0x2"], .eq, .whole 0⟩, ⟨"count0", ["v0x0", "v0x1", "v0x2"], .eq, .whole 1⟩,
    ⟨"count1", ["v1x0"], .eq, .whole 1⟩]
  ids := ["v0x0", "v0x1", "v0x2", "v1x0"]

theorem gridProgram_shown : gridProgram.IsShown gridSheet where
  unknowns := rfl
  terms := rfl
  rows := .cons ⟨rfl, rfl, rfl, rfl⟩ (.cons ⟨rfl, rfl, rfl, rfl⟩ (.cons ⟨rfl, rfl, rfl, rfl⟩ .nil))

structure IsGrid (table : Table) (m : Matcher) : Prop where
  stands : m.Stands table (fun _ => True) fun _ => True
  whole : ∀ composer ∈ m.composers, Weight.IsWhole composer.weight
  filled : m.composers ≠ []
  counts : m.counts = [(.text "a", .exactly (.int 1), 0)]
  active : m.active = ["v0x0", "v0x1", "v0x2", "v1x0"]
  weights : (m.active.map fun id => (Value.text id, Value.int (m.handed id))) = gridProgram.objective
  rows : m.constraints = [⟨["v0x2", "v1x2"].map .text, .eq, .int 0, .text "constraint0", .bool false⟩]
  elements : table.elements (.text "a") = .ok [.text "x", .text "y"]
  first : m.space.idsWith (.text "a") (.text "x") = .ok ["v0x0", "v0x1", "v0x2"]
  second : m.space.idsWith (.text "a") (.text "y") = .ok ["v1x0", "v1x1", "v1x2"]
  names : m.space.names = [.text "a", .text "b"]
  timeLimit : m.timeLimit = .null
  decodes : m.Decodes "v0x1" [.text "x", .text "v"] ∧ m.Decodes "v1x0" [.text "y", .text "u"]

/-- A program is composed of a grid under names that are free. -/
theorem IsGrid.compose {table : Table} {m : Matcher} {taken : Roster} (sound : table.Sound) (made : m.IsGrid table)
    (free : ∀ i, taken.has (.text (Namer.numbered "count" i)) = false) : m.compose taken = .ok gridProgram := by
  have elements : m.space.table.elements (.text "a") = .ok [.text "x", .text "y"] := by
    rw [made.stands.space]
    exact made.elements
  have counts : m.countConstraints taken = .ok
      [⟨["v0x0", "v0x1", "v0x2"].map .text, .eq, .int 1, .text "count0", .bool false⟩,
        ⟨["v1x0"].map .text, .eq, .int 1, .text "count1", .bool false⟩] := by
    have named (rows : List Constraint) :=
      nameRows_of_free { stem := "count", reserved := taken, taken } (fun i _ => free i) rows
    simp only [countConstraints, countConstraintsIn, made.counts, List.mapM_cons, List.mapM_nil, elements, made.first,
      made.second, ok_bind, countRows, narrow_scope made.filled, made.active, Value.atMost_int, pure_eq_ok, named]
    rfl
  have filled : ¬m.composers.isEmpty = true := by simpa using made.filled
  have objective := made.stands.objective_eq sound made.whole
  simp only [if_neg filled, made.weights] at objective
  rw [compose_rigid counts (by simp [made.rows, Constraint.isLenient, Value.truth]), objective, made.active]
  have row : m.leftOf ⟨["v0x2", "v1x2"].map .text, .eq, .int 0, .text "constraint0", .bool false⟩ =
      some ⟨[.text "v0x2"], .eq, .int 0, .text "constraint0", .bool false⟩ := by
    rw [leftOf_text made.filled rfl, made.active]
    rfl
  have first : m.leftOf ⟨["v0x0", "v0x1", "v0x2"].map .text, .eq, .int 1, .text "count0", .bool false⟩ =
      some ⟨["v0x0", "v0x1", "v0x2"].map .text, .eq, .int 1, .text "count0", .bool false⟩ := by
    rw [leftOf_text made.filled rfl, made.active]
    rfl
  have second : m.leftOf ⟨["v1x0"].map .text, .eq, .int 1, .text "count1", .bool false⟩ =
      some ⟨["v1x0"].map .text, .eq, .int 1, .text "count1", .bool false⟩ := by
    rw [leftOf_text made.filled rfl, made.active]
    rfl
  rw [made.rows, List.cons_append, List.nil_append, List.filterMap_cons_some row, List.filterMap_cons_some first,
    List.filterMap_cons_some second]
  rfl

/-- The matcher that the calls lead to, with the views of its composers and of its row. -/
def gridMatcher (table : Table) (x u w : View) : Matcher where
  space := .whole table
  composers := [⟨.list [.int 2, .int (-3)], x⟩, ⟨.int 5, u⟩]
  constraints := [rowOf w .eq (.int 0) (.text "constraint0")]
  counts := [(.text "a", .exactly (.int 1), 0)]

theorem isGrid {table : Table} {a b : Roster} {x y u w : View} (sound : table.Sound)
    (shape : table.collections = [(.text "a", a), (.text "b", b)]) (aKeys : a.keys = [.text "x", .text "y"])
    (bKeys : b.keys = [.text "u", .text "v", .text "w"])
    (toX : (View.whole table).subset [(.text "a", .list [.text "x"])] = .ok x) (xIds : x.ids = ["v0x0", "v0x1", "v0x2"])
    (toY : (View.whole table).subset [(.text "a", .list [.text "y"])] = .ok y) (yIds : y.ids = ["v1x0", "v1x1", "v1x2"])
    (toU : (View.whole table).subset [(.text "b", .list [.text "u"])] = .ok u) (uIds : u.ids = ["v0x0", "v1x0"])
    (wIds : w.ids = ["v0x2", "v1x2"]) : (gridMatcher table x u w).IsGrid table := by
  have inside : (Value.text "a", a) ∈ table.collections := by simp [shape]
  have elements : table.elements (.text "a") = .ok [.text "x", .text "y"] := by
    rw [Table.elements_of_same sound inside rfl rfl, aKeys]
  have active : (gridMatcher table x u w).active = ["v0x0", "v0x1", "v0x2", "v1x0"] := by
    rw [active, if_neg (by simp [gridMatcher])]
    simp [gridMatcher, xIds, uIds, Text.distinct, Text.unseen]
  have placed {p q : Nat} {e f : Value} (first : a.keys[p]? = some e) (second : b.keys[q]? = some f) :
      Placed table.collections [(p : Int), (q : Int)] [e, f] := by
    rw [shape]
    exact .cons (Int.natCast_nonneg p) first (.cons (Int.natCast_nonneg q) second .nil)
  simp only [aKeys, bKeys] at placed
  exact {
    stands := {
      space := rfl
      rows := fun _ _ => trivial
      composers := fun composer member => by
        rcases List.mem_pair.mp member with rfl | rfl
        · exact ⟨.subset .whole toX, rfl⟩
        · exact ⟨.subset .whole toU, rfl⟩
      known := fun name member => by
        rw [List.mem_singleton.mp member]
        exact ⟨rfl, _, inside, rfl⟩
      counts := fun _ _ => trivial }
    whole := fun composer member => by
      rcases List.mem_pair.mp member with rfl | rfl
      · rintro row ⟨⟩ v listed
        rcases List.mem_pair.mp listed with rfl | rfl
        · exact ⟨2, rfl⟩
        · exact ⟨-3, rfl⟩
      · exact Weight.isWhole_int 5
    filled := List.cons_ne_nil _ _
    counts := rfl
    active
    weights := by
      rw [active]
      simp [gridMatcher, handed, Composer.share, xIds, uIds, Weight.wholeAt, Value.items?, Value.index?, gridProgram]
    rows := by rw [gridMatcher, rowOf, wIds]
    elements
    first := by simp [gridMatcher, View.idsWith, toX, xIds]
    second := by simp [gridMatcher, View.idsWith, toY, yIds]
    names := by simp [gridMatcher, View.names, View.whole, Table.names, shape, Keyed.keys]
    timeLimit := rfl
    decodes := ⟨.of_placed sound rfl (placed (p := 0) (q := 1) rfl rfl) rfl,
      .of_placed sound rfl (placed (p := 1) (q := 0) rfl rfl) rfl⟩ }

/-- The calls all succeed. -/
theorem exists_grid : ∃ (table : Table) (desk : Desk), build grid .null .null = .ok { space := .whole table } ∧
    table.Sound ∧ desk.matcher.IsGrid table ∧ Reached { space := .whole table } gridCalls desk.matcher ∧
    Desk.after ⟨{ space := .whole table }, {}⟩ gridCalls = desk ∧ desk.problem = .ok gridProgram := by
  obtain ⟨table, a, b, built, sound, shape, aKeys, bKeys⟩ := build_grid
  obtain ⟨⟨x, toX, xIds⟩, ⟨y, toY, yIds⟩, ⟨u, toU, uIds⟩, w, toW, wIds⟩ := grid_views sound shape aKeys bKeys
  have filled (view : View) {id : String} {ids : List String} (listed : view.ids = id :: ids) : ¬view.isEmpty = true := by
    rw [View.isEmpty_iff, listed]
    exact List.cons_ne_nil _ _
  let m : Matcher := { space := .whole table }
  let m₁ : Matcher := { m with composers := [⟨.list [.int 2, .int (-3)], x⟩] }
  let m₂ : Matcher := { m with composers := [⟨.list [.int 2, .int (-3)], x⟩, ⟨.int 5, u⟩] }
  let m₃ : Matcher := { m₂ with constraints := [rowOf w .eq (.int 0) (.text "constraint0")] }
  let namer : Namer := ({} : Namer).hand.2
  have handing := Namer.hand_of_free (Namer.not_isTaken_fresh _)
  have named : ({} : Namer).hand.1 = "constraint0" := by
    rw [handing]
    rfl
  have known : table.hasName (.text "a") = .ok true :=
    congrArg Except.ok (Keyed.has_iff.mpr ⟨.text "a", by simp [shape, Keyed.keys], rfl⟩)
  have turns : Weight.check (.list [.int 2, .int (-3)]) = .ok (.list [.int 2, .int (-3)]) := rfl
  obtain ⟨_, first⟩ := Call.addComposer_puts ⟨m, {}⟩ turns toX
  rw [if_neg (filled x xIds)] at first
  have single : Weight.check (.int 5) = .ok (.int 5) := rfl
  obtain ⟨_, second⟩ := Call.addComposer_puts ⟨m₁, {}⟩ single toU
  rw [if_neg (filled u uIds)] at second
  have contained : ∀ id ∈ w.ids, m₂.space.contains (.text id) = true := by
    intro id member
    have listed := View.ids_subset_whole sound (.subset .whole toW) member
    rw [wIds] at member
    refine (View.contains_iff_mem_ids (View.sound_whole sound)).mpr ?_
    rcases List.mem_pair.mp member with rfl | rfl
    · exact ⟨[0, 2], by rfl, listed⟩
    · exact ⟨[1, 2], by rfl, listed⟩
  have unnamed : Value.null.truth = false := rfl
  obtain ⟨_, third⟩ :=
    Call.exclude_succeeds ⟨m₂, {}⟩ toW (Bool.eq_false_iff.mpr (filled w wIds)) contained unnamed
  rw [named] at third
  have fourth : (Call.setCount (.text "a") (.int 1) (.int 0)).run.Gives ⟨m₃, namer⟩ _
      ⟨gridMatcher table x u w, namer⟩ := Call.setCount_puts known rfl rfl
  have made := isGrid sound shape aKeys bKeys toX xIds toY yIds toU uIds wIds
  have stem : namer.stem = usualStem := rfl
  have free (i : Nat) : namer.isTaken (Namer.numbered "count" i) = false := by
    rw [Bool.eq_false_iff, ne_eq, ({} : Namer).hand_gives.isTaken_iff, not_or, named]
    refine ⟨Bool.eq_false_iff.mp (Namer.not_isTaken_fresh _), fun same => ?_⟩
    have third := congrArg (fun s : String => s.toList[2]?) same
    simp [Namer.numbered] at third
  refine ⟨table, ⟨gridMatcher table x u w, namer⟩, built, sound, made, ?_, ?_, made.compose sound free⟩
  · exact (((Reached.start.of_gives rfl first).of_gives rfl second).of_gives rfl third).of_gives stem fourth
  · exact (Desk.after_cons first _).trans ((Desk.after_cons second _).trans ((Desk.after_cons third _).trans
      (Desk.after_cons fourth [])))

end Matcher

namespace Bench

theorem exists_grid : ∃ (table : Table) (bench : Bench),
    Matcher.build Matcher.grid .null .null = .ok { space := .whole table } ∧ table.Sound ∧
    bench.desk.matcher.IsGrid table ∧ Reached { space := .whole table } (Matcher.gridCalls.map .configure) bench ∧
    bench.IsCoherent ∧ bench.desk.problem = .ok Matcher.gridProgram ∧
    Bench.after ⟨⟨{ space := .whole table }, {}⟩, {}⟩ (Matcher.gridCalls.map .configure) = bench := by
  obtain ⟨table, desk, built, sound, made, -, left, composed⟩ := Matcher.exists_grid
  obtain ⟨coherent, equal⟩ := after_leaves (coherent_fresh ⟨{ space := .whole table }, {}⟩)
    (Matcher.gridCalls.map .configure)
  rw [show (Matcher.gridCalls.map Action.configure).filterMap Action.call? = Matcher.gridCalls from rfl] at equal
  replace equal := equal.trans left
  rw [← equal] at made composed
  exact ⟨table, _, built, sound, made, (Reached.start {}).later _, coherent, composed, rfl⟩

end Bench

end Matchmaking
