import Mathlib.Data.Nat.Choose.Basic
import Matchmaking.Proofs.Matcher.Composition
import Matchmaking.Proofs.Matcher.Weights
import Matchmaking.Proofs.Rule.Regrouping
import Matchmaking.Proofs.Space.Knowledge

/-! What including a marker map makes of a new matcher. Every pair of collections that carry a
marker becomes a composer, so the active tuples are those with elements that share a marker, and
each composer that has a tuple adds to its weight once more. -/
namespace Matchmaking

open Stateful

section Counting

variable {α β : Type}

/-- There are as many pairs of items of a kind as ways to choose two of them. -/
theorem MarkerMap.countP_laterPairs (kind : α → Bool) (xs : List α) :
    (laterPairs xs).countP (fun (a, b) => kind a && kind b) = (xs.countP kind).choose 2 := by
  induction xs with
  | nil => rfl
  | cons x rest ih =>
    rw [laterPairs, List.countP_append, List.countP_map, ih, List.countP_cons]
    cases own : kind x with
    | false => simp [Function.comp_def, own]
    | true => simp [Function.comp_def, own, Nat.choose_succ_succ' _ 1]

theorem countP_of_one {kind : α → Bool} {xs : List α} (one : xs.Pairwise fun a b => ¬(kind a = true ∧ kind b = true)) :
    xs.countP kind = if xs.any kind then 1 else 0 := by
  induction one with
  | nil => rfl
  | @cons x rest first _ ih =>
    rw [List.countP_cons, List.any_cons]
    cases own : kind x with
    | false => simpa using ih
    | true =>
      have none : rest.countP kind = 0 := List.countP_eq_zero.mpr fun a member other => first a member ⟨own, other⟩
      simp [none]

theorem countP_or_of_apart {kind other : α → Bool} {xs : List α} (apart : ∀ a ∈ xs, ¬(kind a = true ∧ other a = true)) :
    xs.countP (fun a => kind a || other a) = xs.countP kind + xs.countP other := by
  induction xs with
  | nil => rfl
  | cons x rest ih =>
    obtain ⟨first, apart⟩ := List.forall_mem_cons.mp apart
    rw [List.countP_cons, List.countP_cons, List.countP_cons, ih apart]
    cases left : kind x <;> cases right : other x <;> simp_all <;> omega

/-- Where no two items of either list are related to the same one of the other, as many of the one are related to
some of the other as the other way round. -/
theorem countP_related {R : α → β → Bool} {xs : List α} {ys : List β}
    (left : xs.Pairwise fun a b => ∀ y ∈ ys, ¬(R a y = true ∧ R b y = true))
    (right : ys.Pairwise fun y z => ∀ x ∈ xs, ¬(R x y = true ∧ R x z = true)) :
    xs.countP (fun x => ys.any (R x)) = ys.countP fun y => xs.any (R · y) := by
  induction left with
  | nil => simp
  | @cons x rest first _ ih =>
    have own : ys.countP (R x) = if ys.any (R x) then 1 else 0 :=
      countP_of_one (right.imp fun apart => apart x List.mem_cons_self)
    have others := ih (right.imp fun apart x' member => apart x' (List.mem_cons_of_mem _ member))
    have apart : ∀ y ∈ ys, ¬(R x y = true ∧ rest.any (R · y) = true) := by
      rintro y inside ⟨here, later⟩
      obtain ⟨x', member, also⟩ := List.any_eq_true.mp later
      exact first x' member y inside ⟨here, also⟩
    simp only [List.any_cons]
    rw [List.countP_cons, countP_or_of_apart apart, others, own, Nat.add_comm]

end Counting

namespace MarkerMap

variable {map : MarkerMap} {table : Table} {row : List Value} {marker : Value} {pair : Bearers}

/-- The collections of a map are collections of a table, and so are their elements. -/
def IsKnown (map : MarkerMap) (table : Table) : Prop := ∀ entry ∈ map, ∃ collection ∈ table.collections,
  collection.1.same entry.1 = true ∧ ∀ e ∈ entry.2.keys, Table.holds collection e = true

/-- In how many ways a marker and two collections can be chosen such that a row's elements of both carry the
marker. -/
def overlap (map : MarkerMap) (table : Table) (row : List Value) : Nat :=
  (map.labels.map fun marker => ((table.names.zip row).countP fun (name, e) =>
    (map.marks name e).any (·.same marker)).choose 2).sum

theorem IsKnown.bearers (known : map.IsKnown table) {bearer : Value × List Value}
    (bears : bearer ∈ map.bearers marker) : ∃ collection ∈ table.collections,
      collection.1.same bearer.1 = true ∧ ∀ e ∈ bearer.2, Table.holds collection e = true := by
  obtain ⟨entry, turned, -, rfl⟩ := mem_bearers.mp bears
  obtain ⟨own, listed, name, keys⟩ := exists_of_mem_right (inTurn_related map []) turned
  obtain ⟨collection, inside, same, elements⟩ := known own listed
  refine ⟨collection, inside, by rwa [name], fun e carried => ?_⟩
  obtain ⟨x, held, -, rfl⟩ := mem_carriers.mp carried
  exact elements _ (keys ▸ List.mem_map_of_mem held)

theorem IsKnown.pairs (known : map.IsKnown table) (mapping : map.IsMapping)
    (paired : pair ∈ map.labels.flatMap map.pairsOf) : ∀ bearer ∈ pair, ∃ collection ∈ table.collections,
      collection.1.same bearer.1 = true ∧ ∀ e ∈ bearer.2, Table.holds collection e = true := by
  obtain ⟨marker, -, paired⟩ := List.mem_flatMap.mp paired
  obtain ⟨outer, left, inner, right, -, rfl⟩ := (pairsOf_exact mapping marker).2.1 pair paired
  intro bearer inside
  rcases List.mem_pair.mp inside with rfl | rfl
  · exact known.bearers left
  · exact known.bearers right

def holdsOne (table : Table) (row : List Value) (bearer : Value × List Value) : Bool :=
  (table.collections.zip row).any fun x => bearer.1.same x.1.1 && bearer.2.any (·.same x.2)

theorem lies_pair (sound : table.Sound) (mapping : map.IsMapping) (marked : map.IsMarked) (known : map.IsKnown table)
    (member : row ∈ table.rows) (listed : marker ∈ map.labels) {outer inner : Value × List Value}
    (later : (outer, inner) ∈ laterPairs (map.bearers marker)) :
    table.lies (Matcher.restrictionOf [outer, inner]) row = (holdsOne table row outer && holdsOne table row inner) := by
  have paired : [outer, inner] ∈ map.labels.flatMap map.pairsOf :=
    List.mem_flatMap.mpr ⟨marker, listed, mem_pairsOf.mpr later⟩
  obtain ⟨_, _, -, bearers, keys, -⟩ := pairs_sound mapping (pairs_eq mapping marked) paired
  have names : ∀ bearer ∈ [outer, inner], ∃ collection ∈ table.collections, collection.1.same bearer.1 = true :=
    fun bearer inside => (known.pairs mapping paired bearer inside).imp fun _ both => ⟨both.1, both.2.1⟩
  rw [Bool.eq_iff_iff, show Matcher.restrictionOf [outer, inner] = Keyed.mapData Value.list [outer, inner] from rfl,
    lies_iff_held sound member bearers keys names]
  simp [holdsOne]

/-- The bearers that a row holds one of stand for the row's elements that carry the marker. -/
theorem countP_holdsOne (sound : table.Sound) (mapping : map.IsMapping) (member : row ∈ table.rows) :
    (map.bearers marker).countP (holdsOne table row) =
      (table.names.zip row).countP fun (name, e) => (map.marks name e).any (·.same marker) := by
  have bearers := bearers_isMapping mapping marker
  have apart : (map.bearers marker).Pairwise fun a b => a.1.same b.1 = false := List.pairwise_map.mp bearers.apart
  have places : (table.collections.zip row).Pairwise fun x y => x.1.1.same y.1.1 = false := by
    have names := List.pairwise_map.mp sound.names.apart
    rw [← Table.map_fst_zip member] at names
    exact List.pairwise_map.mp names
  have key {bearer : Value × List Value} (bears : bearer ∈ map.bearers marker) : bearer.1.isKey = true :=
    bearers.keys _ (List.mem_map_of_mem bears)
  have named {bearer : Value × List Value} {x : (Value × Roster) × Value}
      (held : (bearer.1.same x.1.1 && bearer.2.any (·.same x.2)) = true) : bearer.1.same x.1.1 = true :=
    (Bool.and_eq_true_iff.mp held).1
  have counted : (map.bearers marker).countP (holdsOne table row) = (table.collections.zip row).countP fun x =>
      (map.bearers marker).any fun bearer => bearer.1.same x.1.1 && bearer.2.any (·.same x.2) := by
    refine countP_related (apart.imp_of_mem fun {a b} left right away x _ both => ?_)
      (places.imp_of_mem fun {x y} _ _ away bearer bears both => ?_)
    · have joined := Value.same_trans (key left) (named both.1) (Value.same_symm (key right) (named both.2))
      exact Bool.false_ne_true (away.symm.trans joined)
    · have own := Value.isKey_of_same (key bears) (named both.1)
      have joined := Value.same_trans own (Value.same_symm (key bears) (named both.1)) (named both.2)
      exact Bool.false_ne_true (away.symm.trans joined)
  refine counted.trans ?_
  rw [Table.names, Keyed.keys, List.zip_map_left, List.countP_map]
  refine List.countP_congr fun x _ => ?_
  simp only [Function.comp_apply, Prod.map_fst, Prod.map_snd, id]
  rw [marks_any]
  simp only [List.any_eq_true, Bool.and_eq_true]

theorem countP_pairs (sound : table.Sound) (mapping : map.IsMapping) (marked : map.IsMarked) (known : map.IsKnown table)
    (member : row ∈ table.rows) : (map.labels.flatMap map.pairsOf).countP
      (fun pair => table.lies (Matcher.restrictionOf pair) row) = map.overlap table row := by
  rw [List.countP_flatMap, overlap]
  refine congrArg _ (List.map_congr_left fun marker listed => ?_)
  rw [← countP_holdsOne sound mapping member, ← countP_laterPairs, Function.comp_apply, pairsOf, List.countP_map]
  refine List.countP_congr fun pair later => ?_
  rw [Function.comp_apply, lies_pair sound mapping marked known member listed later]

end MarkerMap

namespace View

variable {table : Table} {view : View} {row : List Value}

/-- The identifier of a row is in a view narrowed from the whole just if the row lies in the restriction. -/
theorem identify_mem_ids (sound : table.Sound) {restriction : Keyed Value}
    (narrowed : (whole table).subset restriction = .ok view) (member : row ∈ table.rows) :
    table.identify row ∈ view.ids ↔ table.lies restriction row = true := by
  obtain ⟨seen, equal, has⟩ := Call.narrowed_whole sound narrowed
  rw [mem_ids_iff seen, equal, ← has row member]
  constructor
  · rintro ⟨other, inside, held, same⟩
    rwa [← Table.identify_injective sound inside member same]
  · exact fun held => ⟨row, member, held, rfl⟩

end View

namespace Matcher

variable {table : Table} {row : List Value}

/-- Composers of one whole weight hand it to a row once for each restriction that the row lies in. -/
theorem sum_shares (sound : table.Sound) (member : row ∈ table.rows) (w : Int) {parts : List (Keyed Value)}
    {views : List View} (narrowed : List.Forall₂ (fun part view => (View.whole table).subset part = .ok view) parts views) :
    ((composersOf (parts.map (·, .int w)) views).map (·.share (table.identify row))).sum =
      w * parts.countP (table.lies · row) := by
  induction narrowed with
  | nil => simp [composersOf]
  | @cons part view parts views first _ ih =>
    have listed := View.identify_mem_ids sound first member
    have split : composersOf ((part :: parts).map (·, .int w)) (view :: views) =
        (if view.isEmpty then [] else [⟨.int w, view⟩]) ++ composersOf (parts.map (·, .int w)) views := by
      cases empty : view.isEmpty <;> simp [composersOf, empty]
    have own : ((if view.isEmpty then [] else [(⟨.int w, view⟩ : Composer)]).map
        (·.share (table.identify row))).sum = if table.lies part row then w else 0 := by
      cases lies : table.lies part row with
      | false =>
        have absent : table.identify row ∉ view.ids := by rw [listed, lies]; exact Bool.false_ne_true
        cases view.isEmpty <;> simp [Composer.share, absent]
      | true =>
        have present := listed.mpr lies
        have some : view.isEmpty = false := by
          rw [Bool.eq_false_iff, ne_eq, View.isEmpty_iff]
          exact List.ne_nil_of_mem present
        simp [some, Composer.share, present, Weight.wholeAt]
    rw [split, List.map_append, List.sum_append, ih, own, List.countP_cons]
    cases table.lies part row <;> simp [Int.mul_add, Int.add_comm]

end Matcher

/-- Where there are rows, there is one with any two elements of different collections. -/
theorem Table.exists_row {table : Table} {row : List Value} (member : row ∈ table.rows) {a b : Value × Roster}
    (left : a ∈ table.collections) (right : b ∈ table.collections) (ne : a ≠ b) {e f : Value} (first : e ∈ a.2.keys)
    (second : f ∈ b.2.keys) : ∃ row ∈ table.rows,
      (a, e) ∈ table.collections.zip row ∧ (b, f) ∈ table.collections.zip row := by
  have elements := (mem_rows.mp member).2.flip
  have each : ∀ collection ∈ table.collections, ∃ x, x ∈ collection.2.keys ∧ (collection = a → x = e) ∧
      (collection = b → x = f) := by
    intro collection inside
    by_cases here : collection = a
    · exact ⟨e, here ▸ first, fun _ => rfl, fun there => absurd (here.symm.trans there) ne⟩
    · by_cases there : collection = b
      · exact ⟨f, there ▸ second, fun same => absurd same here, fun _ => rfl⟩
      · obtain ⟨x, held⟩ := exists_mem_zip member inside
        exact ⟨x, List.forall₂_zip elements held, fun same => absurd same here, fun same => absurd same there⟩
  obtain ⟨chosen, related⟩ := exists_forall₂ each
  have inside : chosen ∈ table.rows := mem_rows.mpr ⟨(mem_rows.mp member).1, (related.imp fun _ _ held => held.1).flip⟩
  obtain ⟨x, held⟩ := exists_mem_zip inside left
  obtain ⟨y, held'⟩ := exists_mem_zip inside right
  have own := (List.forall₂_zip related held).2.1 rfl
  have own' := (List.forall₂_zip related held').2.2 rfl
  exact ⟨chosen, inside, own ▸ held, own' ▸ held'⟩

namespace MarkerMap

variable {map : MarkerMap} {table : Table} {row : List Value} {marker : Value}

theorem IsKnown.exists_element (sound : table.Sound) (marked : map.IsMarked) (known : map.IsKnown table)
    (listed : marker ∈ map.labels) {bearer : Value × List Value} (bears : bearer ∈ map.bearers marker) :
    ∃ collection ∈ table.collections, bearer.1.same collection.1 = true ∧
      ∃ e ∈ collection.2.keys, bearer.2.any (·.same e) = true := by
  obtain ⟨e, carried⟩ := List.exists_mem_of_ne_nil _ (((labels_exact marked).2.2 marker listed).2 bearer bears)
  obtain ⟨collection, inside, same, elements⟩ := known.bearers bears
  obtain ⟨own, enlisted, equal⟩ := List.any_eq_true.mp (elements e carried)
  have nameKey := sound.names.keys _ (List.mem_map_of_mem inside)
  have ownKey := (sound.elements collection inside).keys own enlisted
  exact ⟨collection, inside, Value.same_symm nameKey same, own, enlisted,
    List.any_eq_true.mpr ⟨e, carried, Value.same_symm ownKey equal⟩⟩

/-- Where two collections carry a marker there is a row with both, if there are rows at all. -/
theorem exists_shares (sound : table.Sound) (mapping : map.IsMapping) (marked : map.IsMarked)
    (known : map.IsKnown table) (listed : marker ∈ map.labels) {outer inner : Value × List Value}
    (left : outer ∈ map.bearers marker) (right : inner ∈ map.bearers marker) (apart : outer.1.same inner.1 = false)
    (member : row ∈ table.rows) : ∃ row ∈ table.rows, map.shares table row = true := by
  have bearers := bearers_isMapping mapping marker
  have outerKey := bearers.keys _ (List.mem_map_of_mem left)
  have innerKey := bearers.keys _ (List.mem_map_of_mem right)
  obtain ⟨a, inside, same, e, held, carried⟩ := known.exists_element sound marked listed left
  obtain ⟨b, inside', same', f, held', carried'⟩ := known.exists_element sound marked listed right
  have ne : a ≠ b := by
    rintro rfl
    exact Bool.false_ne_true (apart.symm.trans (Value.same_trans outerKey same (Value.same_symm innerKey same')))
  obtain ⟨row, chosen, first, second⟩ := Table.exists_row member inside inside' ne held held'
  have holds : holdsOne table row outer = true :=
    List.any_eq_true.mpr ⟨_, first, Bool.and_eq_true_iff.mpr ⟨same, carried⟩⟩
  have holds' : holdsOne table row inner = true :=
    List.any_eq_true.mpr ⟨_, second, Bool.and_eq_true_iff.mpr ⟨same', carried'⟩⟩
  have ne' : outer ≠ inner := by
    rintro rfl
    exact Bool.false_ne_true (apart.symm.trans (Value.same_refl outerKey))
  refine ⟨row, chosen, (shares_iff_lies sound mapping (pairs_eq mapping marked) ?_ chosen).mpr ?_⟩
  · exact fun pair paired bearer bears => (known.pairs mapping paired bearer bears).imp fun _ both => ⟨both.1, both.2.1⟩
  · have lies {first second : Value × List Value} (later : (first, second) ∈ laterPairs (map.bearers marker))
        (both : (holdsOne table row first && holdsOne table row second) = true) :
        ∃ pair ∈ map.labels.flatMap map.pairsOf, table.lies (Keyed.mapData Value.list pair) row = true :=
      ⟨_, List.mem_flatMap.mpr ⟨marker, listed, mem_pairsOf.mpr later⟩,
        (lies_pair sound mapping marked known chosen listed later).trans both⟩
    rcases laterPairs_of_ne left right ne' with later | later
    · exact lies later (by rw [holds, holds', Bool.and_self])
    · exact lies later (by rw [holds, holds', Bool.and_self])

theorem include_succeeds (mapping : map.IsMapping) (marked : map.IsMarked) (sound : table.Sound)
    (known : map.IsKnown table) (w : Int) {start : Matcher} (space : start.space = .whole table) (namer : Namer) :
    ∃ answer m left, (Call.includeMarkers map (.int w)).run.Gives ⟨start, namer⟩ answer ⟨m, left⟩ := by
  have each : ∀ pair ∈ map.labels.flatMap map.pairsOf, ∀ desk : Desk, desk.matcher.space = .whole table →
      ∃ answer next, (Matcher.addComposer (Matcher.restrictionOf pair) (.int w)).Gives desk answer next ∧
        next.matcher.space = .whole table := by
    intro pair paired desk space
    obtain ⟨_, _, -, bearers, -⟩ := pairs_sound mapping (pairs_eq mapping marked) paired
    obtain ⟨view, narrowed⟩ := View.subset_lists (View.sound_whole sound) bearers (known.pairs mapping paired)
    rw [← space] at narrowed
    have weighed : Weight.check (.int w) = .ok (.int w) := rfl
    obtain ⟨_, gives⟩ := Call.addComposer_puts desk weighed narrowed
    obtain ⟨answer, _, gives, last⟩ := Setup.gives_bind.mp gives
    cases last
    exact ⟨answer, _, gives, space⟩
  let desk : Desk := ⟨start, namer⟩
  obtain ⟨answers, ⟨m, left⟩, gives, -⟩ := Setup.mapM_succeeds each (show desk.matcher.space = _ from space)
  have included : (Matcher.includeMarkers map (.int w)).Gives desk (answers.filterMap id) ⟨m, left⟩ :=
    Setup.gives_bind.mpr ⟨_, _, Setup.gives_lift.mpr ⟨pairs_eq mapping marked, rfl⟩,
      Setup.gives_bind.mpr ⟨answers, _, gives, rfl⟩⟩
  exact ⟨.composers (answers.filterMap id), m, left, Setup.gives_bind.mpr ⟨_, _, included, rfl⟩⟩

/-- Of a new matcher that includes a map the tuples that share a marker are active, each with its weight as often as
there are a marker and two collections that have it. -/
theorem included (mapping : map.IsMapping) (marked : map.IsMarked) (sound : table.Sound) (known : map.IsKnown table)
    (shared : ∃ marker, ∃ outer ∈ map.bearers marker, ∃ inner ∈ map.bearers marker,
      outer.1.same inner.1 = false) {start m : Matcher} (fresh : Matcher.Configured table [] start) {w : Int}
    (configured : Matcher.Configured table [.includeMarkers map (.int w)] m) {namer left : Namer} {answer : Answer}
    (gives : (Call.includeMarkers map (.int w)).run.Gives ⟨start, namer⟩ answer ⟨m, left⟩) :
    (∀ row ∈ table.rows, table.identify row ∈ m.active ↔ map.shares table row = true) ∧
      ∀ row ∈ table.rows, ¬m.composers.isEmpty = true ∧ m.handed (table.identify row) = w * map.overlap table row := by
  obtain ⟨marker, outer, left, inner, right, apart⟩ := shared
  obtain ⟨entry, inside, some, -⟩ := mem_bearers.mp left
  obtain ⟨different, borne, -⟩ := labels_exact marked
  obtain ⟨label, listed, same⟩ := (borne marker).mpr ⟨entry, inside, some⟩
  rw [← bearers_of_same marked (different.keys label listed) same] at left right
  have some {row : List Value} (member : row ∈ table.rows) :=
    exists_shares sound mapping marked known listed left right apart member
  refine ⟨fun row member => ?_, fun row member => ⟨fun none => ?_, ?_⟩⟩
  · obtain ⟨other, inside, shares⟩ := some member
    have busy : (table.rows.any fun row => map.shares table row) = true := List.any_eq_true.mpr ⟨other, inside, shares⟩
    rw [configured.identify_mem_active sound member]
    simp [Table.isActive, Call.includes, busy]
  · obtain ⟨other, inside, shares⟩ := some member
    have idle := configured.composers_eq_nil.mp (List.isEmpty_iff.mp none) other inside
    simp [Call.includes, shares] at idle
  · obtain ⟨offered, views, offers, related, composers⟩ := Call.run_offers gives
    have pairs : offered = ((map.labels.flatMap map.pairsOf).map Matcher.restrictionOf).map (·, .int w) := by
      rw [Call.offers, pairs_eq mapping marked, ok_bind, pure_eq_ok, Except.ok.injEq] at offers
      rw [← offers, List.map_map]
      rfl
    rw [pairs, List.forall₂_map_left_iff, fresh.space] at related
    have none : start.composers = [] := fresh.composers_eq_nil.mpr fun _ _ => rfl
    rw [Matcher.handed, composers, none, List.nil_append, pairs, Matcher.sum_shares sound member w related,
      List.countP_map, ← countP_pairs sound mapping marked known member]
    rfl

end MarkerMap

namespace Bench

/-- A map regrouped by marker has each marker once, with just the collections that carry it and just their elements
that do, in the order of the map. Its pairs are, for each marker, one for any two different collections that carry it.
A new matcher of known collections that includes a map of which some marker is shared has as its active tuples just
those with elements of two collections that share a marker, and the weight of such a tuple is the weight given times
the number of ways to choose a marker and two collections whose elements in the tuple carry it. -/
theorem overlaps_accumulate {map : MarkerMap} (mapping : map.IsMapping) (marked : map.IsMarked) :
    map.byMarker = .ok (map.labels.map fun marker => (marker, map.bearers marker)) ∧
    (Value.Different map.labels ∧
      (∀ marker, (∃ label ∈ map.labels, label.same marker = true) ↔
        ∃ entry ∈ map.inTurn [], ∃ x ∈ entry.2, MarkerMap.carries marker x = true) ∧
      ∀ marker ∈ map.labels, map.bearers marker ≠ [] ∧ ∀ bearer ∈ map.bearers marker, bearer.2 ≠ []) ∧
    map.pairs = .ok (map.labels.flatMap map.pairsOf) ∧
    (∀ marker, (map.pairsOf marker).Nodup ∧
      (∀ pair ∈ map.pairsOf marker, ∃ outer ∈ map.bearers marker, ∃ inner ∈ map.bearers marker,
        outer.1.same inner.1 = false ∧ pair = [outer, inner]) ∧
      ∀ outer ∈ map.bearers marker, ∀ inner ∈ map.bearers marker, outer.1.same inner.1 = false →
        ([outer, inner] ∈ map.pairsOf marker ↔ [inner, outer] ∉ map.pairsOf marker)) ∧
    ∀ (collections : Keyed Value) (backend timeLimit : Value) (start : Matcher) (namer : Namer) (w : Int),
      collections.IsMapping → Matcher.build collections backend timeLimit = .ok start →
      map.IsKnown start.space.table →
      (∃ marker, ∃ outer ∈ map.bearers marker, ∃ inner ∈ map.bearers marker, outer.1.same inner.1 = false) →
      ∃ reply next ids, ∃ value : String → Int,
        outcome (Action.configure (.includeMarkers map (.int w))).run ⟨⟨start, namer⟩, {}⟩ = (.ok reply, next) ∧
        (outcome active next).1 = .ok ids ∧ ids.Nodup ∧
        (outcome objective next).1 = .ok (ids.map fun id => (.text id, .int (value id))) ∧
        (∀ id ∈ ids, ∃ row ∈ start.space.table.rows, start.space.encode (.tuple row) = .ok id) ∧
        ∀ row ∈ start.space.table.rows, ∀ id, start.space.encode (.tuple row) = .ok id →
          (id ∈ ids ↔ map.shares start.space.table row = true) ∧
          (id ∈ ids → value id = w * map.overlap start.space.table row) := by
  refine ⟨MarkerMap.byMarker_eq mapping marked, MarkerMap.labels_exact marked, MarkerMap.pairs_eq mapping marked,
    MarkerMap.pairsOf_exact mapping, fun collections backend timeLimit start namer w listed built known shared => ?_⟩
  obtain ⟨table, sound, -, fresh⟩ := Matcher.configured_of_build listed built
  have space : start.space.table = table := congrArg View.table fresh.space
  rw [space] at known ⊢
  obtain ⟨answer, m, left, gives⟩ := map.include_succeeds mapping marked sound known w fresh.space namer
  obtain ⟨notes, succeeded, coherent⟩ := Action.succeeds_of_gives (coherent_fresh ⟨start, namer⟩) gives
  have run : Matcher.Run start [.includeMarkers map (.int w)] m := .call .start gives
  have configured := run.configured sound fresh (by simpa [Call.IsRule] using mapping)
  have reached : Reached start [.configure (.includeMarkers map (.int w))] ⟨⟨m, left⟩, notes⟩ := by
    have before : Reached start [] ⟨⟨start, namer⟩, {}⟩ := .start namer
    have acted := before.act (.configure (.includeMarkers map (.int w)))
    rwa [succeeded] at acted
  obtain ⟨_, sound', -, stands⟩ := reached.stands listed built
  have whole : ∀ composer ∈ m.composers, Weight.IsWhole composer.weight := by
    intro composer member
    obtain ⟨-, call, single, weighed⟩ := configured.weights composer member
    rw [List.mem_singleton.mp single] at weighed
    rw [← Option.some.inj weighed]
    exact Weight.isWhole_int w
  obtain ⟨shares, weights⟩ := map.included mapping marked sound known shared fresh configured gives
  refine ⟨_, _, m.active, _, succeeded, active_tells.answers coherent, stands.nodup_active sound',
    (objective_tells.answers coherent).trans (stands.objective_eq sound' whole), fun id held => ?_,
    fun row member id encodes => ?_⟩
  · obtain ⟨row, member, -, equal⟩ := (configured.mem_active sound).mp held
    exact ⟨row, member, fresh.space ▸ (Matcher.encode_whole_row sound member).mpr equal⟩
  · rw [fresh.space, Matcher.encode_whole_row sound member] at encodes
    obtain ⟨some, handed⟩ := weights row member
    rw [← encodes, if_neg some]
    exact ⟨shares row member, fun _ => handed⟩

/-- Two elements that share two markers. -/
theorem overlaps_accumulate_of_two : ∃ start reply next ids, ∃ value : String → Int,
    let map : MarkerMap := [(.text "a", [(.text "x", .list [.int 1, .int 2])]),
      (.text "b", [(.text "y", .list [.int 2, .int 1])])]
    Matcher.build [(.text "a", .list [.text "x"]), (.text "b", .list [.text "y"])] .null .null = .ok start ∧
    outcome (Action.configure (.includeMarkers map (.int 3))).run ⟨⟨start, {}⟩, {}⟩ = (.ok reply, next) ∧
    (outcome active next).1 = .ok ids ∧
    (outcome objective next).1 = .ok (ids.map fun id => (.text id, .int (value id))) ∧
    ∀ row ∈ start.space.table.rows, ∀ id, start.space.encode (.tuple row) = .ok id →
      (id ∈ ids ↔ map.shares start.space.table row = true) ∧
      (id ∈ ids → value id = 3 * map.overlap start.space.table row) := by
  let map : MarkerMap := [(.text "a", [(.text "x", .list [.int 1, .int 2])]),
    (.text "b", [(.text "y", .list [.int 2, .int 1])])]
  let collections : Keyed Value := [(.text "a", .list [.text "x"]), (.text "b", .list [.text "y"])]
  have listed : collections.IsMapping := ⟨by decide, by decide⟩
  have mapping : map.IsMapping := by
    refine ⟨⟨by decide, by decide⟩, fun entry member => ?_⟩
    rcases List.mem_pair.mp member with rfl | rfl <;> exact ⟨by decide, by decide⟩
  have marked : map.IsMarked := by
    intro entry member x held
    rcases List.mem_pair.mp member with rfl | rfl <;> obtain rfl := List.mem_singleton.mp held
    · exact ⟨[.int 1, .int 2], rfl, by decide⟩
    · exact ⟨[.int 2, .int 1], rfl, by decide⟩
  have different : ∀ given ∈ collections.inTurn [], ∃ items, given.2.items = .ok items ∧ Value.Different items := by
    intro given member
    rcases List.mem_pair.mp member with rfl | rfl
    · exact ⟨[.text "x"], rfl, by decide, by decide⟩
    · exact ⟨[.text "y"], rfl, by decide, by decide⟩
  obtain ⟨start, built⟩ := Matcher.build_succeeds .null .null different
  obtain ⟨table, -, given, fresh⟩ := Matcher.configured_of_build listed built
  have holds {name e : Value} (key : name.same name = true) (self : e.same e = true)
      (member : (name, .list [e]) ∈ collections) :
      ∃ collection ∈ start.space.table.collections, collection.1.same name = true ∧
        ∀ other ∈ [e], Table.holds collection other = true := by
    obtain ⟨collection, inside, equal, elements⟩ := exists_of_mem_right given.flip member
    rw [congrArg View.table fresh.space]
    refine ⟨collection, inside, equal ▸ key, List.forall_mem_singleton.mpr ?_⟩
    rw [Table.holds, ← Except.ok.inj elements]
    simp [self]
  have known : map.IsKnown start.space.table := by
    intro entry member
    rcases List.mem_pair.mp member with rfl | rfl
    · exact holds rfl rfl List.mem_cons_self
    · exact holds rfl rfl (List.mem_cons_of_mem _ List.mem_cons_self)
  have shared : ∃ marker, ∃ outer ∈ map.bearers marker, ∃ inner ∈ map.bearers marker, outer.1.same inner.1 = false :=
    ⟨.int 1, _, List.mem_cons_self, _, List.mem_cons_of_mem _ List.mem_cons_self, rfl⟩
  obtain ⟨-, -, -, -, includes⟩ := overlaps_accumulate mapping marked
  obtain ⟨reply, next, ids, value, succeeded, active, -, objective, -, rows⟩ :=
    includes _ .null .null start {} 3 listed built known shared
  exact ⟨start, reply, next, ids, value, built, succeeded, active, objective, rows⟩

end Bench

end Matchmaking
