import Mathlib.Algebra.Ring.Int.Defs
import Mathlib.Data.List.Chain
import Mathlib.Data.List.Range
import Matchmaking.Proofs.Constraint.Keeping
import Matchmaking.Proofs.Space.Product

/-! The odometer runs through the product of its axes in ascending order. Its rows of positions are those of the
product, each turned into the next, and from the last one there is nothing to turn. So it ends by itself, however many
rows are asked for, and the tuples picked at its rows are the tuples of the product. -/
namespace Matchmaking

variable {α β : Type}

namespace Odometer

def rowsBelow (sizes : List Nat) : List (List Nat) := choices (sizes.map List.range)

def wholes (sizes : List Nat) : List Number := sizes.map fun (size : Nat) => .whole size

variable {sizes : List Nat} {size place : Nat} {row turned : List Nat}

theorem rowsBelow_cons (size : Nat) (sizes : List Nat) :
    rowsBelow (size :: sizes) = ((List.range size).map fun place => (rowsBelow sizes).map (place :: ·)).flatten :=
  List.flatMap_def ..

theorem mem_rowsBelow : row ∈ rowsBelow sizes ↔ List.Forall₂ (· < ·) row sizes := by
  simp [rowsBelow, mem_choices]

theorem length_rowsBelow (sizes : List Nat) : (rowsBelow sizes).length = sizes.prod := by
  simp [rowsBelow, length_choices, Function.comp_def]

theorem rowsBelow_ascending (sizes : List Nat) : (rowsBelow sizes).Pairwise (· < ·) := by
  induction sizes with
  | nil => exact List.pairwise_singleton _ _
  | cons size sizes ih =>
    apply List.pairwise_flatMap.mpr
    constructor
    · intro place _
      apply List.pairwise_map.mpr
      exact ih.imp fun less => List.cons_lt_cons_iff.mpr (.inr ⟨rfl, less⟩)
    · apply List.pairwise_lt_range.imp
      intro place later less first listed second listed'
      obtain ⟨row, -, rfl⟩ := List.mem_map.mp listed
      obtain ⟨row', -, rfl⟩ := List.mem_map.mp listed'
      exact List.cons_lt_cons_iff.mpr (.inl less)

theorem next?_inner (turns : next? (wholes sizes) row = some turned) :
    next? (wholes (size :: sizes)) (place :: row) = some (place :: turned) := by
  simp only [wholes, List.map_cons, next?] at turns ⊢
  simp [turns]

theorem next?_carry (stuck : next? (wholes sizes) row = none) (more : place + 1 < size) :
    next? (wholes (size :: sizes)) (place :: row) = some ((place + 1) :: row.map fun _ => 0) := by
  simp only [wholes, List.map_cons, next?] at stuck ⊢
  simp [stuck]
  omega

theorem next?_last (open_ : ∀ size ∈ sizes, 0 < size) : next? (wholes sizes) (sizes.map (· - 1)) = none := by
  induction sizes with
  | nil => rfl
  | cons size sizes ih =>
    obtain ⟨own, others⟩ := List.forall_mem_cons.mp open_
    have stuck := ih others
    simp only [wholes, List.map_cons, next?] at stuck ⊢
    simp [stuck]
    omega

theorem head?_rowsBelow (open_ : ∀ size ∈ sizes, 0 < size) :
    (rowsBelow sizes).head? = some (sizes.map fun _ => 0) := by
  induction sizes with
  | nil => rfl
  | cons size sizes ih =>
    obtain ⟨own, others⟩ := List.forall_mem_cons.mp open_
    obtain ⟨count, rfl⟩ := Nat.exists_eq_succ_of_ne_zero (Nat.ne_of_gt own)
    simp [rowsBelow_cons, List.range_succ_eq_map, List.head?_append, ih others]

theorem getLast?_rowsBelow (open_ : ∀ size ∈ sizes, 0 < size) :
    (rowsBelow sizes).getLast? = some (sizes.map (· - 1)) := by
  induction sizes with
  | nil => rfl
  | cons size sizes ih =>
    obtain ⟨own, others⟩ := List.forall_mem_cons.mp open_
    obtain ⟨count, rfl⟩ := Nat.exists_eq_succ_of_ne_zero (Nat.ne_of_gt own)
    simp [rowsBelow_cons, List.range_succ, List.getLast?_append, ih others]

theorem chain_rowsBelow (open_ : ∀ size ∈ sizes, 0 < size) :
    (rowsBelow sizes).IsChain fun row turned => next? (wholes sizes) row = some turned := by
  induction sizes with
  | nil => exact List.isChain_singleton _
  | cons size sizes ih =>
    obtain ⟨own, others⟩ := List.forall_mem_cons.mp open_
    have first := head?_rowsBelow others
    have last := getLast?_rowsBelow others
    rw [rowsBelow_cons]
    apply (List.isChain_flatten ?_).mpr
    · constructor
      · intro block listed
        obtain ⟨place, -, rfl⟩ := List.mem_map.mp listed
        apply (List.isChain_map _).mpr
        exact (ih others).imp fun row turned => next?_inner
      · apply (List.isChain_map _).mpr
        apply (List.isChain_range _ _).mpr
        intro place inside row ends turned starts
        simp only [List.getLast?_map, last, Option.map_some, Option.mem_def, Option.some.injEq] at ends
        simp only [List.head?_map, first, Option.map_some, Option.mem_def, Option.some.injEq] at starts
        subst ends starts
        have carried : next? (wholes (size :: sizes)) (place :: sizes.map (· - 1)) = _ :=
          next?_carry (next?_last others) (by omega)
        simpa [Function.comp_def] using carried
    · intro none
      obtain ⟨place, -, empty⟩ := List.mem_map.mp none
      rw [List.map_eq_nil_iff.mp empty] at first
      cases first

theorem walk_chain {sizes : List Number} {rows : List (List Nat)} {row : List Nat}
    (chain : (row :: rows).IsChain fun row turned => next? sizes row = some turned)
    (last : ∀ final ∈ (row :: rows).getLast?, next? sizes final = none) (limit : Nat) :
    walk sizes limit row = (row :: rows).take limit := by
  induction rows generalizing row limit with
  | nil =>
    have stuck := last row rfl
    cases limit with
    | zero => rfl
    | succ limit => simp [walk, stuck]
  | cons turned rows ih =>
    obtain ⟨first, rest⟩ := List.isChain_cons_cons.mp chain
    cases limit with
    | zero => rfl
    | succ limit =>
      have behind := ih rest (by simpa using last) limit
      simp [walk, first, behind]

/-- From the first row on the odometer comes upon all rows, and upon no more of them however many are asked for. -/
theorem walk_rowsBelow (open_ : ∀ size ∈ sizes, 0 < size) (limit : Nat) :
    walk (wholes sizes) limit (sizes.map fun _ => 0) = (rowsBelow sizes).take limit := by
  have chain := chain_rowsBelow open_
  have first := head?_rowsBelow open_
  have last := getLast?_rowsBelow open_
  obtain ⟨rows, shape⟩ := List.head?_eq_some_iff.mp first
  rw [shape] at chain last ⊢
  apply walk_chain chain
  intro final ends
  rw [last] at ends
  cases ends
  exact next?_last open_

/-- All rows of positions for axes of the given sizes. There are none without axes or if an axis has no room. -/
def positions (sizes : List Int) : List (List Nat) := tuples (sizes.map fun size => List.range size.toNat)

variable {extents : List Int}

theorem positions_eq (some : extents ≠ []) : positions extents = rowsBelow (extents.map Int.toNat) := by
  rw [positions, tuples_eq_choices (by simpa using some), rowsBelow, List.map_map]
  rfl

theorem positions_closed (closed : extents = [] ∨ ∃ extent ∈ extents, extent ≤ 0) : positions extents = [] := by
  rcases closed with rfl | ⟨extent, listed, below⟩
  · rfl
  · rw [positions, tuples_eq_choices (by simpa using List.ne_nil_of_mem listed)]
    apply choices_eq_nil
    apply List.any_eq_true.mpr
    exact ⟨_, List.mem_map_of_mem listed, by simpa using below⟩

theorem mem_positions (some : extents ≠ []) :
    row ∈ positions extents ↔ List.Forall₂ (fun (place : Nat) extent => (place : Int) < extent) row extents := by
  simp [positions_eq some, mem_rowsBelow]

theorem positions_ascending (extents : List Int) : (positions extents).Pairwise (· < ·) := by
  by_cases some : extents = []
  · subst some
    exact .nil
  · rw [positions_eq some]
    exact rowsBelow_ascending _

theorem length_positions (some : extents ≠ []) (open_ : ∀ extent ∈ extents, 0 < extent) :
    ((positions extents).length : Int) = extents.prod := by
  rw [positions_eq some, length_rowsBelow]
  clear some
  induction extents with
  | nil => rfl
  | cons extent extents ih =>
    obtain ⟨own, others⟩ := List.forall_mem_cons.mp open_
    rw [List.map_cons, List.prod_cons, List.prod_cons, Int.natCast_mul, ih others,
      Int.toNat_of_nonneg (Int.le_of_lt own)]

/-- A run comes upon all rows one after the other, as far as it is let go on. -/
theorem run_eq (extents : List Int) (limit : Nat) : run limit (extents.map .whole) = (positions extents).take limit := by
  unfold run
  by_cases closed : extents = [] ∨ ∃ extent ∈ extents, extent ≤ 0
  · rw [if_pos (by simpa [isClosed] using closed), positions_closed closed]
    exact List.take_nil.symm
  · have none := closed
    simp only [not_or, not_exists, not_and, Int.not_le] at none
    obtain ⟨some, open_⟩ := none
    have sizes : extents.map Number.whole = wholes (extents.map Int.toNat) := by
      simp only [wholes, List.map_map]
      apply List.map_congr_left
      intro extent listed
      simp [Int.max_eq_left (Int.le_of_lt (open_ extent listed))]
    have room : ∀ size ∈ extents.map Int.toNat, 0 < size := by simpa using open_
    have walked := walk_rowsBelow room limit
    rw [if_neg (by simpa [isClosed] using closed), positions_eq some, ← walked, ← sizes]
    simp [Function.comp_def]

/-- Whole sizes are read as they are, at least up to the first at which nothing is counted. -/
theorem readSizes_whole {items : List Value} (whole : items.mapM Value.number = .ok (extents.map .whole)) :
    ∃ read, readSizes items = .ok read ∧ ∀ limit, run limit read = run limit (extents.map .whole) := by
  have known : ∃ read, readSizes items = .ok read ∧ (read = extents.map .whole ∨
      read.any isClosed = true ∧ (extents.map Number.whole).any isClosed = true) := by
    have related := List.forall₂_map_right_iff.mp (mapM_eq_ok.mp whole)
    clear whole
    induction related with
    | nil => exact ⟨[], rfl, .inl rfl⟩
    | @cons v extent items extents first _ ih =>
      obtain ⟨read, others, same⟩ := ih
      by_cases closed : isClosed (.whole extent) = true
      · exact ⟨[.whole extent], by simp [readSizes, first, closed], .inr (by simp [closed])⟩
      · refine ⟨.whole extent :: read, by simp [readSizes, first, closed, others], ?_⟩
        rcases same with rfl | ⟨ends, ends'⟩
        · exact .inl rfl
        · exact .inr (by simp [ends, ends'])
  obtain ⟨read, found, rfl | ⟨ends, ends'⟩⟩ := known
  · exact ⟨_, found, fun _ => rfl⟩
  · exact ⟨read, found, fun limit => by simp [run, ends, ends']⟩

theorem ofSizes_whole {given : Value} {items : List Value} (listed : given.items = .ok items)
    (whole : items.mapM Value.number = .ok (extents.map .whole)) (limit : Nat) :
    ofSizes limit given = .ok ((positions extents).take limit) := by
  obtain ⟨read, found, same⟩ := readSizes_whole whole
  cases limit with
  | zero => rfl
  | succ limit => simp [ofSizes, listed, found, same, run_eq]

theorem flatMap_places (items : List α) (f : α → List β) :
    items.flatMap f = (List.range items.length).flatMap fun place => items[place]?.toList.flatMap f := by
  induction items with
  | nil => rfl
  | cons item items ih => simp [List.range_succ_eq_map, List.flatMap_map, ih]

theorem pick_cons {axis : List α} {item : α} (found : axis[place]? = some item) (axes : List (Array α)) (row : List Nat) :
    pick (axis.toArray :: axes) (place :: row) = item :: pick axes row := by
  simp [pick, found]

/-- The tuples of a product are picked at the rows below the lengths of its axes. -/
theorem map_pick (axes : List (List α)) :
    (rowsBelow (axes.map List.length)).map (pick (axes.map List.toArray)) = choices axes := by
  induction axes with
  | nil => rfl
  | cons axis axes ih =>
    rw [choices, flatMap_places]
    simp only [rowsBelow, List.map_cons, choices, List.map_flatMap, List.map_map] at ih ⊢
    apply List.flatMap_congr
    intro place inside
    have found := List.getElem?_eq_getElem (List.mem_range.mp inside)
    simp [found, ← ih, pick_cons found]

theorem pick_items {axes : List (List α)} (inside : row ∈ rowsBelow (axes.map List.length)) :
    (pick (axes.map List.toArray) row).map some = List.zipWith (fun axis place => axis[place]?) axes row := by
  have related := List.forall₂_map_right_iff.mp (mem_rowsBelow.mp inside)
  clear inside
  induction related with
  | nil => rfl
  | cons below _ ih =>
    have found := List.getElem?_eq_getElem below
    simp [pick_cons found, found, ih]

theorem positions_picked (axes : List (List α)) :
    (positions (axes.map fun axis => axis.length)).map (pick (axes.map List.toArray)) = tuples axes := by
  by_cases some : axes = []
  · subst some
    rfl
  · rw [positions_eq (by simpa using some), tuples_eq_choices some, ← map_pick]
    simp [Function.comp_def]

theorem forall₂_positions (axes : List (List α)) :
    List.Forall₂ (fun row tuple => tuple.map some = List.zipWith (fun axis place => axis[place]?) axes row)
      (positions (axes.map fun axis => axis.length)) (tuples axes) := by
  rw [← positions_picked axes]
  apply List.forall₂_map_right_iff.mpr
  apply List.forall₂_same.mpr
  intro row member
  have some : axes ≠ [] := by
    rintro rfl
    cases member
  apply pick_items
  simpa [positions_eq, some, Function.comp_def] using member

theorem numbers_lengths (axes : List (List α)) : (axes.map fun axis => Value.int axis.length).mapM Value.number =
    .ok ((axes.map fun axis => (axis.length : Int)).map .whole) := by
  apply mapM_eq_ok.mpr
  simp [Value.number, Value.number?, Value.orWrongKind, List.forall₂_same]

theorem tuplesOf_lists {lists : Value} {axes : List (List Value)} (read : lists.rows = .ok axes)
    (limit : Nat) : tuplesOf limit lists = .ok ((tuples axes).take limit) := by
  have sizes : (axes.map List.toArray).map (fun axis => Number.whole axis.size) =
      (axes.map fun axis => (axis.length : Int)).map .whole := by
    simp
  cases limit with
  | zero => rfl
  | succ limit =>
    simp only [tuplesOf, read, ok_bind, sizes, run_eq]
    rw [← positions_picked axes, List.map_take]
    rfl

/-- The odometer runs through the rows of positions below whole sizes, each once and in lexicographic order, and ends
by itself: there are as many rows as the product of the sizes, however many are asked for, and none without sizes or
if one of them leaves no room. The product of axes is run through in this order, with the items of the axes at the
positions. -/
theorem ordered_product {given lists : Value} {items : List Value} {sizes : List Int} {axes : List (List Value)}
    (listed : given.items = .ok items) (whole : items.mapM Value.number = .ok (sizes.map .whole))
    (read : lists.rows = .ok axes) :
    (sizes ≠ [] → (∀ size ∈ sizes, 0 < size) → ∃ rows : List (List Nat),
      (∀ limit, ofSizes limit given = .ok (rows.take limit)) ∧
      (∀ row, row ∈ rows ↔ List.Forall₂ (fun (place : Nat) size => (place : Int) < size) row sizes) ∧
      rows.Pairwise (· < ·) ∧ (rows.length : Int) = sizes.prod) ∧
    (sizes = [] ∨ (∃ size ∈ sizes, size ≤ 0) → ∀ limit, ofSizes limit given = .ok []) ∧
    ∃ rows : List (List Nat),
      (∀ limit, ofSizes limit (.list (axes.map fun axis => .int axis.length)) = .ok (rows.take limit)) ∧
      (∀ limit, tuplesOf limit lists = .ok ((tuples axes).take limit)) ∧
      List.Forall₂ (fun row tuple => tuple.map some = List.zipWith (fun axis place => axis[place]?) axes row)
        rows (tuples axes) := by
  have runs := ofSizes_whole listed whole
  refine ⟨fun some open_ => ?_, fun closed limit => ?_, ?_⟩
  · exact ⟨positions sizes, runs, fun row => mem_positions some, positions_ascending sizes, length_positions some open_⟩
  · rw [runs, positions_closed closed, List.take_nil]
  · exact ⟨_, ofSizes_whole rfl (numbers_lengths axes), tuplesOf_lists read, forall₂_positions axes⟩

/-- Two axes with room, an axis without, and two axes of texts. -/
theorem ordered_product_of_two :
    (∃ rows : List (List Nat), (∀ limit, ofSizes limit (.list [.int 2, .int 3]) = .ok (rows.take limit)) ∧
      [1, 2] ∈ rows ∧ rows.Pairwise (· < ·) ∧ (rows.length : Int) = 6) ∧
    (∀ limit, ofSizes limit (.list [.int 2, .int 0]) = .ok []) ∧
    ∀ limit, tuplesOf limit (.list [.list [.text "a", .text "b"], .list [.text "c"]]) =
      .ok ([[.text "a", .text "c"], [.text "b", .text "c"]].take limit) := by
  have read : (Value.list [.list [.text "a", .text "b"], .list [.text "c"]]).rows =
      .ok [[.text "a", .text "b"], [.text "c"]] := rfl
  have roomy : [Value.int 2, .int 3].mapM Value.number = .ok (([2, 3] : List Int).map .whole) := rfl
  have closed : [Value.int 2, .int 0].mapM Value.number = .ok (([2, 0] : List Int).map .whole) := rfl
  have listed (items : List Value) : (Value.list items).items = .ok items := rfl
  obtain ⟨runs, -, -, -, picks, -⟩ := ordered_product (listed _) roomy read
  obtain ⟨-, ends, -⟩ := ordered_product (listed _) closed read
  obtain ⟨rows, asked, inside, ascending, count⟩ := runs (by decide) (by decide)
  refine ⟨⟨rows, asked, (inside _).mpr ?_, ascending, count⟩, ends (.inr ⟨0, by decide, Int.le_refl 0⟩), picks⟩
  exact .cons (by decide) (.cons (by decide) .nil)

end Odometer
end Matchmaking
