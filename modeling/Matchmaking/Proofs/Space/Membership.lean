import Matchmaking.Matcher.Call
import Matchmaking.Proofs.Space.RoundTrip

/-! Which texts name a tuple of a view. Any numeral that reads as a position will do, with
leading zeros or digits of another script, so more texts are taken than are listed: just the
plain ones are, and every other one stands for the tuple of a listed identifier. -/
namespace Matchmaking

namespace View

variable {table : Table} {view : View} {row : List Int} {tuple tuple' : List Value}

theorem contains_iff {v : Value} :
    view.contains v = true ↔ ∃ row, Identifier.read v = .ok row ∧ view.covers row = true := by
  unfold contains
  split <;> simp_all

theorem contains_iff_mem_ids (sound : view.Sound) {v : Value} :
    view.contains v = true ↔
      ∃ row, Identifier.read v = .ok row ∧ Identifier.write row ∈ view.ids := by
  rw [contains_iff]
  refine exists_congr fun row => and_congr_right fun reads => ?_
  obtain ⟨present, range⟩ := Identifier.of_read reads
  rw [mem_ids]
  constructor
  · intro covered
    refine ⟨fun empty => ?_, row, covered, rfl⟩
    have related := covers_iff.mp covered
    rw [positions, empty, List.map_nil, List.forall₂_nil_right_iff] at related
    exact present related
  · rintro ⟨some, other, covered, equal⟩
    obtain ⟨tuple, placed⟩ := sound.placed covered
    rwa [Identifier.write_injective present (placed.row_ne_nil sound some) (fun p member =>
      (range p member).1) placed.nonneg equal]

theorem decode_succeeds_iff (sound : view.Sound) {v : Value} :
    (∃ tuple, view.decode v = .ok tuple) ↔ view.contains v = true := by
  simp only [decode_eq_ok sound, contains_iff]
  constructor
  · rintro ⟨tuple, row, reads, covered, -⟩
    exact ⟨row, reads, covered⟩
  · rintro ⟨row, reads, covered⟩
    obtain ⟨tuple, placed⟩ := sound.placed covered
    exact ⟨tuple, row, reads, covered, placed⟩

theorem contains_plain_iff (sound : view.Sound) {s : String} :
    view.contains (.text s) = true ∧ Identifier.isPlain s = true ↔
      s ∈ view.ids ∧ ∃ row, Identifier.read (.text s) = .ok row := by
  rw [contains_iff_mem_ids sound]
  constructor
  · rintro ⟨⟨row, reads, listed⟩, plain⟩
    rw [Identifier.write_of_read reads plain] at listed
    exact ⟨listed, row, reads⟩
  · rintro ⟨listed, row, reads⟩
    obtain ⟨some, other, covered, rfl⟩ := mem_ids.mp listed
    obtain ⟨tuple, placed⟩ := sound.placed covered
    have plain := Identifier.isPlain_write (placed.row_ne_nil sound some) placed.nonneg
    exact ⟨⟨row, reads, by rwa [Identifier.write_of_read reads plain]⟩, plain⟩

theorem read_eq_of_decode (sound : view.Sound) {v v' : Value} (first : view.decode v = .ok tuple)
    (second : view.decode v' = .ok tuple') (same : Value.sameAll tuple tuple' = true) :
    Identifier.read v = Identifier.read v' := by
  obtain ⟨row, reads, -, placed⟩ := (decode_eq_ok sound).mp first
  obtain ⟨row', reads', -, placed'⟩ := (decode_eq_ok sound).mp second
  rw [reads, reads', placed.row_unique sound.table.elements placed' same
    (placed'.sameAll_refl sound.table.elements)]

end View

end Matchmaking
