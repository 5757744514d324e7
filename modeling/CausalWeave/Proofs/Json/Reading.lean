import CausalWeave.Json.Tree
import CausalWeave.Proofs.Json.Contents

namespace CausalWeave.Json

theorem mem_of_mem_setField {name : String} {value : α} {fields : List (String × α)}
    {field : String × α} (member : field ∈ setField name value fields) :
    field = (name, value) ∨ field ∈ fields := by
  induction fields with
  | nil => simpa [setField] using member
  | cons first rest ih =>
    rw [setField] at member
    split at member
    · simpa using member
    · rcases List.mem_cons.mp member with here | later
      · exact .inl here
      · exact .inr (List.mem_cons_of_mem _ later)
    · rcases List.mem_cons.mp member with here | later
      · exact .inr (here ▸ List.mem_cons_self)
      · exact (ih later).imp_right (List.mem_cons_of_mem _)

theorem ascending_setField (name : String) (value : α) {fields : List (String × α)}
    (ascending : Ascending fields) : Ascending (setField name value fields) := by
  induction fields with
  | nil => exact List.pairwise_singleton _ _
  | cons first rest ih =>
    obtain ⟨before, ordered⟩ := List.pairwise_cons.mp ascending
    rw [setField]
    split
    · rename_i less
      refine List.pairwise_cons.mpr ⟨?_, ascending⟩
      intro other member
      rcases List.mem_cons.mp member with here | later
      · exact here ▸ less
      · exact Std.TransCmp.lt_trans less (before other later)
    · rename_i equal
      have same : name = first.1 := Std.LawfulEqCmp.eq_of_compare equal
      exact List.pairwise_cons.mpr ⟨fun other later => same ▸ before other later, ordered⟩
    · rename_i greater
      refine List.pairwise_cons.mpr ⟨?_, ih ordered⟩
      intro other member
      rcases mem_of_mem_setField member with rfl | later
      · exact Std.OrientedCmp.gt_iff_lt.mp greater
      · exact before other later

/-- Fields that were sorted are fields from before, with no name twice. -/
theorem sortFields_sound (fields : List (String × α)) :
    Ascending (sortFields fields) ∧ ∀ field ∈ sortFields fields, field ∈ fields := by
  unfold sortFields
  induction fields using List.reverseRecOn with
  | nil => exact ⟨.nil, by simp⟩
  | append_singleton earlier field ih =>
    obtain ⟨ascending, drawn⟩ := ih
    rw [List.foldl_append]
    refine ⟨ascending_setField _ _ ascending, ?_⟩
    intro other member
    rcases mem_of_mem_setField member with here | before
    · simp [here]
    · exact List.mem_append_left _ (drawn other before)

theorem itemsDepth_le_iff {items : List Json} {levels : Nat} :
    itemsDepth items ≤ levels ↔ ∀ item ∈ items, item.depth ≤ levels := by
  induction items with
  | nil => simp [itemsDepth]
  | cons value rest ih => simp only [itemsDepth, Nat.max_le, ih, List.forall_mem_cons]

theorem fieldsDepth_le_iff {fields : List (String × Json)} {levels : Nat} :
    fieldsDepth fields ≤ levels ↔ ∀ field ∈ fields, field.2.depth ≤ levels := by
  induction fields with
  | nil => simp [fieldsDepth]
  | cons field rest ih => simp only [fieldsDepth, Nat.max_le, ih, List.forall_mem_cons]

/-- What is read of a list is read of one of its items. -/
theorem exists_of_mem_mapM {read : α → Option β} {items : List α} {values : List β}
    (all : items.mapM read = some values) : ∀ value ∈ values, ∃ item ∈ items, read item = some value := by
  induction items generalizing values with
  | nil =>
    obtain rfl : [] = values := by simpa using all
    simp
  | cons item rest ih =>
    simp only [List.mapM_cons, bind, Option.bind_eq_some_iff, pure, Option.some.injEq] at all
    obtain ⟨first, here, others, later, rfl⟩ := all
    intro value member
    rcases List.mem_cons.mp member with rfl | further
    · exact ⟨item, List.mem_cons_self, here⟩
    · obtain ⟨source, present, found⟩ := ih later value further
      exact ⟨source, List.mem_cons_of_mem _ present, found⟩

/-- A value as one that was read within some levels. -/
structure Readable (levels : Nat) (value : Json) : Prop where
  wellFormed : value.WellFormed
  shallow : value.depth ≤ levels

theorem Readable.array {items : List Json} (each : ∀ item ∈ items, Readable levels item) :
    Readable (levels + 1) (.array items) where
  wellFormed := wellFormed_array.mpr fun item member => (each item member).wellFormed
  shallow := by
    rw [depth, Nat.add_le_add_iff_right, itemsDepth_le_iff]
    exact fun item member => (each item member).shallow

theorem Readable.object {fields : List (String × Json)} (ascending : Ascending fields)
    (each : ∀ field ∈ fields, Readable levels field.2) : Readable (levels + 1) (.object fields) where
  wellFormed := wellFormed_object.mpr ⟨ascending, fun field member => (each field member).wellFormed⟩
  shallow := by
    rw [depth, Nat.add_le_add_iff_right, fieldsDepth_le_iff]
    exact fun field member => (each field member).shallow

theorem readable_of_ofNumeral? {numeral : Numeral} {value : Json}
    (read : ofNumeral? numeral = some value) (levels : Nat) : Readable levels value := by
  have double : numeral.double?.map double = some value → Readable levels value := by
    intro found
    obtain ⟨number, _, rfl⟩ := Option.map_eq_some_iff.mp found
    exact ⟨rfl, Nat.zero_le _⟩
  unfold ofNumeral? at read
  split at read
  · rename_i number _
    by_cases fits : isWhole number = true
    · rw [if_pos fits, Option.some.injEq] at read
      rw [← read]
      exact ⟨wellFormed_whole.mpr fits, Nat.zero_le _⟩
    · rw [if_neg fits] at read
      exact double read
  · exact double read

theorem readable_of_ofTree? : {levels : Nat} → {tree : Tree} → {value : Json} →
    ofTree? levels tree = some value → Readable levels value
  | _, .null, _, read | _, .bool _, _, read => by
    rw [ofTree?, Option.some.injEq] at read
    exact read ▸ ⟨rfl, Nat.zero_le _⟩
  | _, .number _, _, read => readable_of_ofNumeral? (by simpa [ofTree?] using read) _
  | _, .text _, _, read => by
    rw [ofTree?, Option.map_eq_some_iff] at read
    obtain ⟨content, _, rfl⟩ := read
    exact ⟨rfl, Nat.zero_le _⟩
  | 0, .array _, _, read | 0, .object _, _, read => by simp [ofTree?] at read
  | levels + 1, .array items, _, read => by
    rw [ofTree?, Option.map_eq_some_iff] at read
    obtain ⟨values, all, rfl⟩ := read
    apply Readable.array
    intro value member
    obtain ⟨item, _, found⟩ := exists_of_mem_mapM all value member
    exact readable_of_ofTree? found
  | levels + 1, .object members, _, read => by
    rw [ofTree?, Option.map_eq_some_iff] at read
    obtain ⟨fields, all, rfl⟩ := read
    obtain ⟨ascending, drawn⟩ := sortFields_sound fields
    apply Readable.object ascending
    intro field member
    obtain ⟨⟨name, tree⟩, _, found⟩ := exists_of_mem_mapM all field (drawn field member)
    simp only [bind, Option.bind_eq_some_iff, pure, Option.some.injEq] at found
    obtain ⟨_, _, value, here, rfl⟩ := found
    exact readable_of_ofTree? here

end CausalWeave.Json
