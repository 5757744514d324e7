import CausalWeave.Atom

namespace CausalWeave

private theorem transCmp_descending [Ord β] [Std.TransOrd β] (measure : α → β) :
    Std.TransCmp fun first second => compare (measure second) (measure first) where
  eq_swap := Std.OrientedOrd.eq_swap
  isLE_trans earlier later := Std.TransOrd.isLE_trans later earlier

instance : Std.TransOrd Weight :=
  have := transCmp_descending Weight.priority
  have := transCmp_descending Weight.timestamp
  inferInstanceAs (Std.TransCmp (compareLex
    (compareLex (fun first second : Weight => compare second.priority first.priority)
      fun first second : Weight => compare second.timestamp first.timestamp)
    (compareOn fun weight : Weight => weight.site.name)))

instance : Std.LawfulEqOrd Weight where
  eq_of_compare {first second} same := by
    have lexicographic : ((compare second.priority first.priority).then
        (compare second.timestamp first.timestamp)).then
          (compare first.site.name second.site.name) = .eq := same
    rw [Ordering.then_eq_eq, Ordering.then_eq_eq] at lexicographic
    obtain ⟨⟨priority, timestamp⟩, name⟩ := lexicographic
    obtain ⟨_, _, ⟨_⟩⟩ := first
    obtain ⟨_, _, ⟨_⟩⟩ := second
    simp only [Std.LawfulEqOrd.compare_eq_iff_eq] at priority timestamp name
    simp [priority, timestamp, name]

namespace AtomId

theorem weight_injective {first second : AtomId} (same : first.weight = second.weight) :
    first = second := by
  obtain ⟨_, _, _⟩ := first
  obtain ⟨_, _, _⟩ := second
  simp_all [weight]

theorem siblingOrder_trans {first second third : AtomId} (earlier : first.siblingOrder second = .lt)
    (later : second.siblingOrder third = .lt) : first.siblingOrder third = .lt :=
  @Std.TransCmp.lt_trans Weight compare _ _ _ _ earlier later

theorem siblingOrder_self (id : AtomId) : id.siblingOrder id = .eq :=
  Std.ReflOrd.compare_self

theorem eq_of_siblingOrder {first second : AtomId} (same : first.siblingOrder second = .eq) :
    first = second :=
  weight_injective (Std.LawfulEqOrd.eq_of_compare same)

theorem siblingOrder_swap (first second : AtomId) :
    second.siblingOrder first = (first.siblingOrder second).swap :=
  Std.OrientedOrd.eq_swap

end AtomId

namespace Atom

/-- Whether the first of two siblings is placed before the second. -/
def Precedes (first second : Atom) : Prop :=
  first.id.siblingOrder second.id = .lt

theorem Precedes.irrefl (atom : Atom) : ¬ atom.Precedes atom := by
  simp [Precedes, AtomId.siblingOrder_self]

theorem Precedes.trans {first second third : Atom} (earlier : first.Precedes second)
    (later : second.Precedes third) : first.Precedes third :=
  AtomId.siblingOrder_trans earlier later

theorem Precedes.asymm {first second : Atom} (precedes : first.Precedes second) :
    ¬ second.Precedes first :=
  fun back => Precedes.irrefl first (precedes.trans back)

/-- Of two atoms with different ids one precedes the other. -/
theorem precedes_of_not {first second : Atom} (different : first.id ≠ second.id)
    (refused : ¬ first.Precedes second) : second.Precedes first := by
  have swapped := AtomId.siblingOrder_swap first.id second.id
  cases order : first.id.siblingOrder second.id with
  | lt => exact absurd order refused
  | eq => exact absurd (AtomId.eq_of_siblingOrder order) different
  | gt => simpa [Precedes, order] using swapped

end Atom
end CausalWeave
