import Microcode.Listing.TagSet
import Mathlib.Data.List.Sort

namespace Microcode

/-!
What a set of version tags is, apart from its order.

The tags are sorted and distinct, so a set is determined by which tags it has.
-/

instance : Std.Irrefl tagBefore where
  irrefl tag := List.lt_irrefl (Utf8.encode tag)

instance : Std.Antisymm tagBefore where
  antisymm left _ before after :=
    absurd (tagBefore_trans before after) (List.lt_irrefl (Utf8.encode left))

namespace TagSet

/-- Sets of the same tags are equal, whatever order the tags were inserted in. -/
theorem eq_of_mem_iff {left right : TagSet}
    (same : ∀ tag, tag ∈ left.tags ↔ tag ∈ right.tags) : left = right := by
  cases left with
  | mk tags sorted =>
      cases right with
      | mk others sorted' =>
          cases sorted.eq_of_mem_iff sorted' same
          rfl

theorem ofList_eq_iff {tags : List String} {set : TagSet} :
    ofList tags = set ↔ ∀ tag, tag ∈ set.tags ↔ tag ∈ tags := by
  constructor
  · rintro rfl tag
    exact mem_ofList
  · intro same
    apply eq_of_mem_iff
    intro tag
    rw [mem_ofList, same]

theorem nodup_tags (set : TagSet) : set.tags.Nodup :=
  set.sorted.imp fun before => ne_of_irrefl before

theorem contains_of_subset {fewer more : TagSet} (subset : fewer.tags ⊆ more.tags)
    {octets : Bytes} (listed : fewer.contains octets) : more.contains octets := by
  rcases contains_iff.mp listed with ⟨tag, member, encoded⟩
  exact contains_iff.mpr ⟨tag, subset member, encoded⟩

end TagSet

end Microcode
