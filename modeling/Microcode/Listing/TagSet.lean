import Microcode.Text.Utf8

namespace Microcode

/-!
Sets of version tags.

A set lists its tags in the order of their octets and each tag once, so two sets
with the same tags are equal.
-/

/-- Tags are ordered by their octets. -/
def tagBefore (left right : String) : Prop :=
  Utf8.encode left < Utf8.encode right

instance (left right : String) : Decidable (tagBefore left right) :=
  inferInstanceAs (Decidable (Utf8.encode left < Utf8.encode right))

theorem tagBefore_trans {first second third : String}
    (left : tagBefore first second) (right : tagBefore second third) :
    tagBefore first third :=
  List.lt_trans left right

/-- Of two different tags one comes before the other. -/
theorem tagBefore_of_ne {left right : String} (different : left ≠ right)
    (later : ¬ tagBefore left right) : tagBefore right left := by
  rcases Std.lt_trichotomy (Utf8.encode left) (Utf8.encode right) with before | same | after
  · exact absurd before later
  · exact absurd (Utf8.encode_injective same) different
  · exact after

structure TagSet where
  tags : List String
  sorted : tags.Pairwise tagBefore := by decide
  deriving DecidableEq

namespace TagSet

def empty : TagSet where
  tags := []
  sorted := List.Pairwise.nil

/-- Put a tag at its place among sorted tags, unless it is there already. -/
def place (tag : String) : List String → List String
  | [] => [tag]
  | head :: tail =>
      if tag = head then head :: tail
      else if tagBefore tag head then tag :: head :: tail
      else head :: place tag tail

theorem mem_place {tag other : String} {tags : List String} :
    other ∈ place tag tags ↔ other = tag ∨ other ∈ tags := by
  induction tags with
  | nil => simp [place]
  | cons head tail ih =>
      by_cases same : tag = head
      · simp [place, same]
      · by_cases before : tagBefore tag head
        · simp [place, same, before]
        · simp only [place, if_neg same, if_neg before, List.mem_cons, ih]
          exact or_left_comm

theorem sorted_place (tag : String) {tags : List String} (sorted : tags.Pairwise tagBefore) :
    (place tag tags).Pairwise tagBefore := by
  induction tags with
  | nil => exact List.pairwise_singleton tagBefore tag
  | cons head tail ih =>
      have parts := List.pairwise_cons.mp sorted
      by_cases same : tag = head
      · rw [place, if_pos same]
        exact sorted
      · by_cases before : tagBefore tag head
        · rw [place, if_neg same, if_pos before]
          refine List.pairwise_cons.mpr ⟨fun other member => ?_, sorted⟩
          rcases List.mem_cons.mp member with equal | member
          · exact equal ▸ before
          · exact tagBefore_trans before (parts.1 other member)
        · rw [place, if_neg same, if_neg before]
          refine List.pairwise_cons.mpr ⟨fun other member => ?_, ih parts.2⟩
          rcases mem_place.mp member with equal | member
          · exact equal ▸ tagBefore_of_ne same before
          · exact parts.1 other member

def insert (set : TagSet) (tag : String) : TagSet where
  tags := place tag set.tags
  sorted := sorted_place tag set.sorted

theorem mem_insert {set : TagSet} {tag other : String} :
    other ∈ (set.insert tag).tags ↔ other = tag ∨ other ∈ set.tags :=
  mem_place

def ofList (tags : List String) : TagSet :=
  tags.foldl insert empty

theorem mem_foldl_insert {tags : List String} {set : TagSet} {tag : String} :
    tag ∈ (tags.foldl insert set).tags ↔ tag ∈ tags ∨ tag ∈ set.tags := by
  induction tags generalizing set with
  | nil => simp
  | cons head tail ih => rw [List.foldl_cons, ih, mem_insert, List.mem_cons, or_left_comm, or_assoc]

theorem mem_ofList {tags : List String} {tag : String} :
    tag ∈ (ofList tags).tags ↔ tag ∈ tags := by
  rw [ofList, mem_foldl_insert, empty]
  exact or_iff_left List.not_mem_nil

/-- Whether some octets are exactly those of a tag in the set. -/
def contains (set : TagSet) (octets : Bytes) : Bool :=
  set.tags.any fun tag => Utf8.encode tag == octets

theorem contains_iff {set : TagSet} {octets : Bytes} :
    set.contains octets ↔ ∃ tag ∈ set.tags, Utf8.encode tag = octets := by
  simp [contains]

/-- The versions that a listing is read for unless others are named.  Blanks stand
for a line that applies to every version. -/
def standard : TagSet :=
  ofList ["   ", "004", "005", "006", "007", "010", "014", "025", "A20"]

end TagSet

end Microcode
