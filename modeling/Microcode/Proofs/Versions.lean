import Microcode.Proofs.Decoding
import Microcode.Proofs.Reports
import Microcode.Proofs.Storage

namespace Microcode

/-!
Versions of lines, and the sets in which they are looked up.

A set has the tags that it was given, in whatever order and however often.  The version of a line
is three octets, and a set has it when they are the octets of a tag.  So tags of another length
have no influence on a line, and octets that are no text belong to no tag, even where the text
shown for them does.
-/

namespace Utf8

/-- Octets that are those of some text. -/
def WellFormed (octets : Bytes) : Prop :=
  ByteArray.IsValidUTF8 ⟨octets.toArray⟩

theorem wellFormed_encode (text : String) : WellFormed (encode text) :=
  text.isValidUTF8

theorem exists_of_wellFormed {octets : Bytes} (formed : WellFormed octets) :
    ∃ text, encode text = octets :=
  ⟨String.ofByteArray ⟨octets.toArray⟩ formed, rfl⟩

/-- Decoding loses nothing of a text, and something of any other octets. -/
theorem encode_decode_iff {octets : Bytes} :
    encode (decode octets) = octets ↔ WellFormed octets := by
  constructor
  · intro same
    exact same ▸ wellFormed_encode (decode octets)
  · intro formed
    rcases exists_of_wellFormed formed with ⟨text, rfl⟩
    rw [decode_encode]

end Utf8

namespace TagSet

/-- How a set comes about: it has some tags at the start, and further ones are inserted one at a
time.  The tags are listed in the order in which they were given. -/
inductive Given : List String → TagSet → Prop where
  | start (tags : List String) : Given tags (ofList tags)
  | insert {tags : List String} {set : TagSet} (given : Given tags set) (tag : String) :
      Given (tags ++ [tag]) (set.insert tag)

variable {tags others : List String} {set other : TagSet}

theorem Given.mem_iff (given : Given tags set) {tag : String} : tag ∈ set.tags ↔ tag ∈ tags := by
  induction given with
  | start tags => exact mem_ofList
  | insert given last ih => rw [mem_insert, ih, List.mem_append, List.mem_singleton, or_comm]

theorem Given.contains_iff (given : Given tags set) {octets : Bytes} :
    set.contains octets ↔ ∃ tag ∈ tags, Utf8.encode tag = octets := by
  rw [TagSet.contains_iff]
  simp only [given.mem_iff]

/-- The order and the repetition of tags leave no trace in a set. -/
theorem Given.eq_iff (given : Given tags set) (given' : Given others other) :
    set = other ↔ ∀ tag, tag ∈ tags ↔ tag ∈ others := by
  constructor
  · rintro rfl tag
    rw [← given.mem_iff, given'.mem_iff]
  · intro same
    apply eq_of_mem_iff
    intro tag
    rw [given.mem_iff, given'.mem_iff, same]

theorem toJson_eq_iff : set.toJson = other.toJson ↔ set = other := by
  constructor
  · intro same
    have read := ofJson?_eq_some_iff.mpr set.stored_toJson
    rw [same, ofJson?_eq_some_iff.mpr other.stored_toJson] at read
    exact (Option.some.inj read).symm
  · rintro rfl
    rfl

theorem wellFormed_of_contains {octets : Bytes} (listed : set.contains octets) :
    Utf8.WellFormed octets := by
  rcases TagSet.contains_iff.mp listed with ⟨tag, -, rfl⟩
  exact Utf8.wellFormed_encode tag

/-- Sets with the same tags of some length have the same octets of that length. -/
theorem Given.contains_congr (given : Given tags set) (given' : Given others other)
    {length : Nat}
    (same : ∀ tag, (Utf8.encode tag).length = length → (tag ∈ tags ↔ tag ∈ others))
    {octets : Bytes} (long : octets.length = length) :
    set.contains octets = other.contains octets := by
  rw [Bool.eq_iff_iff, given.contains_iff, given'.contains_iff]
  constructor
  · rintro ⟨tag, member, rfl⟩
    exact ⟨tag, (same tag long).mp member, rfl⟩
  · rintro ⟨tag, member, rfl⟩
    exact ⟨tag, (same tag long).mpr member, rfl⟩

end TagSet

namespace Line

/-- Once the separators are in order, a line is passed over for its version alone. -/
theorem exists_unlisted_iff (accepted : TagSet) (strictness : Strictness) {line : Bytes}
    (blanks : ∀ column ∈ Column.separators, (dropReturn line)[column]? = some Octet.blank) :
    (∃ tag, classify accepted strictness line = .ok (.unlisted tag)) ↔
      ¬ accepted.contains (paddedTag line) := by
  constructor
  · rintro ⟨tag, found⟩
    rcases classify_eq_unlisted_iff.mp found with ⟨record, octets, missing, -⟩
    rwa [version_eq_paddedTag octets] at missing
  · intro missing
    have octets : (⟨dropReturn line, blanks⟩ : Record).octets = dropReturn line := rfl
    rw [← version_eq_paddedTag octets] at missing
    exact ⟨_, classify_eq_unlisted_iff.mpr ⟨_, octets, missing, rfl⟩⟩

/-- Sets that have the same octets of the length of a version read every line alike. -/
theorem classify_congr_contains {accepted others : TagSet}
    (same : ∀ octets : Bytes, octets.length = 3 →
      accepted.contains octets = others.contains octets)
    (strictness : Strictness) (line : Bytes) :
    classify accepted strictness line = classify others strictness line := by
  rcases comment_or_record_or_neither line with opens | ⟨record, octets⟩ | ⟨opens, filled⟩
  · rw [classify_of_hash accepted strictness opens, classify_of_hash others strictness opens]
  · have version : record.version.length = 3 := by
      rw [version_eq_paddedTag octets]
      rfl
    rw [classify_of_record accepted strictness octets, classify_of_record others strictness octets,
      same record.version version]
  · rw [classify_of_not_blank accepted strictness opens filled,
      classify_of_not_blank others strictness opens filled]

/-- A set has exactly the octets of the tags that it was given, and it is written as the sorted
list of these.  A line with its separators in order, which is no comment then, is passed over when
the octets of its version are not those of a tag; in particular when they are no text.  A version
that is text is shown as it is.  So nothing but the tags of three octets has an influence on a
line. -/
theorem versions_matched_exactly :
    (∀ tags set, TagSet.Given tags set →
      (∀ octets, set.contains octets ↔ ∃ tag ∈ tags, Utf8.encode tag = octets) ∧
      (∀ octets, ¬ Utf8.WellFormed octets → ¬ set.contains octets) ∧
      ∃ listed : List String,
        set.toJson = .object [("tags", .array (listed.map .string))] ∧
        listed.Pairwise (fun left right => Utf8.encode left < Utf8.encode right) ∧
        listed.Nodup ∧ ∀ tag, tag ∈ listed ↔ tag ∈ tags) ∧
    (∀ tags set others other, TagSet.Given tags set → TagSet.Given others other →
      (set = other ↔ ∀ tag, tag ∈ tags ↔ tag ∈ others) ∧
      (set.toJson = other.toJson ↔ ∀ tag, tag ∈ tags ↔ tag ∈ others)) ∧
    (∀ tags set, TagSet.Given tags set → ∀ strictness line,
      (∀ column ∈ Column.separators, (dropReturn line)[column]? = some Octet.blank) →
      ((∃ tag, classify set strictness line = .ok (.unlisted tag)) ↔
        ¬ ∃ tag ∈ tags, Utf8.encode tag = paddedTag line) ∧
      (¬ Utf8.WellFormed (paddedTag line) →
        classify set strictness line = .ok (.unlisted (Utf8.decode (paddedTag line)))) ∧
      (Utf8.WellFormed (paddedTag line) →
        ∀ tag, classify set strictness line = .ok (.unlisted tag) →
          Utf8.encode tag = paddedTag line)) ∧
    (∀ tags set others other, TagSet.Given tags set → TagSet.Given others other →
      (∀ tag, (Utf8.encode tag).length = 3 → (tag ∈ tags ↔ tag ∈ others)) →
      ∀ strictness line, classify set strictness line = classify other strictness line) := by
  refine ⟨?_, ?_, ?_, ?_⟩
  · intro tags set given
    refine ⟨fun _ => given.contains_iff, ?_, set.tags, rfl, set.sorted, set.nodup_tags,
      fun _ => given.mem_iff⟩
    intro octets foreign listed
    exact foreign (TagSet.wellFormed_of_contains listed)
  · intro tags set others other given given'
    have same := given.eq_iff given'
    exact ⟨same, TagSet.toJson_eq_iff.trans same⟩
  · intro tags set given strictness line blanks
    have passed := exists_unlisted_iff set strictness blanks
    refine ⟨?_, ?_, ?_⟩
    · rw [passed, given.contains_iff]
    · intro foreign
      have missing : ¬ set.contains (paddedTag line) :=
        fun listed => foreign (TagSet.wellFormed_of_contains listed)
      rcases passed.mpr missing with ⟨tag, found⟩
      rw [found, tag_of_unlisted found]
    · intro formed tag found
      rw [tag_of_unlisted found, Utf8.encode_decode_iff.mpr formed]
  · intro tags set others other given given' same
    exact classify_congr_contains fun _ long => given.contains_congr given' same long

/-- A record line with the beginning of a character as its version.  It is shown as the mark that
stands for ill-formed octets, and this has three octets as well. -/
def clipped : Bytes :=
  Utf8.encode " 102  F3 0001 0001 110 01 ???? ?? 0010 0110 000 00 00 000 0000 ? 0 0 1 # QA001:C2" ++
    [Octet.blank, 0xF0, 0x9F, 0x98, Octet.carriageReturn]

/-- Tags given repeatedly, among them one that is too short for a version. -/
def assorted : TagSet :=
  (TagSet.ofList ["\uFFFD", "A2", "\uFFFD"]).insert "A20"

/-- The tags of them that a version can have. -/
def tidy : TagSet :=
  .ofList ["A20", "\uFFFD"]

/-- The text that is shown for a version does not make it a member, and the two sets read every
line alike although they differ. -/
theorem versions_matched_exactly_clipped :
    TagSet.Given ["\uFFFD", "A2", "\uFFFD", "A20"] assorted ∧
    TagSet.Given ["A20", "\uFFFD"] tidy ∧
    ¬ Utf8.WellFormed (paddedTag clipped) ∧
    classify assorted .strict clipped = .ok (.unlisted "\uFFFD") ∧
    tidy.contains [0xEF, 0xBF, 0xBD] ∧
    assorted ≠ tidy ∧
    ∀ strictness line, classify assorted strictness line = classify tidy strictness line := by
  have given := (TagSet.Given.start ["\uFFFD", "A2", "\uFFFD"]).insert "A20"
  have given' := TagSet.Given.start ["A20", "\uFFFD"]
  have foreign : ¬ Utf8.WellFormed (paddedTag clipped) := by
    unfold Utf8.WellFormed
    decide +kernel
  have blanks : ∀ column ∈ Column.separators,
      (dropReturn clipped)[column]? = some Octet.blank := by
    decide +kernel
  have shown : Utf8.decode (paddedTag clipped) = "\uFFFD" := by decide +kernel
  have same : ∀ tag, (Utf8.encode tag).length = 3 →
      (tag ∈ ["\uFFFD", "A2", "\uFFFD", "A20"] ↔ tag ∈ ["A20", "\uFFFD"]) := by
    intro tag three
    have other : tag ≠ "A2" := by
      rintro rfl
      exact absurd three (by decide +kernel)
    simp only [List.mem_cons, List.not_mem_nil, other, or_false, false_or]
    tauto
  rcases versions_matched_exactly with ⟨contained, equal, passed, alike⟩
  refine ⟨given, given', foreign, ?_, ?_, ?_, alike _ _ _ _ given given' same⟩
  · rw [← shown]
    exact (passed _ _ given .strict clipped blanks).2.1 foreign
  · exact ((contained _ _ given').1 _).mpr ⟨"\uFFFD", by decide, by decide +kernel⟩
  · intro same
    have members := ((equal _ _ _ _ given given').1.mp same) "A2"
    exact absurd members (by decide)

end Line

end Microcode
