import Microcode.Conversion.Run
import Microcode.Proofs.TagSets

namespace Microcode

/-!
Settings as they are stored.

Settings can be stored in several forms: a structure is an object or an array, a choice is a
bare name or the only key of an object, and tags may come in any order and repeatedly.  They
are written in just one of these forms.  The forms are described here without regard to how
they are read, and reading accepts exactly them.
-/

/-- Reading a list succeeds when reading each of its members does. -/
theorem mapM_eq_some_iff {α β : Type} {read : α → Option β} {items : List α} {values : List β} :
    items.mapM read = some values ↔
      List.Forall₂ (fun item value => read item = some value) items values := by
  induction items generalizing values with
  | nil => cases values <;> simp
  | cons item items ih =>
      rw [List.mapM_cons]
      cases first : read item with
      | none => cases values <;> simp [first]
      | some value =>
          cases rest : items.mapM read with
          | none => cases values <;> simp [← ih, rest]
          | some others => cases values <;> simp [← ih, rest, first]

namespace Json

/-- The value of a key is that of the only member with the key. -/
def Keyed (key : String) (value : Json) (members : List (String × Json)) : Prop :=
  ∃ before behind, members = before ++ (key, value) :: behind ∧
    ∀ member ∈ before ++ behind, member.1 ≠ key

/-- The parts of a structure, which belong to its keys in this order.  An object may have
them in any order and other keys besides; an array has the parts alone. -/
inductive Parts (keys : List String) (parts : List Json) : Json → Prop
  | object (members : List (String × Json))
      (found : List.Forall₂ (Keyed · · members) keys parts) : Parts keys parts (.object members)
  | array (complete : parts.length = keys.length) : Parts keys parts (.array parts)

/-- A choice among names. -/
inductive Chosen (name : String) : Json → Prop
  | bare : Chosen name (.string name)
  | keyed : Chosen name (.object [(name, .null)])

theorem member?_eq_some_iff_filter {key : String} {value : Json} {members : List (String × Json)} :
    member? members key = some value ↔ members.filter (·.1 = key) = [(key, value)] := by
  constructor
  · intro found
    unfold member? at found
    split at found
    case h_1 name only alone =>
      cases found
      have kept : (name, value) ∈ members.filter (·.1 = key) := alone ▸ List.mem_cons_self
      have same : name = key := by simpa using (List.mem_filter.mp kept).2
      rw [alone, same]
    case h_2 => cases found
  · intro alone
    rw [member?, alone]

theorem member?_eq_some_iff {key : String} {value : Json} {members : List (String × Json)} :
    member? members key = some value ↔ Keyed key value members := by
  rw [member?_eq_some_iff_filter, List.filter_eq_cons_iff]
  simp only [List.filter_eq_nil_iff, decide_eq_true_eq, true_and, Keyed, List.forall_mem_append]

/-- The order of the members has no influence. -/
theorem member?_perm {members others : List (String × Json)} (reordered : members.Perm others)
    (key : String) : member? others key = member? members key := by
  have kept : (others.filter (·.1 = key)).Perm (members.filter (·.1 = key)) :=
    (reordered.filter (·.1 = key)).symm
  apply Option.ext
  intro value
  rw [member?_eq_some_iff_filter, member?_eq_some_iff_filter]
  constructor
  · intro alone
    exact List.singleton_perm.mp (alone ▸ kept) |>.symm
  · intro alone
    exact List.perm_singleton.mp (alone ▸ kept)

theorem mapM_member?_eq_some_iff {keys : List String} {parts : List Json}
    {members : List (String × Json)} :
    keys.mapM (member? members) = some parts ↔
      List.Forall₂ (Keyed · · members) keys parts := by
  simp only [mapM_eq_some_iff, member?_eq_some_iff]

theorem parts?_eq_some_iff {keys : List String} {parts : List Json} {json : Json} :
    json.parts? keys = some parts ↔ Parts keys parts json := by
  constructor
  · intro found
    cases json
    case object members => exact .object members (mapM_member?_eq_some_iff.mp found)
    case array items =>
      rw [parts?] at found
      split at found
      · cases found
        exact .array ‹_›
      · cases found
    all_goals cases found
  · intro found
    cases found with
    | object members found => exact mapM_member?_eq_some_iff.mpr found
    | array complete => rw [parts?, if_pos complete]

theorem choice?_eq_some_iff {name : String} {json : Json} :
    json.choice? = some name ↔ Chosen name json := by
  constructor
  · intro found
    unfold choice? at found
    split at found
    · cases found
      exact .bare
    · cases found
      exact .keyed
    · cases found
  · intro found
    cases found <;> rfl

theorem natBelow?_eq_some_iff {bound value : Nat} {json : Json} :
    json.natBelow? bound = some value ↔ json = .ofNat value ∧ value < bound := by
  constructor
  · intro found
    unfold natBelow? at found
    split at found
    · split at found
      · cases found
        exact ⟨rfl, ‹_›⟩
      · cases found
    · cases found
  · rintro ⟨rfl, below⟩
    exact if_pos below

theorem string?_eq_some_iff {text : String} {json : Json} :
    json.string? = some text ↔ json = .string text := by
  cases json <;> simp [string?]

theorem strings?_eq_some_iff {texts : List String} {json : Json} :
    json.strings? = some texts ↔ json = .array (texts.map .string) := by
  cases json
  case array items =>
    rw [strings?, mapM_eq_some_iff, array.injEq, ← List.forall₂_eq_eq_eq,
      List.forall₂_map_right_iff]
    simp only [string?_eq_some_iff]
  all_goals simp [strings?]

end Json

/-! ## The forms of settings -/

/-- The name under which a strictness is stored. -/
def Strictness.key : Strictness → String
  | lenient => "Lenient"
  | strict => "Strict"

/-- A stored set lists the tags that it has, in any order and any of them repeatedly. -/
def TagSet.Stored (set : TagSet) (json : Json) : Prop :=
  ∃ tags : List String, json.Parts ["tags"] [.array (tags.map .string)] ∧
    ∀ tag, tag ∈ set.tags ↔ tag ∈ tags

/-- The forms in which settings can be stored. -/
def Settings.Stored (settings : Settings) (json : Json) : Prop :=
  ∃ strictness accepted,
    json.Parts ["capacity", "strictness", "accepted_versions"]
      [.number settings.capacity 0, strictness, accepted] ∧
    strictness.Chosen settings.strictness.key ∧ settings.accepted.Stored accepted

/-- The form in which settings are written.  Each tag occurs once, and the octets of the
tags increase. -/
def Settings.Written (json : Json) : Prop :=
  ∃ (capacity : Nat) (strictness : String) (tags : List String),
    json = .object [("capacity", .number capacity 0), ("strictness", .string strictness),
      ("accepted_versions", .object [("tags", .array (tags.map .string))])] ∧
    capacity < capacityBound ∧ (strictness = "Lenient" ∨ strictness = "Strict") ∧
    tags.Pairwise (fun left right => Utf8.encode left < Utf8.encode right) ∧ tags.Nodup

theorem Strictness.ofName?_eq_some_iff {name : String} {strictness : Strictness} :
    ofName? name = some strictness ↔ name = strictness.key := by
  constructor
  · intro found
    unfold ofName? at found
    split at found
    · cases found
      rfl
    · cases found
      rfl
    · cases found
  · rintro rfl
    cases strictness <;> rfl

theorem Strictness.ofJson?_eq_some_iff {json : Json} {strictness : Strictness} :
    ofJson? json = some strictness ↔ json.Chosen strictness.key := by
  simp only [ofJson?, Option.bind_eq_some_iff, Json.choice?_eq_some_iff, ofName?_eq_some_iff,
    exists_eq_right]

/-- A set can be stored with its tags in their order. -/
theorem TagSet.stored_toJson (set : TagSet) : set.Stored set.toJson :=
  ⟨set.tags, Json.parts?_eq_some_iff.mp rfl, fun _ => Iff.rfl⟩

theorem TagSet.ofJson?_eq_some_iff {json : Json} {set : TagSet} :
    ofJson? json = some set ↔ set.Stored json := by
  constructor
  · intro found
    unfold ofJson? at found
    split at found
    case h_1 tags parts =>
      rcases Option.map_eq_some_iff.mp found with ⟨texts, listed, rfl⟩
      cases Json.strings?_eq_some_iff.mp listed
      exact ⟨texts, Json.parts?_eq_some_iff.mp parts, fun tag => mem_ofList⟩
    case h_2 => cases found
  · rintro ⟨texts, parts, same⟩
    have listed : (Json.array (texts.map .string)).strings? = some texts :=
      Json.strings?_eq_some_iff.mpr rfl
    rw [ofJson?, Json.parts?_eq_some_iff.mpr parts]
    exact (congrArg (Option.map ofList) listed).trans (congrArg some (ofList_eq_iff.mpr same))

namespace Settings

theorem ofParts?_eq_some_iff {capacity strictness accepted : Json} {settings : Settings} :
    ofParts? capacity strictness accepted = some settings ↔
      capacity = .number settings.capacity 0 ∧
        strictness.Chosen settings.strictness.key ∧ settings.accepted.Stored accepted := by
  constructor
  · intro found
    rcases Option.bind_eq_some_iff.mp found with ⟨limit, bounded, found⟩
    rcases Option.bind_eq_some_iff.mp found with ⟨chosen, named, found⟩
    rcases Option.bind_eq_some_iff.mp found with ⟨set, listed, found⟩
    have below := (Json.natBelow?_eq_some_iff.mp bounded).2
    rw [dif_pos below] at found
    cases found
    exact ⟨(Json.natBelow?_eq_some_iff.mp bounded).1, Strictness.ofJson?_eq_some_iff.mp named,
      TagSet.ofJson?_eq_some_iff.mp listed⟩
  · rintro ⟨limit, named, listed⟩
    have bounded := Json.natBelow?_eq_some_iff.mpr ⟨limit, settings.capacity_lt⟩
    have chosen := Strictness.ofJson?_eq_some_iff.mpr named
    have set := TagSet.ofJson?_eq_some_iff.mpr listed
    simp [ofParts?, bounded, chosen, set, settings.capacity_lt]

/-- Reading accepts the forms in which settings can be stored, and no others. -/
theorem ofJson?_eq_some_iff {json : Json} {settings : Settings} :
    ofJson? json = some settings ↔ settings.Stored json := by
  constructor
  · intro found
    unfold ofJson? at found
    split at found
    case h_1 capacity strictness accepted parts =>
      rcases ofParts?_eq_some_iff.mp found with ⟨rfl, named, listed⟩
      exact ⟨strictness, accepted, Json.parts?_eq_some_iff.mp parts, named, listed⟩
    case h_2 => cases found
  · rintro ⟨strictness, accepted, parts, named, listed⟩
    rw [ofJson?, Json.parts?_eq_some_iff.mpr parts]
    exact ofParts?_eq_some_iff.mpr ⟨rfl, named, listed⟩

/-! ## The written form -/

theorem toJson_eq (settings : Settings) :
    settings.toJson =
      .object [("capacity", .number settings.capacity 0),
        ("strictness", .string settings.strictness.key),
        ("accepted_versions", .object [("tags", .array (settings.accepted.tags.map .string))])] := by
  cases strictness : settings.strictness <;>
    simp [toJson, strictness, Strictness.toJson, Strictness.key, TagSet.toJson, Json.ofNat]

theorem stored_toJson (settings : Settings) : settings.Stored settings.toJson := by
  rw [toJson_eq]
  exact ⟨_, _, Json.parts?_eq_some_iff.mp rfl, .bare, settings.accepted.stored_toJson⟩

/-- Settings are read as they were written. -/
theorem ofJson?_toJson (settings : Settings) : ofJson? settings.toJson = some settings :=
  ofJson?_eq_some_iff.mpr settings.stored_toJson

theorem written_iff {json : Json} : Written json ↔ ∃ settings : Settings, json = settings.toJson := by
  constructor
  · rintro ⟨capacity, strictness, tags, rfl, bound, named, sorted, -⟩
    let accepted : TagSet := { tags, sorted }
    rcases named with rfl | rfl
    · exact ⟨{ capacity, strictness := .lenient, accepted, capacity_lt := bound }, rfl⟩
    · exact ⟨{ capacity, strictness := .strict, accepted, capacity_lt := bound }, rfl⟩
  · rintro ⟨settings, rfl⟩
    refine ⟨settings.capacity, settings.strictness.key, settings.accepted.tags, settings.toJson_eq,
      settings.capacity_lt, ?_, settings.accepted.sorted, settings.accepted.nodup_tags⟩
    cases settings.strictness with
    | lenient => exact Or.inl rfl
    | strict => exact Or.inr rfl

/-- Of all forms in which settings can be stored only one is the written form. -/
theorem eq_toJson_of_written {json : Json} {settings : Settings} (written : Written json)
    (stored : settings.Stored json) : json = settings.toJson := by
  rcases written_iff.mp written with ⟨other, rfl⟩
  have read := ofJson?_eq_some_iff.mpr stored
  rw [ofJson?_toJson] at read
  rw [Option.some.inj read]

theorem ofJson?_perm {members others : List (String × Json)} (reordered : members.Perm others) :
    ofJson? (.object others) = ofJson? (.object members) := by
  have same := funext (Json.member?_perm reordered)
  rw [ofJson?, ofJson?, Json.parts?, Json.parts?, same]

/-- Settings are read from all forms in which they can be stored, whatever the order of the
keys, and written in one of them.  There the tags increase and occur once each, and what is
read from it are the same settings, so that conversions do not change. -/
theorem read_as_stored_and_written :
    (∀ settings : Settings, ofJson? settings.toJson = some settings) ∧
    (∀ settings read : Settings, ofJson? settings.toJson = some read →
      ∀ source, Conversion.convert read source = Conversion.convert settings source) ∧
    (∀ (json : Json) (settings : Settings),
      ofJson? json = some settings ↔ settings.Stored json) ∧
    (∀ members others : List (String × Json), members.Perm others →
      ofJson? (.object others) = ofJson? (.object members)) ∧
    (∀ (json : Json) (settings : Settings), ofJson? json = some settings →
      Written settings.toJson ∧ ofJson? settings.toJson = some settings ∧
      ∀ other, Written other → ofJson? other = some settings → other = settings.toJson) := by
  refine ⟨ofJson?_toJson, ?_, fun _ _ => ofJson?_eq_some_iff, fun _ _ => ofJson?_perm, ?_⟩
  · intro settings read found source
    rw [ofJson?_toJson] at found
    rw [Option.some.inj found]
  · intro json settings _
    refine ⟨written_iff.mpr ⟨settings, rfl⟩, settings.ofJson?_toJson, ?_⟩
    intro other written found
    exact eq_toJson_of_written written (ofJson?_eq_some_iff.mp found)

/-- Settings with a key that means nothing, a set without its key, a choice with one, and a
tag too many. -/
def roundabout : Json :=
  .object [("note", .bool true),
    ("accepted_versions", .array [.array [.string "A20", .string "   ", .string "A20"]]),
    ("strictness", .object [("Strict", .null)]), ("capacity", .number 3 0)]

/-- The same settings with no more than is needed. -/
def direct : Json :=
  .array [.number 3 0, .string "Strict", .object [("tags", .array [.string "   ", .string "A20"])]]

theorem read_roundabout :
    ∃ settings : Settings, ofJson? roundabout = some settings ∧ ofJson? direct = some settings ∧
      settings.toJson =
        .object [("capacity", .number 3 0), ("strictness", .string "Strict"),
          ("accepted_versions",
            .object [("tags", .array [.string "   ", .string "A20"])])] ∧
      Written settings.toJson ∧ ofJson? settings.toJson = some settings := by
  let settings : Settings :=
    { capacity := 3, strictness := .strict, accepted := .ofList ["A20", "   "] }
  have read : ofJson? roundabout = some settings := by decide +kernel
  have again : ofJson? direct = some settings := by decide +kernel
  have tags : settings.accepted.tags = ["   ", "A20"] := by decide +kernel
  rcases read_as_stored_and_written with ⟨-, -, -, -, written⟩
  rcases written roundabout settings read with ⟨form, found, -⟩
  refine ⟨settings, read, again, ?_, form, found⟩
  rw [toJson_eq, tags]
  rfl

end Settings

end Microcode
