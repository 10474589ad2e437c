import Microcode.Proofs.Items
import Microcode.Proofs.TagSets

namespace Microcode

/-!
What a list of switches and settings asks for.

A list asks for one conversion.  Only tags can be given more than once, and only what they are
matters: neither their order, nor how often they occur, nor where they stand among the other
items.
-/

/-- A conversion, with where the listing comes from and where the words go to. -/
@[ext]
structure Request where
  input : Option String
  output : Option String
  format : Format
  width : Width
  settings : Settings

/-- Two conversions differ in nothing but what they read and write. -/
structure Request.Agree (request other : Request) : Prop where
  settings : other.settings = request.settings
  format : other.format = request.format
  width : other.width = request.width

/-- The conversion that some items ask for. -/
structure Asks (items : List Item) (request : Request) : Prop where
  input : ∀ path, request.input = some path ↔ .setting .input path ∈ items
  output : ∀ path, request.output = some path ↔ .setting .output path ∈ items
  format : (∀ name, .setting .format name ∈ items → Format.Named name request.format) ∧
    ((∀ name, .setting .format name ∉ items) → request.format = .vhdl)
  width : request.width = .full ↔ .switch .fullWidth ∈ items
  capacity : (∀ value, .setting .capacity value ∈ items →
      Decimal value request.settings.capacity) ∧
    ((∀ value, .setting .capacity value ∉ items) → request.settings.capacity = 4096)
  strictness : request.settings.strictness = .strict ↔ .switch .strict ∈ items
  accepted : ∀ tag, tag ∈ request.settings.accepted.tags ↔
    tag ∈ ["   ", "004", "005", "006", "007", "010", "014", "025", "A20"] ∨
      .setting .accept tag ∈ items

namespace Asks

variable {items : List Item} {request other : Request}

theorem eq_of_format (asked : Asks items request) (asked' : Asks items other) :
    request.format = other.format := by
  by_cases given : ∃ name, .setting .format name ∈ items
  · rcases given with ⟨name, member⟩
    exact (asked.format.1 name member).unique (asked'.format.1 name member)
  · rw [asked.format.2 (not_exists.mp given), asked'.format.2 (not_exists.mp given)]

theorem eq_of_capacity (asked : Asks items request) (asked' : Asks items other) :
    request.settings.capacity = other.settings.capacity := by
  by_cases given : ∃ value, .setting .capacity value ∈ items
  · rcases given with ⟨value, member⟩
    exact (asked.capacity.1 value member).unique (asked'.capacity.1 value member)
  · rw [asked.capacity.2 (not_exists.mp given), asked'.capacity.2 (not_exists.mp given)]

theorem eq_of_settings (asked : Asks items request) (asked' : Asks items other) :
    request.settings = other.settings := by
  have same := asked.strictness.trans asked'.strictness.symm
  have strictness : request.settings.strictness = other.settings.strictness := by
    cases first : request.settings.strictness <;>
      cases second : other.settings.strictness <;> simp [first, second] at same ⊢
  have accepted : request.settings.accepted = other.settings.accepted :=
    TagSet.eq_of_mem_iff fun tag => (asked.accepted tag).trans (asked'.accepted tag).symm
  exact Settings.ext (asked.eq_of_capacity asked') strictness accepted

/-- Items ask for only one conversion. -/
theorem unique (asked : Asks items request) (asked' : Asks items other) : request = other := by
  have same := asked.width.trans asked'.width.symm
  have width : request.width = other.width := by
    cases first : request.width <;> cases second : other.width <;>
      simp [first, second] at same ⊢
  apply Request.ext
  case input => exact Option.ext fun path => (asked.input path).trans (asked'.input path).symm
  case output => exact Option.ext fun path => (asked.output path).trans (asked'.output path).symm
  case format => exact asked.eq_of_format asked'
  case width => exact width
  case settings => exact asked.eq_of_settings asked'

end Asks

namespace Options

/-- The conversion that the options hold. -/
def request (options : Options) : Request where
  input := options.input
  output := options.output
  format := options.outputFormat
  width := options.width
  settings := options.settings

section Asking

variable {items : List Item} {options : Options}

theorem Gathers.asks (gathers : Gathers items options) : Asks items options.request := by
  have formats := chosen_of_forall₂ (gathers.settings .format) .vhdl
  have capacities := chosen_of_forall₂ (gathers.settings .capacity)
    (.ofNat capacityBound Store.standardLimit)
  have inputs : Item.valuesOf .input items = options.input.toList := gathers.settings .input
  have outputs : Item.valuesOf .output items = options.output.toList := gathers.settings .output
  have tags : Item.valuesOf .accept items = options.accepted := gathers.settings .accept
  constructor
  case input =>
    intro path
    rw [← Item.mem_valuesOf, inputs, Option.mem_toList]
    rfl
  case output =>
    intro path
    rw [← Item.mem_valuesOf, outputs, Option.mem_toList]
    rfl
  case format =>
    refine ⟨fun name given => formats.1 name (Item.mem_valuesOf.mpr given), fun absent => ?_⟩
    rw [request, outputFormat, formats.2.1 (valuesOf_eq_nil absent)]
    rfl
  case width =>
    rw [← gathers.holds_iff_mem]
    change (if options.fullWidth then Width.full else .meaningful) = .full ↔
      options.fullWidth = true
    cases options.fullWidth <;> decide
  case capacity =>
    refine ⟨fun value given => capacities.1 value (Item.mem_valuesOf.mpr given), fun absent => ?_⟩
    rw [request, Options.settings, capacities.2.1 (valuesOf_eq_nil absent)]
    rfl
  case strictness =>
    rw [← gathers.holds_iff_mem]
    change (if options.strict then Strictness.strict else .lenient) = .strict ↔
      options.strict = true
    cases options.strict <;> decide
  case accepted =>
    intro tag
    rw [request, Options.settings, TagSet.mem_foldl_insert, ← tags, Item.mem_valuesOf, or_comm,
      TagSet.standard, TagSet.mem_ofList]

end Asking

/-! ## Tags -/

section Tags

variable {items others : List Item} {arguments arguments' : List String} {options : Options}

/-- Apart from tags, an item does the same whatever tags were given before. -/
theorem apply_withTags {item : Item} (other : item.isTag = false) (options : Options)
    (tags : List String) :
    ({ options with accepted := tags } : Options).apply item =
      (options.apply item).map fun next => { next with accepted := tags } := by
  cases item with
  | switch switch =>
      cases switch with
      | help => rfl
      | _ =>
          simp only [apply, turnOn]
          split <;> rfl
  | setting setting value =>
      cases setting with
      | accept => cases other
      | input | output =>
          simp only [apply, set]
          split <;> rfl
      | format | capacity =>
          simp only [apply, set]
          split
          · rfl
          · split <;> rfl

/-- Tags are gathered beside everything else. -/
theorem applyAll_withTags (items : List Item) (options : Options) (tags : List String) :
    ({ options with accepted := tags } : Options).applyAll items =
      (options.applyAll (items.filter (!·.isTag))).map fun next =>
        { next with accepted := tags ++ Item.valuesOf .accept items } := by
  induction items generalizing options tags with
  | nil =>
      change Except.ok _ = Except.ok _
      rw [Item.valuesOf, List.filterMap_nil, List.append_nil]
  | cons item items ih =>
      have divided := Item.valuesOf_append .accept [item] items
      rw [List.singleton_append] at divided
      rw [applyAll_cons, divided]
      cases kind : item.isTag with
      | false =>
          rw [apply_withTags kind, List.filter_cons_of_pos (by simp [kind]), applyAll_cons,
            Item.valuesOf_accept_of_not_isTag kind]
          cases options.apply item with
          | error stop => rfl
          | ok next => exact ih next tags
      | true =>
          rcases Item.exists_of_isTag kind with ⟨tag, rfl⟩
          -- The tag joins those that were given before, and the others stay where they are.
          rw [List.filter_cons_of_neg (by simp [kind]), ← List.append_assoc]
          exact ih options (tags ++ [tag])

/-- Command lines that differ in nothing but tags are read as options that differ in nothing
else. -/
theorem ofArguments_of_same_but_tags (spelled : Spells arguments items)
    (spelled' : Spells arguments' others)
    (same : others.filter (!·.isTag) = items.filter (!·.isTag))
    (read : ofArguments arguments = .ok options) :
    ofArguments arguments' =
      .ok { options with accepted := Item.valuesOf .accept others } := by
  have ending := applyAll_withTags items {} []
  rw [ofArguments_of_spells spelled, show ({} : Options).applyAll items = _ from ending] at read
  rw [ofArguments_of_spells spelled',
    show ({} : Options).applyAll others = _ from applyAll_withTags others {} [], same]
  cases plain : ({} : Options).applyAll (items.filter (!·.isTag)) with
  | error stop =>
      rw [plain] at read
      cases read
  | ok next =>
      rw [plain] at read
      cases read
      rfl

/-- Only what the tags are matters to the settings. -/
theorem settings_withTags {tags : List String}
    (same : ∀ tag, tag ∈ tags ↔ tag ∈ options.accepted) :
    ({ options with accepted := tags } : Options).settings = options.settings := by
  have accepted : tags.foldl TagSet.insert .standard =
      options.accepted.foldl TagSet.insert .standard := by
    apply TagSet.eq_of_mem_iff
    intro tag
    rw [TagSet.mem_foldl_insert, TagSet.mem_foldl_insert, same]
  simp only [Options.settings, accepted]

end Tags

end Options

end Microcode
