import Microcode.Proofs.Decimals
import Microcode.Proofs.Spelling
import Mathlib.Data.List.Induction

namespace Microcode

/-!
Lists of switches and settings, and how they are taken.

Items are taken one after the other.  The options hold for each switch whether it was given, and
for each setting the value that was given, so they know what can still be given.  Just the lists
that are valid are taken to their end, and this is said without regard to how names and numerals
are read.
-/

/-- The names of the formats. -/
inductive Format.Named : String → Format → Prop where
  | vhdl : Named "vhdl" .vhdl
  | text : Named "text" .text
  | json : Named "json" .json

theorem Format.ofName?_eq_some_iff {name : String} {format : Format} :
    ofName? name = some format ↔ Named name format := by
  constructor
  · intro found
    unfold ofName? at found
    split at found <;> cases found <;> constructor
  · intro named
    cases named <;> rfl

theorem Format.Named.unique {name : String} {format other : Format} (first : Named name format)
    (second : Named name other) : format = other := by
  have found := ofName?_eq_some_iff.mpr first
  rw [ofName?_eq_some_iff.mpr second] at found
  exact (Option.some.inj found).symm

namespace Item

def value? (setting : Setting) : Item → Option String
  | .switch _ => none
  | .setting other value => if other = setting then some value else none

/-- The values that are given for a setting, in their order. -/
def valuesOf (setting : Setting) (items : List Item) : List String :=
  items.filterMap (value? setting)

theorem valuesOf_append (setting : Setting) (items more : List Item) :
    valuesOf setting (items ++ more) = valuesOf setting items ++ valuesOf setting more :=
  List.filterMap_append

theorem valuesOf_switch (setting : Setting) (switch : Switch) :
    valuesOf setting [.switch switch] = [] :=
  rfl

theorem valuesOf_setting (setting other : Setting) (value : String) :
    valuesOf setting [.setting other value] = if setting = other then [value] else [] := by
  by_cases same : setting = other
  · simp [valuesOf, value?, same]
  · simp [valuesOf, value?, same, Ne.symm same]

theorem mem_valuesOf {setting : Setting} {items : List Item} {value : String} :
    value ∈ valuesOf setting items ↔ .setting setting value ∈ items := by
  rw [valuesOf, List.mem_filterMap]
  constructor
  · rintro ⟨item, member, found⟩
    cases item with
    | switch switch => cases found
    | setting other given =>
        by_cases same : other = setting
        · subst same
          simp only [value?, if_true, Option.some.injEq] at found
          exact found ▸ member
        · simp [value?, same] at found
  · intro member
    exact ⟨_, member, if_pos rfl⟩

/-- The item names a tag to accept. -/
def isTag : Item → Bool
  | .setting .accept _ => true
  | _ => false

theorem exists_of_isTag {item : Item} (named : item.isTag = true) :
    ∃ tag, item = .setting .accept tag := by
  cases item with
  | switch switch => cases named
  | setting setting value =>
      cases setting with
      | accept => exact ⟨value, rfl⟩
      | _ => cases named

theorem valuesOf_accept_of_not_isTag {item : Item} (other : item.isTag = false) :
    valuesOf .accept [item] = [] := by
  cases item with
  | switch switch => exact valuesOf_switch .accept switch
  | setting setting value =>
      cases setting with
      | accept => cases other
      | _ => exact valuesOf_setting .accept _ value

end Item

/-- Items that can be asked for together.  Nothing but tags occurs twice, and formats and
capacities are written as they have to be. -/
structure Valid (items : List Item) : Prop where
  unhelped : .switch .help ∉ items
  switches : ∀ switch, items.count (.switch switch) ≤ 1
  settings : ∀ setting ≠ .accept, (Item.valuesOf setting items).length ≤ 1
  formats : ∀ name, .setting .format name ∈ items → ∃ format, Format.Named name format
  capacities : ∀ value, .setting .capacity value ∈ items →
    ∃ capacity < 2 ^ 64, Decimal value capacity

theorem Valid.of_append {items more : List Item} (valid : Valid (items ++ more)) :
    Valid items where
  unhelped member := valid.unhelped (List.mem_append_left more member)
  switches switch := by
    have bound := valid.switches switch
    rw [List.count_append] at bound
    omega
  settings setting other := by
    have bound := valid.settings setting other
    rw [Item.valuesOf_append, List.length_append] at bound
    omega
  formats name member := valid.formats name (List.mem_append_left more member)
  capacities value member := valid.capacities value (List.mem_append_left more member)

namespace Options

def holds (options : Options) : Switch → Bool
  | .help => false
  | .version => options.version
  | .fullWidth => options.fullWidth
  | .strict => options.strict

/-- Some values are those that the options hold for a setting. -/
def Holds (options : Options) : Setting → List String → Prop
  | .input, values => values = options.input.toList
  | .output, values => values = options.output.toList
  | .format, values => List.Forall₂ Format.Named values options.format.toList
  | .capacity, values =>
      List.Forall₂ (fun value capacity => Decimal value capacity.val) values
        options.capacity.toList
  | .accept, values => values = options.accepted

/-- The options hold just what some items ask for. -/
structure Gathers (items : List Item) (options : Options) : Prop where
  switches : ∀ switch, items.count (.switch switch) = (options.holds switch).toNat
  settings : ∀ setting, options.Holds setting (Item.valuesOf setting items)

theorem capacity?_eq_some_iff {value : String} {capacity : Fin capacityBound} :
    capacity? value = some capacity ↔ Decimal value capacity := by
  rw [capacity?, Option.map_eq_some_iff]
  constructor
  · rintro ⟨number, read, rfl⟩
    rcases Unsigned.parse?_eq_some_iff.mp read with ⟨decimal, below⟩
    rwa [Fin.val_ofNat, Nat.mod_eq_of_lt below]
  · intro decimal
    refine ⟨capacity, Unsigned.parse?_eq_some_iff.mpr ⟨decimal, capacity.isLt⟩, ?_⟩
    exact Fin.ofNat_val_eq_self capacity

/-- At most one value was given, and it is the chosen one. -/
theorem chosen_of_forall₂ {kind : Type} {stands : String → kind → Prop} {values : List String}
    {chosen : Option kind} (held : List.Forall₂ stands values chosen.toList) (standard : kind) :
    (∀ value ∈ values, stands value (chosen.getD standard)) ∧ (values = [] → chosen = none) ∧
      values.length ≤ 1 := by
  cases chosen with
  | none =>
      cases held
      simp
  | some choice =>
      rcases held with _ | ⟨first, rest⟩
      cases rest
      simpa using first

/-- The first value that is given becomes the chosen one. -/
theorem forall₂_of_unset {kind : Type} {stands : String → kind → Prop} {values : List String}
    {value : String} {chosen : Option kind} {choice : kind} (unset : ¬ chosen.isSome)
    (held : List.Forall₂ stands values chosen.toList) (found : stands value choice) :
    List.Forall₂ stands (values ++ [value]) (some choice).toList := by
  rw [Option.not_isSome_iff_eq_none.mp unset] at held
  cases held
  exact .cons found .nil

section Steps

variable {before after : Options} {items : List Item}

theorem turnOn_spec {switch : Switch} (turned : before.turnOn switch = .ok after) :
    (∀ other, (after.holds other).toNat =
      (before.holds other).toNat + if other = switch then 1 else 0) ∧
    ∀ setting values, before.Holds setting values → after.Holds setting values := by
  cases switch with
  | help => cases turned
  | _ =>
      simp only [turnOn] at turned
      split at turned
      · cases turned
      · next off =>
          cases turned
          refine ⟨fun other => ?_, fun setting values held => ?_⟩
          · cases other <;> simp [holds, off]
          · cases setting <;> exact held

theorem set_spec {setting : Setting} {value : String}
    (given : before.set setting value = .ok after) :
    (∀ switch, after.holds switch = before.holds switch) ∧
    ∀ other values, before.Holds other values →
      after.Holds other (values ++ if other = setting then [value] else []) := by
  cases setting with
  | accept =>
      cases given
      refine ⟨fun switch => by cases switch <;> rfl, fun other values held => ?_⟩
      cases other <;> simpa [Holds] using held
  | input | output =>
      simp only [set] at given
      split at given
      · cases given
      · cases given
        refine ⟨fun switch => by cases switch <;> rfl, fun other values held => ?_⟩
        cases other <;> simp_all [Holds]
  | format =>
      simp only [set] at given
      split at given
      case isTrue => cases given
      case isFalse unset =>
        split at given
        case h_1 => cases given
        case h_2 format found =>
          cases given
          refine ⟨fun switch => by cases switch <;> rfl, fun other values held => ?_⟩
          cases other with
          | format => exact forall₂_of_unset unset held (Format.ofName?_eq_some_iff.mp found)
          | _ => simpa [Holds] using held
  | capacity =>
      simp only [set] at given
      split at given
      case isTrue => cases given
      case isFalse unset =>
        split at given
        case h_1 => cases given
        case h_2 capacity found =>
          cases given
          refine ⟨fun switch => by cases switch <;> rfl, fun other values held => ?_⟩
          cases other with
          | capacity => exact forall₂_of_unset unset held (capacity?_eq_some_iff.mp found)
          | _ => simpa [Holds] using held

theorem Gathers.apply {item : Item} (gathers : Gathers items before)
    (applied : before.apply item = .ok after) : Gathers (items ++ [item]) after := by
  cases item with
  | switch switch =>
      rcases turnOn_spec applied with ⟨turned, kept⟩
      refine ⟨fun other => ?_, fun setting => ?_⟩
      · rw [List.count_append, gathers.switches, turned]
        by_cases same : other = switch
        · simp [same]
        · simp [same, Ne.symm same]
      · rw [Item.valuesOf_append, Item.valuesOf_switch, List.append_nil]
        exact kept setting _ (gathers.settings setting)
  | setting setting value =>
      rcases set_spec applied with ⟨kept, added⟩
      refine ⟨fun switch => ?_, fun other => ?_⟩
      · simp [kept, gathers.switches]
      · rw [Item.valuesOf_append, Item.valuesOf_setting]
        exact added other _ (gathers.settings other)

end Steps

/-- Options that were asked for one after the other hold all of them, and nothing else. -/
theorem gathers_of_applyAll {items : List Item} {options : Options}
    (applied : ({} : Options).applyAll items = .ok options) : Gathers items options := by
  induction items using List.reverseRecOn generalizing options with
  | nil =>
      cases applied
      refine ⟨fun switch => by cases switch <;> rfl, fun setting => ?_⟩
      cases setting with
      | format | capacity => exact .nil
      | _ => rfl
  | append_singleton items item ih =>
      rw [applyAll_append] at applied
      rcases eq_ok_of_bind applied with ⟨before, earlier, last⟩
      rw [applyAll_singleton] at last
      exact (ih earlier).apply last

theorem gathers_of_spells {arguments : List String} {items : List Item} {options : Options}
    (spelled : Spells arguments items) (read : ofArguments arguments = .ok options) :
    Gathers items options :=
  gathers_of_applyAll ((ofArguments_of_spells spelled).symm.trans read)

/-! ## Command lines that can be read -/

section Reading

variable {items : List Item} {options : Options}

theorem Gathers.holds_iff_mem (gathers : Gathers items options) (switch : Switch) :
    options.holds switch = true ↔ .switch switch ∈ items := by
  rw [← List.count_pos_iff, gathers.switches]
  cases options.holds switch <;> decide

theorem valuesOf_eq_nil {setting : Setting}
    (absent : ∀ value, .setting setting value ∉ items) : Item.valuesOf setting items = [] := by
  refine List.eq_nil_iff_forall_not_mem.mpr fun value member => ?_
  exact absent value (Item.mem_valuesOf.mp member)

theorem Gathers.valid (gathers : Gathers items options) : Valid items where
  unhelped member := by
    cases (gathers.holds_iff_mem .help).mpr member
  switches switch := by
    rw [gathers.switches]
    exact Bool.toNat_le _
  settings setting other := by
    have held := gathers.settings setting
    cases setting with
    | input | output =>
        rw [show Item.valuesOf _ items = _ from held]
        exact Option.length_toList_le
    | format => exact (chosen_of_forall₂ held .vhdl).2.2
    | capacity => exact (chosen_of_forall₂ held 0).2.2
    | accept => exact absurd rfl other
  formats name member := by
    have held := (chosen_of_forall₂ (gathers.settings .format) .vhdl).1
    exact ⟨_, held name (Item.mem_valuesOf.mpr member)⟩
  capacities value member := by
    have held := (chosen_of_forall₂ (gathers.settings .capacity) 0).1
    exact ⟨_, Fin.isLt _, held value (Item.mem_valuesOf.mpr member)⟩

/-- What can still be asked for behind some items is taken. -/
theorem Gathers.exists_apply {item : Item} (gathers : Gathers items options)
    (valid : Valid (items ++ [item])) : ∃ next, options.apply item = .ok next := by
  cases item with
  | switch switch =>
      have off : options.holds switch = false := by
        have bound := valid.switches switch
        rw [List.count_append, List.count_singleton_self, gathers.switches] at bound
        exact Bool.toNat_eq_zero.mp (by omega)
      cases switch with
      | help => exact absurd (List.mem_append_right items List.mem_cons_self) valid.unhelped
      | version | fullWidth | strict => exact ⟨_, if_neg (Bool.not_eq_true _ ▸ off)⟩
  | setting setting value =>
      have unset (other : setting ≠ .accept) : Item.valuesOf setting items = [] := by
        have bound := valid.settings setting other
        rw [Item.valuesOf_append, Item.valuesOf_setting, if_pos rfl, List.length_append,
          List.length_singleton] at bound
        exact List.length_eq_zero_iff.mp (by omega)
      have held := gathers.settings setting
      have last : .setting setting value ∈ items ++ [.setting setting value] :=
        List.mem_append_right items List.mem_cons_self
      cases setting with
      | input | output =>
          rw [unset (by decide)] at held
          exact ⟨_, if_neg (by simp [Option.toList_eq_nil_iff.mp held.symm])⟩
      | format =>
          have free := (chosen_of_forall₂ held .vhdl).2.1 (unset (by decide))
          rcases valid.formats value last with ⟨format, named⟩
          simp [Options.apply, Options.set, free, Format.ofName?_eq_some_iff.mpr named]
      | capacity =>
          have free := (chosen_of_forall₂ held 0).2.1 (unset (by decide))
          rcases valid.capacities value last with ⟨capacity, below, decimal⟩
          have found : capacity? value = some ⟨capacity, below⟩ :=
            capacity?_eq_some_iff.mpr decimal
          simp [Options.apply, Options.set, free, found]
      | accept => exact ⟨_, rfl⟩

theorem exists_applyAll (valid : Valid items) :
    ∃ options, ({} : Options).applyAll items = .ok options := by
  induction items using List.reverseRecOn with
  | nil => exact ⟨_, rfl⟩
  | append_singleton items item ih =>
      rcases ih valid.of_append with ⟨before, earlier⟩
      rcases (gathers_of_applyAll earlier).exists_apply valid with ⟨after, last⟩
      refine ⟨after, ?_⟩
      rw [applyAll_append, earlier, ← last]
      exact applyAll_singleton before item

/-- Just the command lines that spell valid items can be read. -/
theorem exists_ofArguments_iff {arguments : List String} :
    (∃ options, ofArguments arguments = .ok options) ↔
      ∃ items, Spells arguments items ∧ Valid items := by
  constructor
  · rintro ⟨options, read⟩
    rcases spells_of_ofArguments read with ⟨items, spelled⟩
    exact ⟨items, spelled, (gathers_of_spells spelled read).valid⟩
  · rintro ⟨items, spelled, valid⟩
    rw [ofArguments_of_spells spelled]
    exact exists_applyAll valid

end Reading

end Options

end Microcode
