import Microcode.Command.Options
import Mathlib.Data.List.TakeWhile

namespace Microcode

/-!
What a command line says.

A command line spells a list of switches and settings, by names that are listed here without
regard to how they are read.  One that can be read is read as if these were given one after the
other, and every one that can be read spells some list.
-/

/-- The names behind two dashes. -/
inductive LongName : String → OptionName → Prop where
  | help : LongName "help" (.switch .help)
  | version : LongName "version" (.switch .version)
  | fullWidth : LongName "full-width" (.switch .fullWidth)
  | strict : LongName "strict" (.switch .strict)
  | input : LongName "input" (.setting .input)
  | output : LongName "output" (.setting .output)
  | format : LongName "format" (.setting .format)
  | capacity : LongName "capacity" (.setting .capacity)
  | accept : LongName "accept" (.setting .accept)

/-- The names behind a single dash. -/
inductive ShortName : Char → OptionName → Prop where
  | help : ShortName 'h' (.switch .help)
  | version : ShortName 'v' (.switch .version)
  | input : ShortName 'i' (.setting .input)
  | output : ShortName 'o' (.setting .output)

/-- One thing that is asked for. -/
inductive Item where
  | switch (switch : Switch)
  | setting (setting : Setting) (value : String)
  deriving DecidableEq, Repr

/-- What the short names behind a single dash say.  The last of them may leave its value to
the next argument. -/
inductive Letters : List Char → List Item → Option Setting → Prop where
  | done : Letters [] [] none
  | switch {name : Char} {switch : Switch} {names : List Char} {items : List Item}
      {awaited : Option Setting} (named : ShortName name (.switch switch))
      (rest : Letters names items awaited) :
      Letters (name :: names) (.switch switch :: items) awaited
  | awaiting {name : Char} {setting : Setting} (named : ShortName name (.setting setting)) :
      Letters [name] [] (some setting)
  | joined {name first : Char} {setting : Setting} {value : List Char}
      (named : ShortName name (.setting setting)) (unequal : first ≠ '=') :
      Letters (name :: first :: value) [.setting setting (String.ofList (first :: value))] none
  | equated {name : Char} {setting : Setting} {value : List Char}
      (named : ShortName name (.setting setting)) :
      Letters (name :: '=' :: value) [.setting setting (String.ofList value)] none

theorem Letters.ne_dash {name : Char} {names : List Char} {items : List Item}
    {awaited : Option Setting} (said : Letters (name :: names) items awaited) : name ≠ '-' := by
  rintro rfl
  cases said with
  | switch named rest => cases named
  | awaiting named => cases named
  | joined named unequal => cases named
  | equated named => cases named

/-- What an argument says that starts with a dash. -/
inductive Says : String → List Item → Option Setting → Prop where
  | switch {name : String} {switch : Switch} (named : LongName name (.switch switch)) :
      Says ("--" ++ name) [.switch switch] none
  | awaiting {name : String} {setting : Setting} (named : LongName name (.setting setting)) :
      Says ("--" ++ name) [] (some setting)
  | equated {name value : String} {setting : Setting}
      (named : LongName name (.setting setting)) :
      Says ("--" ++ name ++ "=" ++ value) [.setting setting value] none
  | letters {name : Char} {names : List Char} {items : List Item} {awaited : Option Setting}
      (said : Letters (name :: names) items awaited) :
      Says (String.ofList ('-' :: name :: names)) items awaited

/-- An argument that can be a value: a lone dash, or anything without a dash in front. -/
def StandsAlone (argument : String) : Prop :=
  argument = "-" ∨ argument.toList.head? ≠ some '-'

/-- What a command line says.  Two dashes alone may stand at its end. -/
inductive Spells : List String → List Item → Prop where
  | nil : Spells [] []
  | closed : Spells ["--"] []
  | argument {argument : String} {arguments : List String} {items more : List Item}
      (said : Says argument items none) (rest : Spells arguments more) :
      Spells (argument :: arguments) (items ++ more)
  | pair {argument value : String} {arguments : List String} {items more : List Item}
      {setting : Setting} (said : Says argument items (some setting)) (alone : StandsAlone value)
      (rest : Spells arguments more) :
      Spells (argument :: value :: arguments) (items ++ .setting setting value :: more)

namespace OptionName

theorem ofLong?_eq_some_iff {name : String} {option : OptionName} :
    ofLong? name = some option ↔ LongName name option := by
  constructor
  · intro found
    unfold ofLong? at found
    split at found <;> cases found <;> constructor
  · intro named
    cases named <;> rfl

theorem ofShort?_eq_some_iff {name : Char} {option : OptionName} :
    ofShort? name = some option ↔ ShortName name option := by
  constructor
  · intro found
    unfold ofShort? at found
    split at found <;> cases found <;> constructor
  · intro named
    cases named <;> rfl

end OptionName

/-- No long name holds an equals sign, and none is empty. -/
theorem LongName.plain {name : String} {option : OptionName} (named : LongName name option) :
    (∀ char ∈ name.toList, char != '=') ∧ name.toList ≠ [] := by
  cases named <;> exact ⟨List.all_eq_true.mp rfl, List.cons_ne_nil _ _⟩

namespace Options

def apply (options : Options) : Item → Except Stop Options
  | .switch switch => options.turnOn switch
  | .setting setting value => options.set setting value

/-- Ask for several things, one after the other. -/
def applyAll (options : Options) (items : List Item) : Except Stop Options :=
  items.foldlM apply options

theorem applyAll_cons (options : Options) (item : Item) (items : List Item) :
    options.applyAll (item :: items) = (do (← options.apply item).applyAll items) :=
  List.foldlM_cons

theorem applyAll_append (options : Options) (items more : List Item) :
    options.applyAll (items ++ more) = (do (← options.applyAll items).applyAll more) :=
  List.foldlM_append

theorem applyAll_singleton (options : Options) (item : Item) :
    options.applyAll [item] = options.apply item := by
  rw [applyAll_cons]
  exact bind_pure _

theorem eq_ok_of_bind {first second : Type} {action : Except Stop first}
    {next : first → Except Stop second} {result : second} (done : action >>= next = .ok result) :
    ∃ value, action = .ok value ∧ next value = .ok result := by
  cases action with
  | error stop => cases done
  | ok value => exact ⟨value, rfl, done⟩

/-! ## Single arguments -/

/-- The state of reading after some things were asked for. -/
def reached (awaited : Option Setting) (options : Options) : Reading where
  options
  awaited

theorem readShort_of_letters {names : List Char} {items : List Item} {awaited : Option Setting}
    (said : Letters names items awaited) (options : Options) (argument : String) :
    readShort options argument names = (options.applyAll items).map (reached awaited) := by
  induction said generalizing options with
  | done => rfl
  | switch named rest ih =>
      rw [readShort, OptionName.ofShort?_eq_some_iff.mpr named, applyAll_cons]
      simp only [ih, apply]
      cases options.turnOn _ <;> rfl
  | awaiting named =>
      rw [readShort, OptionName.ofShort?_eq_some_iff.mpr named]
      rfl
  | @joined name first setting value named unequal =>
      rw [applyAll_singleton]
      simp only [readShort, OptionName.ofShort?_eq_some_iff.mpr named, apply]
      -- Only the last of the three ways to go on is for a value without an equals sign.
      split
      · next same => cases same
      · next same =>
          cases same
          exact absurd rfl unequal
      · cases options.set setting _ <;> rfl
  | equated named =>
      rw [applyAll_singleton]
      simp only [readShort, OptionName.ofShort?_eq_some_iff.mpr named, apply]
      cases options.set _ _ <;> rfl

theorem letters_of_readShort {options : Options} {argument : String} {names : List Char}
    {next : Reading} (read : readShort options argument names = .ok next) :
    ∃ items awaited, Letters names items awaited := by
  induction names generalizing options with
  | nil => exact ⟨_, _, .done⟩
  | cons name names ih =>
      rw [readShort] at read
      cases found : OptionName.ofShort? name with
      | none => simp [found] at read
      | some option =>
          have named := OptionName.ofShort?_eq_some_iff.mp found
          cases option with
          | switch switch =>
              simp only [found] at read
              rcases eq_ok_of_bind read with ⟨options', -, read⟩
              rcases ih read with ⟨items, awaited, rest⟩
              exact ⟨_, _, .switch named rest⟩
          | setting setting =>
              cases names with
              | nil => exact ⟨_, _, .awaiting named⟩
              | cons first value =>
                  by_cases equal : first = '='
                  · subst equal
                    exact ⟨_, _, .equated named⟩
                  · exact ⟨_, _, .joined named equal⟩

theorem readLong_of_name {name : String} {option : OptionName}
    (named : LongName name option) (options : Options) (argument : String) :
    readLong options argument name.toList =
      match option with
      | .switch switch => return { options := ← options.turnOn switch }
      | .setting setting => .ok { options, awaited := some setting } := by
  have found := OptionName.ofLong?_eq_some_iff.mpr named
  have plain := named.plain.1
  have taken : name.toList.takeWhile (· != '=') = name.toList :=
    List.takeWhile_eq_self_iff.mpr plain
  have dropped : name.toList.dropWhile (· != '=') = [] :=
    List.dropWhile_eq_nil_iff.mpr plain
  unfold readLong
  simp only [taken, dropped, String.ofList_toList, found]
  cases option <;> rfl

theorem readLong_of_equated {name value : String} {option : OptionName}
    (named : LongName name option) (options : Options) (argument : String) :
    readLong options argument (name.toList ++ '=' :: value.toList) =
      match option with
      | .switch switch => .error (.fault (.unwantedValue switch value))
      | .setting setting => return { options := ← options.set setting value } := by
  have found := OptionName.ofLong?_eq_some_iff.mpr named
  have plain := named.plain.1
  have taken : (name.toList ++ '=' :: value.toList).takeWhile (· != '=') = name.toList := by
    rw [List.takeWhile_append_of_pos plain]
    simp
  have dropped : (name.toList ++ '=' :: value.toList).dropWhile (· != '=') =
      '=' :: value.toList := by
    rw [List.dropWhile_append_of_pos plain]
    simp
  unfold readLong
  simp only [taken, dropped, String.ofList_toList, found]
  cases option <;> rfl

theorem readArgument_long {argument : String} {text : List Char}
    (chars : argument.toList = '-' :: '-' :: text) (named : text ≠ []) (options : Options) :
    readArgument { options } argument = readLong options argument text := by
  cases text with
  | nil => exact absurd rfl named
  | cons first rest => simp [readArgument, chars]

theorem readArgument_short {argument : String} {name : Char} {names : List Char}
    (chars : argument.toList = '-' :: name :: names) (short : name ≠ '-') (options : Options) :
    readArgument { options } argument = readShort options argument (name :: names) := by
  simp [readArgument, chars, short]

theorem readArgument_of_said {argument : String} {items : List Item} {awaited : Option Setting}
    (said : Says argument items awaited) (options : Options) :
    readArgument { options } argument = (options.applyAll items).map (reached awaited) := by
  cases said with
  | @switch name switch named =>
      have chars : ("--" ++ name).toList = '-' :: '-' :: name.toList := by simp
      rw [readArgument_long chars named.plain.2, readLong_of_name named,
        applyAll_singleton]
      simp only [apply]
      cases options.turnOn switch <;> rfl
  | @awaiting name setting named =>
      have chars : ("--" ++ name).toList = '-' :: '-' :: name.toList := by simp
      rw [readArgument_long chars named.plain.2, readLong_of_name named]
      rfl
  | @equated name value setting named =>
      have chars : ("--" ++ name ++ "=" ++ value).toList =
          '-' :: '-' :: (name.toList ++ '=' :: value.toList) := by
        simp
      rw [readArgument_long chars (by simp), readLong_of_equated named, applyAll_singleton]
      simp only [apply]
      cases options.set setting value <;> rfl
  | letters said =>
      rw [readArgument_short String.toList_ofList said.ne_dash]
      exact readShort_of_letters said options _

theorem says_of_readLong {options : Options} {argument : String} {text : List Char}
    {next : Reading} (chars : argument.toList = '-' :: '-' :: text)
    (read : readLong options argument text = .ok next) :
    ∃ items awaited, Says argument items awaited := by
  have divided : text.takeWhile (· != '=') ++ text.dropWhile (· != '=') = text :=
    List.takeWhile_append_dropWhile
  unfold readLong at read
  generalize text.takeWhile (· != '=') = name at divided read
  cases rest : text.dropWhile (· != '=') with
  | nil =>
      have spelled : argument = "--" ++ String.ofList name := by
        rw [← String.toList_inj, chars, ← divided, rest]
        simp
      rw [spelled]
      cases found : OptionName.ofLong? (String.ofList name) with
      | none => simp [rest, found] at read
      | some option =>
          have named := OptionName.ofLong?_eq_some_iff.mp found
          cases option with
          | switch switch => exact ⟨_, _, .switch named⟩
          | setting setting => exact ⟨_, _, .awaiting named⟩
  | cons char value =>
      have equal : char = '=' := by
        have stopped := List.head?_dropWhile_not (· != '=') text
        simpa [rest] using stopped
      have spelled : argument = "--" ++ String.ofList name ++ "=" ++ String.ofList value := by
        rw [← String.toList_inj, chars, ← divided, rest, equal]
        simp
      rw [spelled]
      cases found : OptionName.ofLong? (String.ofList name) with
      | none => simp [rest, found] at read
      | some option =>
          have named := OptionName.ofLong?_eq_some_iff.mp found
          cases option with
          | switch switch => simp [rest, found] at read
          | setting setting => exact ⟨_, _, .equated named⟩

theorem says_of_readArgument {options : Options} {argument : String} {next : Reading}
    (read : readArgument { options } argument = .ok next) :
    argument = "--" ∨ ∃ items awaited, Says argument items awaited := by
  cases chars : argument.toList with
  | nil => simp [readArgument, chars, readPlain] at read
  | cons dash rest =>
      by_cases dashed : dash = '-'
      · subst dashed
        cases rest with
        | nil => simp [readArgument, chars, readPlain] at read
        | cons name names =>
            by_cases long : name = '-'
            · subst long
              cases names with
              | nil =>
                  left
                  rw [← String.toList_inj, chars]
                  rfl
              | cons first text =>
                  rw [readArgument_long chars (by simp)] at read
                  exact Or.inr (says_of_readLong chars read)
            · rw [readArgument_short chars long] at read
              rcases letters_of_readShort read with ⟨items, awaited, said⟩
              have spelled : argument = String.ofList ('-' :: name :: names) := by
                rw [← chars, String.ofList_toList]
              exact Or.inr ⟨items, awaited, spelled ▸ .letters said⟩
      · simp [readArgument, chars, dashed, readPlain] at read

theorem readArgument_of_awaited {value : String} (alone : StandsAlone value) (options : Options)
    (setting : Setting) :
    readArgument { options, awaited := some setting } value =
      (options.set setting value).map (reached none) := by
  have plain : readArgument { options, awaited := some setting } value =
      readPlain { options, awaited := some setting } value := by
    rcases alone with rfl | undashed
    · rfl
    · cases chars : value.toList with
      | nil => simp [readArgument, chars]
      | cons first rest =>
          have different : first ≠ '-' := by simpa [chars] using undashed
          simp [readArgument, chars, different]
  rw [plain, readPlain]
  dsimp only
  cases options.set setting value <;> rfl

theorem standsAlone_of_readArgument {options : Options} {setting : Setting} {value : String}
    {next : Reading}
    (read : readArgument { options, awaited := some setting } value = .ok next) :
    StandsAlone value := by
  cases chars : value.toList with
  | nil => exact Or.inr (by simp [chars])
  | cons first rest =>
      by_cases dashed : first = '-'
      · subst dashed
        cases rest with
        | nil =>
            left
            rw [← String.toList_inj, chars]
            rfl
        | cons name names => simp [readArgument, chars] at read
      · exact Or.inr (by simpa [chars] using dashed)

/-! ## Command lines -/

/-- What was asked for at the end, unless a value is missing. -/
def finish (reading : Reading) : Except Stop Options :=
  match reading.awaited with
  | some setting => .error (.fault (.missingValue setting))
  | none => return reading.options

/-- Read what is left of a command line. -/
def readAll (reading : Reading) (arguments : List String) : Except Stop Options :=
  arguments.foldlM readArgument reading >>= finish

theorem ofArguments_eq (arguments : List String) : ofArguments arguments = readAll {} arguments :=
  rfl

section Lists

variable {argument value : String} {items : List Item} {awaited : Option Setting}

theorem readAll_cons (reading : Reading) (argument : String) (arguments : List String) :
    readAll reading (argument :: arguments) =
      readArgument reading argument >>= fun next => readAll next arguments := by
  rw [readAll, List.foldlM_cons, bind_assoc]
  rfl

theorem readAll_said (said : Says argument items awaited) (options : Options)
    (arguments : List String) :
    readAll { options } (argument :: arguments) =
      options.applyAll items >>= fun next => readAll { options := next, awaited } arguments := by
  rw [readAll_cons, readArgument_of_said said]
  cases options.applyAll items <;> rfl

theorem readAll_awaited (alone : StandsAlone value) (options : Options) (setting : Setting)
    (arguments : List String) :
    readAll { options, awaited := some setting } (value :: arguments) =
      options.set setting value >>= fun next => readAll { options := next } arguments := by
  rw [readAll_cons, readArgument_of_awaited alone]
  cases options.set setting value <;> rfl

end Lists

theorem readAll_of_spells {arguments : List String} {items : List Item}
    (spelled : Spells arguments items) (options : Options) :
    readAll { options } arguments = options.applyAll items := by
  induction spelled generalizing options with
  | nil => rfl
  | closed => rfl
  | argument said rest ih =>
      rw [readAll_said said, applyAll_append]
      exact bind_congr ih
  | pair said alone rest ih =>
      rw [readAll_said said, applyAll_append]
      refine bind_congr fun next => ?_
      rw [readAll_awaited alone, applyAll_cons]
      exact bind_congr ih

/-- Nothing follows two dashes alone. -/
theorem eq_nil_of_closed {arguments : List String} {options result : Options}
    (read : readAll { options, closed := true } arguments = .ok result) : arguments = [] := by
  cases arguments with
  | nil => rfl
  | cons argument arguments => cases read

/-- Between two arguments, either anything can follow or a value has to. -/
theorem spells_of_readAll (arguments : List String) :
    (∀ options result, readAll { options } arguments = .ok result →
      ∃ items, Spells arguments items) ∧
    ∀ options setting result, readAll { options, awaited := some setting } arguments = .ok result →
      ∃ value rest items, arguments = value :: rest ∧ StandsAlone value ∧ Spells rest items := by
  -- An argument may leave its value to the next one, so both states are carried along.
  induction arguments with
  | nil =>
      refine ⟨fun _ _ _ => ⟨[], .nil⟩, ?_⟩
      intro options setting result read
      cases read
  | cons argument arguments ih =>
      constructor
      · intro options result read
        rcases eq_ok_of_bind ((readAll_cons _ _ _).symm.trans read) with ⟨next, here, rest⟩
        rcases says_of_readArgument here with rfl | ⟨items, awaited, said⟩
        · cases here
          rw [eq_nil_of_closed rest]
          exact ⟨[], .closed⟩
        · rw [readAll_said said] at read
          rcases eq_ok_of_bind read with ⟨options', -, rest⟩
          cases awaited with
          | none =>
              rcases ih.1 options' result rest with ⟨more, spelled⟩
              exact ⟨_, .argument said spelled⟩
          | some setting =>
              rcases ih.2 options' setting result rest with
                ⟨value, rest, more, rfl, alone, spelled⟩
              exact ⟨_, .pair said alone spelled⟩
      · intro options setting result read
        rcases eq_ok_of_bind ((readAll_cons _ _ _).symm.trans read) with ⟨next, here, -⟩
        have alone := standsAlone_of_readArgument here
        rw [readAll_awaited alone] at read
        rcases eq_ok_of_bind read with ⟨options', -, rest⟩
        rcases ih.1 options' result rest with ⟨items, spelled⟩
        exact ⟨argument, arguments, items, rfl, alone, spelled⟩

/-- A command line that spells a list of items is read as these items, one after the other. -/
theorem ofArguments_of_spells {arguments : List String} {items : List Item}
    (spelled : Spells arguments items) :
    ofArguments arguments = ({} : Options).applyAll items := by
  rw [ofArguments_eq]
  exact readAll_of_spells spelled {}

theorem spells_of_ofArguments {arguments : List String} {options : Options}
    (read : ofArguments arguments = .ok options) : ∃ items, Spells arguments items := by
  rw [ofArguments_eq] at read
  exact (spells_of_readAll arguments).1 {} options read

end Options

end Microcode
