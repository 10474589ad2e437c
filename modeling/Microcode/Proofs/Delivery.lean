import Microcode.Proofs.Effects
import Microcode.Proofs.Files
import Microcode.Proofs.Requests

namespace Microcode

/-!
What a run of the command delivers.

A run that succeeds delivers the rendering of the words that the listing is converted to.
Where the listing comes from and where the text goes to have no influence on the text.  The
listing has been read to its end before the output is created, so both may be one file.
-/

namespace Command

/-- A text was put where it belongs, and nothing else was printed or changed on the disk. -/
structure Leaves (text : Bytes) (before : Workspace) (output : Option String)
    (after : Workspace) : Prop where
  printed : output = none → after.output = before.output ++ text ∧ after.disk = before.disk
  stored : ∀ path, output = some path →
    after.output = before.output ∧
    ∃ file, before.disk.Stored file text after.disk ∧
      after.disk.openPath path = .ok (.file file)

section Runs

variable {workspace after elsewhere later : Workspace} {arguments arguments' : List String}
  {options other : Options} {items others : List Item} {source : Source} {text bytes : Bytes}

theorem Delivers.leaves {output : Option String} (delivered : Delivers text workspace output after) :
    Leaves text workspace output after := by
  cases delivered with
  | printed => exact ⟨fun _ => ⟨rfl, rfl⟩, fun path named => by cases named⟩
  | stored created =>
      refine ⟨fun unnamed => (by cases unnamed), fun path named => ?_⟩
      cases named
      exact ⟨rfl, _, Disk.stored_of_create created text⟩

/-- A listing without a fault is all that a file holds. -/
theorem Supplies.exists_file {path : String} (supplied : Supplies workspace (some path) { bytes }) :
    ∃ file, workspace.disk.openPath path = .ok (.file file) ∧
      workspace.disk.find? file = some bytes := by
  cases supplied with
  | file opened held sound => exact ⟨_, opened, held⟩

/-- A file that can be opened takes the text that is delivered to it. -/
theorem Delivers.stored_of_openPath {path : String} {file : Path}
    (delivered : Delivers text workspace (some path) after)
    (opened : workspace.disk.openPath path = .ok (.file file)) :
    workspace.disk.Stored file text after.disk := by
  cases delivered with
  | stored created =>
      cases Disk.eq_of_create opened created
      exact (Disk.stored_of_create created text).1

/-- Only a source without a fault is rendered. -/
theorem eq_bytes_of_renders (renders : Renders options source text) :
    source = { bytes := source.bytes } := by
  rcases renders with ⟨listing, converted, -⟩
  rcases source with ⟨bytes, fault⟩
  cases fault with
  | none => rfl
  | some cause =>
      rw [Conversion.convert] at converted
      split at converted <;> cases converted

theorem fits_standard : ∀ tag ∈ TagSet.standard.tags, Fits tag := by
  simp only [Fits]
  decide

/-- The tags that are accepted fit if those that were named do. -/
theorem fit_settings (fit : ∀ tag ∈ options.accepted, Fits tag) :
    ∀ tag ∈ options.settings.accepted.tags, Fits tag := by
  intro tag member
  rcases TagSet.mem_foldl_insert.mp member with named | standard
  · exact fit tag named
  · exact fits_standard tag standard

theorem fit_of_settings (fit : ∀ tag ∈ options.settings.accepted.tags, Fits tag) :
    ∀ tag ∈ options.accepted, Fits tag :=
  fun tag named => fit tag (TagSet.mem_foldl_insert.mpr (Or.inl named))

/-- Any other run that agrees on the conversion delivers the same text. -/
theorem run_of_agree (fit : ∀ tag ∈ options.accepted, Fits tag)
    (renders : Renders options source text) (agree : options.request.Agree other.request)
    (read : Options.ofArguments arguments = .ok other) (unasked : other.version = false)
    (supplied : Supplies elsewhere other.input source)
    (delivered : Delivers text elsewhere other.output later) :
    elsewhere.run arguments = (0, later) := by
  have settings : other.settings = options.settings := agree.settings
  have format : other.outputFormat = options.outputFormat := agree.format
  have width : other.width = options.width := agree.width
  have fit' : ∀ tag ∈ other.accepted, Fits tag := by
    apply fit_of_settings
    rw [settings]
    exact fit_settings fit
  have renders' : Renders other source text := by
    rcases renders with ⟨listing, converted, rendered⟩
    refine ⟨listing, ?_, ?_⟩
    · rw [settings, converted]
    · rw [format, width, rendered]
  exact run_of_succeeds read unasked ⟨fit', source, text, supplied, renders', delivered⟩

/-- Valid items are read as the conversion that they ask for. -/
theorem read_of_spells (spelled : Spells arguments items) (valid : Valid items)
    (unasked : .switch .version ∉ items) :
    ∃ options, Options.ofArguments arguments = .ok options ∧ options.version = false ∧
      Asks items options.request := by
  rcases Options.exists_ofArguments_iff.mpr ⟨items, spelled, valid⟩ with ⟨options, read⟩
  have gathers := Options.gathers_of_spells spelled read
  have silent := (not_congr (gathers.holds_iff_mem .version)).mpr unasked
  exact ⟨options, read, Bool.eq_false_of_not_eq_true silent, gathers.asks⟩

/-- Options of a command line that differs in nothing but the order and number of its tags. -/
theorem reordered_tags (read : Options.ofArguments arguments = .ok options)
    (spelled : Spells arguments items) (spelled' : Spells arguments' others)
    (same : others.filter (!·.isTag) = items.filter (!·.isTag))
    (tags : ∀ tag, .setting .accept tag ∈ others ↔ .setting .accept tag ∈ items) :
    ∃ accepted, Options.ofArguments arguments' = .ok { options with accepted } ∧
      options.request.Agree { options with accepted }.request := by
  have gathers := Options.gathers_of_spells spelled read
  have named : Item.valuesOf .accept items = options.accepted := gathers.settings .accept
  refine ⟨Item.valuesOf .accept others,
    Options.ofArguments_of_same_but_tags spelled spelled' same read, ?_, rfl, rfl⟩
  apply Options.settings_withTags
  intro tag
  rw [← named, Item.mem_valuesOf, Item.mem_valuesOf, tags]

/-- A run that succeeds, and does not only introduce itself, delivers the rendering of the
words that its listing is converted to, in the format and with the settings that its arguments
ask for.  It prints the text or puts it into the one file that it changes, even into the file
that held the listing.  Any other run that agrees on the conversion delivers the same text for
the same listing.  Neither the order nor the repetition of tags makes any difference. -/
theorem successful_run_renders_conversion (spelled : Spells arguments items)
    (valid : Valid items) (unasked : .switch .version ∉ items)
    (ended : workspace.run arguments = (0, after)) :
    ∃ request bytes listing text, Asks items request ∧
      Supplies workspace request.input { bytes } ∧
      (Conversion.convert request.settings { bytes }).result = .ok listing ∧
      text = Rendering.render request.format request.width listing.store.toList ∧
      Leaves text workspace request.output after ∧
      (∀ source target, request.input = some source → request.output = some target →
        ∃ file, workspace.disk.openPath source = .ok (.file file) ∧
          workspace.disk.find? file = some bytes ∧
          (workspace.disk.openPath target = .ok (.file file) →
            after.disk.openPath source = .ok (.file file) ∧
            workspace.disk.Stored file text after.disk)) ∧
      (∀ elsewhere arguments' others request' later, Spells arguments' others → Valid others →
        .switch .version ∉ others → Asks others request' → request.Agree request' →
        Supplies elsewhere request'.input { bytes } →
        Delivers text elsewhere request'.output later →
          elsewhere.run arguments' = (0, later) ∧
            Leaves text elsewhere request'.output later) ∧
      ∀ arguments' others, Spells arguments' others →
        others.filter (!·.isTag) = items.filter (!·.isTag) →
        (∀ tag, .setting .accept tag ∈ others ↔ .setting .accept tag ∈ items) →
          workspace.run arguments' = (0, after) := by
  rcases read_of_spells spelled valid unasked with ⟨options, read, silent, asked⟩
  rcases succeeds_of_run read silent ended with ⟨fit, source, text, supplied, renders, delivered⟩
  have whole := eq_bytes_of_renders renders
  rw [whole] at supplied renders
  rcases id renders with ⟨listing, converted, rendered⟩
  refine ⟨options.request, source.bytes, listing, text, asked, supplied, converted, rendered,
    delivered.leaves, ?_, ?_, ?_⟩
  · intro path target reads writes
    rw [show options.input = some path from reads] at supplied
    rw [show options.output = some target from writes] at delivered
    rcases supplied.exists_file with ⟨file, opened, held⟩
    refine ⟨file, opened, held, fun same => ?_⟩
    have stored := delivered.stored_of_openPath same
    exact ⟨stored.openPath opened, stored⟩
  · intro elsewhere arguments' others request' later spelled' valid' unasked' asked' agree
      supplied' delivered'
    rcases read_of_spells spelled' valid' unasked' with ⟨other, read', silent', asked''⟩
    cases asked''.unique asked'
    exact ⟨run_of_agree fit renders agree read' silent' supplied' delivered', delivered'.leaves⟩
  · intro arguments' others spelled' same tags
    rcases reordered_tags read spelled spelled' same tags with ⟨accepted, read', agree⟩
    exact run_of_agree fit renders agree read' silent supplied delivered

end Runs

/-- A listing, and an older text beside it. -/
def shelf : Workspace where
  disk := { files := [(["in"], Conversion.crowded), (["out"], Utf8.encode "old\n")] }

/-- The words of the listing as an array of objects. -/
def shelfObjects : String :=
  "[\n  \x7b\n    \"address\": \"0B6\",\n" ++
  "    \"bits\": \"1000000000001000111001000000001011011000000000000000000\"\n  \x7d,\n" ++
  "  \x7b\n    \"address\": \"104\",\n" ++
  "    \"bits\": \"1111100110001000111001000000001011011000000000000000000\"\n  \x7d\n]\n"

/-- The listing is replaced by its own words as objects, and the older text is kept.  The same
text is printed when the listing is piped in, and the same file is left when a tag is named
twice and earlier.  Rows are written instead when they are asked for, or nothing is. -/
theorem renderings_on_shelf :
    ∃ after,
      shelf.run ["-iin", "-o./in", "--format", "json", "--accept", "QA1"] = (0, after) ∧
      after.disk.find? ["in"] = some (Utf8.encode shelfObjects) ∧
      after.disk.find? ["out"] = some (Utf8.encode "old\n") ∧
      after.output = [] ∧
      ({ input := Conversion.crowded } : Workspace).run ["--format=json", "--accept=QA1"] =
        (0, { input := Conversion.crowded, output := Utf8.encode shelfObjects }) ∧
      shelf.run ["--accept=QA1", "-i=in", "-o", "./in", "--accept", "QA1", "--format", "json"] =
        (0, after) ∧
      (shelf.run ["--input", "in", "--format=text", "--full-width"]).2.output =
        Utf8.encode ("0B6 10000000000010001110010000000010110110000000000000000000\n" ++
          "104 11111001100010001110010000000010110110000000000000000000\n") ∧
      (shelf.run ["--input", "in", "--capacity=+2"]).2.output =
        Utf8.encode
          ("16#0b6# => \"1000000000001000111001000000001011011000000000000000000\",\r\n" ++
            "16#104# => \"1111100110001000111001000000001011011000000000000000000\",\r\n") := by
  have status : (shelf.run ["-iin", "-o./in", "--format", "json", "--accept", "QA1"]).1 = 0 := by
    decide +kernel
  have shown : (shelf.run ["-iin", "-o./in", "--format", "json", "--accept", "QA1"]).2.disk.find?
      ["in"] = some (Utf8.encode shelfObjects) := by
    decide +kernel
  let items : List Item :=
    [.setting .input "in", .setting .output "./in", .setting .format "json",
      .setting .accept "QA1"]
  have spelled : Spells ["-iin", "-o./in", "--format", "json", "--accept", "QA1"] items :=
    .argument (.letters (.joined .input (by decide))) <|
      .argument (.letters (.joined .output (by decide))) <|
      .pair (.awaiting .format) (Or.inr (by decide)) <|
      .pair (.awaiting .accept) (Or.inr (by decide)) .nil
  let options : Options :=
    { input := some "in", output := some "./in", format := some .json, accepted := ["QA1"] }
  have read : Options.ofArguments ["-iin", "-o./in", "--format", "json", "--accept", "QA1"] =
      .ok options := rfl
  have gathers := Options.gathers_of_spells spelled read
  rcases successful_run_renders_conversion spelled gathers.valid (by decide)
    (Prod.ext status rfl) with
    ⟨request, bytes, listing, text, asked, -, -, -, leaves, inPlace, elsewhere, reordered⟩
  cases asked.unique gathers.asks
  rcases inPlace "in" "./in" rfl rfl with ⟨file, opened, held, replaced⟩
  cases opened
  cases held
  have stored := (replaced rfl).2
  cases shown.symm.trans stored.here
  have unprinted := (leaves.stored "./in" rfl).1
  refine ⟨_, Prod.ext status rfl, shown, ?_, unprinted, ?_, ?_, ?_, ?_⟩
  · exact stored.elsewhere ["out"] (by decide)
  · have spelled' : Spells ["--format=json", "--accept=QA1"]
        [.setting .format "json", .setting .accept "QA1"] :=
      .argument (@Says.equated "format" "json" .format .format) <|
        .argument (@Says.equated "accept" "QA1" .accept .accept) .nil
    have piped : Options.ofArguments ["--format=json", "--accept=QA1"] =
        .ok { format := some .json, accepted := ["QA1"] } := rfl
    have gathers' := Options.gathers_of_spells spelled' piped
    exact (elsewhere _ _ _ _ _ spelled' gathers'.valid (by decide) gathers'.asks
      ⟨rfl, rfl, rfl⟩ .piped .printed).1
  · have spelled' :
        Spells ["--accept=QA1", "-i=in", "-o", "./in", "--accept", "QA1", "--format", "json"]
          [.setting .accept "QA1", .setting .input "in", .setting .output "./in",
            .setting .accept "QA1", .setting .format "json"] :=
      .argument (@Says.equated "accept" "QA1" .accept .accept) <|
        .argument (.letters (.equated .input)) <|
        .pair (.letters (.awaiting .output)) (Or.inr (by decide)) <|
        .pair (.awaiting .accept) (Or.inr (by decide)) <|
        .pair (.awaiting .format) (Or.inr (by decide)) .nil
    exact reordered _ _ spelled' rfl (by simp [items])
  · decide +kernel
  · decide +kernel

end Command

end Microcode
