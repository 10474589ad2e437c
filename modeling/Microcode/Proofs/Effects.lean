import Microcode.Command.Workspace
import Microcode.Proofs.Files
import Microcode.Proofs.Interruption

namespace Microcode

/-!
What a run of the command does to its surroundings.

A run reads everything that it needs, converts it, and only then writes.  Writing is the
one step that changes anything but the complaints, and it is the last one.  So a failure
before it, or in it, leaves the files and what was printed as they were.
-/

namespace Command

/-- A tag takes all version columns. -/
def Fits (tag : String) : Prop :=
  (Utf8.encode tag).length = 3

/-- The listing that the command reads, from what is piped in or from a file.  A fault may
break off what is piped in or a file that can be opened.  A folder can be opened too, but there
is nothing that can be read. -/
inductive Supplies (workspace : Workspace) : Option String → Source → Prop where
  | piped : Supplies workspace none { bytes := workspace.input, fault := workspace.inputFault }
  | file {path : String} {file : Path} {contents : Bytes}
      (opened : workspace.disk.openPath path = .ok (.file file))
      (held : workspace.disk.find? file = some contents)
      (sound : workspace.disk.damage? file = none) :
      Supplies workspace (some path) { bytes := contents }
  | damaged {path : String} {file : Path} {contents : Bytes} {damage : Damage}
      (opened : workspace.disk.openPath path = .ok (.file file))
      (held : workspace.disk.find? file = some contents)
      (found : workspace.disk.damage? file = some damage) :
      Supplies workspace (some path)
        { bytes := contents.take damage.readable, fault := some damage.cause }
  | folder {path : String} (opened : workspace.disk.openPath path = .ok .folder) :
      Supplies workspace (some path)
        { bytes := [], fault := some "Is a directory (os error 21)" }

/-- Where the command puts a text: behind what was printed, or into a file. -/
inductive Delivers (text : Bytes) (workspace : Workspace) : Option String → Workspace → Prop where
  | printed : Delivers text workspace none { workspace with output := workspace.output ++ text }
  | stored {path : String} {file : Path} {disk : Disk}
      (created : workspace.disk.create path = .ok (file, disk)) :
      Delivers text workspace (some path) { workspace with disk := disk.extend file text }

/-- The text that the words of a listing are rendered as. -/
def Renders (options : Options) (source : Source) (text : Bytes) : Prop :=
  ∃ listing, (Conversion.convert options.settings source).result = .ok listing ∧
    text = Rendering.render options.outputFormat options.width listing.store.toList

/-- The ways in which a conversion can fail, in the order in which they are noticed. -/
inductive Fails (workspace : Workspace) (options : Options) : CommandFailure → Prop where
  /-- The first tag that is too long or too short is named. -/
  | tagWidth {tag : String} {earlier later : List String}
      (given : options.accepted = earlier ++ tag :: later) (fit : ∀ other ∈ earlier, Fits other)
      (misfit : ¬ Fits tag) : Fails workspace options (.tagWidth tag)
  | opening {path : String} {fault : FileFault} (fit : ∀ tag ∈ options.accepted, Fits tag)
      (named : options.input = some path)
      (refused : workspace.disk.openPath path = .error fault) :
      Fails workspace options (.opening path fault)
  | converting {source : Source} {failure : ConversionFailure}
      (fit : ∀ tag ∈ options.accepted, Fits tag)
      (supplied : Supplies workspace options.input source)
      (failed : (Conversion.convert options.settings source).result = .error failure) :
      Fails workspace options (.converting failure)
  | creating {source : Source} {text : Bytes} {path : String} {fault : FileFault}
      (fit : ∀ tag ∈ options.accepted, Fits tag)
      (supplied : Supplies workspace options.input source)
      (rendered : Renders options source text) (named : options.output = some path)
      (refused : workspace.disk.create path = .error fault) :
      Fails workspace options (.creating path fault)

/-- The only way in which a conversion can succeed. -/
structure Succeeds (workspace : Workspace) (options : Options) (after : Workspace) : Prop where
  fit : ∀ tag ∈ options.accepted, Fits tag
  rendered : ∃ source text, Supplies workspace options.input source ∧
    Renders options source text ∧ Delivers text workspace options.output after

/-! ## Single steps -/

theorem misfit?_eq_none_iff {tags : List String} :
    misfit? tags = none ↔ ∀ tag ∈ tags, Fits tag := by
  simp [misfit?, Fits]

theorem misfit?_eq_some_iff {tags : List String} {tag : String} :
    misfit? tags = some tag ↔
      ∃ earlier later, tags = earlier ++ tag :: later ∧ (∀ other ∈ earlier, Fits other) ∧
        ¬ Fits tag := by
  rw [misfit?, List.find?_eq_some_iff_append]
  constructor
  · rintro ⟨misfit, earlier, later, divided, fit⟩
    refine ⟨earlier, later, divided, ?_, by simpa [Fits] using misfit⟩
    intro other member
    simpa [Fits] using fit other member
  · rintro ⟨earlier, later, divided, fit, misfit⟩
    refine ⟨by simpa [Fits] using misfit, earlier, later, divided, ?_⟩
    intro other member
    simpa [Fits] using fit other member

theorem rendered_eq_ok_iff {options : Options} {source : Source} {text : Bytes} :
    rendered options source = .ok text ↔ Renders options source text := by
  unfold rendered Renders
  cases (Conversion.convert options.settings source).result with
  | error failure => simp
  | ok listing =>
      simp only [Except.ok.injEq, exists_eq_left']
      exact eq_comm

theorem rendered_eq_error_iff {options : Options} {source : Source} {failure : CommandFailure} :
    rendered options source = .error failure ↔
      ∃ cause, (Conversion.convert options.settings source).result = .error cause ∧
        failure = .converting cause := by
  unfold rendered
  cases (Conversion.convert options.settings source).result with
  | ok listing => simp
  | error cause =>
      simp only [Except.error.injEq, exists_eq_left']
      exact eq_comm

section Steps

variable {workspace after : Workspace} {options : Options} {source : Source} {text : Bytes}
  {path : String} {fault : FileFault}

theorem run_bind {first second : Type} (action : StateM Workspace first)
    (next : first → StateM Workspace second) (workspace : Workspace) :
    (action >>= next).run workspace =
      (next (action.run workspace).1).run (action.run workspace).2 :=
  rfl

theorem run_openFile (workspace : Workspace) (path : String) :
    (Host.openFile (m := StateM Workspace) path).run workspace =
      (workspace.disk.openPath path, workspace) :=
  rfl

theorem run_readListing_path (workspace : Workspace) (path : String) :
    (readListing (m := StateM Workspace) (some path)).run workspace =
      (((workspace.disk.openPath path).map workspace.disk.read).mapError (.opening path),
        workspace) := by
  rw [readListing, run_bind, run_openFile]
  cases workspace.disk.openPath path <;> rfl

theorem run_readListing {input : Option String} (supplied : Supplies workspace input source) :
    (readListing (m := StateM Workspace) input).run workspace = (.ok source, workspace) := by
  cases supplied with
  | piped => rfl
  | file opened held sound =>
      rw [run_readListing_path, opened]
      exact congrArg (fun source => (Except.ok source, workspace)) (Disk.read_of_sound held sound)
  | damaged opened held found =>
      rw [run_readListing_path, opened]
      exact congrArg (fun source => (Except.ok source, workspace)) (Disk.read_of_damage held found)
  | folder opened =>
      rw [run_readListing_path, opened]
      rfl

theorem run_readListing_of_refused (refused : workspace.disk.openPath path = .error fault) :
    (readListing (m := StateM Workspace) (some path)).run workspace =
      (.error (.opening path fault), workspace) := by
  rw [run_readListing_path, refused]
  rfl

theorem supplies_or_refused (workspace : Workspace) (input : Option String) :
    (∃ source, Supplies workspace input source) ∨
      ∃ path fault, input = some path ∧ workspace.disk.openPath path = .error fault := by
  cases input with
  | none => exact Or.inl ⟨_, .piped⟩
  | some path =>
      cases opened : workspace.disk.openPath path with
      | error fault => exact Or.inr ⟨path, fault, rfl, opened⟩
      | ok place =>
          cases place with
          | folder => exact Or.inl ⟨_, .folder opened⟩
          | file file =>
              rcases Disk.exists_of_locate (Disk.openPath_eq_file_iff.mp opened).1 with
                ⟨contents, held⟩
              cases found : workspace.disk.damage? file with
              | none => exact Or.inl ⟨_, .file opened held found⟩
              | some damage => exact Or.inl ⟨_, .damaged opened held found⟩

theorem run_createFile (workspace : Workspace) (path : String) :
    (Host.createFile (m := StateM Workspace) path).run workspace =
      match workspace.disk.create path with
      | .ok (file, disk) => (.ok file, { workspace with disk })
      | .error fault => (.error fault, workspace) := by
  cases created : workspace.disk.create path <;> simp [Host.createFile, created] <;> rfl

theorem run_writeWords {output : Option String} (delivered : Delivers text workspace output after) :
    (writeWords (m := StateM Workspace) output text).run workspace = (.ok (), after) := by
  cases delivered with
  | printed => rfl
  | stored created =>
      rw [writeWords, run_bind, run_createFile, created]
      rfl

theorem run_writeWords_of_refused (refused : workspace.disk.create path = .error fault) :
    (writeWords (m := StateM Workspace) (some path) text).run workspace =
      (.error (.creating path fault), workspace) := by
  rw [writeWords, run_bind, run_createFile, refused]
  rfl

theorem delivers_or_refused (text : Bytes) (workspace : Workspace) (output : Option String) :
    (∃ after, Delivers text workspace output after) ∨
      ∃ path fault, output = some path ∧ workspace.disk.create path = .error fault := by
  cases output with
  | none => exact Or.inl ⟨_, .printed⟩
  | some path =>
      cases created : workspace.disk.create path with
      | error fault => exact Or.inr ⟨path, fault, rfl, created⟩
      | ok made => exact Or.inl ⟨_, .stored created⟩

/-! ## Conversions -/

/-- With a listing at hand, nothing happens before its words are to be written. -/
theorem run_convertListing (fit : ∀ tag ∈ options.accepted, Fits tag)
    (supplied : Supplies workspace options.input source) :
    (convertListing (m := StateM Workspace) options).run workspace =
      match rendered options source with
      | .error failure => (.error failure, workspace)
      | .ok text => (writeWords (m := StateM Workspace) options.output text).run workspace := by
  rw [convertListing, misfit?_eq_none_iff.mpr fit]
  dsimp only
  rw [run_bind, run_readListing supplied]
  dsimp only
  cases rendered options source <;> rfl

theorem run_convertListing_of_fails {failure : CommandFailure}
    (fails : Fails workspace options failure) :
    (convertListing (m := StateM Workspace) options).run workspace =
      (.error failure, workspace) := by
  cases fails with
  | tagWidth given fit misfit =>
      rw [convertListing, misfit?_eq_some_iff.mpr ⟨_, _, given, fit, misfit⟩]
      rfl
  | opening fit named refused =>
      rw [convertListing, misfit?_eq_none_iff.mpr fit, named]
      dsimp only
      rw [run_bind, run_readListing_of_refused refused]
      rfl
  | converting fit supplied failed =>
      rw [run_convertListing fit supplied, rendered_eq_error_iff.mpr ⟨_, failed, rfl⟩]
  | creating fit supplied renders named refused =>
      rw [run_convertListing fit supplied, rendered_eq_ok_iff.mpr renders, named]
      exact run_writeWords_of_refused refused

theorem run_convertListing_of_succeeds (succeeds : Succeeds workspace options after) :
    (convertListing (m := StateM Workspace) options).run workspace = (.ok (), after) := by
  rcases succeeds with ⟨fit, source, text, supplied, renders, delivered⟩
  rw [run_convertListing fit supplied, rendered_eq_ok_iff.mpr renders]
  exact run_writeWords delivered

theorem fails_or_succeeds (workspace : Workspace) (options : Options) :
    (∃ failure, Fails workspace options failure) ∨ ∃ after, Succeeds workspace options after := by
  cases found : misfit? options.accepted with
  | some tag =>
      rcases misfit?_eq_some_iff.mp found with ⟨earlier, later, given, fit, misfit⟩
      exact Or.inl ⟨_, .tagWidth given fit misfit⟩
  | none =>
      have fit := misfit?_eq_none_iff.mp found
      rcases supplies_or_refused workspace options.input with
        ⟨source, supplied⟩ | ⟨path, fault, named, refused⟩
      · cases result : (Conversion.convert options.settings source).result with
        | error failure => exact Or.inl ⟨_, .converting fit supplied result⟩
        | ok listing =>
            have renders : Renders options source _ := ⟨listing, result, rfl⟩
            rcases delivers_or_refused _ workspace options.output with
              ⟨after, delivered⟩ | ⟨path, fault, named, refused⟩
            · exact Or.inr ⟨after, fit, source, _, supplied, renders, delivered⟩
            · exact Or.inl ⟨_, .creating fit supplied renders named refused⟩
      · exact Or.inl ⟨_, .opening fit named refused⟩

end Steps

/-! ## Runs -/

/-- What a run ends with: a status, and its surroundings afterwards. -/
inductive Ends (workspace : Workspace) (arguments : List String) : UInt32 → Workspace → Prop where
  | helped (asked : Options.ofArguments arguments = .error .help) :
      Ends workspace arguments 0
        { workspace with output := workspace.output ++ Utf8.encode usage }
  | misused {fault : UsageFault} (faulty : Options.ofArguments arguments = .error (.fault fault)) :
      Ends workspace arguments 2
        { workspace with
          complaints := workspace.complaints ++ Utf8.encode s!"error: {fault.message}\n" }
  | introduced {options : Options} (read : Options.ofArguments arguments = .ok options)
      (asked : options.version = true) :
      Ends workspace arguments 0
        { workspace with output := workspace.output ++ Utf8.encode (banner ++ "\n") }
  | failed {options : Options} {failure : CommandFailure}
      (read : Options.ofArguments arguments = .ok options) (unasked : options.version = false)
      (fails : Fails workspace options failure) :
      Ends workspace arguments 1
        { workspace with complaints := workspace.complaints ++ Utf8.encode failure.report }
  | succeeded {options : Options} {after : Workspace}
      (read : Options.ofArguments arguments = .ok options) (unasked : options.version = false)
      (succeeds : Succeeds workspace options after) :
      Ends workspace arguments 0 after

section Runs

variable {workspace after : Workspace} {arguments : List String} {options : Options}
  {failure : CommandFailure}

theorem run_of_fails (read : Options.ofArguments arguments = .ok options)
    (unasked : options.version = false) (fails : Fails workspace options failure) :
    workspace.run arguments =
      (1, { workspace with
        complaints := workspace.complaints ++ Utf8.encode failure.report }) := by
  rw [Workspace.run, Command.run, read]
  simp only [unasked, Bool.false_eq_true, if_false]
  rw [run_bind, run_convertListing_of_fails fails]
  rfl

theorem run_of_succeeds (read : Options.ofArguments arguments = .ok options)
    (unasked : options.version = false) (succeeds : Succeeds workspace options after) :
    workspace.run arguments = (0, after) := by
  rw [Workspace.run, Command.run, read]
  simp only [unasked, Bool.false_eq_true, if_false]
  rw [run_bind, run_convertListing_of_succeeds succeeds]
  rfl

theorem ends_run (workspace : Workspace) (arguments : List String) :
    Ends workspace arguments (workspace.run arguments).1 (workspace.run arguments).2 := by
  cases read : Options.ofArguments arguments with
  | error stop =>
      rw [Workspace.run, Command.run, read]
      cases stop with
      | help => exact .helped read
      | fault fault => exact .misused read
  | ok options =>
      cases asked : options.version with
      | true =>
          rw [Workspace.run, Command.run, read]
          simp only [asked, if_true]
          exact .introduced read asked
      | false =>
          rcases fails_or_succeeds workspace options with ⟨failure, fails⟩ | ⟨after, succeeds⟩
          · rw [run_of_fails read asked fails]
            exact .failed read asked fails
          · rw [run_of_succeeds read asked succeeds]
            exact .succeeded read asked succeeds

theorem succeeds_of_run (read : Options.ofArguments arguments = .ok options)
    (unasked : options.version = false) (ended : workspace.run arguments = (0, after)) :
    Succeeds workspace options after := by
  rcases fails_or_succeeds workspace options with ⟨failure, fails⟩ | ⟨reached, succeeds⟩
  · cases (run_of_fails read unasked fails).symm.trans ended
  · cases (run_of_succeeds read unasked succeeds).symm.trans ended
    exact succeeds

theorem Fails.not_succeeds (fails : Fails workspace options failure) :
    ¬ Succeeds workspace options after := by
  intro succeeds
  cases (run_convertListing_of_fails fails).symm.trans (run_convertListing_of_succeeds succeeds)

end Runs

/-- A run that fails changes no file and prints nothing.  It fails for a fault in its
arguments, with one status, or for a tag of the wrong width, a listing that cannot be opened
or converted, or an output that cannot be created, with another one. -/
theorem failed_run_leaves_no_trace (workspace : Workspace) (arguments : List String) :
    ((workspace.run arguments).1 ≠ 0 →
      (workspace.run arguments).2.disk = workspace.disk ∧
      (workspace.run arguments).2.output = workspace.output) ∧
    ((workspace.run arguments).1 ≠ 0 →
      (workspace.run arguments).1 = 1 ∨ (workspace.run arguments).1 = 2) ∧
    ((workspace.run arguments).1 = 2 ↔
      ∃ fault, Options.ofArguments arguments = .error (.fault fault)) ∧
    ((workspace.run arguments).1 = 1 ↔
      ∃ options failure, Options.ofArguments arguments = .ok options ∧
        options.version = false ∧ Fails workspace options failure) := by
  have ends := ends_run workspace arguments
  generalize workspace.run arguments = outcome at ends
  rcases outcome with ⟨status, after⟩
  dsimp only at ends ⊢
  cases ends with
  | helped asked => simp [asked]
  | misused faulty => simp [faulty]
  | introduced read asked => simp [read, asked]
  | failed read unasked fails =>
      simp only [read, Except.ok.injEq]
      simpa [unasked] using ⟨_, fails⟩
  | succeeded read unasked succeeds =>
      have impossible (failure : CommandFailure) : ¬ Fails workspace _ failure :=
        fun fails => fails.not_succeeds succeeds
      simp [read, unasked, impossible]

/-- A listing whose last line is refused, and an older text. -/
def desk : Workspace where
  disk := {
    files := [
      (["in"], Conversion.crowded ++ Utf8.encode "stray"),
      (["out"], Utf8.encode "old\n")] }
  output := Utf8.encode "printed\n"

/-- A listing that can be read up to its second record, and another one that is broken off
behind its end. -/
def wornDesk : Workspace where
  disk := {
    files := [(["in"], Conversion.crowded), (["out"], Utf8.encode "old\n")]
    damages := [⟨["in"], 100, "Input/output error (os error 5)"⟩] }
  input := Conversion.crowded
  inputFault := some "Input/output error (os error 5)"

/-- The refused line keeps both the older text and the listing itself from being replaced.
The same holds of a fault in the arguments, of a tag of four octets, of a file that cannot be
created, and of faults while a listing is read. -/
theorem failed_runs_on_desk :
    ((desk.run ["-i", "in", "-o", "out"]).1 = 1 ∧
      (desk.run ["-i", "in", "-o", "out"]).2.disk = desk.disk ∧
      (desk.run ["-i", "in", "-o", "out"]).2.output = desk.output) ∧
    ((desk.run ["-iin", "--output=in"]).1 = 1 ∧
      (desk.run ["-iin", "--output=in"]).2.disk = desk.disk) ∧
    ((desk.run ["-o", "out", "--capacity", "many"]).1 = 2 ∧
      (desk.run ["-o", "out", "--capacity", "many"]).2.disk = desk.disk) ∧
    ((desk.run ["-o", "new", "--accept", "A20 "]).1 = 1 ∧
      (desk.run ["-o", "new", "--accept", "A20 "]).2.disk = desk.disk) ∧
    ((desk.run ["-o", "in/new"]).1 = 1 ∧
      (desk.run ["-o", "in/new"]).2.disk = desk.disk) ∧
    ((wornDesk.run ["-i", "in", "-o", "in", "--accept=QA1"]).1 = 1 ∧
      (wornDesk.run ["-i", "in", "-o", "in", "--accept=QA1"]).2.disk = wornDesk.disk) ∧
    (wornDesk.run ["-o", "out", "--accept=QA1"]).1 = 1 ∧
      (wornDesk.run ["-o", "out", "--accept=QA1"]).2.disk = wornDesk.disk := by
  have refused : (desk.run ["-i", "in", "-o", "out"]).1 = 1 := by decide +kernel
  have inPlace : (desk.run ["-iin", "--output=in"]).1 = 1 := by decide +kernel
  have misused : (desk.run ["-o", "out", "--capacity", "many"]).1 = 2 := by decide +kernel
  have misfit : (desk.run ["-o", "new", "--accept", "A20 "]).1 = 1 := by decide +kernel
  have uncreated : (desk.run ["-o", "in/new"]).1 = 1 := by decide +kernel
  have damaged : (wornDesk.run ["-i", "in", "-o", "in", "--accept=QA1"]).1 = 1 := by
    decide +kernel
  have cutOff : (wornDesk.run ["-o", "out", "--accept=QA1"]).1 = 1 := by decide +kernel
  have unchanged {workspace : Workspace} {arguments : List String} {status : UInt32}
      (other : status ≠ 0) (ended : (workspace.run arguments).1 = status) :=
    (failed_run_leaves_no_trace workspace arguments).1 (ended ▸ other)
  exact ⟨⟨refused, unchanged (by decide) refused⟩, ⟨inPlace, (unchanged (by decide) inPlace).1⟩,
    ⟨misused, (unchanged (by decide) misused).1⟩, ⟨misfit, (unchanged (by decide) misfit).1⟩,
    ⟨uncreated, (unchanged (by decide) uncreated).1⟩,
    ⟨damaged, (unchanged (by decide) damaged).1⟩, cutOff, (unchanged (by decide) cutOff).1⟩

end Command

end Microcode
