import Microcode.Command.Disk
import Mathlib.Data.List.Basic

namespace Microcode
namespace Disk

/-!
What creating and writing a file does to a disk.

A file that is created is empty, and it is the one that its path leads to, even where there was
none before.  What is written is then all that it holds, and nothing else on the disk differs.
-/

/-- A file of the disk has new contents, and nothing else differs. -/
structure Stored (before : Disk) (file : Path) (contents : Bytes) (after : Disk) : Prop where
  here : after.find? file = some contents
  elsewhere : ∀ other, other ≠ file → after.find? other = before.find? other
  folders : after.folders = before.folders
  current : after.current = before.current
  damages : after.damages = before.damages

section Lookups

variable {file other : Path} {contents : Bytes} {files : List (Path × Bytes)}

theorem lookup_map_self (present : (files.lookup file).isSome) :
    (files.map fun entry => if entry.1 = file then (file, contents) else entry).lookup file =
      some contents := by
  induction files with
  | nil => cases present
  | cons entry entries ih =>
      rcases entry with ⟨name, old⟩
      by_cases same : name = file
      · simp [same]
      · have different : (file == name) = false := beq_eq_false_iff_ne.mpr (Ne.symm same)
        simp only [List.lookup_cons, different] at present
        simp only [List.map_cons, if_neg same, List.lookup_cons, different]
        exact ih present

theorem lookup_map_of_ne (different : other ≠ file) :
    (files.map fun entry => if entry.1 = file then (file, contents) else entry).lookup other =
      files.lookup other := by
  induction files with
  | nil => rfl
  | cons entry entries ih =>
      rcases entry with ⟨name, old⟩
      by_cases same : name = file
      · have apart : (other == file) = false := beq_eq_false_iff_ne.mpr different
        simp only [List.map_cons, if_pos, List.lookup_cons, same, apart]
        exact ih
      · simp only [List.map_cons, if_neg same, List.lookup_cons, ih]

end Lookups

theorem stored_put (disk : Disk) (file : Path) (contents : Bytes) :
    Stored disk file contents (disk.put file contents) := by
  unfold put
  cases found : disk.find? file with
  | none =>
      refine ⟨?_, ?_, rfl, rfl, rfl⟩
      · have absent : disk.files.lookup file = none := found
        simp [find?, List.lookup_append, absent]
      · intro other different
        have apart : (other == file) = false := by simpa using different
        simp [find?, List.lookup_append, List.lookup_cons, apart]
  | some old =>
      have present : (disk.files.lookup file).isSome := Option.isSome_of_eq_some found
      exact ⟨lookup_map_self present, fun other different => lookup_map_of_ne different, rfl,
        rfl, rfl⟩

section Creating

variable {before created after : Disk} {file folder : Path} {contents text : Bytes} {path : String}

/-- Of two contents that a file was given, only the later ones count. -/
theorem Stored.trans (first : Stored before file contents created)
    (second : Stored created file text after) : Stored before file text after where
  here := second.here
  elsewhere other different := (second.elsewhere other different).trans (first.elsewhere other different)
  folders := second.folders.trans first.folders
  current := second.current.trans first.current
  damages := second.damages.trans first.damages

theorem Stored.extend (stored : Stored before file contents created) (text : Bytes) :
    Stored before file (contents ++ text) (created.extend file text) := by
  have extended := stored_put created file ((created.find? file).getD [] ++ text)
  rw [stored.here, Option.getD_some] at extended
  rw [Disk.extend, stored.here, Option.getD_some]
  exact stored.trans extended

/-- Where a path leads to a file, there is one. -/
theorem exists_of_follow {disk : Disk} {names : List String}
    (led : disk.follow folder names = .ok (.file file)) :
    ∃ contents, disk.find? file = some contents := by
  induction names generalizing folder with
  | nil => cases led
  | cons name names ih =>
      simp only [Disk.follow] at led
      by_cases dot : name = "."
      · rw [if_pos dot] at led
        exact ih led
      · rw [if_neg dot] at led
        by_cases dots : name = ".."
        · rw [if_pos dots] at led
          exact ih led
        · rw [if_neg dots] at led
          by_cases known : folder ++ [name] ∈ disk.folders
          · rw [if_pos known] at led
            exact ih led
          · rw [if_neg known] at led
            cases names with
            | nil =>
                cases found : disk.find? (folder ++ [name]) with
                | none => simp [found] at led
                | some contents =>
                    have same : folder ++ [name] = file := by simpa [found] using led
                    exact ⟨contents, same ▸ found⟩
            | cons next names =>
                cases found : disk.find? (folder ++ [name]) <;> simp [found] at led

/-- A way to the stored file, or to where it was put, leads to it. -/
theorem Stored.follow (stored : Stored before file contents after) {names : List String}
    (led : before.follow folder names = .ok (.file file) ∨
      before.follow folder names = .ok (.vacant file)) :
    after.follow folder names = .ok (.file file) := by
  induction names generalizing folder with
  | nil => rcases led with led | led <;> cases led
  | cons name names ih =>
      simp only [Disk.follow, stored.folders] at led ⊢
      by_cases dot : name = "."
      · rw [if_pos dot] at led ⊢
        exact ih led
      · rw [if_neg dot] at led ⊢
        by_cases dots : name = ".."
        · rw [if_pos dots] at led ⊢
          exact ih led
        · rw [if_neg dots] at led ⊢
          by_cases known : folder ++ [name] ∈ before.folders
          · rw [if_pos known] at led ⊢
            exact ih led
          · rw [if_neg known] at led ⊢
            -- A file stands only at the end of the names, and so does the place for a new one.
            cases names with
            | nil =>
                have same : folder ++ [name] = file := by
                  cases found : before.find? (folder ++ [name]) <;> simpa [found] using led
                rw [same, stored.here]
            | cons next names =>
                cases found : before.find? (folder ++ [name]) <;> simp [found] at led

/-- A path is followed from the root or from the folder in which the command works. -/
theorem locate_eq (disk : Disk) (path : String) :
    disk.locate path =
      if path.toList = [] then .error .notFound
      else disk.follow (if path.toList.head? = some '/' then [] else disk.current) (names path) := by
  unfold Disk.locate
  split
  · next empty => rw [if_pos empty]
  · next slash => simp [slash]
  · next nonempty relative =>
      rw [if_neg nonempty, if_neg]
      intro first
      rcases List.head?_eq_some_iff.mp first with ⟨rest, slash⟩
      exact relative rest slash

theorem Stored.locate (stored : Stored before file contents after)
    (led : before.locate path = .ok (.file file) ∨ before.locate path = .ok (.vacant file)) :
    after.locate path = .ok (.file file) := by
  rw [locate_eq] at led ⊢
  rw [stored.current]
  by_cases empty : path.toList = []
  · rw [if_pos empty] at led
    rcases led with led | led <;> cases led
  · rw [if_neg empty] at led ⊢
    exact stored.follow led

theorem exists_of_locate {disk : Disk} (led : disk.locate path = .ok (.file file)) :
    ∃ contents, disk.find? file = some contents := by
  rw [locate_eq] at led
  split at led
  · cases led
  · exact exists_of_follow led

theorem openPath_eq_file_iff {disk : Disk} :
    disk.openPath path = .ok (.file file) ↔
      disk.locate path = .ok (.file file) ∧ endsWithSlash path = false := by
  unfold openPath
  cases led : disk.locate path with
  | error fault => simp [bind, Except.bind]
  | ok place => cases place <;> cases slash : endsWithSlash path <;> simp [bind, Except.bind]

theorem Stored.openPath (stored : Stored before file contents after)
    (found : before.openPath path = .ok (.file file)) : after.openPath path = .ok (.file file) := by
  rcases openPath_eq_file_iff.mp found with ⟨led, slashless⟩
  exact openPath_eq_file_iff.mpr ⟨stored.locate (Or.inl led), slashless⟩

/-! ## Reading -/

theorem read_of_sound {disk : Disk} (held : disk.find? file = some contents)
    (sound : disk.damage? file = none) : disk.read (.file file) = { bytes := contents } := by
  simp only [read, held, sound, Option.getD_some]

theorem read_of_damage {disk : Disk} {damage : Damage} (held : disk.find? file = some contents)
    (found : disk.damage? file = some damage) :
    disk.read (.file file) =
      { bytes := contents.take damage.readable, fault := some damage.cause } := by
  simp only [read, held, found, Option.getD_some]

/-! ## Creating -/

theorem create_eq_ok_iff :
    before.create path = .ok (file, created) ↔
      (before.locate path = .ok (.file file) ∨ before.locate path = .ok (.vacant file)) ∧
        endsWithSlash path = false ∧ before.put file [] = created := by
  unfold create
  cases led : before.locate path with
  | error fault => simp [bind, Except.bind]
  | ok place =>
      cases place <;> cases slash : endsWithSlash path <;>
        simp +contextual [bind, Except.bind]

/-- What is written to a file that was created is stored where its path leads to. -/
theorem stored_of_create (made : before.create path = .ok (file, created)) (text : Bytes) :
    Stored before file text (created.extend file text) ∧
      (created.extend file text).openPath path = .ok (.file file) := by
  rcases create_eq_ok_iff.mp made with ⟨led, slashless, rfl⟩
  have stored : Stored before file text ((before.put file []).extend file text) :=
    (stored_put before file []).extend text
  exact ⟨stored, openPath_eq_file_iff.mpr ⟨stored.locate led, slashless⟩⟩

/-- The file that is created at a path is the one that could be opened there. -/
theorem eq_of_create {opened : Path} (found : before.openPath path = .ok (.file opened))
    (made : before.create path = .ok (file, created)) : file = opened := by
  have there := (openPath_eq_file_iff.mp found).1
  rcases (create_eq_ok_iff.mp made).1 with led | led <;> cases there.symm.trans led
  rfl

end Creating

end Disk
end Microcode
