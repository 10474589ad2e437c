import Microcode.Command.Disk
import Microcode.Command.Run

namespace Microcode

/-!
The command on a disk of its own.

Here a run is a function: from a disk and what is piped in to a status, the disk
afterwards, and what was written to the two streams.  A file that was created can be written.
-/

structure Workspace where
  disk : Disk := {}
  input : Bytes := []
  /-- Why there is no end behind what is piped in. -/
  inputFault : Option String := none
  output : Bytes := []
  complaints : Bytes := []
  deriving DecidableEq, Repr

namespace Workspace

instance : Host (StateM Workspace) where
  Reader := Disk.Opened
  Writer := Path
  standardInput := do
    let workspace ← get
    return { bytes := workspace.input, fault := workspace.inputFault }
  openFile path := return (← get).disk.openPath path
  readFile file := return (← get).disk.read file
  createFile path := do
    let workspace ← get
    match workspace.disk.create path with
    | .ok (file, disk) =>
        set { workspace with disk := disk }
        return .ok file
    | .error fault => return .error fault
  writeFile file text := do
    modify fun workspace => { workspace with disk := workspace.disk.extend file text }
    return .ok ()
  print text := modify fun workspace => { workspace with output := workspace.output ++ text }
  complain text :=
    modify fun workspace => { workspace with complaints := workspace.complaints ++ text }

/-- Run the command with some arguments. -/
def run (workspace : Workspace) (arguments : List String) : UInt32 × Workspace :=
  (Command.run arguments : StateM Workspace UInt32).run workspace

end Workspace

end Microcode
