import Microcode.Command.Run

namespace Microcode

/-!
The command on the system at hand.
-/

namespace Terminal

def fileFault : IO.Error → FileFault
  | .noFileOrDirectory _ _ _ => .notFound
  | .inappropriateType _ 20 _ => .notFolder
  | .inappropriateType _ 21 _ => .isFolder
  | error => .other (toString error)

/-- Read chunks until there are no more, or until one cannot be read. -/
def drain (chunk : IO ByteArray) : IO Source := do
  let mut bytes : Array UInt8 := #[]
  repeat
    try
      let next ← chunk
      if next.isEmpty then return { bytes := bytes.toList }
      bytes := bytes ++ next.data
    catch error =>
      return { bytes := bytes.toList, fault := some (fileFault error).message }
  return { bytes := bytes.toList }

instance : Host IO where
  Reader := IO.FS.Handle
  Writer := IO.FS.Handle
  standardInput := do
    let stream ← IO.getStdin
    drain (stream.read 65536)
  openFile path := do
    try
      return .ok (← IO.FS.Handle.mk path .read)
    catch error => return .error (fileFault error)
  readFile handle := drain (handle.read 65536)
  createFile path := do
    try
      return .ok (← IO.FS.Handle.mk path .write)
    catch error => return .error (fileFault error)
  writeFile handle text := do
    try
      handle.write ⟨text.toArray⟩
      handle.flush
      return .ok ()
    catch error => return .error (fileFault error)
  print text := do
    let stream ← IO.getStdout
    stream.write ⟨text.toArray⟩
    stream.flush
  complain text := do
    let stream ← IO.getStderr
    stream.write ⟨text.toArray⟩

end Terminal

end Microcode

def main (arguments : List String) : IO UInt32 :=
  Microcode.Command.run arguments
