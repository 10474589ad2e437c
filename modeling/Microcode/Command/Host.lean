import Microcode.Command.Failure
import Microcode.Conversion.Run

namespace Microcode

/-!
What a command needs of the system it runs on.

A file is opened before it is read, and created before it is written, so other steps may come
in between.
-/

class Host (m : Type → Type) where
  /-- A file that was opened to be read. -/
  Reader : Type
  /-- A file that was created to be written. -/
  Writer : Type
  /-- Read what is piped in. -/
  standardInput : m Source
  openFile (path : String) : m (Except FileFault Reader)
  /-- Read what can be read of a file. -/
  readFile (file : Reader) : m Source
  /-- Create a file, or empty it if it exists. -/
  createFile (path : String) : m (Except FileFault Writer)
  writeFile (file : Writer) (text : Bytes) : m (Except FileFault Unit)
  print (text : Bytes) : m Unit
  complain (text : Bytes) : m Unit

end Microcode
