import VisualNovel.CommandLine.Command
import VisualNovel.Play.Slots
import VisualNovel.Play.Terminal

/-!
# The program

Runs a command line on the disk and the terminal.
-/

namespace VisualNovel.Disk

/-- The failure the system reported. Its number comes with either sign. -/
def failure (e : IO.Error) : FileError :=
  match e with
  | .noFileOrDirectory .. => .notFound
  | .alreadyExists .. => .exists
  | .inappropriateType _ code _ =>
    if code.toInt32.toInt.natAbs = 20 then .notFolder else .isFolder
  | .invalidArgument _ code _ =>
    if code.toInt32.toInt.natAbs = 36 then .nameTooLong else .other (toString e)
  | e => .other (toString e)

/-- The outcome of an action on a path, which is not begun if no system takes the path. -/
def attempt {α : Type} (path : String) (action : IO α) : IO (Except FileError α) := do
  match FileTree.stepsOf path with
  | .error e => pure (.error e)
  | .ok _ => try pure (.ok (← action)) catch e => pure (.error (failure e))

/-- Whether a path leads to something. -/
def hasPath (path : String) : IO Bool := do
  pure ((← attempt path do (← IO.FS.realPath path).pathExists).toOption.getD false)

/-- Whether a path leads to a folder. -/
def hasFolder (path : String) : IO Bool := do
  pure ((← attempt path do (← IO.FS.realPath path).isDir).toOption.getD false)

/-- The files at or below a path. -/
partial def filesBelow (path : String) : IO (List String) := do
  if ← hasFolder path then
    let entries ← (← IO.FS.realPath path).readDir
    let below ← entries.toList.mapM fun e => filesBelow (Path.join path e.fileName)
    pure below.flatten
  else if ← hasPath path then pure [path]
  else pure []

/-- Access to the files on the disk. -/
def files : FileAccess IO where
  hasPath := hasPath
  hasFolder := hasFolder
  read path := attempt path do pure (← IO.FS.readBinFile path).data.toList
  write path content := attempt path (IO.FS.writeBinFile path ⟨content.toArray⟩)
  openToAppend path := attempt path (discard (IO.FS.Handle.mk path .append))
  makeFolder path := attempt path (IO.FS.createDir path)
  filesBelow path := do
    try filesBelow path catch _ => pure []

/-- Prints text at once. -/
def print (text : String) : IO Unit := do
  IO.print text
  (← IO.getStdout).flush

/-- The surroundings of a command. -/
def host : Host IO where
  files := files
  print := print
  report := IO.eprint

/-- The bytes up to the next line feed or the end, after those read so far. -/
partial def readLine (input : IO.FS.Stream) (bytes : ByteArray) : IO ByteArray := do
  let next ← input.read 1
  let bytes := bytes ++ next
  if next.isEmpty || next.data.contains 10 then pure bytes else readLine input bytes

/-- The next line that is typed; none at the end, and none if it is not text. -/
def nextLine : IO (Option String) := do
  let bytes ← readLine (← IO.getStdin) .empty
  pure (if bytes.isEmpty then none else Text.ofBytes? bytes.data.toList)

/-- Asks until the reader answers. -/
partial def ask (q : Question) : IO Answer := do
  print q.text
  match q.answer? (← nextLine) with
  | some a => pure a
  | none =>
    print "invalid\n"
    ask q

/-- The terminal. -/
def console : Console IO where
  say line := print (line ++ "\n")
  ask := ask

/-- Plays until the session ends. -/
partial def play (s : Showing) (p : Player) : IO Unit := do
  let (p, goesOn) ← p.round console.renderer (files.slots s.savePath)
  if goesOn then
    if s.realtime then IO.sleep (.ofNat p.setup.player.tickMs)
    play s p

end VisualNovel.Disk

open VisualNovel in
/-- Runs the command line and answers the exit code. -/
def main (words : List String) : IO UInt32 := do
  match ← Disk.host.run words with
  | .leave code => pure code
  | .play showing =>
    Disk.play showing showing.opened
    pure 0
