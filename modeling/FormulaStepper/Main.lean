import FormulaStepper.CommandLine.Run

/-!
# The program

Reads files and streams, prints what is to be printed as soon as it is known,
and leaves every decision to the modules it imports.
-/

set_option autoImplicit false

namespace FormulaStepper.Main

open CommandLine

/-- The error of a file that could not be read. -/
def fileError : IO.Error → FileError
  | .noFileOrDirectory .. => .notFound
  | error => .other (toString error)

/-- The bytes of a file. -/
def readFile (path : String) : IO (Except FileError (List UInt8)) := do
  try
    let bytes ← IO.FS.readBinFile path
    return .ok bytes.toList
  catch error => return .error (fileError error)

/-- Prints text at once. -/
def emit (stream : IO.FS.Stream) (text : String) : IO Unit := do
  stream.putStr text
  stream.flush

/-- A line of input with the byte that ends it. -/
partial def readLine (stream : IO.FS.Stream) (line : ByteArray) : IO ByteArray := do
  let next ← stream.read 1
  if next.isEmpty then return line
  let line := line ++ next
  if next[0]? = some 10 then return line
  readLine stream line

/-- All of the input. -/
partial def readAll (stream : IO.FS.Stream) (read : ByteArray) : IO ByteArray := do
  let next ← stream.read 65536
  if next.isEmpty then return read
  readAll stream (read ++ next)

/-- Takes lines until the terminal session ends; says whether all could be
read. -/
partial def converse (input output : IO.FS.Stream) (terminal : Terminal) :
    IO (Terminal × Bool) := do
  if !terminal.isOpen then return (terminal, true)
  let line ← readLine input ByteArray.empty
  let (terminal, shown, readable) := terminal.converse line.toList
  emit output shown
  if line.isEmpty || !readable then return (terminal, readable)
  converse input output terminal

/-- Prints a failure and gives the exit code. -/
def conclude (failure : Option Failure) : IO UInt32 := do
  match failure with
  | none => return 0
  | some failure =>
    emit (← IO.getStderr) failure.report
    return 1

/-- A session at the terminal. -/
def runTerminal (options : Options) : IO UInt32 := do
  let file ← match options.config with
    | none => pure (.error .notFound)
    | some path => readFile path
  match launchOf options file with
  | .error failure => conclude (some failure)
  | .ok launch =>
    let output ← IO.getStdout
    let (terminal, shown) := Terminal.start launch.debugger launch.stopOnEntry
    emit output shown
    let (terminal, readable) ← converse (← IO.getStdin) output terminal
    conclude (sessionFailure? terminal.debugger readable)

/-- The headers of the next framed message. They end at an empty line after
the length, which is also returned. -/
partial def readFrameHeaders (stream : IO.FS.Stream) (read : ByteArray) (length : Option Nat) :
    IO (ByteArray × Nat) := do
  let line ← readLine stream ByteArray.empty
  let read := read ++ line
  if line.isEmpty then return (read, 0)
  match Adapter.readHeader line.toList, length with
  | .error _, _ => return (read, 0)
  | .ok .blank, some length => return (read, length)
  | .ok .blank, none => readFrameHeaders stream read none
  | .ok (.length size), _ => readFrameHeaders stream read (some size)
  | .ok .other, length => readFrameHeaders stream read length

/-- Up to `count` more bytes. -/
partial def readExactly (stream : IO.FS.Stream) (read : ByteArray) (count : Nat) :
    IO ByteArray := do
  if count = 0 then return read
  let next ← stream.read (USize.ofNat (min count 65536))
  if next.isEmpty then return read
  readExactly stream (read ++ next) (count - next.size)

/-- Serves a client message by message. -/
partial def serve (input output : IO.FS.Stream) (server : Adapter.Server) : IO UInt32 := do
  if !server.isOpen then return 0
  let (headers, length) ← readFrameHeaders input ByteArray.empty none
  let bytes ← readExactly input headers length
  match Adapter.readMessage bytes.toList with
  | .error error => conclude (some (servingFailure error))
  | .ok none => return 0
  | .ok (some (message, _)) =>
    let (server, sent) := server.handle message
    for answer in sent do
      emit output answer.wire
    serve input output server

end FormulaStepper.Main

open FormulaStepper FormulaStepper.CommandLine FormulaStepper.Main in
/-- The program's entry. -/
def main (arguments : List String) : IO UInt32 := do
  match read arguments with
  | .unusable =>
    emit (← IO.getStderr) usageLine
    return 2
  | .showVersion =>
    emit (← IO.getStdout) versionLine
    return 0
  | .showHelp =>
    emit (← IO.getStdout) usageLine
    return 0
  | .run options =>
    if options.adapter then serve (← IO.getStdin) (← IO.getStdout) Adapter.Server.start
    else runTerminal options
