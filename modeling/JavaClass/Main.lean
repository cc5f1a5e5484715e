import JavaClass.ClassFile.Listing

/-!
# Command line

Prints the listing of a class file. `--quiet` leaves the listing out, and `--rewrite` names a file
to which the class is written again. What was noticed while reading goes to standard error.
-/

namespace JavaClass.CommandLine

/-- What the command line asks for. -/
structure Request where
  /-- The class file to read. -/
  input : Option String := none
  /-- The file to write the class to. -/
  output : Option String := none
  /-- Whether the listing is left out. -/
  quiet : Bool := false

/-- What the arguments ask for, if they can be understood. -/
def Request.ofArguments? (request : Request) : List String → Option Request
  | [] => if request.input.isSome then some request else none
  | "-q" :: arguments | "--quiet" :: arguments =>
    ofArguments? { request with quiet := true } arguments
  | "--rewrite" :: path :: arguments => ofArguments? { request with output := some path } arguments
  | path :: arguments =>
    if request.input.isSome || path.startsWith "-" then none
    else ofArguments? { request with input := some path } arguments

/-- What to print about a request that cannot be understood. -/
def usage : String := "usage: [--quiet] [--rewrite OUTPUT] INPUT"

/-- The directory part of a path, which is empty for a file in the working directory. -/
def directoryOf (path : String) : String := "/".intercalate (path.splitOn "/").dropLast

/-- Writes a class to a file, whose directory is made if it is missing, and notes if the file
differs from the one that was read. -/
def write (file : ClassFile) (input : Bytes) (path : String) : IO UInt32 := do
  match file.toBytes with
  | .error cause =>
    IO.eprintln cause.message
    return 1
  | .ok bytes =>
    unless (directoryOf path).isEmpty do IO.FS.createDirAll (directoryOf path)
    IO.FS.writeBinFile path (ByteArray.mk bytes.toArray)
    if bytes ≠ input then IO.eprintln s!"{path} differs from the input"
    return 0

/-- Does what a request asks for. -/
def serve (request : Request) : IO UInt32 := do
  let some path := request.input | return 2
  let input := (← IO.FS.readBinFile path).toList
  let reading := ClassFile.ofBytes input
  for report in reading.reports do
    IO.eprintln report.message
  match reading.outcome with
  | .error cause =>
    IO.eprintln cause.message
    return 1
  | .ok (file, _) =>
    unless request.quiet do IO.print file.listing
    match request.output with
    | some path => write file input path
    | none => return 0

end JavaClass.CommandLine

/-- The command line program. -/
def main (arguments : List String) : IO UInt32 := do
  match JavaClass.CommandLine.Request.ofArguments? {} arguments with
  | some request => JavaClass.CommandLine.serve request
  | none =>
    IO.eprintln JavaClass.CommandLine.usage
    return 2
