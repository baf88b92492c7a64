import FirstMatch.CommandLine.Run

/-!
The program: reads the file that its arguments name, if they name one, and prints what the run
gives.
-/

open FirstMatch

/-- The number of a system error, which may be given with the other sign. -/
def errorNumber (code : UInt32) : Nat := if code < 0x80000000 then code.toNat else (-code).toNat

def fileFault : IO.Error → FileFault
  | .inappropriateType _ code _ => if errorNumber code = 20 then .notDirectory else .directory
  | .invalidArgument _ code _ => if errorNumber code = 36 then .nameTooLong else .missing
  | .permissionDenied .. => .denied
  | _ => .missing

def readFile (path : String) : IO (Except FileFault ByteArray) := do
  if path.contains '\x00' then
    return .error .nulInName
  try
    return .ok (← IO.FS.readBinFile path)
  catch e =>
    return .error (fileFault e)

def main (arguments : List String) : IO UInt32 := do
  let setting ← IO.getEnv "RUST_LOG"
  let contents ← match Invocation.parse arguments with
    | .ok (.run table _) =>
      match CommandLine.path? table with
      | some path => readFile path
      | none => pure (.error .missing)
    | _ => pure (.error .missing)
  let result := CommandLine.run (fun _ => Table.ofFile contents) setting arguments
  for line in result.printed do
    IO.println line.text
  if let some complaint := result.complaint then
    IO.eprintln complaint
  return result.status.toUInt32
