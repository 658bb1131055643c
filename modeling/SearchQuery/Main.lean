import SearchQuery.CommandLine

open SearchQuery

/-- The text of a file, none when it can not be read or is no text. -/
def readText (path : String) : IO (Option String) := do
  try
    return String.fromUTF8? (← IO.FS.readBinFile path)
  catch _ => return none

def readStandardInput : IO (Option String) := do
  try
    return some (← (← IO.getStdin).readToEnd)
  catch _ => return none

def main (args : List String) : IO UInt32 := do
  let present ← CommandLine.Setting.environmentNames.filterMapM fun name => do
    return (← IO.getEnv name).map (name, ·)
  let outcome ← CommandLine.run (List.lookup · present) readText readStandardInput args
  IO.print outcome.output
  return outcome.status.toUInt32
