import StatusLine.Program
import Std.Time.Zoned

namespace StatusLine.Process

def succeeds (act : IO Unit) : IO Bool := do
  try
    act
    return true
  catch _ => return false

def files : FileAccess IO where
  has p := succeeds (do let _ ← IO.FS.realPath p)
  read p := do
    try
      let text ← IO.FS.readFile p
      return some text
    catch _ => return none
  write p text := succeeds (IO.FS.writeFile p text)
  makeDirectories p := if p.isEmpty then return true else succeeds (IO.FS.createDirAll p)

def environment : IO Environment := do
  return ⟨← IO.getEnv "HOME", ← IO.getEnv "XDG_CONFIG_HOME", ← IO.getEnv "XDG_DATA_HOME"⟩

def zoneOffset (at_ : Std.Time.Timestamp) : IO Int := do
  try
    let rules ← Std.Time.Database.defaultGetLocalZoneRules
    return (rules.timezoneAt at_).offset.second.val
  catch _ => return 0

def clock : IO Moment := do
  let now ← Std.Time.Timestamp.now
  let d := now.toDurationSinceUnixEpoch
  return ⟨d.second.val, d.nano.val.toNat, ← zoneOffset now⟩

end StatusLine.Process

open StatusLine in
def main (args : List String) : IO UInt32 := do
  let setup := ⟨← Process.environment, (← IO.appPath).toString, ← Process.clock⟩
  let outcome ← Program.run Process.files setup args
  (← IO.getStdout).putStr outcome.output
  for line in outcome.complaints do
    (← IO.getStderr).putStrLn line
  return outcome.status.toUInt32
