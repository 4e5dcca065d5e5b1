import Provisioning.Console.Arguments
import Provisioning.Rehearsal.Console

/-!
# The program

The configuration is read from disk and put on a computer in memory, where everything asked for
is done; no machine is touched.  Journals of a run are written to disk.
-/

namespace Provisioning

/-- The computer in memory, with the configuration on it if it can be read. -/
def Rehearsal.Computer.withFile (file : String) : IO Rehearsal.Computer := do
  let bare := Rehearsal.Computer.new {} ["work"]
  try
    let bytes ← IO.FS.readBinFile file
    return bare.write file bytes.toList
  catch _ => return bare

/-- Writes the files below a directory to disk. -/
def Rehearsal.Computer.export (c : Rehearsal.Computer) (dir : String) : IO Unit :=
  (c.list dir).forM fun path => do
    let target := Path.join dir path
    IO.FS.createDirAll ((Path.parent? target).getD ".")
    IO.FS.writeFile target (String.join ((((c.lines? target).getD []).map (· ++ "\n"))))

end Provisioning

/-- Does what the arguments ask for. -/
def main (args : List String) : IO UInt32 := do
  match Provisioning.Console.Invocation.ofArgs? args with
  | none =>
    IO.eprintln Provisioning.Console.usage
    return 2
  | some asked =>
    let computer ← Provisioning.Rehearsal.Computer.withFile asked.file
    let (outcome, computer) := computer.perform {} asked
    IO.print outcome.stdout
    IO.eprint outcome.stderr
    if let some dir := asked.journals? then computer.export dir
    return UInt32.ofNat outcome.exitCode
