import Provisioning.Config.Basic
import Provisioning.Text.Blank
import Provisioning.Text.Search

/-!
# Logging in

A machine whose address is that of this machine is reached through a local shell, every other
through `ssh`.  The script of a call is the last argument of `ssh`, so that input stays free for
the script.  With a control path all sessions share one connection, which a reset closes.
-/

namespace Provisioning

/-- What is known of the place where the program runs. -/
structure Surroundings where
  /-- Who runs it. -/
  user : String := "root"
  /-- The home directory, if there is one. -/
  home? : Option String := none
  /-- The name of this machine, if it has one. -/
  hostname? : Option String := none

namespace Surroundings

/-- Whether an address is that of this machine. -/
def isLocal (s : Surroundings) (addr : String) : Bool :=
  addr == "127.0.0.1" || addr == "localhost" || addr == "::1"
    || s.hostname?.any fun name => addr == Text.trim name

/-- A path with the home directory in place of a leading `~/`. -/
def expandHome (s : Surroundings) (path : String) : String :=
  match Text.dropLead? "~/".toList path.toList, s.home? with
  | some rest, some home => home ++ "/" ++ String.ofList rest
  | _, _ => path

end Surroundings

/-- How a machine is reached. -/
inductive Login where
  /-- Through a local shell of some user. -/
  | shell (user : String)
  /-- Through `ssh`. -/
  | ssh (machine : Machine)

namespace Login

/-- How a machine is reached from here. -/
def ofMachine (s : Surroundings) (m : Machine) : Login :=
  if s.isLocal m.addr then .shell s.user else .ssh m

/-- Who logs in. -/
def user : Login → String
  | .shell user => user
  | .ssh m => m.user

/-- The address that is shown. -/
def address : Login → String
  | .shell _ => "localhost"
  | .ssh m => m.addr

/-- The options of a connection. -/
def options (s : Surroundings) (m : Machine) : List String :=
  ["-o", "BatchMode=yes", "-o", "ConnectTimeout=5", "-o", "StrictHostKeyChecking=accept-new"]
    ++ (match m.sshKey? with
      | some key => ["-i", s.expandHome key]
      | none => [])
    ++ (if m.port != 22 then ["-p", toString m.port.toNat] else [])
    ++ (match m.controlPath? with
      | some path =>
        ["-o", "ControlMaster=auto", "-o", "ControlPath=" ++ s.expandHome path,
          "-o", "ControlPersist=60"]
      | none => [])

/-- Where to log in. -/
def destination (m : Machine) : String := m.user ++ "@" ++ m.addr

/-- The arguments that run a script. -/
def commandArgs (s : Surroundings) (m : Machine) (shell : String) : List String :=
  options s m ++ [destination m, shell]

/-- The arguments that close the shared connection, if connections are shared. -/
def resetArgs? (s : Surroundings) (m : Machine) : Option (List String) :=
  m.controlPath?.map fun _ => options s m ++ ["-O", "exit", destination m]

end Login

end Provisioning
