import Provisioning.Path
import Provisioning.Shell.Word
import Provisioning.Template
import Provisioning.Text.Base64

/-!
# Commands

A command is what an author writes in a task: a script of his own or one of a few operations whose
script is made from their inputs.  `Command.script` is the text that a shell runs, `Command.label`
the short text that people read.  `Command.freeze` turns a command with all its templates expanded
into an `Action`, and refuses one whose inputs are wrong or whose script is blank.
-/

namespace Provisioning

/-- One command as it runs. -/
structure Action where
  /-- The text that a shell runs. -/
  script : String
  /-- What people are told about it. -/
  label : String
deriving DecidableEq, Repr, Inhabited

/-- A file to be written. -/
structure FileSpec where
  /-- Where it goes. -/
  path : String
  /-- What it holds. -/
  content : String
  /-- Its permission bits in octal digits, if they are to be set. -/
  mode? : Option String := none
  /-- Who owns it, if that is to be set. -/
  owner? : Option String := none
deriving DecidableEq, Repr

/-- A directory to be made, with those above it. -/
structure DirectorySpec where
  /-- Where it goes. -/
  path : String
  /-- Its permission bits in octal digits, if they are to be set. -/
  mode? : Option String := none
  /-- Who owns it, if that is to be set. -/
  owner? : Option String := none
deriving DecidableEq, Repr

/-- What an author may write in a task. -/
inductive Command where
  /-- A script of the author's own. -/
  | shell (text : String)
  /-- Writes a file. -/
  | writeFile (file : FileSpec)
  /-- Makes a directory. -/
  | mkdir (dir : DirectorySpec)
  /-- Installs the packages that are missing. -/
  | installPackages (packages : List String)
  /-- Refreshes the package index. -/
  | updatePackages
  /-- Runs a script as another user. -/
  | asUser (user run : String)
  /-- A command given by its script and label, without templates. -/
  | fixed (action : Action)
deriving DecidableEq, Repr

namespace Command

/-- Why a command is refused. -/
inductive Error where
  /-- The script is blank. -/
  | empty
  /-- The path of a file or directory does not start at the root. -/
  | relativePath (operation path : String)
  /-- The permission bits are not three or four octal digits. -/
  | badMode (mode : String)
  /-- There is nothing to install. -/
  | noPackages
  /-- The name is empty or would be read as an option. -/
  | badPackage (name : String)
  /-- The user's name is blank. -/
  | noUser
deriving DecidableEq

/-- What is said of a refusal. -/
def Error.message : Error → String
  | empty => "command has empty shell text"
  | relativePath op path => op ++ " path must be absolute, got " ++ Text.quoted path
  | badMode mode => "mode must be 3 or 4 octal digits, got " ++ Text.quoted mode
  | noPackages => "install_packages needs at least one package"
  | badPackage name => "invalid package name " ++ Text.quoted name
  | noUser => "as_user needs a user"

/-! ### Scripts and labels -/

/-- The lines that set the owner and then the permission bits. -/
def ownershipLines (path : String) (mode? owner? : Option String) : List String :=
  (owner?.map fun o => "chown " ++ Shell.quote o ++ " " ++ Shell.quote path).toList
    ++ (mode?.map fun m => "chmod " ++ Shell.quote m ++ " " ++ Shell.quote path).toList

/-- The line that makes the directory of a file, unless that is the root. -/
def parentLines (path : String) : List String :=
  match Path.parent? path with
  | none => []
  | some dir => if dir = "/" then [] else ["mkdir -p " ++ Shell.quote dir]

/-- A content travels as base64, so that nothing in it means anything to the shell. -/
def FileSpec.contentLine (file : FileSpec) : String :=
  "printf '%s' " ++ String.ofList (Base64.encode (textBytes file.content))
    ++ " | base64 -d > " ++ Shell.quote file.path

/-- The lines that write a file. -/
def FileSpec.scriptLines (file : FileSpec) : List String :=
  parentLines file.path ++ contentLine file :: ownershipLines file.path file.mode? file.owner?

/-- The lines that make a directory. -/
def DirectorySpec.scriptLines (dir : DirectorySpec) : List String :=
  ("mkdir -p " ++ Shell.quote dir.path) :: ownershipLines dir.path dir.mode? dir.owner?

/-- The lines that install packages unless all are there. -/
def installLines (packages : List String) : List String :=
  let words := Text.join " " (packages.map Shell.quote)
  ["NEED_INSTALL=0",
    "for pkg in " ++ words ++ "; do",
    "dpkg -s \"$pkg\" >/dev/null 2>&1 || NEED_INSTALL=1",
    "done",
    "if [ \"$NEED_INSTALL\" = \"1\" ]; then",
    "DEBIAN_FRONTEND=noninteractive apt-get install -y -qq " ++ words,
    "fi"]

/-- The text that a shell runs. -/
def script : Command → String
  | shell text => text
  | writeFile file => Text.join "\n" (FileSpec.scriptLines file)
  | mkdir dir => Text.join "\n" (DirectorySpec.scriptLines dir)
  | installPackages packages => Text.join "\n" (installLines packages)
  | updatePackages => "DEBIAN_FRONTEND=noninteractive apt-get update -qq"
  | asUser user run => "su -l " ++ Shell.quote user ++ " -c " ++ Shell.quote run
  | fixed action => action.script

/-- The first line of a script, with dots after it if there are more. -/
def firstLine (text : String) : String :=
  match Text.lines text with
  | [] => ""
  | [line] => line
  | line :: _ :: _ => line ++ " ..."

/-- What people are told about a command. -/
def label : Command → String
  | shell text => firstLine text
  | writeFile file => "write " ++ file.path ++ " (" ++ toString (textSize file.content) ++ " bytes)"
  | mkdir dir => "mkdir " ++ dir.path
  | installPackages packages => "install " ++ Text.join " " packages
  | updatePackages => "update package index"
  | asUser user run => "as " ++ user ++ ": " ++ run
  | fixed action => action.label

/-! ### Expanding templates -/

/-- Expands one input.  If that fails, the input stays. -/
def renderInput (render : String → Except Template.Error String) (input : String) :
    String × Except Template.Error Unit :=
  match render input with
  | .ok text => (text, .ok ())
  | .error e => (input, .error e)

/-- Expands inputs in order up to the first that fails; that one and all after it stay. -/
def renderInputs (render : String → Except Template.Error String) :
    List String → List String × Except Template.Error Unit
  | [] => ([], .ok ())
  | input :: inputs =>
    match renderInput render input with
    | (text, .ok ()) =>
      let (texts, result) := renderInputs render inputs
      (text :: texts, result)
    | (text, .error e) => (text :: inputs, .error e)

/-- Expands two inputs in order; the second stays if the first fails. -/
def renderPair (render : String → Except Template.Error String) (a b : String) :
    String × String × Except Template.Error Unit :=
  match renderInput render a with
  | (a', .error e) => (a', b, .error e)
  | (a', .ok ()) =>
    let (b', result) := renderInput render b
    (a', b', result)

/-- Expands the templates of a command: the script; path and content of a file; the path of a
directory; package names; user and script.  What was expanded before a failure is kept. -/
def render (render : String → Except Template.Error String) :
    Command → Command × Except Template.Error Unit
  | shell text =>
    let (text, result) := renderInput render text
    (shell text, result)
  | writeFile file =>
    let (path, content, result) := renderPair render file.path file.content
    (writeFile { file with path, content }, result)
  | mkdir dir =>
    let (path, result) := renderInput render dir.path
    (mkdir { dir with path }, result)
  | installPackages packages =>
    let (packages, result) := renderInputs render packages
    (installPackages packages, result)
  | asUser user run =>
    let (user, run, result) := renderPair render user run
    (asUser user run, result)
  | command => (command, .ok ())

/-! ### Refusals -/

/-- Requires a path to start at the root. -/
def checkAbsolute (operation path : String) : Except Error Unit :=
  if Path.isAbsolute path then .ok () else .error (.relativePath operation path)

/-- Whether a text is three or four octal digits. -/
def isMode (mode : String) : Bool :=
  let cs := mode.toList
  (cs.length == 3 || cs.length == 4) && cs.all fun c => '0' ≤ c && c ≤ '7'

/-- Requires permission bits, if given, to be three or four octal digits. -/
def checkMode : Option String → Except Error Unit
  | none => .ok ()
  | some mode => if isMode mode then .ok () else .error (.badMode mode)

/-- Whether a package name is empty or begins like an option. -/
def isBadPackage (name : String) : Bool :=
  match name.toList with
  | [] => true
  | c :: _ => c == '-'

/-- Refuses a command with wrong inputs. -/
def validate : Command → Except Error Unit
  | shell text => if Text.isBlankText text then .error .empty else .ok ()
  | writeFile file => do
    checkAbsolute "write_file" file.path
    checkMode file.mode?
  | mkdir dir => do
    checkAbsolute "mkdir" dir.path
    checkMode dir.mode?
  | installPackages packages =>
    if packages.isEmpty then .error .noPackages
    else
      match packages.find? isBadPackage with
      | some name => .error (.badPackage name)
      | none => .ok ()
  | asUser user run =>
    if Text.isBlankText user then .error .noUser
    else if Text.isBlankText run then .error .empty
    else .ok ()
  | updatePackages => .ok ()
  | fixed _ => .ok ()

/-- The action that a command stands for.  A blank script is refused. -/
def freeze (command : Command) : Except Error Action := do
  command.validate
  if Text.isBlankText command.script then throw .empty
  return ⟨command.script, command.label⟩

end Command

end Provisioning
