import Provisioning.Cache.Path
import Provisioning.Text.Search

/-!
# What the cache holds

An inventory is the set of the markers of success that a host has.  `Inventory.ofListing` reads
it off the paths that the host lists; `sums` and `take` give the checksums of one task.
-/

namespace Provisioning

/-- The fact that a command of a task, known by its checksum, has succeeded. -/
structure Marker where
  /-- The name of the task. -/
  task : String
  /-- The checksum of the command. -/
  sum : String
deriving DecidableEq, Repr

/-- A set of markers. -/
structure Inventory where
  /-- The markers, in the order in which they came. -/
  markers : List Marker
  /-- No marker is held twice. -/
  nodup : markers.Nodup

namespace Inventory

/-- No marker. -/
def empty : Inventory := ⟨[], List.nodup_nil⟩

instance : EmptyCollection Inventory := ⟨empty⟩

instance : Membership Marker Inventory := ⟨fun inv m => m ∈ inv.markers⟩

instance (m : Marker) (inv : Inventory) : Decidable (m ∈ inv) :=
  inferInstanceAs (Decidable (m ∈ inv.markers))

/-- Puts a marker in. -/
def insert (inv : Inventory) (m : Marker) : Inventory :=
  if h : m ∈ inv.markers then inv
  else
    { markers := inv.markers ++ [m]
      nodup := by
        refine List.nodup_append.2 ⟨inv.nodup, by simp, ?_⟩
        intro x hx y hy hxy
        simp only [List.mem_singleton] at hy
        exact h (hy ▸ hxy ▸ hx) }

/-- The checksums of a task. -/
def sums (inv : Inventory) (task : String) : List String :=
  (inv.markers.filter (·.task == task)).map Marker.sum

/-- The inventory without the markers of a task. -/
def erase (inv : Inventory) (task : String) : Inventory where
  markers := inv.markers.filter (·.task != task)
  nodup := inv.nodup.filter _

/-- The checksums of a task, and the inventory without them. -/
def take (inv : Inventory) (task : String) : List String × Inventory :=
  (inv.sums task, inv.erase task)

/-- The number of tasks that have a marker. -/
def taskCount (inv : Inventory) : Nat :=
  ((inv.markers.map Marker.task).eraseDups).length

/-- The number of markers. -/
def markerCount (inv : Inventory) : Nat := inv.markers.length

/-- The inventory that holds some markers. -/
def ofList (ms : List Marker) : Inventory := ms.foldl insert empty

@[simp] theorem not_mem_empty (m : Marker) : m ∉ (∅ : Inventory) :=
  List.not_mem_nil

@[simp] theorem mem_insert {inv : Inventory} {m x : Marker} :
    x ∈ inv.insert m ↔ x ∈ inv ∨ x = m := by
  show x ∈ (inv.insert m).markers ↔ x ∈ inv.markers ∨ x = m
  unfold insert
  split
  · next h => exact ⟨Or.inl, fun hx => hx.elim id fun hm => hm ▸ h⟩
  · simp

theorem mem_sums {inv : Inventory} {task sum : String} :
    sum ∈ inv.sums task ↔ (⟨task, sum⟩ : Marker) ∈ inv := by
  show sum ∈ (inv.markers.filter _).map _ ↔ _ ∈ inv.markers
  simp only [List.mem_map, List.mem_filter, beq_iff_eq]
  constructor
  · rintro ⟨m, ⟨hm, rfl⟩, rfl⟩
    exact hm
  · exact fun h => ⟨_, ⟨h, rfl⟩, rfl⟩

/-! ### Reading a listing -/

/-- What is wrong with the listing of a cache. -/
inductive Fault where
  /-- The path does not lie in the directory of a task. -/
  | layout (path : String)
  /-- The file is not named for a checksum. -/
  | corrupt (path : String)
deriving DecidableEq, Repr

/-- What is said of a fault. -/
def Fault.message : Fault → String
  | layout path => "unexpected cache layout: '" ++ path ++ "' is not inside a task directory"
  | corrupt path =>
    "corrupt cache marker '" ++ path ++ "': file name is not a 64-character hex checksum"

/-- Whether a character is a digit to the base 16, in lower case. -/
def isHexDigit (c : Char) : Bool :=
  ('0' ≤ c && c ≤ '9') || ('a' ≤ c && c ≤ 'f')

/-- Whether a name is a checksum. -/
def isChecksum (cs : List Char) : Bool :=
  cs.length == 64 && cs.all isHexDigit

/-- The marker that a listed path stands for: below the root come the task, a slash and the
checksum.  The ending that markers have may be lacking. -/
def markerOfPath (root : String) (path : List Char) : Except Fault Marker :=
  match (Text.dropLead? (Cache.bareRoot root ++ ['/']) path).bind (Text.cutLast '/') with
  | none | some ([], _) => .error (.layout (String.ofList path))
  | some (task, file) =>
    let sum := (Text.dropTail? ".done".toList file).getD file
    if isChecksum sum then .ok ⟨String.ofList task, String.ofList sum⟩
    else .error (.corrupt (String.ofList path))

/-- The markers of listed paths; the first fault ends the reading. -/
def ofPaths (root : String) : Inventory → List (List Char) → Except Fault Inventory
  | inv, [] => .ok inv
  | inv, path :: paths =>
    match markerOfPath root path with
    | .error e => .error e
    | .ok m => ofPaths root (inv.insert m) paths

/-- The paths in a listing: one a line, blanks around it left out, and no blank lines. -/
def listedPaths (listing : String) : List (List Char) :=
  ((Text.lines listing).map fun l => Text.trimChars l.toList).filter (!·.isEmpty)

/-- The inventory that a listing of the cache below `root` shows. -/
def ofListing (root listing : String) : Except Fault Inventory :=
  ofPaths root ∅ (listedPaths listing)

end Inventory

end Provisioning
