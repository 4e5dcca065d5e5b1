import Provisioning.Digest.Sha256

/-!
# Cumulative checksums

Command `i` of a list is known by the digest of the texts `0..i`, one after another without
anything between them.  `Chain.push` keeps one digest under way for the whole list.
-/

namespace Provisioning

/-- The running digest of the texts pushed so far. -/
structure Chain where
  /-- The digest of all bytes so far. -/
  running : Sha256.Running
deriving DecidableEq

namespace Chain

/-- The chain before any text. -/
def empty : Chain := ⟨.empty⟩

/-- The chain after one more text. -/
def push (c : Chain) (shell : String) : Chain :=
  ⟨c.running.absorb (textBytes shell)⟩

/-- The checksum of all texts so far. -/
def sum (c : Chain) : String :=
  Sha256.hex c.running.finish

/-- The checksums of the texts pushed one by one onto a chain. -/
def sums : Chain → List String → List String
  | _, [] => []
  | c, s :: ss => (c.push s).sum :: sums (c.push s) ss

end Chain

/-- The cumulative checksums of a list of texts. -/
def checksums (shells : List String) : List String :=
  Chain.empty.sums shells

@[simp] theorem Chain.length_sums (c : Chain) (ss : List String) :
    (c.sums ss).length = ss.length := by
  induction ss generalizing c with
  | nil => rfl
  | cons s ss ih => simp [sums, ih]

@[simp] theorem length_checksums (shells : List String) :
    (checksums shells).length = shells.length := by
  simp [checksums]

end Provisioning
