import Mathlib.Data.Set.Finite.Basic
import Provisioning.Proofs.Cache.Search
import Provisioning.Proofs.Host.Course
import Provisioning.Proofs.Text.Utf8

/-!
# The world of a run

`Allowed` says what may come of the exchanges of a run, as far as the files below the root of the
cache go.  A script that is run and ends well has its full effect; if it fails, or the connection
breaks, some of the effect may be left, by a rule that is a parameter (`Failing`).  The listing of
the cache tells the truth, which it does under every root that does not end in two slashes.
Nothing else that passes concerns the markers: the scripts of commands leave the cache alone, and
logs are files of their own.

* `Allowed.found` : a listing that shows what a search finds tells the truth, unless the root ends in
  two slashes;
* `Allowed.exists_did` : what becomes of the markers by a script that concerns nothing else;
* `Script.exists_goes_fine` : where there are finitely many markers, all can come to a good end.
-/

namespace Provisioning

/-- Whether a script was run and ended well. -/
def Reply.succeeded (reply : Reply) : Bool :=
  match reply.output with
  | .ok out => out.succeeded
  | .error _ => false

/-- How a script ended. -/
def Reply.exit : Reply → Except TransportError Int
  | refused e => .error e
  | session s => s.exit

/-- To succeed is to end with exit code zero. -/
theorem Reply.succeeded_iff {reply : Reply} : reply.succeeded ↔ reply.exit = .ok 0 := by
  cases reply with
  | refused e => simp [succeeded, output, exit]
  | session s =>
    cases h : s.exit with
    | error e => simp [succeeded, output, Session.output, exit, h, Except.map]
    | ok code => simp [succeeded, output, Session.output, exit, h, Except.map, Output.succeeded]

/-- What an exchange does to files if all of it is done. -/
def Exchange.effect : Exchange → List FileOp
  | .asked call _ => Shell.effect call.shell
  | _ => []

/-- Whether an exchange came to a good end.  A log that is not written does no harm. -/
def Exchange.Fine : Exchange → Prop
  | asked _ reply => reply.succeeded
  | closed result => result = .ok ()
  | told _ | logged _ _ => True

/-- How much of the effect of a script may be left if it fails. -/
structure Failing where
  /-- `leaves ops did`: of the operations `ops` only `did` were done. -/
  leaves : List FileOp → List FileOp → Prop
  /-- Possibly nothing was done. -/
  nothing : ∀ ops, leaves ops []
  /-- Possibly everything was done. -/
  everything : ∀ ops, leaves ops ops
  /-- Nothing else was done, and nothing in another order. -/
  sublist : ∀ {ops did}, leaves ops did → did.Sublist ops

namespace Failing

/-- A script that fails may have done any part of its work. -/
def torn : Failing where
  leaves ops did := did.Sublist ops
  nothing := List.nil_sublist
  everything := List.Sublist.refl
  sublist := id

/-- A script that fails has done all of its work or none. -/
def whole : Failing where
  leaves ops did := did = [] ∨ did = ops
  nothing _ := .inl rfl
  everything _ := .inr rfl
  sublist h := by
    rcases h with rfl | rfl
    · exact List.nil_sublist _
    · exact List.Sublist.refl _

theorem eq_nil (part : Failing) {did : List FileOp} (h : part.leaves [] did) : did = [] :=
  List.sublist_nil.1 (part.sublist h)

end Failing

/-- What may come of an exchange with a host whose cache lies below `root`.  That the listing tells
the truth can be said of a host if `root` does not end in two slashes (`Allowed.found`); if it does,
the lines of the markers show other paths (`Search.toList_line`). -/
inductive Allowed (root : String) (part : Failing) : Files → Exchange → Files → Prop
  /-- A script that ends well has its full effect, and the listing tells the truth. -/
  | succeeded {fs : Files} {call : Call} {reply : Reply} (h : reply.succeeded)
      (hl : ∀ out, reply.output = .ok out → call.shell = Cache.listingScript root →
        fs.Lists out.stdout) :
      Allowed root part fs (.asked call reply) (fs.after (Shell.effect call.shell))
  /-- A script that fails may have had a part of its effect. -/
  | failed {fs : Files} {call : Call} {reply : Reply} {did : List FileOp}
      (h : reply.succeeded = false) (hd : part.leaves (Shell.effect call.shell) did) :
      Allowed root part fs (.asked call reply) (fs.after did)
  | closed (fs : Files) (result : Except TransportError Unit) :
      Allowed root part fs (.closed result) fs
  | told (fs : Files) (what : Happening) : Allowed root part fs (.told what) fs
  /-- The writing of a log may make or change the files of that log. -/
  | logged {fs fs' : Files} (job : LogJob) (result : Except LogError Unit)
      (h : ∀ p, p ≠ Cache.logPath job.dir job.sum → p ≠ Cache.partialLogPath job.dir job.sum →
        (p ∈ fs' ↔ p ∈ fs)) :
      Allowed root part fs (.logged job result) fs'

namespace Allowed

variable {root : String} {part : Failing} {fs fs' : Files}

/-- A host that lists what the search finds tells the truth, under a root that does not end in two
slashes. -/
theorem found (hroot : ¬ ['/', '/'] <:+ root.toList) (hb : fs.Below root) {call : Call}
    {reply : Reply} (h : reply.succeeded) (hfind : ∀ out, reply.output = .ok out →
      call.shell = Cache.listingScript root → fs.Finds call.shell out.stdout) :
    Allowed root part fs (.asked call reply) (fs.after (Shell.effect call.shell)) := by
  refine .succeeded h fun out hout hshell => ?_
  have hfound := hfind out hout hshell
  rw [hshell] at hfound
  exact (Files.finds_iff_lists hroot hb).1 hfound

/-- A script without an effect leaves all files as they are. -/
theorem of_effect_nil {call : Call} {reply : Reply}
    (h : Allowed root part fs (.asked call reply) fs') (he : Shell.effect call.shell = []) :
    fs' = fs := by
  cases h with
  | succeeded => rw [he, Files.after_nil]
  | failed _ hd =>
    rw [he] at hd
    rw [part.eq_nil hd, Files.after_nil]

/-- A marker that was there is left unless its deletion was sent. -/
theorem mem_of_not_remove_mem {x : Exchange} {p : String} (h : Allowed root part fs x fs')
    (hm : Files.IsMarker p) (hp : p ∈ fs) (hno : .remove p ∉ x.effect) : p ∈ fs' := by
  cases h with
  | succeeded => exact Files.mem_after_of_not_remove_mem hp hno
  | failed _ hd =>
    exact Files.mem_after_of_not_remove_mem hp fun hr => hno ((part.sublist hd).subset hr)
  | closed | told => exact hp
  | logged _ _ hlog =>
    have : p ∈ fs'.markers := Files.markers_eq_of_log hlog ▸ ⟨hp, hm⟩
    exact this.1

/-- A marker that was not there is made only if that was sent. -/
theorem write_mem_of_not_mem {x : Exchange} {p : String} (h : Allowed root part fs x fs')
    (hm : Files.IsMarker p) (hold : p ∉ fs) (hp : p ∈ fs') : .write p ∈ x.effect := by
  cases h with
  | succeeded => exact (Files.mem_or_write_mem_of_mem_after hp).resolve_left hold
  | failed _ hd =>
    exact (part.sublist hd).subset ((Files.mem_or_write_mem_of_mem_after hp).resolve_left hold)
  | closed | told => exact absurd hp hold
  | logged _ _ hlog =>
    have : p ∈ fs.markers := Files.markers_eq_of_log hlog ▸ ⟨hp, hm⟩
    exact absurd this.1 hold

/-- Closing sessions, telling and the writing of logs leave the markers as they are. -/
theorem markers_of_closed {result : Except TransportError Unit}
    (h : Allowed root part fs (.closed result) fs') : fs'.markers = fs.markers := by
  cases h
  rfl

theorem markers_of_told {what : Happening} (h : Allowed root part fs (.told what) fs') :
    fs'.markers = fs.markers := by
  cases h
  rfl

theorem markers_of_logged {job : LogJob} {result : Except LogError Unit}
    (h : Allowed root part fs (.logged job result) fs') : fs'.markers = fs.markers := by
  cases h with
  | logged _ _ h => exact Files.markers_eq_of_log h

/-- An exchange that sends nothing with an effect leaves the markers as they are. -/
theorem markers_of_effect_nil {x : Exchange} (h : Allowed root part fs x fs')
    (he : x.effect = []) : fs'.markers = fs.markers := by
  cases x with
  | asked call reply => rw [h.of_effect_nil he]
  | closed result => exact h.markers_of_closed
  | told what => exact h.markers_of_told
  | logged job result => exact h.markers_of_logged

/-- A script that concerns markers alone has its full effect on them, or fails with a part of
it. -/
theorem exists_did {call : Call} {reply : Reply}
    (h : Allowed root part fs (.asked call reply) fs')
    (hm : ∀ op ∈ Shell.effect call.shell, Files.IsMarker op.path) :
    ∃ did, fs'.markers = fs.markers.after did ∧ part.leaves (Shell.effect call.shell) did ∧
      (reply.succeeded → did = Shell.effect call.shell) := by
  cases h with
  | succeeded => exact ⟨_, Files.markers_after hm, part.everything _, fun _ => rfl⟩
  | failed h hd =>
    refine ⟨_, Files.markers_after fun op hop => hm op ((part.sublist hd).subset hop), hd, ?_⟩
    intro h'
    exact absurd h' (by simp [h])

end Allowed

/-! ### Coming to a good end -/

/-- The reply of a script that prints a text and ends well. -/
def Reply.saying (text : String) : Reply :=
  .session { stdout? := some (.ofBytes (textBytes text)) }

theorem Reply.output_saying (text : String) : (saying text).output = .ok ⟨0, text, ""⟩ := by
  have hprinted : Stream.text (.ofBytes (textBytes text)) = text := by
    rw [Stream.text, Stream.bytes_ofBytes, Utf8.decode_textBytes]
  have herr : Stream.text [] = "" := by
    rw [Stream.text, Stream.bytes, Utf8.decode, Utf8.decodeChars]
  show Except.ok (Output.mk 0 (Stream.text (.ofBytes (textBytes text))) (Stream.text [])) = _
  rw [hprinted, herr]

namespace Files

variable {fs : Files}

/-- Finitely many markers can be listed. -/
theorem exists_lists (h : fs.markers.Finite) : ∃ listing, fs.Lists listing := by
  have hlisted : {p ∈ fs | IsListed p}.Finite := h.subset fun p hp => ⟨hp.1, hp.2.isMarker⟩
  refine ⟨_, hlisted.toFinset.toList, fun p => ?_, rfl⟩
  rw [Finset.mem_toList, Set.Finite.mem_toFinset]
  rfl

theorem finite_markers_after (h : fs.markers.Finite) (ops : List FileOp) :
    (fs.after ops).markers.Finite := by
  have hwritten : {p | FileOp.write p ∈ ops}.Finite :=
    (ops.finite_toSet.image FileOp.path).subset fun p hp => ⟨.write p, hp, rfl⟩
  refine (h.union hwritten).subset fun p hp => ?_
  exact (mem_or_write_mem_of_mem_after hp.1).imp (fun hold => ⟨hold, hp.2⟩) id

end Files

/-- No exchange makes infinitely many markers. -/
theorem Allowed.finite_markers {root : String} {part : Failing} {fs fs' : Files} {x : Exchange}
    (h : Allowed root part fs x fs') (hfin : fs.markers.Finite) : fs'.markers.Finite := by
  cases h with
  | succeeded => exact Files.finite_markers_after hfin _
  | failed => exact Files.finite_markers_after hfin _
  | closed | told => exact hfin
  | logged _ _ hlog => exact Files.markers_eq_of_log hlog ▸ hfin

/-- Where there are finitely many markers, every script can come to its end, and all that it asks
for to a good one. -/
theorem Script.exists_goes_fine {α : Type} (root : String) (part : Failing) {fs : Files}
    (hfin : fs.markers.Finite) (s : Script α) : ∃ ms a fs',
      s.Goes (Allowed root part) fs ms (.done a) fs' ∧ ∀ m ∈ ms, m.exchange.Fine := by
  refine exists_goes (fun fs => fs.markers.Finite) Exchange.Fine ?_ ?_ ?_ ?_ s hfin
  · -- every script can be answered with a true listing, as if it were the one that lists
    intro fs call hfin
    obtain ⟨listing, hl⟩ := Files.exists_lists hfin
    refine ⟨.saying listing, _, .succeeded rfl ?_, Files.finite_markers_after hfin _, rfl⟩
    intro out hout _
    rw [Reply.output_saying] at hout
    obtain rfl := Except.ok.inj hout
    exact hl
  · intro fs hfin
    exact ⟨.ok (), fs, .closed fs _, hfin, rfl⟩
  · intro fs what hfin
    exact ⟨fs, .told fs what, hfin, trivial⟩
  · intro fs job hfin
    exact ⟨.ok (), fs, .logged job _ fun _ _ _ => Iff.rfl, hfin, trivial⟩

end Provisioning
