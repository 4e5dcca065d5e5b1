import Provisioning.Cache.Inventory
import Provisioning.Proofs.Text.Utf8
import Provisioning.Task

/-!
# Checksums as digests of byte streams

A chain takes the texts of a task piece by piece.  This file shows that the pieces do not matter:

* `Sha256.Running.finish_absorb` : a digest under way ends as the digest of all bytes it took;
* `Task.checksums_eq` : the checksums of a task are the digests of its byte streams, written in
  hexadecimal, where stream `i` holds the bytes of the scripts `0..i`;
* `Sha256.hex_injective` : different digests are written differently;
* `Task.nodup_checksums` : without a collision a task whose scripts are not empty has no checksum
  twice.

That SHA-256 has no collision among given streams is `CollisionFree`.
-/

namespace Provisioning

/-! ### Digests under way -/

namespace Sha256

/-- The digest under way that has taken exactly `bytes`. -/
def Running.of (bytes : List UInt8) : Running :=
  ⟨(blocks start bytes).1, (blocks start bytes).2, bytes.length⟩

theorem Running.empty_eq_of : Running.empty = .of [] := by
  unfold Running.empty Running.of
  rw [blocks]
  simp

theorem Running.absorb_of (a b : List UInt8) : (of a).absorb b = of (a ++ b) := by
  simp only [of, absorb, blocks_append start a b, List.length_append]

/-- A digest under way ends as the digest of all bytes it took. -/
theorem Running.finish_absorb (a : List UInt8) : (of a).finish = digest a := by
  simp only [of, finish, digest, blocks_append start a]

/-! ### Digests in hexadecimal -/

theorem isHexDigit_digitChar {n : Nat} (h : n < 16) : Inventory.isHexDigit (Nat.digitChar n) :=
  (by decide : ∀ n < 16, Inventory.isHexDigit (Nat.digitChar n)) n h

theorem digitChar_injective {m n : Nat} (hm : m < 16) (hn : n < 16)
    (h : Nat.digitChar m = Nat.digitChar n) : m = n :=
  (by decide : ∀ m < 16, ∀ n < 16, Nat.digitChar m = Nat.digitChar n → m = n) m hm n hn h

theorem isHexDigit_of_mem_hexByte {b : UInt8} {c : Char} (h : c ∈ hexByte b) :
    Inventory.isHexDigit c := by
  have hb := b.toNat_lt
  simp only [hexByte, List.mem_cons, List.not_mem_nil, or_false] at h
  rcases h with rfl | rfl <;> exact isHexDigit_digitChar (by omega)

theorem hexByte_injective {a b : UInt8} (h : hexByte a = hexByte b) : a = b := by
  have ha := a.toNat_lt
  have hb := b.toNat_lt
  simp only [hexByte, List.cons.injEq, and_true] at h
  have hdiv := digitChar_injective (by omega) (by omega) h.1
  have hmod := digitChar_injective (by omega) (by omega) h.2
  exact UInt8.toNat_inj.1 (by omega)

/-- The digits of one word of a digest. -/
def hexWord (w : UInt32) : List Char :=
  hexByte (w >>> 24).toUInt8 ++ hexByte (w >>> 16).toUInt8 ++ hexByte (w >>> 8).toUInt8
    ++ hexByte w.toUInt8

theorem hexWord_injective {v w : UInt32} (h : hexWord v = hexWord w) : v = w := by
  simp only [hexWord] at h
  obtain ⟨h, h0⟩ := List.append_inj h rfl
  obtain ⟨h, h1⟩ := List.append_inj h rfl
  obtain ⟨h3, h2⟩ := List.append_inj h rfl
  have e0 := congrArg UInt8.toNat (hexByte_injective h0)
  have e1 := congrArg UInt8.toNat (hexByte_injective h1)
  have e2 := congrArg UInt8.toNat (hexByte_injective h2)
  have e3 := congrArg UInt8.toNat (hexByte_injective h3)
  have hv := v.toNat_lt
  have hw := w.toNat_lt
  simp only [UInt32.toNat_toUInt8, UInt32.toNat_shiftRight, Nat.shiftRight_eq_div_pow]
    at e0 e1 e2 e3
  simp at e0 e1 e2 e3
  exact UInt32.toNat_inj.1 (by omega)

theorem toList_hex (h : Words) : (hex h).toList = h.toList.flatMap hexWord := by
  rw [hex, String.toList_ofList]
  rfl

theorem flatMap_hexWord_injective {v w : List UInt32} (hlen : v.length = w.length)
    (h : v.flatMap hexWord = w.flatMap hexWord) : v = w := by
  induction v generalizing w with
  | nil => exact (List.length_eq_zero_iff.1 hlen.symm).symm
  | cons x v ih =>
    cases w with
    | nil => simp at hlen
    | cons y w =>
      simp only [List.flatMap_cons] at h
      obtain ⟨hx, hv⟩ := List.append_inj h rfl
      rw [hexWord_injective hx, ih (by simpa using hlen) hv]

/-- Different digests are written differently. -/
theorem hex_injective {v w : Words} (h : hex v = hex w) : v = w := by
  have h' : v.toList.flatMap hexWord = w.toList.flatMap hexWord := by
    rw [← toList_hex, ← toList_hex, h]
  exact Vector.toList_inj.1 (flatMap_hexWord_injective (by simp) h')

theorem isChecksum_hex (h : Words) : Inventory.isChecksum (hex h).toList := by
  rw [toList_hex, Inventory.isChecksum, Bool.and_eq_true, beq_iff_eq, List.all_eq_true]
  constructor
  · rw [List.length_flatMap]
    have : (h.toList.map fun w => (hexWord w).length) = List.replicate 8 8 := by
      rw [List.eq_replicate_iff]
      simp [hexWord, hexByte]
    rw [this]
    rfl
  · intro c hc
    obtain ⟨w, -, hw⟩ := List.mem_flatMap.1 hc
    simp only [hexWord, List.mem_append] at hw
    rcases hw with ((hw | hw) | hw) | hw <;> exact isHexDigit_of_mem_hexByte hw

end Sha256

/-! ### Byte streams -/

/-- The bytes of texts one after another. -/
def streamOf (texts : List String) : List UInt8 :=
  texts.flatMap textBytes

theorem streamOf_eq (texts : List String) : streamOf texts = textBytes (String.join texts) :=
  (textBytes_join texts).symm

theorem textBytes_injective {s t : String} (h : textBytes s = textBytes t) : s = t := by
  rw [← Utf8.decode_textBytes s, h, Utf8.decode_textBytes]

theorem join_eq_of_streamOf_eq {a b : List String} (h : streamOf a = streamOf b) :
    String.join a = String.join b := by
  rw [streamOf_eq, streamOf_eq] at h
  exact textBytes_injective h

/-- The checksum of a byte stream. -/
def checksumOf (stream : List UInt8) : String :=
  Sha256.hex (Sha256.digest stream)

theorem Chain.sums_of (bytes : List UInt8) (ss : List String) :
    (Chain.mk (.of bytes)).sums ss =
      (List.range ss.length).map fun i => checksumOf (bytes ++ streamOf (ss.take (i + 1))) := by
  induction ss generalizing bytes with
  | nil => rfl
  | cons s ss ih =>
    have hpush : (Chain.mk (.of bytes)).push s = ⟨.of (bytes ++ textBytes s)⟩ := by
      rw [push, Sha256.Running.absorb_of]
    rw [sums, hpush, ih, List.length_cons, List.range_succ_eq_map, List.map_cons, List.map_map]
    congr 1
    · simp [sum, Sha256.Running.finish_absorb, checksumOf, streamOf]
    · refine List.map_congr_left fun i _ => ?_
      simp [streamOf]

theorem checksums_eq (ss : List String) :
    checksums ss = (List.range ss.length).map fun i => checksumOf (streamOf (ss.take (i + 1))) := by
  rw [checksums, Chain.empty, Sha256.Running.empty_eq_of, Chain.sums_of]
  simp

/-- The byte streams of a task; stream `i` holds the scripts `0..i`. -/
def Task.streams (t : Task) : List (List UInt8) :=
  (List.range t.scripts.length).map fun i => streamOf (t.scripts.take (i + 1))

/-- The checksums of a task are the digests of its byte streams. -/
theorem Task.checksums_eq (t : Task) : t.checksums = t.streams.map checksumOf := by
  rw [checksums, Provisioning.checksums_eq, streams, List.map_map]
  rfl

@[simp] theorem Task.length_scripts (t : Task) : t.scripts.length = t.actions.length := by
  simp [scripts]

@[simp] theorem Task.length_checksums (t : Task) : t.checksums.length = t.actions.length := by
  simp [checksums]

@[simp] theorem Task.length_streams (t : Task) : t.streams.length = t.actions.length := by
  simp [streams]

theorem Task.getElem_streams (t : Task) {i : Nat} (h : i < t.streams.length) :
    t.streams[i] = streamOf (t.scripts.take (i + 1)) := by
  simp [streams]

theorem Task.getElem_checksums (t : Task) {i : Nat} (h : i < t.checksums.length) :
    t.checksums[i] = checksumOf (streamOf (t.scripts.take (i + 1))) := by
  have h' : i < (t.streams.map checksumOf).length := by simpa using h
  have : t.checksums[i] = (t.streams.map checksumOf)[i] := by
    simp only [t.checksums_eq]
  rw [this, List.getElem_map, getElem_streams]

/-! ### Collisions -/

theorem isChecksum_checksumOf (stream : List UInt8) :
    Inventory.isChecksum (checksumOf stream).toList :=
  Sha256.isChecksum_hex _

theorem Task.isChecksum_of_mem_checksums {t : Task} {s : String} (h : s ∈ t.checksums) :
    Inventory.isChecksum s.toList := by
  rw [checksums_eq, List.mem_map] at h
  obtain ⟨stream, -, rfl⟩ := h
  exact isChecksum_checksumOf stream

/-- No two different byte streams of some tasks have the same digest. -/
def CollisionFree (tasks : List Task) : Prop :=
  ∀ t ∈ tasks, ∀ t' ∈ tasks, ∀ a ∈ t.streams, ∀ b ∈ t'.streams,
    Sha256.digest a = Sha256.digest b → a = b

instance (tasks : List Task) : Decidable (CollisionFree tasks) :=
  inferInstanceAs (Decidable (∀ t ∈ tasks, ∀ t' ∈ tasks, ∀ a ∈ t.streams, ∀ b ∈ t'.streams,
    Sha256.digest a = Sha256.digest b → a = b))

theorem CollisionFree.mono {tasks tasks' : List Task} (h : CollisionFree tasks)
    (hsub : ∀ t ∈ tasks', t ∈ tasks) : CollisionFree tasks' :=
  fun t ht t' ht' => h t (hsub t ht) t' (hsub t' ht')

/-- Without a collision equal checksums come of equal texts. -/
theorem CollisionFree.join_eq {tasks : List Task} (h : CollisionFree tasks) {t t' : Task}
    (ht : t ∈ tasks) (ht' : t' ∈ tasks) {i j : Nat} (hi : i < t.checksums.length)
    (hj : j < t'.checksums.length) (heq : t.checksums[i] = t'.checksums[j]) :
    String.join (t.scripts.take (i + 1)) = String.join (t'.scripts.take (j + 1)) := by
  rw [t.getElem_checksums, t'.getElem_checksums] at heq
  have hi' : i < t.streams.length := by simpa using hi
  have hj' : j < t'.streams.length := by simpa using hj
  have hmem := h t ht t' ht' _ (List.getElem_mem hi') _ (List.getElem_mem hj')
  rw [t.getElem_streams, t'.getElem_streams] at hmem
  exact join_eq_of_streamOf_eq (hmem (Sha256.hex_injective heq))

theorem length_join_take_lt {ss : List String} (hne : ∀ s ∈ ss, s ≠ "") {i j : Nat} (hij : i < j)
    (hj : j ≤ ss.length) :
    (String.join (ss.take i)).length < (String.join (ss.take j)).length := by
  obtain ⟨n, rfl⟩ := Nat.exists_eq_add_of_lt hij
  have hi : i < ss.length := by omega
  have hpos : 0 < ss[i].length :=
    Nat.pos_of_ne_zero fun h => hne _ (List.getElem_mem hi) (String.length_eq_zero_iff.1 h)
  rw [Nat.add_assoc, List.take_add, String.join_append, String.length_append,
    List.drop_eq_getElem_cons hi, List.take_succ_cons, String.join_cons, String.length_append]
  omega

/-- Without a collision a task whose scripts are not empty has no checksum twice. -/
theorem Task.nodup_checksums {tasks : List Task} (h : CollisionFree tasks) {t : Task}
    (ht : t ∈ tasks) (hne : ∀ s ∈ t.scripts, s ≠ "") : t.checksums.Nodup := by
  rw [List.nodup_iff_pairwise_ne, List.pairwise_iff_getElem]
  intro i j hi hj hij heq
  have hjoin := congrArg String.length (h.join_eq ht ht hi hj heq)
  have hj' : j + 1 ≤ t.scripts.length := by simp at hj ⊢; omega
  have hlt := length_join_take_lt hne (Nat.add_lt_add_right hij 1) hj'
  omega

end Provisioning
