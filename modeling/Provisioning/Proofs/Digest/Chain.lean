import Provisioning.Proofs.Digest.Stream

/-!
# Chains, clones and edits

A chain yields after each text the digest of all bytes so far, and goes on from there.

* `Sha256.Running.finish_foldl_absorb` : a digest taken in pieces is the digest of the whole;
* `Chain.sum_ofTexts` : so is what a chain yields after some texts;
* `Chain.getElem?_foldl_act` : of all that is done with chains and their clones, a chain notices
  only what is pushed onto itself;
* `streamOf_take_set`, `streamOf_take_set_ne` : an edit of one text leaves the streams before it and
  alters all others;
* `checksums_cumulative` : the checksums of a list of texts, and what an edit does to them.
-/

namespace Provisioning

/-! ### Pieces -/

namespace Sha256.Running

theorem foldl_absorb (bytes : List UInt8) (pieces : List (List UInt8)) :
    pieces.foldl absorb (of bytes) = of (bytes ++ pieces.flatten) := by
  induction pieces generalizing bytes with
  | nil => simp
  | cons piece pieces ih =>
    rw [List.foldl_cons, absorb_of, ih, List.flatten_cons, List.append_assoc]

theorem finish_foldl_absorb (pieces : List (List UInt8)) :
    (pieces.foldl absorb empty).finish = digest pieces.flatten := by
  rw [empty_eq_of, foldl_absorb, List.nil_append, finish_absorb]

end Sha256.Running

namespace Chain

/-- The chain onto which some texts were pushed. -/
def ofTexts (texts : List String) : Chain := texts.foldl push empty

theorem ofTexts_eq (texts : List String) : ofTexts texts = ⟨.of (streamOf texts)⟩ := by
  have hpush : ∀ bytes (texts : List String),
      texts.foldl push ⟨.of bytes⟩ = ⟨.of (bytes ++ streamOf texts)⟩ := by
    intro bytes texts
    induction texts generalizing bytes with
    | nil => simp [streamOf]
    | cons text texts ih =>
      rw [List.foldl_cons, push, Sha256.Running.absorb_of, ih]
      simp [streamOf]
  rw [ofTexts, empty, Sha256.Running.empty_eq_of, hpush, List.nil_append]

theorem sum_ofTexts (texts : List String) :
    (ofTexts texts).sum = checksumOf (streamOf texts) := by
  rw [ofTexts_eq, sum, Sha256.Running.finish_absorb]
  rfl

/-! ### Clones -/

/-- What is done with chains that stand in numbered places. -/
inductive Move where
  /-- A text is pushed onto the chain in a place. -/
  | push (place : Nat) (text : String)
  /-- The chain in a place is cloned.  The clone stands in the next free place. -/
  | clone (place : Nat)

/-- The chains after a move. -/
def act (chains : List Chain) : Move → List Chain
  | .push place text => chains.modify place (·.push text)
  | .clone place => chains ++ chains[place]?.toList

/-- The texts that moves push onto the chain in a place. -/
def pushedOnto (place : Nat) (moves : List Move) : List String :=
  moves.filterMap fun
    | .push other text => if other = place then some text else none
    | .clone _ => none

theorem getElem?_act {chains : List Chain} {place : Nat} {c : Chain}
    (h : chains[place]? = some c) (move : Move) :
    (act chains move)[place]? = some ((pushedOnto place [move]).foldl Chain.push c) := by
  cases move with
  | push other text =>
    rw [act, List.getElem?_modify, h]
    by_cases ho : other = place
    · simp [pushedOnto, ho]
    · simp [pushedOnto, ho]
  | clone other =>
    have hlt := (List.getElem?_eq_some_iff.1 h).1
    rw [act, List.getElem?_append_left hlt, h]
    rfl

/-- A chain notices only what is pushed onto itself. -/
theorem getElem?_foldl_act {chains : List Chain} {place : Nat} {c : Chain}
    (h : chains[place]? = some c) (moves : List Move) :
    (moves.foldl act chains)[place]? = some ((pushedOnto place moves).foldl Chain.push c) := by
  induction moves generalizing chains c with
  | nil => exact h
  | cons move moves ih =>
    rw [List.foldl_cons, ih (getElem?_act h move), ← List.foldl_append, pushedOnto, pushedOnto,
      ← List.filterMap_append]
    rfl

end Chain

/-! ### Edits -/

/-- The byte streams of a list of texts; stream `i` holds the texts `0..i`. -/
def streams (texts : List String) : List (List UInt8) :=
  (List.range texts.length).map fun i => streamOf (texts.take (i + 1))

variable {texts : List String} {k j : Nat} {text : String}

/-- The texts before the one that is edited stay. -/
theorem streamOf_take_set (h : j ≤ k) (text : String) :
    streamOf ((texts.set k text).take j) = streamOf (texts.take j) := by
  rw [List.take_set_of_le h]

theorem streamOf_append (a b : List String) : streamOf (a ++ b) = streamOf a ++ streamOf b :=
  List.flatMap_append

/-- What comes before and after the edited text cancels. -/
theorem streamOf_set_inj (hk : k < texts.length) {text' : String}
    (h : streamOf (texts.set k text) = streamOf (texts.set k text')) : text = text' := by
  have hset : ∀ t, streamOf (texts.set k t) =
      streamOf (texts.take k) ++ (textBytes t ++ streamOf (texts.drop (k + 1))) := fun t => by
    rw [List.set_eq_take_append_cons_drop, if_pos hk, streamOf_append]
    rfl
  rw [hset, hset, List.append_cancel_left_eq, List.append_cancel_right_eq] at h
  exact textBytes_injective h

/-- The streams from the edited text on are altered. -/
theorem streamOf_take_set_ne (hne : texts[k]? ≠ some text) (hk : k < texts.length) (hj : k < j) :
    streamOf ((texts.set k text).take j) ≠ streamOf (texts.take j) := by
  intro heq
  have hk' : k < (texts.take j).length := by
    rw [List.length_take]
    omega
  have hsame : (texts.take j).set k texts[k] = texts.take j := by
    rw [← List.getElem_take (h := hk'), List.set_getElem_self]
  rw [List.take_set, ← hsame, List.set_set] at heq
  exact hne (by rw [List.getElem?_eq_getElem hk, streamOf_set_inj hk' heq])

/-! ### Checksums -/

theorem getElem?_checksums {i : Nat} (hi : i < texts.length) :
    (checksums texts)[i]? = some (checksumOf (streamOf (texts.take (i + 1)))) := by
  rw [checksums_eq, List.getElem?_map, List.getElem?_range hi, Option.map_some]

theorem getElem_mem_streams {i : Nat} (hi : i < texts.length) :
    streamOf (texts.take (i + 1)) ∈ streams texts :=
  List.mem_map.2 ⟨i, List.mem_range.2 hi, rfl⟩

/-- Without a collision an edit of one text changes its checksum and all after it, and no other. -/
theorem checksum_set_eq_iff (hne : texts[k]? ≠ some text) (hk : k < texts.length)
    (hfree : ∀ a ∈ streams (texts.set k text), ∀ b ∈ streams texts,
      Sha256.digest a = Sha256.digest b → a = b) (hj : j < texts.length) :
    (checksums (texts.set k text))[j]? = (checksums texts)[j]? ↔ j < k := by
  have hj' : j < (texts.set k text).length := by simpa using hj
  rw [getElem?_checksums hj, getElem?_checksums hj', Option.some_inj]
  constructor
  · intro heq
    refine Nat.lt_of_not_le fun hle => ?_
    have hstreams := hfree _ (getElem_mem_streams hj') _ (getElem_mem_streams hj)
      (Sha256.hex_injective heq)
    exact streamOf_take_set_ne hne hk (Nat.lt_succ_of_le hle) hstreams
  · intro hlt
    rw [streamOf_take_set hlt]

/-- Checksum `i` of a list of texts, and of the scripts of a task, is the SHA-256 digest of the
bytes of the texts `0..i` joined, written as 64 lower-case hexadecimal digits.  It does not matter
how the bytes are cut into pieces and blocks, and what a chain yields is the checksum of the texts
pushed onto it, whatever is pushed onto its clones.  Without a collision a text put in the place of
a different one leaves exactly the checksums before it unchanged. -/
theorem checksums_cumulative (texts : List String) :
    ((checksums texts).length = texts.length ∧ ∀ i < texts.length, (checksums texts)[i]? =
      some (Sha256.hex (Sha256.digest (textBytes (String.join (texts.take (i + 1))))))) ∧
    (∀ task : Task, task.scripts = texts → task.checksums = checksums texts) ∧
    (∀ h : Sha256.Words, (Sha256.hex h).toList.length = 64 ∧
      ∀ c ∈ (Sha256.hex h).toList, '0' ≤ c ∧ c ≤ '9' ∨ 'a' ≤ c ∧ c ≤ 'f') ∧
    (∀ pieces : List (List UInt8),
      (pieces.foldl Sha256.Running.absorb .empty).finish = Sha256.digest pieces.flatten) ∧
    (∀ (chains : List Chain) (place : Nat), chains[place]? = some (Chain.ofTexts texts) →
      ∀ moves, ∃ c, (moves.foldl Chain.act chains)[place]? = some c ∧
        ∀ text, (c.push text).sum = Sha256.hex (Sha256.digest
          (textBytes (String.join (texts ++ Chain.pushedOnto place moves ++ [text]))))) ∧
    ∀ k < texts.length, ∀ text, texts[k]? ≠ some text →
      (∀ a ∈ streams (texts.set k text), ∀ b ∈ streams texts,
        Sha256.digest a = Sha256.digest b → a = b) →
      ∀ j < texts.length,
        (checksums (texts.set k text))[j]? = (checksums texts)[j]? ↔ j < k := by
  refine ⟨⟨length_checksums texts, fun i hi => ?_⟩, ?_, ?_, Sha256.Running.finish_foldl_absorb,
    ?_, fun k hk text hne hfree j hj => checksum_set_eq_iff hne hk hfree hj⟩
  · rw [getElem?_checksums hi, checksumOf, streamOf_eq]
  · rintro task rfl
    rfl
  · intro h
    have hsum := Sha256.isChecksum_hex h
    simpa [Inventory.isChecksum, Inventory.isHexDigit] using hsum
  · intro chains place hchain moves
    refine ⟨_, Chain.getElem?_foldl_act hchain moves, fun text => ?_⟩
    have hsum := Chain.sum_ofTexts (texts ++ Chain.pushedOnto place moves ++ [text])
    rwa [Chain.ofTexts, List.foldl_append, List.foldl_append, checksumOf, streamOf_eq] at hsum

example : checksums ["abc"] =
    ["ba7816bf8f01cfea414140de5dae2223b00361a396177a9cb410ff61f20015ad"] := by
  decide +kernel

/-- The scripts of a task. -/
def installing : List String := ["apt-get update", "apt-get install -y nginx", "nginx -t"]

theorem installing_cumulative :
    (∀ a ∈ streams (installing.set 1 "apt-get install nginx"), ∀ b ∈ streams installing,
      Sha256.digest a = Sha256.digest b → a = b) ∧
    (∀ j < 3, (checksums (installing.set 1 "apt-get install nginx"))[j]? =
      (checksums installing)[j]? ↔ j < 1) ∧
    ∃ c, ([.clone 0, .push 1 "reboot", .push 0 "nginx"].foldl Chain.act
        [Chain.ofTexts installing])[0]? = some c ∧
      ∀ text, (c.push text).sum = Sha256.hex (Sha256.digest
        (textBytes (String.join (installing ++ ["nginx"] ++ [text])))) := by
  have hfree : ∀ a ∈ streams (installing.set 1 "apt-get install nginx"),
      ∀ b ∈ streams installing, Sha256.digest a = Sha256.digest b → a = b := by
    decide +kernel
  have h := checksums_cumulative installing
  refine ⟨hfree, h.2.2.2.2.2 1 (by decide) _ (by decide) hfree, ?_⟩
  exact h.2.2.2.2.1 _ 0 rfl [.clone 0, .push 1 "reboot", .push 0 "nginx"]

end Provisioning
