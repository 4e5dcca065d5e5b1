import Provisioning.Proofs.Field.Validation

/-!
# What validation accepts

Validation judges every field by its effective value: what it was set to, else its default, else
zero.  For parameters that come about by declaring and setting fields (`Params.Reachable`), each
step of the walk over the schema is two things that do not touch each other:

* `Params.WellTyped.validate_spec` : the default is put in (`Params.fill`), and the effective value
  is judged (`Spec.judge`);
* `Spec.judge_eq_ok_iff` : a value passes exactly if the declaration admits it;
* `Params.WellTyped.effective_fill` : no default that is put in changes an effective value, so the
  judgement of a field does not depend on the fields before it;
* `Params.fill_fill` : putting a default in once more changes nothing.

So validation accepts exactly the parameters whose effective values are all admitted, fills them
in, and has nothing left to do the second time (`Params.Reachable.validate_exact`).
-/

namespace Provisioning

namespace Named

variable {α : Type}

/-- Putting under a name what is there already changes nothing. -/
theorem insert_of_get? {m : Named α} {name : String} {a : α} (h : m.get? name = some a) :
    m.insert name a = m := by
  have hentries : ∀ es : List (String × α), es.lookup name = some a →
      insertEntry name a es = es := by
    intro es hes
    induction es with
    | nil => simp at hes
    | cons e es ih =>
      obtain ⟨k, b⟩ := e
      by_cases hk : name = k
      · subst hk
        obtain rfl : b = a := by simpa using hes
        simp [insertEntry]
      · have hb : (name == k) = false := beq_false_of_ne hk
        rw [List.lookup_cons, hb] at hes
        rw [insertEntry, if_neg fun he => hk he.symm, ih hes]
  obtain ⟨es, hnodup⟩ := m
  simp only [insert, hentries es h]

/-- What stands under a name was put there under that name. -/
theorem mem_of_get?_ofList {es : List (String × α)} {name : String} {a : α}
    (h : (ofList es).get? name = some a) : (name, a) ∈ es := by
  have hfold : ∀ m : Named α, (es.foldl (fun m e => m.insert e.1 e.2) m).get? name = some a →
      (name, a) ∈ es ∨ m.get? name = some a := by
    clear h
    induction es with
    | nil =>
      intro m hm
      exact .inr hm
    | cons e es ih =>
      intro m hm
      rcases ih _ hm with hmem | hget
      · exact .inl (List.mem_cons_of_mem _ hmem)
      · rw [get?_insert] at hget
        split at hget
        · next hname =>
          obtain rfl := Option.some.inj hget
          exact .inl (hname ▸ List.mem_cons_self)
        · exact .inr hget
  rcases hfold empty h with hmem | hempty
  · exact hmem
  · simp [empty, get?] at hempty

end Named

namespace Field

/-! ### Judging one value -/

/-- A measure is not below the least one, not above the greatest one, and the only one allowed,
which no number can be. -/
def Spec.Bounds (spec : Spec) (m : Int) : Prop :=
  (∀ lo, spec.min? = some lo → lo.toInt ≤ m) ∧ (∀ hi, spec.max? = some hi → m ≤ hi.toInt) ∧
    ∀ n, spec.size? = some n → spec.kind ≠ .int ∧ m = n

/-- What a declaration asks of the value by which its field is judged. -/
structure Spec.Admits (spec : Spec) (v : Value) : Prop where
  /-- It has the declared kind. -/
  kind : v.kind = spec.kind
  /-- It is not zero if the field is required. -/
  required : spec.required = true → v.isZero = false
  /-- A truth value comes without bounds. -/
  unbounded : v.kind = .bool → spec.min? = none ∧ spec.max? = none ∧ spec.size? = none
  /-- The measure of anything but zero is within the bounds. -/
  bounds : v.isZero = false → ∀ m, v.measure = some m → spec.Bounds m

/-- Requires a value to have the declared kind and to satisfy the constraints. -/
def Spec.judge (spec : Spec) (v : Value) : Except Violation Unit :=
  (spec.checkKind v).bind fun _ => spec.checkConstraints v

variable {spec : Spec} {v : Value}

/-- A check is passed by what is not refused and passes all that is left. -/
theorem ite_error_eq_ok_iff {ε α : Type} {c : Prop} [Decidable c] {e : ε} {r : Except ε α} {a : α} :
    (if c then .error e else r) = .ok a ↔ ¬ c ∧ r = .ok a := by
  by_cases h : c <;> simp [h]

theorem Spec.checkKind_eq_ok_iff : spec.checkKind v = .ok () ↔ v.kind = spec.kind := by
  unfold checkKind
  split <;> simp [*]

theorem Spec.checkUnbounded_eq_ok_iff : spec.checkUnbounded = .ok () ↔
    spec.min? = none ∧ spec.max? = none ∧ spec.size? = none := by
  simp only [checkUnbounded, ite_error_eq_ok_iff, Bool.not_eq_true, Option.isSome_eq_false_iff,
    Option.isNone_iff_eq_none, and_true]

theorem Value.measure_eq_none_iff : v.measure = none ↔ v.kind = .bool := by
  cases v <;> simp [measure, kind]

/-- Only numbers are measured by something that may be below zero. -/
theorem Value.measure_nonneg {m : Int} (hm : v.measure = some m) (h : v.kind ≠ .int) : 0 ≤ m := by
  cases v with
  | string s =>
    obtain rfl := Option.some.inj hm
    exact Int.natCast_nonneg _
  | bytes bs =>
    obtain rfl := Option.some.inj hm
    exact Int.natCast_nonneg _
  | int n => exact absurd rfl h
  | bool b => simp [measure] at hm

theorem Spec.checkMeasure_eq_ok_iff {m : Int} (h : spec.kind ≠ .int → 0 ≤ m) :
    spec.checkMeasure m = .ok () ↔ spec.Bounds m := by
  have hsize : ∀ n : Nat, ¬ spec.kind = .int → (m.toNat = n ↔ m = n) := by
    intro n hkind
    have := h hkind
    omega
  unfold checkMeasure Bounds
  cases spec.min? <;> cases spec.max? <;> cases spec.size? <;>
    simp +contextual [bind, Except.bind, pure, Except.pure, throw, throwThe, MonadExceptOf.throw,
      ite_error_eq_ok_iff, hsize]

/-- A value of the declared kind passes exactly if the declaration admits it. -/
theorem Spec.checkConstraints_eq_ok_iff (h : v.kind = spec.kind) :
    spec.checkConstraints v = .ok () ↔ spec.Admits v := by
  unfold checkConstraints
  by_cases hr : spec.required = true ∧ v.isZero = true
  · -- a required field that is zero is refused, for one of two reasons
    rw [if_pos (by simpa using hr)]
    constructor
    · intro he
      split at he <;> simp at he
    · intro ha
      simp [ha.required hr.1] at hr
  rw [if_neg (by simpa using hr)]
  have hrequired : spec.required = true → v.isZero = false := by
    intro hreq
    simpa [hreq] using hr
  cases hm : v.measure with
  | none =>
    have hkind : v.kind = .bool := Value.measure_eq_none_iff.1 hm
    rw [checkUnbounded_eq_ok_iff]
    exact ⟨fun hu => ⟨h, hrequired, fun _ => hu, by simp [hm]⟩, fun ha => ha.unbounded hkind⟩
  | some m =>
    have hkind : v.kind ≠ .bool := by
      intro hb
      simp [Value.measure_eq_none_iff.2 hb] at hm
    have hbounds : spec.checkMeasure m = .ok () ↔ spec.Bounds m :=
      checkMeasure_eq_ok_iff fun hint => Value.measure_nonneg hm (by rwa [h])
    by_cases hz : v.isZero = true
    · -- what is not set, and need not be, is exempt
      have hopt : spec.required = false := Bool.eq_false_iff.2 fun hreq => hr ⟨hreq, hz⟩
      have hexempt : (v.isZero && !spec.required) = true := by simp [hz, hopt]
      simp only [if_pos hexempt, true_iff]
      exact ⟨h, hrequired, fun hb => absurd hb hkind, fun hz' => by simp [hz] at hz'⟩
    · have hset : ¬ (v.isZero && !spec.required) = true := by simp [hz]
      simp only [if_neg hset, hbounds]
      refine ⟨fun hb => ⟨h, hrequired, fun hb => absurd hb hkind, fun _ m' hm' => ?_⟩, fun ha => ?_⟩
      · obtain rfl := Option.some.inj (hm.symm.trans hm')
        exact hb
      · exact ha.bounds (by simpa using hz) m hm

/-- A value passes exactly if the declaration admits it. -/
theorem Spec.judge_eq_ok_iff : spec.judge v = .ok () ↔ spec.Admits v := by
  unfold judge
  cases hkind : spec.checkKind v with
  | error e =>
    have hne : v.kind ≠ spec.kind := by
      intro h
      simp [checkKind_eq_ok_iff.2 h] at hkind
    exact ⟨fun h => absurd h (by simp [Except.bind]), fun ha => absurd ha.kind hne⟩
  | ok u => exact checkConstraints_eq_ok_iff (checkKind_eq_ok_iff.1 hkind)

/-! ### Putting defaults in -/

namespace Params

variable {p p' : Params} {other : Spec}

/-- The value of a declared field, zero if it is not set. -/
def value (p : Params) (spec : Spec) : Value :=
  (p.get? spec.name).getD (.zero spec.kind)

/-- The value by which a field is judged: its own, else its default, else zero. -/
def effective (p : Params) (spec : Spec) : Value :=
  if (p.value spec).isZero then spec.default?.getD (.zero spec.kind) else p.value spec

/-- The default of a field put into it, if it is not set and has a default of its kind. -/
def fill (p : Params) (spec : Spec) : Params :=
  match spec.default? with
  | some d =>
    if (p.value spec).isZero ∧ d.kind = spec.kind then
      { p with values := p.values.insert spec.name d }
    else p
  | none => p

/-- Every declaration stands under its own name, and every field that is set has a value of its
kind. -/
structure WellTyped (p : Params) : Prop where
  /-- A declaration is found under its name. -/
  named : ∀ spec ∈ p.schema.values, p.schema.get? spec.name = some spec
  /-- A value has the declared kind. -/
  typed : ∀ name spec v, p.schema.get? name = some spec → p.values.get? name = some v →
    v.kind = spec.kind

/-- Parameters that come about by declaring fields, or by taking values as they are, and then
setting fields. -/
inductive Reachable : Params → Prop
  /-- Declared fields, none of them set. -/
  | new (specs : List Spec) : Reachable (new (.ofSpecs specs))
  /-- Values as they are. -/
  | inferred (values : Named Value) : Reachable (inferred values)
  /-- One more field is set. -/
  | set {p p' : Params} {name : String} {v : Value} :
      Reachable p → p.set name v = .ok p' → Reachable p'

theorem named_ofSpecs (specs : List Spec) :
    ∀ spec ∈ (Schema.ofSpecs specs).values, (Schema.ofSpecs specs).get? spec.name = some spec := by
  intro spec hspec
  obtain ⟨⟨name, s⟩, hmem, rfl⟩ := List.mem_map.1 hspec
  have hget : (Schema.ofSpecs specs).get? name = some s := Named.get?_eq_some_iff.2 hmem
  obtain ⟨s', -, he⟩ := List.mem_map.1 (Named.mem_of_get?_ofList hget)
  obtain ⟨rfl, rfl⟩ := Prod.mk.inj he
  exact hget

theorem WellTyped.set {name : String} (h : p.WellTyped) (hp : p.set name v = .ok p') :
    p'.WellTyped := by
  rw [Params.set] at hp
  split at hp
  · simp at hp
  · next declared hdeclared =>
    split at hp
    · simp at hp
    · next hkind =>
      obtain rfl := Except.ok.inj hp
      refine ⟨h.named, fun other spec w hspec hw => ?_⟩
      rw [Named.get?_insert] at hw
      split at hw
      · next hname =>
        subst hname
        obtain rfl := Option.some.inj hw
        obtain rfl := Option.some.inj (hdeclared.symm.trans hspec)
        exact Spec.checkKind_eq_ok_iff.1 hkind
      · exact h.typed other spec w hspec hw

theorem wellTyped_inferred (values : Named Value) : (inferred values).WellTyped := by
  constructor
  · intro spec hspec
    obtain ⟨e, he, rfl⟩ := List.mem_map.1 hspec
    obtain ⟨⟨name, w⟩, hw, rfl⟩ := List.mem_map.1 he
    exact Named.get?_eq_some_iff.2 he
  · intro name spec w hspec hw
    have hget : (inferred values).schema.get? name =
        (values.get? name).map fun v => { name, kind := v.kind } := Named.get?_map _ values name
    rw [hspec, show values.get? name = some w from hw] at hget
    rw [Option.some.inj hget]

theorem Reachable.wellTyped (h : p.Reachable) : p.WellTyped := by
  induction h with
  | new specs =>
    refine ⟨named_ofSpecs specs, fun name spec w _ hw => ?_⟩
    simp [Params.new, Named.get?, Named.empty] at hw
  | inferred values => exact wellTyped_inferred values
  | set _ hset ih => exact ih.set hset

/-! ### One step of the walk -/

namespace WellTyped

variable {spec : Spec}

theorem kind_value (h : p.WellTyped) (hs : spec ∈ p.schema.values) :
    (p.value spec).kind = spec.kind := by
  have hspec := h.named spec hs
  rw [value, get?, hspec]
  cases hv : p.values.get? spec.name with
  | none => simp
  | some w => exact h.typed spec.name spec w hspec hv

/-- A default of the declared kind can always be put in. -/
theorem set_eq_ok (h : p.WellTyped) (hs : spec ∈ p.schema.values) (hkind : v.kind = spec.kind) :
    p.set spec.name v = .ok { p with values := p.values.insert spec.name v } := by
  simp only [Params.set, h.named spec hs, Spec.checkKind_eq_ok_iff.2 hkind]

/-- Validating one declared field puts its default in and judges the effective value. -/
theorem validate_spec (h : p.WellTyped) (hs : spec ∈ p.schema.values) :
    spec.validate p = (p.fill spec, spec.judge (p.effective spec)) := by
  have hkind : spec.checkKind (p.value spec) = .ok () :=
    Spec.checkKind_eq_ok_iff.2 (h.kind_value hs)
  have hvalue : (Holder.get? p spec.name).getD (.zero spec.kind) = p.value spec := rfl
  rw [Spec.validate, hvalue, effective, fill]
  simp only [hkind]
  by_cases hz : (p.value spec).isZero = true
  · cases hd : spec.default? with
    | none =>
      have hzero : Value.zero spec.kind = p.value spec := by
        rw [← h.kind_value hs]
        exact ((Value.isZero_iff _).1 hz).symm
      simp only [hz, if_true, Option.getD_none, hzero, Spec.judge, hkind, Except.bind]
    | some d =>
      simp only [hz, if_true, Option.getD_some, Spec.judge, true_and]
      cases hdk : spec.checkKind d with
      | error e =>
        have hne : ¬ d.kind = spec.kind := by
          intro he
          simp [Spec.checkKind_eq_ok_iff.2 he] at hdk
        simp only [if_neg hne, Except.bind]
      | ok u =>
        have he : d.kind = spec.kind := Spec.checkKind_eq_ok_iff.1 hdk
        have hset : Holder.set p spec.name d = .ok _ := h.set_eq_ok hs he
        simp only [hset, if_pos he, Except.bind]
  · cases hd : spec.default? <;>
      simp only [hz, Bool.false_eq_true, if_false, false_and, Spec.judge, hkind, Except.bind]

end WellTyped

theorem fill_schema (p : Params) (spec : Spec) : (p.fill spec).schema = p.schema := by
  rw [fill]
  split
  · split <;> rfl
  · rfl

/-- What is filled in is a field that was not set. -/
theorem fill_cases (p : Params) (spec : Spec) : p.fill spec = p ∨
    ∃ d, spec.default? = some d ∧ (p.value spec).isZero = true ∧ d.kind = spec.kind ∧
      p.fill spec = { p with values := p.values.insert spec.name d } := by
  rw [fill]
  split
  · next d hd =>
    split
    · next h => exact .inr ⟨d, hd, h.1, h.2, rfl⟩
    · exact .inl rfl
  · exact .inl rfl

namespace WellTyped

variable {spec other : Spec}

theorem fill (h : p.WellTyped) (hs : spec ∈ p.schema.values) : (p.fill spec).WellTyped := by
  rcases p.fill_cases spec with he | ⟨d, -, -, hkind, he⟩
  · rwa [he]
  · rw [he]
    exact h.set (h.set_eq_ok hs hkind)

/-- A name has one declaration. -/
theorem eq_of_name (h : p.WellTyped) (hs : spec ∈ p.schema.values) (ho : other ∈ p.schema.values)
    (hname : spec.name = other.name) : spec = other := by
  have hspec := h.named spec hs
  rw [hname, h.named other ho] at hspec
  exact (Option.some.inj hspec).symm

/-- What the value of a declared field is after a default was put into one. -/
theorem value_fill (h : p.WellTyped) (hs : spec ∈ p.schema.values) (ho : other ∈ p.schema.values) :
    (p.fill other).value spec = p.value spec ∨
      spec = other ∧ (p.value spec).isZero = true ∧
        spec.default? = some ((p.fill other).value spec) := by
  rcases p.fill_cases other with he | ⟨d, hd, hz, hkind, he⟩
  · exact .inl (by rw [he])
  · have hget := get?_set (h.set_eq_ok ho hkind) spec.name
    by_cases hname : spec.name = other.name
    · obtain rfl := h.eq_of_name hs ho hname
      rw [if_pos rfl] at hget
      refine .inr ⟨rfl, hz, ?_⟩
      rw [hd, he, value, hget, Option.getD_some]
    · rw [if_neg hname] at hget
      refine .inl ?_
      rw [he, value, value, hget]

/-- No default that is put in changes an effective value. -/
theorem effective_fill (h : p.WellTyped) (hs : spec ∈ p.schema.values)
    (ho : other ∈ p.schema.values) : (p.fill other).effective spec = p.effective spec := by
  rcases h.value_fill hs ho with he | ⟨rfl, hz, hd⟩
  · rw [effective, effective, he]
  · rw [effective, effective, if_pos hz, hd, Option.getD_some, ite_self]

/-- A field with an effective value of its kind has that value once its default is put in. -/
theorem value_fill_self (h : p.WellTyped) (hs : spec ∈ p.schema.values)
    (hkind : (p.effective spec).kind = spec.kind) :
    (p.fill spec).value spec = p.effective spec := by
  rw [effective] at hkind ⊢
  by_cases hz : (p.value spec).isZero = true
  · rw [if_pos hz] at hkind ⊢
    cases hd : spec.default? with
    | none =>
      rw [Params.fill, hd, Option.getD_none, ← h.kind_value hs]
      exact (Value.isZero_iff _).1 hz
    | some d =>
      rw [hd, Option.getD_some] at hkind
      have hget := get?_set (h.set_eq_ok hs hkind) spec.name
      rw [if_pos rfl] at hget
      rw [Params.fill, hd, Option.getD_some]
      simp only [hz, hkind, and_self, if_true]
      rw [value, hget, Option.getD_some]
  · rw [if_neg hz, Params.fill]
    simp only [hz, Bool.false_eq_true, false_and, if_false]
    cases spec.default? <;> rfl

end WellTyped

/-- There is nothing to put in exactly if a default that could be put in stands there. -/
theorem fill_eq_self_iff : p.fill spec = p ↔ ∀ d, spec.default? = some d →
    (p.value spec).isZero = true → d.kind = spec.kind → p.values.get? spec.name = some d := by
  constructor
  · intro h d hd hz hkind
    rw [fill, hd] at h
    simp only [hz, hkind, and_self, if_true] at h
    rw [← h, Named.get?_insert, if_pos rfl]
  · intro h
    rcases p.fill_cases spec with he | ⟨d, hd, hz, hkind, he⟩
    · exact he
    · rw [he, Named.insert_of_get? (h d hd hz hkind)]

/-- Putting a default in once more changes nothing. -/
theorem fill_fill (p : Params) (spec : Spec) : (p.fill spec).fill spec = p.fill spec := by
  rcases p.fill_cases spec with he | ⟨d, hd, -, -, he⟩
  · rw [he, he]
  · rw [fill_eq_self_iff]
    intro d' hd' _ _
    rw [he, Named.get?_insert, if_pos rfl, ← hd, hd']

/-- A field that has its effective value, and into which there is nothing to put. -/
structure Settled (p : Params) (spec : Spec) : Prop where
  /-- The field has its effective value. -/
  value : p.value spec = p.effective spec
  /-- There is nothing to put into it. -/
  fill : p.fill spec = p

namespace WellTyped

/-- A field whose default was put in is settled. -/
theorem settled_fill_self (h : p.WellTyped) (hs : spec ∈ p.schema.values)
    (hkind : (p.effective spec).kind = spec.kind) : (p.fill spec).Settled spec where
  value := by rw [h.effective_fill hs hs, h.value_fill_self hs hkind]
  fill := p.fill_fill spec

/-- A settled field stays so when a default is put into any field. -/
theorem settled_fill (h : p.WellTyped) (hs : spec ∈ p.schema.values) (ho : other ∈ p.schema.values)
    (hsettled : p.Settled spec) : (p.fill other).Settled spec := by
  by_cases hname : spec.name = other.name
  · obtain rfl := h.eq_of_name hs ho hname
    rwa [hsettled.fill]
  · have hvalues : (p.fill other).values.get? spec.name = p.values.get? spec.name := by
      rcases p.fill_cases other with he | ⟨d, -, -, -, he⟩
      · rw [he]
      · rw [he, Named.get?_insert, if_neg hname]
    have hvalue : (p.fill other).value spec = p.value spec := by
      rw [value, value, get?, get?, fill_schema, hvalues]
    refine ⟨by rw [h.effective_fill hs ho, hvalue, hsettled.value], ?_⟩
    rw [fill_eq_self_iff, hvalue, hvalues]
    exact fill_eq_self_iff.1 hsettled.fill

end WellTyped

/-- A field that is set is left as it is. -/
theorem get?_fill (p : Params) (spec : Spec) {name : String} (hv : p.get? name = some v)
    (hset : v.isZero = false) : (p.fill spec).get? name = some v := by
  rcases p.fill_cases spec with he | ⟨d, -, hz, -, he⟩
  · rwa [he]
  · have hne : name ≠ spec.name := by
      rintro rfl
      rw [value, hv, Option.getD_some, hset] at hz
      exact Bool.false_ne_true hz
    rw [he, get?]
    simp only [Named.get?_insert, if_neg hne]
    exact hv

/-! ### The walk -/

/-- What is left of parameters when defaults are put in. -/
structure Extends (p q : Params) : Prop where
  /-- Declarations and kinds fit together. -/
  wellTyped : q.WellTyped
  /-- The declarations are the same. -/
  schema : q.schema = p.schema
  /-- So are the effective values. -/
  effective : ∀ spec ∈ p.schema.values, q.effective spec = p.effective spec
  /-- What is set is left as it is. -/
  kept : ∀ name v, p.get? name = some v → v.isZero = false → q.get? name = some v

variable {q : Params} {specs : List Spec}

theorem WellTyped.extends (h : p.WellTyped) : p.Extends p :=
  ⟨h, rfl, fun _ _ => rfl, fun _ _ hv _ => hv⟩

theorem Extends.fill (h : p.Extends q) (hs : spec ∈ p.schema.values) : p.Extends (q.fill spec) where
  wellTyped := h.wellTyped.fill (h.schema ▸ hs)
  schema := (q.fill_schema spec).trans h.schema
  effective other ho := by
    rw [h.wellTyped.effective_fill (h.schema ▸ ho) (h.schema ▸ hs), h.effective other ho]
  kept name v hv hset := q.get?_fill spec (h.kept name v hv hset) hset

/-- What each default that is put in keeps, all of them together keep. -/
theorem Extends.foldl {motive : Params → Prop} (h : p.Extends q) (hq : motive q)
    (hs : ∀ spec ∈ specs, spec ∈ p.schema.values)
    (step : ∀ q spec, p.Extends q → spec ∈ p.schema.values → motive q → motive (q.fill spec)) :
    p.Extends (specs.foldl Params.fill q) ∧ motive (specs.foldl Params.fill q) := by
  induction specs generalizing q with
  | nil => exact ⟨h, hq⟩
  | cons spec specs ih =>
    obtain ⟨hspec, hspecs⟩ := List.forall_mem_cons.1 hs
    exact ih (h.fill hspec) (step q spec h hspec hq) hspecs

theorem WellTyped.extends_foldl (h : p.WellTyped) (hs : ∀ spec ∈ specs, spec ∈ p.schema.values) :
    p.Extends (specs.foldl Params.fill p) :=
  (h.extends.foldl (motive := fun _ => True) trivial hs fun _ _ _ _ _ => trivial).1

/-- Once all defaults are put in, all fields are settled. -/
theorem Extends.settled_foldl (h : p.Extends q) (hs : ∀ spec ∈ specs, spec ∈ p.schema.values)
    (hkind : ∀ spec ∈ specs, (p.effective spec).kind = spec.kind) :
    ∀ spec ∈ specs, (specs.foldl Params.fill q).Settled spec := by
  induction specs generalizing q with
  | nil => simp
  | cons spec specs ih =>
    obtain ⟨hspec, hspecs⟩ := List.forall_mem_cons.1 hs
    obtain ⟨hkspec, hkspecs⟩ := List.forall_mem_cons.1 hkind
    refine List.forall_mem_cons.2 ⟨?_, ih (h.fill hspec) hspecs hkspecs⟩
    rw [← h.effective spec hspec] at hkspec
    have hfirst := h.wellTyped.settled_fill_self (h.schema ▸ hspec) hkspec
    refine ((h.fill hspec).foldl (motive := fun q => q.Settled spec) hfirst hspecs ?_).2
    intro q other hq ho hsettled
    exact hq.wellTyped.settled_fill (hq.schema ▸ hspec) (hq.schema ▸ ho) hsettled

theorem foldl_of_settled (h : ∀ spec ∈ specs, p.Settled spec) : specs.foldl fill p = p := by
  induction specs with
  | nil => rfl
  | cons spec specs ih =>
    obtain ⟨hspec, hspecs⟩ := List.forall_mem_cons.1 h
    rw [List.foldl_cons, hspec.fill, ih hspecs]

/-- A declared field has its effective value if it is settled. -/
theorem Settled.get? (h : p.Settled spec) (hp : p.WellTyped) (hs : spec ∈ p.schema.values) :
    p.get? spec.name = some (p.effective spec) := by
  have hvalue := h.value
  rw [Params.value, Params.get?, hp.named spec hs, Option.map_some, Option.getD_some] at hvalue
  rw [Params.get?, hp.named spec hs, Option.map_some, hvalue]

end Params

/-- The walk puts in the defaults of the declarations up to the first that refuses its value. -/
theorem validateSpecs_cases {p : Params} (h : p.WellTyped) {specs : List Spec}
    (hs : ∀ spec ∈ specs, spec ∈ p.schema.values) :
    ((∀ spec ∈ specs, spec.Admits (p.effective spec)) ∧
      validateSpecs specs p = (specs.foldl Params.fill p, .ok ())) ∨
    ∃ before spec after e, specs = before ++ spec :: after ∧ ¬ spec.Admits (p.effective spec) ∧
      validateSpecs specs p = ((before ++ [spec]).foldl Params.fill p, .error e) := by
  induction specs generalizing p with
  | nil => exact .inl ⟨by simp, rfl⟩
  | cons spec specs ih =>
    obtain ⟨hspec, hspecs⟩ := List.forall_mem_cons.1 hs
    have hstep := h.validate_spec hspec
    rw [validateSpecs, hstep]
    cases hjudge : spec.judge (p.effective spec) with
    | error e =>
      refine .inr ⟨[], spec, specs, e, rfl, ?_, rfl⟩
      intro ha
      simp [Spec.judge_eq_ok_iff.2 ha] at hjudge
    | ok u =>
      have hadmits : spec.Admits (p.effective spec) := Spec.judge_eq_ok_iff.1 hjudge
      have heffective : ∀ other ∈ specs, (p.fill spec).effective other = p.effective other :=
        fun other ho => h.effective_fill (hspecs other ho) hspec
      have hrest := ih (h.fill hspec) (by rwa [Params.fill_schema])
      rcases hrest with ⟨hall, hok⟩ | ⟨before, s, after, e, rfl, hnot, herror⟩
      · refine .inl ⟨List.forall_mem_cons.2 ⟨hadmits, fun other ho => ?_⟩, hok⟩
        rw [← heffective other ho]
        exact hall other ho
      · refine .inr ⟨spec :: before, s, after, e, rfl, ?_, herror⟩
        rw [← heffective s (by simp)]
        exact hnot

variable {p : Params}

/-- The walk does nothing but put defaults in. -/
theorem Params.WellTyped.extends_validateSpecs (h : p.WellTyped) {specs : List Spec}
    (hs : ∀ spec ∈ specs, spec ∈ p.schema.values) : p.Extends (validateSpecs specs p).1 := by
  rcases validateSpecs_cases h hs with ⟨-, he⟩ | ⟨before, spec, after, e, rfl, -, he⟩
  · rw [he]
    exact h.extends_foldl hs
  · rw [he]
    exact h.extends_foldl fun s hmem => hs s (by
      rw [List.append_cons]
      exact List.mem_append_left _ hmem)

/-- Validation accepts exactly what is admitted by all declarations. -/
theorem Params.WellTyped.validate_ok_iff (h : p.WellTyped) : (validate p).2 = .ok () ↔
    ∀ spec ∈ p.schema.values, spec.Admits (p.effective spec) := by
  have hvalidate : validate p = validateSpecs p.schema.values p := rfl
  rw [hvalidate]
  rcases validateSpecs_cases h fun _ hs => hs with ⟨hall, he⟩ | ⟨before, s, after, e, hs, hnot, he⟩
  · rw [he]
    exact ⟨fun _ => hall, fun _ => rfl⟩
  · rw [he]
    refine ⟨fun hok => absurd hok (by simp), fun hall => absurd (hall s ?_) hnot⟩
    rw [hs]
    exact List.mem_append_right _ List.mem_cons_self

/-- What validation accepts is settled afterwards. -/
theorem Params.WellTyped.settled_validate (h : p.WellTyped) (hok : (validate p).2 = .ok ()) :
    ∀ spec ∈ p.schema.values, (validate p).1.Settled spec := by
  have hall := h.validate_ok_iff.1 hok
  have hvalidate : validate p = validateSpecs p.schema.values p := rfl
  rw [hvalidate] at hok ⊢
  rcases validateSpecs_cases h fun _ hs => hs with ⟨-, he⟩ | ⟨_, _, _, e, -, -, he⟩
  · rw [he]
    exact h.extends.settled_foldl (fun _ hs => hs) fun spec hs => (hall spec hs).kind
  · simp [he] at hok

/-- For parameters that come about by declaring and setting fields, validation accepts exactly those
whose effective values are all admitted by their declarations.  If it accepts them, every field has
its effective value afterwards, and a second validation accepts them too and changes nothing.
Whether it accepts them or not, a field that was set stays as it is, and at whatever declaration the
walk stands, a default of the declared kind can be put in. -/
theorem Params.Reachable.validate_exact {p : Params} (h : p.Reachable) :
    ((validate p).2 = .ok () ↔ ∀ spec ∈ p.schema.values, spec.Admits (p.effective spec)) ∧
    ((validate p).2 = .ok () →
      (∀ spec ∈ p.schema.values, (validate p).1.get? spec.name = some (p.effective spec)) ∧
      validate (validate p).1 = ((validate p).1, .ok ())) ∧
    (∀ name v, p.get? name = some v → v.isZero = false → (validate p).1.get? name = some v) ∧
    ∀ before spec after, p.schema.values = before ++ spec :: after →
      ∀ d, spec.default? = some d → d.kind = spec.kind →
        ∃ p', (validateSpecs before p).1.set spec.name d = .ok p' := by
  have hp := h.wellTyped
  have hextends : p.Extends (validate p).1 := hp.extends_validateSpecs fun _ hs => hs
  refine ⟨hp.validate_ok_iff, fun hok => ⟨fun spec hs => ?_, ?_⟩, hextends.kept, ?_⟩
  · have hsettled := hp.settled_validate hok spec hs
    rw [hsettled.get? hextends.wellTyped (hextends.schema ▸ hs), hextends.effective spec hs]
  · have hsettled := hp.settled_validate hok
    have hall := hp.validate_ok_iff.1 hok
    generalize (validate p).1 = q at hextends hsettled
    have hagain : validate q = validateSpecs q.schema.values q := rfl
    have hq : ∀ spec ∈ q.schema.values, spec.Admits (q.effective spec) := by
      intro spec hs
      rw [hextends.schema] at hs
      rw [hextends.effective spec hs]
      exact hall spec hs
    rw [hagain]
    rcases validateSpecs_cases hextends.wellTyped fun _ hs => hs with
      ⟨-, he⟩ | ⟨before, s, after, e, hs, hnot, -⟩
    · rw [he, foldl_of_settled (hextends.schema ▸ hsettled)]
    · refine absurd (hq s ?_) hnot
      rw [hs]
      exact List.mem_append_right _ List.mem_cons_self
  · intro before spec after hschema d _ hkind
    have hbefore : ∀ s ∈ before, s ∈ p.schema.values := by
      intro s hs
      rw [hschema]
      exact List.mem_append_left _ hs
    have hwalk := hp.extends_validateSpecs hbefore
    have hspec : spec ∈ (validateSpecs before p).1.schema.values := by
      rw [hwalk.schema, hschema]
      exact List.mem_append_right _ List.mem_cons_self
    exact ⟨_, hwalk.wellTyped.set_eq_ok hspec hkind⟩

/-- The fields of a web server, of which one is set and two are left to their defaults. -/
def Params.server : Params where
  schema := .ofSpecs [
    { name := "version", kind := .string, default? := some (.string "1.24"), min? := some 1 },
    { name := "port", kind := .int, default? := some (.int 80), min? := some 1,
      max? := some 65535 },
    { name := "server_name", kind := .string, required := true },
    { name := "key", kind := .bytes, size? := some 4 }]
  values := .ofList [("server_name", .string "example.org")]

theorem Params.server_validate_exact : server.Reachable ∧ (validate server).2 = .ok () ∧
    (validate server).1.get? "port" = some (.int 80) ∧
    (validate server).1.get? "server_name" = some (.string "example.org") ∧
    validate (validate server).1 = ((validate server).1, .ok ()) := by
  have hreachable : server.Reachable := by
    have hset : (new server.schema).set "server_name" (.string "example.org") = .ok server := by rfl
    exact .set (.new _) hset
  have hok : (validate server).2 = .ok () := by rfl
  obtain ⟨-, haccepted, hkept, -⟩ := hreachable.validate_exact
  obtain ⟨hfilled, hagain⟩ := haccepted hok
  obtain ⟨port, hport, hname, hvalue⟩ : ∃ spec ∈ server.schema.values,
      spec.name = "port" ∧ server.effective spec = .int 80 := by decide +kernel
  refine ⟨hreachable, hok, ?_, ?_, hagain⟩
  · rw [← hname, ← hvalue]
    exact hfilled port hport
  · exact hkept "server_name" _ (by decide +kernel) (by decide +kernel)

end Field

end Provisioning
