import Provisioning.Field.Schema

/-!
# What validation leaves alone

Validation changes a field only by putting its default into it.

* `Params.get?_set` : setting a field changes that field and no other one;
* `Params.get?_validate` : a field whose declaration has no default stays as it is.

What it says and what it makes of the fields depends on nothing but the declarations and the values
that the fields have; whether a value was set or is that of an unset field makes no difference:

* `Params.Alike.validate` : fields that are alike before validation are alike after it.
-/

namespace Provisioning

namespace Field

variable {p p' : Params} {name other : String} {v : Value}

theorem Params.set_eq_ok (h : p.set name v = .ok p') :
    (∃ spec, p.schema.get? name = some spec) ∧ p'.schema = p.schema ∧
      p'.values = p.values.insert name v := by
  rw [set] at h
  split at h
  · simp at h
  · next spec hspec =>
    split at h
    · simp at h
    · obtain rfl := Except.ok.inj h
      exact ⟨⟨spec, hspec⟩, rfl, rfl⟩

/-- Setting a field changes that field and no other one. -/
theorem Params.get?_set (h : p.set name v = .ok p') (other : String) :
    p'.get? other = if other = name then some v else p.get? other := by
  obtain ⟨⟨spec, hspec⟩, hschema, hvalues⟩ := set_eq_ok h
  rw [get?, get?, hschema, hvalues, Named.get?_insert]
  by_cases ho : other = name
  · simp [ho, hspec]
  · simp [ho]

/-- Validating a declared field changes no field but that one, and that one only if it has a
default. -/
theorem Spec.get?_validate (spec : Spec) (p : Params)
    (h : spec.name = other → spec.default? = none) :
    (spec.validate p).1.get? other = p.get? other := by
  rw [validate]
  split
  · rfl
  · split
    · rfl
    · next d hd =>
      split
      · rfl
      · split
        · rfl
        · next p' hset =>
          have hdefault : spec.default? = some d := by
            split at hd
            · exact hd
            · simp at hd
          have hne : other ≠ spec.name := by
            intro he
            simp [h he.symm] at hdefault
          rw [Params.get?_set hset, if_neg hne]

theorem get?_validateSpecs (specs : List Spec) (p : Params)
    (h : ∀ spec ∈ specs, spec.name = other → spec.default? = none) :
    (validateSpecs specs p).1.get? other = p.get? other := by
  induction specs generalizing p with
  | nil => rfl
  | cons spec specs ih =>
    obtain ⟨hspec, hspecs⟩ := List.forall_mem_cons.1 h
    have hfirst := spec.get?_validate p hspec
    rw [validateSpecs]
    split
    · next p' hp' =>
      rw [ih p' hspecs, ← hfirst, hp']
    · next p' e hp' => rw [← hfirst, hp']

/-- A field whose declaration has no default stays as it is. -/
theorem Params.get?_validate (p : Params)
    (h : ∀ spec ∈ p.schema.values, spec.name = other → spec.default? = none) :
    (validate p).1.get? other = p.get? other :=
  get?_validateSpecs _ p h

/-! ### Fields that are alike -/

/-- Two holders declare the same fields, and each field has the same value in both. -/
structure Params.Alike (p q : Params) : Prop where
  /-- The declarations are the same. -/
  schema : p.schema = q.schema
  /-- So are the values. -/
  get? : ∀ field, p.get? field = q.get? field

variable {q q' : Params}

theorem Params.Alike.set (h : p.Alike q) (hp : p.set name v = .ok p') (hq : q.set name v = .ok q') :
    p'.Alike q' where
  schema := by rw [(set_eq_ok hp).2.1, (set_eq_ok hq).2.1, h.schema]
  get? field := by rw [get?_set hp, get?_set hq, h.get?]

/-- Whether a field can be set depends on its declaration. -/
theorem Params.Alike.set_eq_error (h : p.Alike q) {e : Violation} :
    p.set name v = .error e ↔ q.set name v = .error e := by
  rw [Params.set, Params.set, h.schema]
  cases q.schema.get? name with
  | none => exact Iff.rfl
  | some spec =>
    cases hkind : spec.checkKind v with
    | error e' => simp only [hkind]
    | ok u => simp [hkind]

theorem Spec.alike_validate (spec : Spec) (h : p.Alike q) :
    (spec.validate p).1.Alike (spec.validate q).1 ∧ (spec.validate p).2 = (spec.validate q).2 := by
  have hvalue : Holder.get? p spec.name = Holder.get? q spec.name := h.get? spec.name
  rw [validate, validate, hvalue]
  generalize (Holder.get? q spec.name).getD (Value.zero spec.kind) = v
  cases spec.checkKind v with
  | error e => exact ⟨h, rfl⟩
  | ok u =>
    cases (if v.isZero = true then spec.default? else none) with
    | none => exact ⟨h, rfl⟩
    | some d =>
      cases hd : spec.checkKind d with
      | error e =>
        simp only [hd]
        exact ⟨h, trivial⟩
      | ok u =>
        simp only [hd]
        cases hp : Holder.set p spec.name d with
        | error e =>
          have hq : Holder.set q spec.name d = .error e := h.set_eq_error.1 hp
          rw [hq]
          exact ⟨h, rfl⟩
        | ok p' =>
          cases hq : Holder.set q spec.name d with
          | error e => exact absurd (hp.symm.trans (h.set_eq_error.2 hq)) (by simp)
          | ok q' => exact ⟨h.set hp hq, rfl⟩

theorem alike_validateSpecs (specs : List Spec) (h : p.Alike q) :
    (validateSpecs specs p).1.Alike (validateSpecs specs q).1 ∧
      (validateSpecs specs p).2 = (validateSpecs specs q).2 := by
  induction specs generalizing p q with
  | nil => exact ⟨h, rfl⟩
  | cons spec specs ih =>
    obtain ⟨halike, hresult⟩ := spec.alike_validate h
    rw [validateSpecs, validateSpecs]
    revert halike hresult
    obtain ⟨p', result⟩ := spec.validate p
    obtain ⟨q', result'⟩ := spec.validate q
    rintro halike rfl
    cases result with
    | error e => exact ⟨halike, rfl⟩
    | ok u => exact ih halike

/-- Fields that are alike before validation are alike after it, and it comes to the same. -/
theorem Params.Alike.validate (h : p.Alike q) :
    (validate p).1.Alike (validate q).1 ∧ (validate p).2 = (validate q).2 := by
  have hschema : Holder.schema p = Holder.schema q := h.schema
  rw [Field.validate, Field.validate, hschema]
  exact alike_validateSpecs _ h

end Field

end Provisioning
