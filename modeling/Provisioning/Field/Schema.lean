import Provisioning.Field.Value
import Provisioning.Named

/-!
# Schemas, field holders and their validation

A schema declares fields: their kinds, defaults and constraints.  Validation walks the schema in
order, puts the default into every unset field that has one, and checks the constraints.

Text and bytes are measured by their length, whole numbers by their value.
-/

namespace Provisioning

namespace Field

/-- The declaration of one field. -/
structure Spec where
  /-- The name of the field. -/
  name : String
  /-- What it may hold. -/
  kind : Kind
  /-- Whether it must be set. -/
  required : Bool := false
  /-- What it holds if it is not set. -/
  default? : Option Value := none
  /-- The least measure. -/
  min? : Option Int64 := none
  /-- The greatest measure. -/
  max? : Option Int64 := none
  /-- The only length allowed. -/
  size? : Option Nat := none
deriving DecidableEq

/-- Declared fields, each under its name. -/
abbrev Schema := Named Spec

/-- The schema of a list of declarations; a later one replaces an earlier one of its name. -/
def Schema.ofSpecs (specs : List Spec) : Schema :=
  Named.ofList (specs.map fun s => (s.name, s))

/-- How a field breaks its declaration. -/
inductive Violation where
  | required (field : String)
  | belowMin (field : String) (min actual : Int)
  | aboveMax (field : String) (max actual : Int)
  | wrongSize (field : String) (size actual : Nat)
  | wrongKind (field expected actual : String)
  | unsupported (field : String) (kind : Kind) (constraint : String)
  | unknownField (field : String)
deriving DecidableEq

/-- What is said of a violation. -/
def Violation.message : Violation → String
  | required f => "field '" ++ f ++ "' is required"
  | belowMin f m a =>
    "field '" ++ f ++ "' must be at least " ++ toString m ++ " (got " ++ toString a ++ ")"
  | aboveMax f m a =>
    "field '" ++ f ++ "' must be at most " ++ toString m ++ " (got " ++ toString a ++ ")"
  | wrongSize f s a =>
    "field '" ++ f ++ "' must have size " ++ toString s ++ " (got " ++ toString a ++ ")"
  | wrongKind f e a => "field '" ++ f ++ "' expects " ++ e ++ ", got " ++ a
  | unsupported f k c =>
    "constraint '" ++ c ++ "' is not supported for " ++ k.word ++ " field '" ++ f ++ "'"
  | unknownField f => "unknown field '" ++ f ++ "'"

/-- Requires a value to have the kind of its field. -/
def Spec.checkKind (spec : Spec) (v : Value) : Except Violation Unit :=
  if v.kind = spec.kind then .ok ()
  else .error (.wrongKind spec.name spec.kind.word v.kind.word)

/-- The measure that bounds apply to; truth values have none. -/
def Value.measure : Value → Option Int
  | .string s => some s.toList.length
  | .bytes bs => some bs.length
  | .int n => some n.toInt
  | .bool _ => none

/-- Bounds on a truth value are not supported. -/
def Spec.checkUnbounded (spec : Spec) : Except Violation Unit :=
  if spec.min?.isSome then .error (.unsupported spec.name spec.kind "min")
  else if spec.max?.isSome then .error (.unsupported spec.name spec.kind "max")
  else if spec.size?.isSome then .error (.unsupported spec.name spec.kind "size")
  else .ok ()

/-- Requires a measure to be within the least, the greatest and the only one, in this order. -/
def Spec.checkMeasure (spec : Spec) (measure : Int) : Except Violation Unit := do
  if let some lo := spec.min? then
    if measure < lo.toInt then throw (.belowMin spec.name lo.toInt measure)
  if let some hi := spec.max? then
    if hi.toInt < measure then throw (.aboveMax spec.name hi.toInt measure)
  if let some size := spec.size? then
    if spec.kind = .int then throw (.unsupported spec.name spec.kind "size")
    if measure.toNat ≠ size then throw (.wrongSize spec.name size measure.toNat)

/-- Requires a value to satisfy the constraints of its field.  An unset field that is not required
is exempt from bounds. -/
def Spec.checkConstraints (spec : Spec) (v : Value) : Except Violation Unit :=
  if spec.required && v.isZero then
    if spec.kind = .bool then .error (.unsupported spec.name spec.kind "required")
    else .error (.required spec.name)
  else
    match v.measure with
    | none => spec.checkUnbounded
    | some m => if v.isZero && !spec.required then .ok () else spec.checkMeasure m

/-! ### Holders -/

/-- What holds fields under a schema. -/
class Holder (σ : Type) where
  /-- The declared fields. -/
  schema : σ → Schema
  /-- The value of a field; none if there is no such field. -/
  get? : σ → String → Option Value
  /-- Sets a field. -/
  set : σ → String → Value → Except Violation σ

/-- Validates one declared field, putting its default into it if it is unset.  The holder comes
back as it was left, also with a violation. -/
def Spec.validate {σ : Type} [Holder σ] (spec : Spec) (h : σ) : σ × Except Violation Unit :=
  let v := (Holder.get? h spec.name).getD (Value.zero spec.kind)
  match spec.checkKind v with
  | .error e => (h, .error e)
  | .ok () =>
    match (if v.isZero then spec.default? else none) with
    | none => (h, spec.checkConstraints v)
    | some d =>
      match spec.checkKind d with
      | .error e => (h, .error e)
      | .ok () =>
        match Holder.set h spec.name d with
        | .error e => (h, .error e)
        | .ok h' => (h', spec.checkConstraints d)

/-- Validates declared fields in order, up to the first violation. -/
def validateSpecs {σ : Type} [Holder σ] : List Spec → σ → σ × Except Violation Unit
  | [], h => (h, .ok ())
  | spec :: specs, h =>
    match spec.validate h with
    | (h', .ok ()) => validateSpecs specs h'
    | (h', .error e) => (h', .error e)

/-- Validates all declared fields of a holder. -/
def validate {σ : Type} [Holder σ] (h : σ) : σ × Except Violation Unit :=
  validateSpecs (Holder.schema h).values h

/-! ### Parameters -/

/-- A schema together with the values that were set. -/
structure Params where
  /-- The declared fields. -/
  schema : Schema
  /-- The values that were set. -/
  values : Named Value

namespace Params

/-- Fields of which none is set. -/
def new (schema : Schema) : Params := ⟨schema, Named.empty⟩

/-- Set fields whose declarations say no more than their kinds. -/
def inferred (values : Named Value) : Params :=
  ⟨values.map fun name v => { name, kind := v.kind }, values⟩

/-- The value of a declared field, zero if it is not set. -/
def get? (p : Params) (name : String) : Option Value :=
  (p.schema.get? name).map fun spec => (p.values.get? name).getD (Value.zero spec.kind)

/-- Sets a declared field to a value of its kind. -/
def set (p : Params) (name : String) (v : Value) : Except Violation Params :=
  match p.schema.get? name with
  | none => .error (.unknownField name)
  | some spec =>
    match spec.checkKind v with
    | .error e => .error e
    | .ok () => .ok { p with values := p.values.insert name v }

instance : Holder Params := ⟨schema, get?, set⟩

end Params

/-- A holder that takes any value under any name and knows only what was set. -/
structure Loose where
  /-- The declared fields. -/
  schema : Schema
  /-- The values that were set. -/
  values : Named Value

instance : Holder Loose where
  schema h := h.schema
  get? h name := h.values.get? name
  set h name v := .ok { h with values := h.values.insert name v }

end Field

end Provisioning
