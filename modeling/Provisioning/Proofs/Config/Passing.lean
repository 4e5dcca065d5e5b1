import Provisioning.Proofs.Config.Instances
import Provisioning.Proofs.Field.Acceptance
import Provisioning.Proofs.Text.Decimal
import Provisioning.Proofs.Text.Utf8

/-!
# Values passed down through kinds

A package can pass a field on to a package inside it by a placeholder of the field.  What is passed
is the text of the value, whatever the kind of the field is on either side, so a value goes through
text at every hop.

* `Field.fieldValue_render` : the text of a value is read as the value by its own kind, and as
  something with the same text by every other kind that takes it (`Field.Value.StandsFor`);
* `Field.Params.WellTyped.validate_set_ok` : a field that is declared with no more than a kind can
  be set to anything of the kind;
* `Hop.enter_eq_ok` : so a hop does not fail, and its package has a value that stands for the one
  that was passed;
* `Library.descend_eq_ok` : nor does a chain of hops, by induction on its length;
* `Config.HasSite.descend` : the packages of a chain are places of a configuration that has them one
  inside another;
* `Config.passing_keeps` : all of it together.
-/

namespace Provisioning

namespace Field

/-! ### Values and their texts -/

/-- Truth values, whole numbers, and texts that open no placeholder. -/
def Value.IsPlain : Value → Prop
  | string s => Template.isPending s.toList = false
  | int _ => True
  | bool _ => True
  | bytes _ => False

/-- A value can be passed on as one of its own kind, as a text, and if it is a text as bytes. -/
def Value.PassesAs (v : Value) (kind : Kind) : Prop :=
  kind = v.kind ∨ kind = .string ∨ v.kind = .string ∧ kind = .bytes

/-- A value that has the text of another one, and is that one if it has its kind. -/
structure Value.StandsFor (w v : Value) : Prop where
  /-- It has the same text. -/
  render : w.render = v.render
  /-- It is the same value if it is of the same kind. -/
  eq : w.kind = v.kind → w = v

variable {v w : Value} {kind : Kind}

theorem Value.standsFor_self (v : Value) : v.StandsFor v := ⟨rfl, fun _ => rfl⟩

/-- The text of a plain value opens no placeholder. -/
theorem Value.IsPlain.not_pending (h : v.IsPlain) : Template.isPending v.render.toList = false := by
  cases v with
  | string s => exact h
  | bytes bs => exact h.elim
  | bool b => cases b <;> decide
  | int n =>
    refine Template.isPending_of_not_mem fun hmem => ?_
    rcases Decimal.mem_toString hmem with h | h
    · exact absurd h (by decide)
    · exact absurd h (by decide)

/-- The text of a plain value is read as the value, or as something that stands for it. -/
theorem fieldValue_render (hv : v.IsPlain) (hkind : v.PassesAs kind) (field : String) :
    ∃ w, fieldValue field kind (.string v.render) = .ok w ∧ w.kind = kind ∧ w.StandsFor v := by
  rcases hkind with rfl | rfl | ⟨hstring, rfl⟩
  · refine ⟨v, ?_, rfl, v.standsFor_self⟩
    cases v with
    | string s => rfl
    | bytes bs => exact hv.elim
    | bool b => cases b <;> rfl
    | int n => simp only [fieldValue, Value.kind, Value.render, Decimal.int64?_trim_ofInt64]
  · refine ⟨.string v.render, rfl, rfl, rfl, fun hkind => ?_⟩
    cases v with
    | string s => rfl
    | _ => simp [Value.kind] at hkind
  · cases v with
    | string s =>
      refine ⟨.bytes (textBytes s), rfl, rfl, Utf8.decode_textBytes s, fun hkind => ?_⟩
      simp [Value.kind] at hkind
    | _ => simp [Value.kind] at hstring

/-! ### Fields declared by their kinds alone -/

/-- A declaration that says no more than the kind admits all of the kind. -/
theorem Spec.admits_of_kind {name : String} (h : v.kind = kind) :
    Spec.Admits { name, kind } v where
  kind := h
  required hrequired := absurd hrequired Bool.false_ne_true
  unbounded _ := ⟨rfl, rfl, rfl⟩
  bounds _ m _ := ⟨by simp, by simp, by simp⟩

variable {p p' : Params} {name : String}

/-- What validation accepts is also accepted once a field that is declared by its kind alone is
set. -/
theorem Params.WellTyped.validate_set_ok (h : p.WellTyped) (hok : (validate p).2 = .ok ())
    (hdeclared : p.schema.get? name = some { name, kind }) (hset : p.set name v = .ok p') :
    (validate p').2 = .ok () := by
  have hp' := h.set hset
  have hschema := (Params.set_eq_ok hset).2.1
  rw [h.validate_ok_iff] at hok
  rw [hp'.validate_ok_iff, hschema]
  intro spec hspec
  have hvalue := get?_set hset spec.name
  by_cases hname : spec.name = name
  · have hnamed := h.named spec hspec
    rw [hname, hdeclared] at hnamed
    obtain rfl := Option.some.inj hnamed
    refine Spec.admits_of_kind ?_
    -- unset or not, the effective value is of the kind
    rw [effective]
    split
    · simp
    · exact hp'.kind_value (hschema ▸ hspec)
  · rw [if_neg hname] at hvalue
    have heffective : p'.effective spec = p.effective spec := by
      rw [effective, effective, value, value, hvalue]
    rw [heffective]
    exact hok spec hspec

end Field

/-! ### One hop -/

/-- A package inside another one, to which a field is passed on. -/
structure Hop where
  /-- The name of the package, as its step gives it. -/
  package : String
  /-- The recipe that fills it. -/
  recipe : String
  /-- The kind of the field there. -/
  kind : Field.Kind

/-- The step that makes the package and passes the field on. -/
def Hop.step (field : String) (hop : Hop) : Step where
  package? := some hop.package
  recipe? := some hop.recipe
  bindings := .ofList [(field, .string (Template.placeholder field))]

/-- The recipe of a hop declares the field by a kind that takes the value, and nothing that it
declares besides needs to be set. -/
structure Hop.Takes (recipes : Named Recipe) (field : String) (v : Field.Value) (hop : Hop) :
    Prop where
  /-- The kind takes the value. -/
  kind : v.PassesAs hop.kind
  /-- The recipe declares the field without a default or a constraint, and is valid with no field
  set. -/
  declared : ∃ r description? schema, recipes.get? hop.recipe = some r ∧
    r.fields.get? field = some { kind := hop.kind, description? } ∧ r.schema = .ok schema ∧
    (Field.validate (Field.Params.new schema)).2 = .ok ()

/-- The fields of the package of a hop, validated, inside a package with other fields. -/
def Hop.enter (lib : Library) (field : String) (above : List String) (params : Field.Params)
    (hop : Hop) : Except CompileError Field.Params := do
  let (fields, _) ← instanceFields lib params.get? above hop.package hop.recipe
    (hop.step field).bindings.entries
  ((Compiler.forParams lib.rounds).validate fields).mapError (.validation hop.package)

theorem Recipe.wellTyped_new {r : Recipe} {schema : Field.Schema} (h : r.schema = .ok schema) :
    (Field.Params.new schema).WellTyped := by
  obtain ⟨specs, -, h⟩ := bind_eq_ok_iff.1 h
  obtain rfl := Except.ok.inj h
  exact (Field.Params.Reachable.new specs).wellTyped

theorem Compiler.forParams_validate_of_ok {p : Field.Params} (h : (Field.validate p).2 = .ok ())
    (rounds : Nat) : (forParams rounds).validate p = .ok (Field.validate p).1 := by
  simp only [forParams]
  split
  · next hp => rw [hp]
  · next hp => simp [hp] at h

/-- A field that is given one value is set to it, expanded and brought to its kind. -/
theorem bindFields_singleton {render : String → Except CompileError String} {package field : String}
    {params params' : Field.Params} {spec : Field.Spec} {v v' : Yaml.Value} {value : Field.Value}
    (hspec : params.schema.get? field = some spec) (hv : renderValue render v = .ok v')
    (hvalue : fieldValue field spec.kind v' = .ok value)
    (hset : params.set field value = .ok params') :
    bindFields render package params [(field, v)] = .ok params' := by
  simp only [bindFields, hspec, hv, bind, Except.bind, hvalue, hset]

/-- A declared recipe that is not expanded above can be instantiated with values that fit. -/
theorem instanceFields_of_bindFields {lib : Library} {reference : Template.Reference}
    {above : List String} {package recipe : String} {bindings : List (String × Yaml.Value)}
    {fields : Field.Params} {r : Recipe} {schema : Field.Schema}
    (hr : lib.recipes.get? recipe = some r) (habove : recipe ∉ above)
    (hschema : r.schema = .ok schema)
    (hbind : bindFields (Package.empty reference lib.rounds).render package
      (Field.Params.new schema) bindings = .ok fields) :
    instanceFields lib reference above package recipe bindings = .ok (fields, r) := by
  rw [instanceFields]
  simp only [hr, List.contains_eq_mem, habove, decide_false, Bool.false_eq_true, if_false, hschema,
    Except.mapError, bind, Except.bind, pure, Except.pure, hbind]

section

variable {lib : Library} {field : String} {v w : Field.Value} {above : List String}
  {params : Field.Params} {hop : Hop} {n : Nat}

/-- A placeholder of a field renders to the text for which its value stands. -/
theorem Field.Params.render_placeholder (hfield : Template.IsFieldName field) (hv : v.IsPlain)
    (hw : params.get? field = some w) (hstands : w.StandsFor v) :
    Template.render params.get? (n + 1) (Template.placeholder field) = .ok v.render := by
  rw [Template.render_placeholder hfield]
  refine ⟨w, hw, ?_⟩
  rw [hstands.render]
  exact Template.render_of_not_pending hv.not_pending

/-- A hop to a package that takes the value does not fail, and there the field has a value that
stands for it. -/
theorem Hop.enter_eq_ok (hrounds : lib.rounds = n + 1) (hfield : Template.IsFieldName field)
    (hv : v.IsPlain) (hw : params.get? field = some w) (hstands : w.StandsFor v)
    (htakes : hop.Takes lib.recipes field v) (habove : hop.recipe ∉ above) :
    ∃ child w', hop.enter lib field above params = .ok child ∧ child.get? field = some w' ∧
      w'.kind = hop.kind ∧ w'.StandsFor v := by
  obtain ⟨r, description?, schema, hr, hd, hschema, hvalid⟩ := htakes.declared
  obtain ⟨spec, hspec, hget, hunique⟩ := Recipe.schema_get? hschema hd
  obtain rfl : { name := field, kind := hop.kind } = spec := Except.ok.inj hspec
  obtain ⟨w', hvalue, hkind, hstands'⟩ := Field.fieldValue_render hv htakes.kind field
  have htext : renderValue (Package.empty params.get? lib.rounds).render
      (.string (Template.placeholder field)) = .ok (.string v.render) := by
    rw [renderValue, Package.render, Package.expand, Package.empty, hrounds,
      Field.Params.render_placeholder hfield hv hw hstands]
    rfl
  have hnew := Recipe.wellTyped_new hschema
  obtain ⟨fields, hset⟩ : ∃ fields, (Field.Params.new schema).set field w' = .ok fields := by
    have hmem : { name := field, kind := hop.kind } ∈ schema.values :=
      List.mem_map.2 ⟨_, Named.get?_eq_some_iff.1 hget, rfl⟩
    exact ⟨_, hnew.set_eq_ok hmem hkind⟩
  have hfields : instanceFields lib params.get? above hop.package hop.recipe
      (hop.step field).bindings.entries = .ok (fields, r) :=
    instanceFields_of_bindFields hr habove hschema (bindFields_singleton hget htext hvalue hset)
  have hok := hnew.validate_set_ok hvalid hget hset
  refine ⟨(Field.validate fields).1, w', ?_, ?_, hkind, hstands'⟩
  · rw [enter, hfields]
    simp only [bind, Except.bind, Compiler.forParams_validate_of_ok hok, Except.mapError]
  · -- the declaration has no default that validation could put in
    have hdefault : ∀ spec ∈ fields.schema.values, spec.name = field → spec.default? = none := by
      intro spec hmem hname
      rw [(Field.Params.set_eq_ok hset).2.1] at hmem
      rw [hunique spec hmem hname]
    rw [Field.Params.get?_validate fields hdefault, Field.Params.get?_set hset, if_pos rfl]

end

/-! ### Chains of hops -/

/-- The fields of packages one inside another, from the outermost on, to each of which a field is
passed on from the package around it. -/
def Library.descend (lib : Library) (field : String) :
    List String → Field.Params → List Hop → Except CompileError (List Field.Params)
  | _, _, [] => .ok []
  | above, params, hop :: hops => do
    let child ← hop.enter lib field above params
    let levels ← lib.descend field (above ++ [hop.recipe]) child hops
    return child :: levels

/-- Each package of a chain is made by a step of the package around it. -/
def Config.Nests (c : Config) (field : String) : List Step → List Hop → Prop
  | _, [] => True
  | steps, hop :: hops => hop.step field ∈ steps ∧
    ∀ r, c.recipes.get? hop.recipe = some r → c.Nests field r.steps hops

section

variable {lib : Library} {field : String} {v w : Field.Value} {above : List String}
  {params : Field.Params} {hops : List Hop} {levels : List Field.Params} {n : Nat}

/-- A chain of packages that take the value does not fail, and in all of them the field has a value
that stands for it. -/
theorem Library.descend_eq_ok (hrounds : lib.rounds = n + 1) (hfield : Template.IsFieldName field)
    (hv : v.IsPlain) (hw : params.get? field = some w) (hstands : w.StandsFor v)
    (htakes : ∀ hop ∈ hops, hop.Takes lib.recipes field v)
    (habove : ∀ hop ∈ hops, hop.recipe ∉ above) (hnodup : (hops.map Hop.recipe).Nodup) :
    ∃ levels, lib.descend field above params hops = .ok levels ∧
      List.Forall₂ (fun hop level => ∃ w, level.get? field = some w ∧ w.kind = hop.kind ∧
        w.StandsFor v) hops levels := by
  induction hops generalizing above params w with
  | nil => exact ⟨[], rfl, .nil⟩
  | cons hop hops ih =>
    obtain ⟨hhop, hhops⟩ := List.forall_mem_cons.1 htakes
    obtain ⟨hrecipe, hrecipes⟩ := List.forall_mem_cons.1 habove
    rw [List.map_cons, List.nodup_cons] at hnodup
    obtain ⟨child, w', hchild, hw', hkind, hstands'⟩ :=
      Hop.enter_eq_ok hrounds hfield hv hw hstands hhop hrecipe
    -- the recipe of this package is one more that must not come again
    have hrest : ∀ hop' ∈ hops, hop'.recipe ∉ above ++ [hop.recipe] := by
      intro hop' hmem habove'
      rcases List.mem_append.1 habove' with hin | hsame
      · exact hrecipes hop' hmem hin
      · rw [List.mem_singleton] at hsame
        exact hnodup.1 (hsame ▸ List.mem_map_of_mem hmem)
    obtain ⟨levels, hlevels, hall⟩ := ih hw' hstands' hhops hrest hnodup.2
    refine ⟨child :: levels, ?_, .cons ⟨w', hw', hkind, hstands'⟩ hall⟩
    simp only [descend, hchild, hlevels, bind, Except.bind, pure, Except.pure]

/-- What is entered from a place is a place. -/
theorem Config.HasSite.enter {c : Config} {rounds : Nat} {site : Site} {hop : Hop}
    {child : Field.Params} (h : c.HasSite rounds site) (hstep : hop.step field ∈ site.steps)
    (hname : Template.isPending hop.package.toList = false)
    (hchild : hop.enter ⟨c.recipes, rounds⟩ field site.above site.fields = .ok child) :
    ∃ r, c.recipes.get? hop.recipe = some r ∧
      c.HasSite rounds
        ⟨site.above ++ [hop.recipe], site.packages ++ [hop.package], child, r.steps⟩ := by
  obtain ⟨⟨fields, r⟩, hfields, hvalid⟩ := bind_eq_ok_iff.1 hchild
  have hvalidate : (Compiler.forParams rounds).validate fields = .ok child := by
    simp only at hvalid
    cases hr : (Compiler.forParams rounds).validate fields with
    | error e => simp [hr, Except.mapError] at hvalid
    | ok child' =>
      rw [hr] at hvalid
      exact congrArg Except.ok (Except.ok.inj hvalid)
  have hrender : (Package.empty site.fields.get? rounds).render hop.package = .ok hop.package := by
    rw [Package.render, Package.expand, Template.render_of_not_pending hname]
    rfl
  exact ⟨r, (instanceFields_eq_ok hfields).1,
    h.inside ⟨_, hstep, hop.package, _, rfl, hrender, hfields⟩ hvalidate⟩

/-- The packages of a chain are places of a configuration that has them one inside another. -/
theorem Config.HasSite.descend {c : Config} {rounds : Nat} {site : Site}
    (h : c.HasSite rounds site) (hnests : c.Nests field site.steps hops)
    (hnames : ∀ hop ∈ hops, Template.isPending hop.package.toList = false)
    (hlevels : Library.descend ⟨c.recipes, rounds⟩ field site.above site.fields hops =
      .ok levels) : ∀ level ∈ levels, ∃ place, c.HasSite rounds place ∧ place.fields = level := by
  induction hops generalizing site levels with
  | nil =>
    obtain rfl := Except.ok.inj hlevels
    simp
  | cons hop hops ih =>
    obtain ⟨hstep, hrest⟩ := hnests
    obtain ⟨hname, hnames⟩ := List.forall_mem_cons.1 hnames
    obtain ⟨child, hchild, hlevels⟩ := bind_eq_ok_iff.1 hlevels
    obtain ⟨rest, hdescend, hlevels⟩ := bind_eq_ok_iff.1 hlevels
    obtain rfl := Except.ok.inj hlevels
    obtain ⟨r, hr, hplace⟩ := h.enter hstep hname hchild
    exact List.forall_mem_cons.2 ⟨⟨_, hplace, rfl⟩, ih hplace (hrest r hr) hnames hdescend⟩

/-- A truth value, a whole number or a text that opens no placeholder is passed on through packages
one inside another, as many as there may be, by placeholders of a field.  Each declares the field
without a default or a constraint, as one of the value's kind, as text, or as bytes if the value is
a text.  With at least one round no package is refused.  In each of them a placeholder of the field
renders to the text to which it renders at the start, and where the field is of the value's kind it
holds the value.  If a configuration has these packages one inside another, they are places of
it. -/
theorem Config.passing_keeps {c : Config} {rounds : Nat} {site : Site} (hrounds : 1 ≤ rounds)
    (hfield : Template.IsFieldName field) (hv : v.IsPlain)
    (hstart : site.fields.get? field = some v)
    (htakes : ∀ hop ∈ hops, hop.Takes c.recipes field v)
    (habove : ∀ hop ∈ hops, hop.recipe ∉ site.above) (hnodup : (hops.map Hop.recipe).Nodup) :
    Template.render site.fields.get? rounds (Template.placeholder field) = .ok v.render ∧
    ∃ levels, Library.descend ⟨c.recipes, rounds⟩ field site.above site.fields hops = .ok levels ∧
      List.Forall₂ (fun hop level =>
        Template.render level.get? rounds (Template.placeholder field) = .ok v.render ∧
          (hop.kind = v.kind → level.get? field = some v)) hops levels ∧
      (c.HasSite rounds site → c.Nests field site.steps hops →
        (∀ hop ∈ hops, Template.isPending hop.package.toList = false) →
        ∀ level ∈ levels, ∃ place, c.HasSite rounds place ∧ place.fields = level) := by
  obtain ⟨n, rfl⟩ := Nat.exists_eq_add_of_le' hrounds
  have hself := v.standsFor_self
  obtain ⟨levels, hlevels, hall⟩ : ∃ levels,
      Library.descend ⟨c.recipes, n + 1⟩ field site.above site.fields hops = .ok levels ∧ _ :=
    Library.descend_eq_ok rfl hfield hv hstart hself htakes habove hnodup
  refine ⟨Field.Params.render_placeholder hfield hv hstart hself, levels, hlevels,
    hall.imp fun hop level hlevel => ?_, fun h hnests hnames => h.descend hnests hnames hlevels⟩
  obtain ⟨w, hw, hkind, hstands⟩ := hlevel
  refine ⟨Field.Params.render_placeholder hfield hv hw hstands, fun hown => ?_⟩
  rw [hw, hstands.eq (hkind.trans hown)]

end

/-- Two packages that pass a number on, one as a text and one as a number. -/
def Hop.relay : List Hop := [⟨"outside", "outer", .string⟩, ⟨"inside", "inner", .int⟩]

/-- A configuration that passes the least whole number on through them. -/
def Config.relay : Config where
  version := "1.0"
  name := "relay"
  params := .ofList [("n", .number (.int (-9223372036854775808)))]
  recipes := .ofList [
    ("outer", {
      fields := .ofList [("n", { kind := .string })]
      steps := [Hop.step "n" ⟨"inside", "inner", .int⟩] }),
    ("inner", { fields := .ofList [("n", { kind := .int })] })]
  provision := [Hop.step "n" ⟨"outside", "outer", .string⟩]

/-- Where the configuration starts. -/
def Site.relay : Site where
  above := []
  packages := []
  fields := .inferred (.ofList [("n", .int Int64.minValue)])
  steps := Config.relay.provision

theorem Config.relay_keeps_least : relay.HasSite 1 .relay ∧
    ∃ outer inner : Field.Params,
      Library.descend ⟨relay.recipes, 1⟩ "n" [] Site.relay.fields Hop.relay = .ok [outer, inner] ∧
      Template.render outer.get? 1 (Template.placeholder "n") = .ok "-9223372036854775808" ∧
      inner.get? "n" = some (.int Int64.minValue) ∧
      ∃ place, relay.HasSite 1 place ∧ place.fields = inner := by
  have hsite : relay.HasSite 1 .relay := .root rfl rfl
  have hstart : Site.relay.fields.get? "n" = some (.int Int64.minValue) := by rfl
  have hplain : Field.Value.IsPlain (.int Int64.minValue) := trivial
  have htakes : ∀ hop ∈ Hop.relay, hop.Takes relay.recipes "n" (.int Int64.minValue) := by
    refine List.forall_mem_cons.2 ⟨?_, List.forall_mem_singleton.2 ?_⟩
    · exact ⟨.inr (.inl rfl), _, _, _, rfl, rfl, rfl, rfl⟩
    · exact ⟨.inl rfl, _, _, _, rfl, rfl, rfl, rfl⟩
  have habove : ∀ hop ∈ Hop.relay, hop.recipe ∉ Site.relay.above := by simp [Site.relay]
  have hnests : relay.Nests "n" Site.relay.steps Hop.relay := by
    refine ⟨List.mem_singleton_self _, fun r hr => ?_⟩
    obtain rfl := Option.some.inj hr
    exact ⟨List.mem_singleton_self _, fun _ _ => trivial⟩
  obtain ⟨-, levels, hlevels, hall, hplaces⟩ :=
    passing_keeps (le_refl 1) (by decide) hplain hstart htakes habove (by decide)
  have hplaces := hplaces hsite hnests (by decide)
  cases hall with
  | cons houter hrest =>
    cases hrest with
    | cons hinner hnil =>
      cases hnil
      obtain ⟨-, hinner⟩ := hinner
      exact ⟨hsite, _, _, hlevels, houter.1, hinner rfl, hplaces _ (by simp)⟩

end Provisioning
