import Provisioning.Proofs.Config.Expansion
import Provisioning.Proofs.Field.Validation
import Provisioning.Proofs.Template.Splice

/-!
# Values passed down

A step gives values to the fields of a recipe; texts among them are expanded against the package of
the step.  In the package of the recipe such a text is the value of a field, and so a template
again.

* `schema_get?` : a recipe declares its fields as they are written;
* `bindFields_get?` : a field has the value that is given for it;
* `instance_get?` : so it has in the package of the recipe, if it has no default;
* `passed_down` : there a placeholder of the field stands for what the text passed down stands for,
  expanded once more; this is the text itself if it opens no placeholder.
-/

namespace Provisioning

/-! ### Declarations -/

theorem FieldDecl.spec_eq_ok {name : String} {d : FieldDecl} {spec : Field.Spec}
    (h : d.spec name = .ok spec) :
    spec.name = name ∧ spec.kind = d.kind ∧ (d.default? = none → spec.default? = none) := by
  rw [FieldDecl.spec] at h
  cases hd : d.default? with
  | none =>
    simp only [hd, bind, Except.bind, pure, Except.pure, Except.ok.injEq] at h
    subst h
    exact ⟨rfl, rfl, fun _ => rfl⟩
  | some v =>
    cases hv : fieldValue name d.kind v with
    | error e => simp [hd, hv, bind, Except.bind, Functor.map, Except.map] at h
    | ok value =>
      simp only [hd, hv, bind, Except.bind, pure, Except.pure, Functor.map, Except.map,
        Except.ok.injEq] at h
      subst h
      exact ⟨rfl, rfl, by simp⟩

theorem specs_of_mapM {entries : List (String × FieldDecl)} {specs : List Field.Spec}
    (h : entries.mapM (fun (name, d) => d.spec name) = .ok specs) :
    specs.map Field.Spec.name = entries.map Prod.fst ∧
      ∀ e ∈ entries, ∃ spec ∈ specs, e.2.spec e.1 = .ok spec := by
  induction entries generalizing specs with
  | nil =>
    obtain rfl := Except.ok.inj h
    simp
  | cons e entries ih =>
    obtain ⟨name, d⟩ := e
    rw [List.mapM_cons] at h
    obtain ⟨spec, hd, h⟩ := bind_eq_ok_iff.1 h
    obtain ⟨rest, hrest, h⟩ := bind_eq_ok_iff.1 h
    obtain rfl := Except.ok.inj h
    obtain ⟨hnames, hspecs⟩ := ih hrest
    refine ⟨by simp [hnames, (FieldDecl.spec_eq_ok hd).1], ?_⟩
    refine List.forall_mem_cons.2 ⟨⟨spec, List.mem_cons_self, hd⟩, fun e he => ?_⟩
    obtain ⟨spec', hmem, hspec'⟩ := hspecs e he
    exact ⟨spec', List.mem_cons_of_mem _ hmem, hspec'⟩

/-- A recipe declares each field as it is written, and no field twice. -/
theorem Recipe.schema_get? {r : Recipe} {schema : Field.Schema} {name : String} {d : FieldDecl}
    (h : r.schema = .ok schema) (hd : r.fields.get? name = some d) :
    ∃ spec, d.spec name = .ok spec ∧ schema.get? name = some spec ∧
      ∀ spec' ∈ schema.values, spec'.name = name → spec' = spec := by
  rw [Recipe.schema] at h
  obtain ⟨specs, hspecs, h⟩ := bind_eq_ok_iff.1 h
  obtain rfl := Except.ok.inj h
  obtain ⟨hnames, hdeclared⟩ := specs_of_mapM hspecs
  have hentries : (Field.Schema.ofSpecs specs).entries = specs.map fun s => (s.name, s) := by
    rw [Field.Schema.ofSpecs, Named.entries_ofList]
    simpa [List.map_map, Function.comp_def, hnames] using r.fields.nodup
  obtain ⟨spec, hmem, hspec⟩ := hdeclared _ (Named.get?_eq_some_iff.1 hd)
  have hname : spec.name = name := (FieldDecl.spec_eq_ok hspec).1
  have hget : (Field.Schema.ofSpecs specs).get? name = some spec := by
    rw [Named.get?_eq_some_iff, hentries]
    exact List.mem_map.2 ⟨spec, hmem, by rw [hname]⟩
  refine ⟨spec, hspec, hget, fun spec' hspec' hname' => ?_⟩
  have hget' : (Field.Schema.ofSpecs specs).get? name = some spec' := by
    rw [Named.values, hentries, List.map_map] at hspec'
    obtain ⟨s, hs, rfl⟩ := List.mem_map.1 hspec'
    rw [Named.get?_eq_some_iff, hentries]
    exact List.mem_map.2 ⟨s, hs, by rw [← hname']; rfl⟩
  exact Option.some.inj (hget'.symm.trans hget)

/-! ### Bindings -/

section

variable {render : String → Except CompileError String} {package : String}

theorem bindFields_cons {params params' : Field.Params} {field : String} {v : Yaml.Value}
    {rest : List (String × Yaml.Value)}
    (h : bindFields render package params ((field, v) :: rest) = .ok params') :
    ∃ spec v' value next, params.schema.get? field = some spec ∧ renderValue render v = .ok v' ∧
      fieldValue field spec.kind v' = .ok value ∧ params.set field value = .ok next ∧
      bindFields render package next rest = .ok params' := by
  rw [bindFields] at h
  cases hspec : params.schema.get? field with
  | none => simp [hspec] at h
  | some spec =>
    rw [hspec] at h
    obtain ⟨v', hv, h⟩ := bind_eq_ok_iff.1 h
    split at h
    · simp at h
    · next next hnext =>
      obtain ⟨value, hvalue, hset⟩ := bind_eq_ok_iff.1 hnext
      exact ⟨spec, v', value, next, rfl, hv, hvalue, hset, h⟩

theorem bindFields_schema {params params' : Field.Params} {bindings : List (String × Yaml.Value)}
    (h : bindFields render package params bindings = .ok params') :
    params'.schema = params.schema := by
  induction bindings generalizing params with
  | nil =>
    obtain rfl := Except.ok.inj h
    rfl
  | cons binding bindings ih =>
    obtain ⟨field, v⟩ := binding
    obtain ⟨_, _, _, next, -, -, -, hset, hrest⟩ := bindFields_cons h
    rw [ih hrest, (Field.Params.set_eq_ok hset).2.1]

theorem bindFields_of_not_mem {params params' : Field.Params}
    {bindings : List (String × Yaml.Value)} {field : String}
    (h : bindFields render package params bindings = .ok params')
    (hfield : field ∉ bindings.map Prod.fst) : params'.get? field = params.get? field := by
  induction bindings generalizing params with
  | nil =>
    obtain rfl := Except.ok.inj h
    rfl
  | cons binding bindings ih =>
    obtain ⟨other, v⟩ := binding
    obtain ⟨_, _, _, next, -, -, -, hset, hrest⟩ := bindFields_cons h
    rw [List.map_cons, List.mem_cons, not_or] at hfield
    rw [ih hrest hfield.2, Field.Params.get?_set hset, if_neg hfield.1]

/-- A field has the value that is given for it, expanded and brought to its kind. -/
theorem bindFields_get? {params params' : Field.Params} {bindings : List (String × Yaml.Value)}
    {field : String} {v : Yaml.Value} {spec : Field.Spec}
    (h : bindFields render package params bindings = .ok params')
    (hnodup : (bindings.map Prod.fst).Nodup) (hv : (field, v) ∈ bindings)
    (hspec : params.schema.get? field = some spec) :
    ∃ v' value, renderValue render v = .ok v' ∧ fieldValue field spec.kind v' = .ok value ∧
      params'.get? field = some value := by
  induction bindings generalizing params with
  | nil => simp at hv
  | cons binding bindings ih =>
    obtain ⟨first, w⟩ := binding
    rw [List.map_cons, List.nodup_cons] at hnodup
    obtain ⟨spec', w', value, next, hspec', hw, hvalue, hset, hrest⟩ := bindFields_cons h
    rcases List.mem_cons.1 hv with he | hv
    · obtain ⟨rfl, rfl⟩ := Prod.mk.inj he
      obtain rfl := Option.some.inj (hspec'.symm.trans hspec)
      refine ⟨w', value, hw, hvalue, ?_⟩
      rw [bindFields_of_not_mem hrest hnodup.1, Field.Params.get?_set hset, if_pos rfl]
    · refine ih hrest hnodup.2 hv ?_
      rw [(Field.Params.set_eq_ok hset).2.1]
      exact hspec

end

/-! ### Instances -/

theorem Compiler.forParams_validate {rounds : Nat} {params params' : Field.Params}
    (h : (Compiler.forParams rounds).validate params = .ok params') :
    (Field.validate params).1 = params' := by
  simp only [forParams] at h
  split at h
  · next hp =>
    rw [hp]
    exact Except.ok.inj h
  · simp at h

/-- In the package of a recipe a text field without a default has the text that is passed down to
it, expanded against the package of the step. -/
theorem instance_get? {lib : Library} {reference : Template.Reference} {above : List String}
    {package recipe field template s : String} {bindings : Named Yaml.Value}
    {fields child : Field.Params} {r : Recipe} {d : FieldDecl} {rounds : Nat}
    (hfields : instanceFields lib reference above package recipe bindings.entries =
      .ok (fields, r))
    (hchild : (Compiler.forParams rounds).validate fields = .ok child)
    (hd : r.fields.get? field = some d) (hkind : d.kind = .string) (hdefault : d.default? = none)
    (hbound : bindings.get? field = some (.string template))
    (hs : Template.render reference lib.rounds template = .ok s) :
    child.get? field = some (.string s) := by
  obtain ⟨-, -, schema, hschema, hbind⟩ := instanceFields_inv hfields
  obtain ⟨spec, hspec, hget, hunique⟩ := Recipe.schema_get? hschema hd
  obtain ⟨-, hspeckind, hspecdefault⟩ := FieldDecl.spec_eq_ok hspec
  obtain ⟨v, value, hv, hvalue, hfield⟩ := bindFields_get? hbind bindings.nodup
    (Named.get?_eq_some_iff.1 hbound) hget
  have hrender : renderValue (Package.empty reference lib.rounds).render (.string template) =
      .ok (.string s) := by
    simp only [renderValue, Package.render, Package.expand, Package.empty, hs]
    rfl
  obtain rfl := Except.ok.inj (hrender.symm.trans hv)
  rw [hspeckind, hkind] at hvalue
  obtain rfl : Field.Value.string s = value := Except.ok.inj hvalue
  rw [← Compiler.forParams_validate hchild, Field.Params.get?_validate, hfield]
  intro spec' hmem hname
  rw [bindFields_schema hbind] at hmem
  rw [hunique spec' hmem hname]
  exact hspecdefault hdefault

/-! ### In the package of the recipe -/

/-- What a template stands for in a package, wherever it is used. -/
structure Package.Yields (p : Package) (template text : String) : Prop where
  /-- As a name. -/
  name : p.render template = .ok text
  /-- As an input of a command. -/
  input : Command.renderInput p.expand template = (text, .ok ())
  /-- As a value that is passed down. -/
  value : renderValue p.render (.string template) = .ok (.string text)

theorem Package.yields_iff {p : Package} {template text : String} :
    p.Yields template text ↔ Template.render p.reference p.rounds template = .ok text := by
  constructor
  · intro h
    have hname := h.name
    rw [Package.render, expand] at hname
    cases hr : Template.render p.reference p.rounds template with
    | error e => simp [hr, Except.mapError] at hname
    | ok s =>
      simp only [hr, Except.mapError, Except.ok.injEq] at hname
      rw [hname]
  · intro h
    have hrender : p.render template = .ok text := by
      rw [Package.render, expand, h]
      rfl
    exact ⟨hrender, by rw [Command.renderInput, expand, h], by rw [renderValue, hrender]; rfl⟩

/-- In the package of a recipe a placeholder of a text field without a default stands for what the
text passed down to it stands for there, in one round less.  That is the text itself if no
placeholder opens in it. -/
theorem passed_down {lib : Library} {reference : Template.Reference} {above : List String}
    {package recipe field template s : String} {bindings : Named Yaml.Value}
    {fields child : Field.Params} {r : Recipe} {d : FieldDecl} {n : Nat} {p : Package}
    (hfields : instanceFields lib reference above package recipe bindings.entries =
      .ok (fields, r))
    (hchild : (Compiler.forParams lib.rounds).validate fields = .ok child)
    (hd : r.fields.get? field = some d) (hkind : d.kind = .string) (hdefault : d.default? = none)
    (hbound : bindings.get? field = some (.string template))
    (hs : Template.render reference lib.rounds template = .ok s) (hrounds : lib.rounds = n + 1)
    (hfield : Template.IsFieldName field) (hreference : p.reference = child.get?)
    (hp : p.rounds = lib.rounds) :
    (∀ before after text, Template.Closed before.toList →
      (p.Yields (before ++ Template.placeholder field ++ after) text ↔
        ∃ x z y, p.Yields before x ∧ Template.render p.reference n s = .ok z ∧ p.Yields after y ∧
          text = x ++ z ++ y)) ∧
    (Template.isPending s.toList = false →
      ∀ z, Template.render p.reference n s = .ok z ↔ z = s) := by
  have hget := instance_get? hfields hchild hd hkind hdefault hbound hs
  refine ⟨fun before after text hbefore => ?_, fun hpending z => ?_⟩
  · simp only [Package.yields_iff, hp, hrounds, hreference]
    rw [Template.render_splice hbefore hfield]
    constructor
    · rintro ⟨x, v, z, y, hx, hv, hz, hy, rfl⟩
      obtain rfl := Option.some.inj (hget.symm.trans hv)
      exact ⟨x, z, y, hx, hz, hy, rfl⟩
    · rintro ⟨x, z, y, hx, hz, hy, rfl⟩
      exact ⟨x, _, z, y, hx, hget, hz, hy, rfl⟩
  · rw [Template.render_of_not_pending hpending, Except.ok.injEq, eq_comm]

/-- A library whose one recipe says a text. -/
def Library.speaker : Library where
  recipes := .ofList [("say", {
    fields := .ofList [("text", { kind := .string })]
    steps := [{
      task? := some "hello"
      commands? := some [.shell "echo \x7b\x7b .text \x7d\x7d"] }] })]
  rounds := 8

/-- Where someone is called by a field. -/
def Template.Reference.world : Template.Reference :=
  fun name => if name = "who" then some (.string "world") else none

theorem passed_down_greeting :
    ∃ fields r child,
      instanceFields .speaker .world [] "p" "say"
        (Named.ofList [("text", .string "\x7b\x7b .who \x7d\x7d!")]).entries = .ok (fields, r) ∧
      (Compiler.forParams 8).validate fields = .ok child ∧
      ∀ p : Package, p.reference = child.get? → p.rounds = 8 →
        p.Yields "echo \x7b\x7b .text \x7d\x7d now" "echo world! now" := by
  have hok : (match instanceFields .speaker .world [] "p" "say"
      (Named.ofList [("text", .string "\x7b\x7b .who \x7d\x7d!")]).entries with
    | .ok (fields, _) => ((Compiler.forParams 8).validate fields).isOk
    | .error _ => false) = true := by decide +kernel
  split at hok
  · next fields r hfields =>
    cases hchild : (Compiler.forParams 8).validate fields with
    | error e => simp [hchild, Except.isOk, Except.toBool] at hok
    | ok child =>
      refine ⟨fields, r, child, hfields, hchild, fun p hreference hrounds => ?_⟩
      have hd : r.fields.get? "text" = some { kind := .string } := by
        have hr : Library.speaker.recipes.get? "say" = some r := (instanceFields_eq_ok hfields).1
        obtain rfl := Option.some.inj hr
        rfl
      have hbound : (Named.ofList [("text", Yaml.Value.string "\x7b\x7b .who \x7d\x7d!")]).get?
          "text" = some (.string "\x7b\x7b .who \x7d\x7d!") := by rfl
      have hs : Template.render .world Library.speaker.rounds "\x7b\x7b .who \x7d\x7d!" =
          .ok "world!" := by decide +kernel
      obtain ⟨hsplice, hplain⟩ := passed_down (p := p) (n := 7)
        hfields hchild hd rfl rfl hbound hs rfl (by decide) hreference hrounds
      have htemplate : "echo \x7b\x7b .text \x7d\x7d now" =
          "echo " ++ Template.placeholder "text" ++ " now" := by decide +kernel
      rw [htemplate, hsplice _ _ _ (.plain (by decide +kernel))]
      refine ⟨"echo ", "world!", " now", ?_, (hplain (by decide +kernel) _).2 rfl, ?_, rfl⟩
      · exact Package.yields_iff.2 (Template.render_of_not_pending (by decide +kernel))
      · exact Package.yields_iff.2 (Template.render_of_not_pending (by decide +kernel))
  · simp at hok

/-- A configuration that passes a text with braces down, written as a text in quotes. -/
def Config.outspoken : Config where
  version := "1.0"
  name := "outspoken"
  recipes := Library.speaker.recipes
  provision := [{
    package? := some "p"
    recipe? := some "say"
    bindings := .ofList [("text", .string "\x7b\x7b\"\x7b\x7b\"\x7d\x7d .name \x7d\x7d")] }]

/-- The text passed down is expanded again, although the braces in it were in quotes. -/
theorem Config.outspoken_expanded_again :
    Template.render (fun _ => none) 8 "\x7b\x7b\"\x7b\x7b\"\x7d\x7d .name \x7d\x7d" =
      .ok "\x7b\x7b .name \x7d\x7d" ∧
    outspoken.compileWith 8 = .error (.render "hello[0]" (.unknownField "name")) := by
  constructor
  · decide +kernel
  · decide +kernel

end Provisioning
